import OpenSsmAgent.Coordinator.Service
import OpenSsmAgent.Lib.Logs

/-!
# Complete mediation

Whatever the operator service hands to the bridge for a host was decided by the
policy engine and recorded before, by the same call: in the acts of a call, a
dispatch or a shell open follows right after the record that allows it, which
follows right after the decision.  So no two commands share a record, however
calls interleave.

Main results:

- Theorem {lit}`CallInv.step`: one step of a call keeps its acts mediated.
- Theorem {lit}`complete_mediation`: the acts of every call of every run are
  mediated, and a selector is resolved to distinct hosts within the cap.
-/

open Framing Journal

namespace OpenSsmAgent
namespace Coordinator

open Domain Proto Audit

/-! ## Mediated acts -/

/-- The acts of one call, in order. -/
def callLog (id : Nat) (log : List (Nat × CallAct)) : List CallAct :=
  log.filterMap (fun a => if a.1 = id then some a.2 else none)

/-- The commands that act on a host. -/
def actsOnHost : BridgeCommand → Bool
  | .dispatch _ _ _ => true
  | .openShell _ _ _ _ _ _ => true
  | _ => false

/-- The action is the one a command carries out: the same kind and run-as, on the
host its target names. -/
def Covers (action : ActionDescriptor) : BridgeCommand → Prop
  | .dispatch host dispatch _ =>
      action.kind = dispatch.kind ∧ action.runAs = dispatch.runAs ∧
        HostId.parse action.target.text = some host
  | .openShell host _ runAs _ _ _ =>
      action.kind = Str.lit "shell" ∧ action.runAs = runAs ∧
        HostId.parse action.target.text = some host
  | _ => False

/-- The acts of a call of a subject end with an audited permission for an action. -/
def Permitted (acts : List CallAct) (action : ActionDescriptor) : Prop :=
  ∃ subject before tsUnix, acts = .called subject :: before ++
    [.authorize subject action .ok, .append (auditRecord tsUnix subject action .allow) true]

/-- Every command on a host follows right after its own audited permission. -/
def Licensed (acts : List CallAct) : Prop :=
  Justified (fun front act => ∀ cmd, act = .emit cmd → actsOnHost cmd = true →
    ∃ action, Permitted front action ∧ Covers action cmd) acts

/-- The targets of the decisions asked for. -/
def authorizedTargets (acts : List CallAct) : List Str :=
  acts.filterMap (fun
    | .authorize _ action _ => some action.target
    | _ => none)

/-- The targets of the records written or attempted. -/
def recordedTargets (acts : List CallAct) : List Str :=
  acts.filterMap (fun
    | .append record _ => some record.target
    | _ => none)

/-- The hosts that were dispatched to. -/
def dispatchedHosts (acts : List CallAct) : List HostId :=
  acts.filterMap (fun
    | .emit (.dispatch host _ _) => some host
    | _ => none)

/-- The hosts of a fan-out. -/
def resolvedHosts (acts : List CallAct) : List (List HostId) :=
  acts.filterMap (fun
    | .resolved hosts => some hosts
    | _ => none)

/-- No fan-out. -/
def NoFan (acts : List CallAct) : Prop :=
  resolvedHosts acts = [] ∧ dispatchedHosts acts = []

/-- A fan-out over distinct hosts within the cap; each is decided on, recorded and
dispatched to at most once. -/
def FannedOnce (acts : List CallAct) : Prop :=
  ∃ hosts, resolvedHosts acts = [hosts] ∧ hosts.Nodup ∧ hosts.length ≤ maxFanout ∧
    List.Sublist (authorizedTargets acts) (hosts.map HostId.toStr) ∧
    List.Sublist (recordedTargets acts) (hosts.map HostId.toStr) ∧
    List.Sublist (dispatchedHosts acts) hosts

/-- The acts of one call are mediated. -/
structure Mediated (acts : List CallAct) : Prop where
  licensed : Licensed acts
  fan : NoFan acts ∨ FannedOnce acts

section Lists

variable {acts new : List CallAct}

theorem callLog_append (id : Nat) (log log' : List (Nat × CallAct)) :
    callLog id (log ++ log') = callLog id log ++ callLog id log' :=
  List.filterMap_append

theorem callLog_map_self (id : Nat) (acts : List CallAct) :
    callLog id (acts.map (Prod.mk id)) = acts := by
  simp [callLog, List.filterMap_map]

theorem callLog_map_ne {id other : Nat} (hne : other ≠ id) (acts : List CallAct) :
    callLog id (acts.map (Prod.mk other)) = [] := by
  simp [callLog, List.filterMap_map, hne]

theorem authorizedTargets_append :
    authorizedTargets (acts ++ new) = authorizedTargets acts ++ authorizedTargets new :=
  List.filterMap_append

theorem recordedTargets_append :
    recordedTargets (acts ++ new) = recordedTargets acts ++ recordedTargets new :=
  List.filterMap_append

theorem dispatchedHosts_append :
    dispatchedHosts (acts ++ new) = dispatchedHosts acts ++ dispatchedHosts new :=
  List.filterMap_append

theorem resolvedHosts_append :
    resolvedHosts (acts ++ new) = resolvedHosts acts ++ resolvedHosts new :=
  List.filterMap_append

/-- Acts that are no commands on a host. -/
theorem Licensed.append_quiet (h : Licensed acts)
    (hquiet : ∀ cmd, .emit cmd ∈ new → actsOnHost cmd = false) : Licensed (acts ++ new) := by
  refine Justified.append_free h ?_
  rintro act hact front cmd rfl hcmd
  rw [hquiet cmd hact] at hcmd
  cases hcmd

end Lists

/-! ## What a call has done -/

/-- A call of the subject. -/
def CalledBy (subject : Str) (acts : List CallAct) : Prop :=
  ∃ rest, acts = .called subject :: rest

/-- The gate of a call: a permission that is still to be recorded was just given. -/
def Gated (acts : List CallAct) (subject : Str) (action : ActionDescriptor) : Gate → Prop
  | .auditing .allow =>
      ∃ before, acts = .called subject :: before ++ [CallAct.authorize subject action .ok]
  | _ => CalledBy subject acts

/-- A fan-out over distinct hosts has asked for decisions, written records and
dispatched for at most the given ones. -/
structure Progress (acts : List CallAct) (hosts authorized recorded dispatched : List HostId) :
    Prop where
  resolved : resolvedHosts acts = [hosts]
  nodup : hosts.Nodup
  bound : hosts.length ≤ maxFanout
  authorized : List.Sublist (authorizedTargets acts) (authorized.map HostId.toStr)
  recorded : List.Sublist (recordedTargets acts) (recorded.map HostId.toStr)
  dispatched : List.Sublist (dispatchedHosts acts) dispatched

/-- What a fan-out has done that is through with some hosts and awaits a step. -/
def FanAt (acts : List CallAct) (call : ExecCall) (remaining through : List HostId) :
    Option FanStep → Prop
  | none => Progress acts (through ++ remaining) through through through
  | some (.gated host .authorizing) =>
      Progress acts (through ++ host :: remaining) through through through
  | some (.gated host (.auditing decision)) =>
      Progress acts (through ++ host :: remaining) (through ++ [host]) through through ∧
        Gated acts call.subject (call.perHost host) (.auditing decision)
  | some (.dispatching host dispatch) =>
      Progress acts (through ++ host :: remaining) (through ++ [host]) (through ++ [host])
          through ∧
        Permitted acts (call.perHost host) ∧
        dispatch.kind = call.kind ∧ dispatch.runAs = call.runAs
  | some (.reporting host _) =>
      Progress acts (through ++ host :: remaining) (through ++ [host]) (through ++ [host]) through

/-- What the fan-out of a call has done. -/
def FanInv (acts : List CallAct) (fan : FanOut) : Prop :=
  CalledBy fan.call.subject acts ∧
    ∃ through, FanAt acts fan.call fan.remaining through fan.doing

/-- Nothing was decided, recorded or dispatched yet. -/
def Untouched (acts : List CallAct) : Prop :=
  NoFan acts ∧ authorizedTargets acts = [] ∧ recordedTargets acts = []

/-- What a call has done when it awaits something. -/
def CallState (acts : List CallAct) : Call → Prop
  | .deciding subject action gate => Gated acts subject action gate ∧ NoFan acts
  | .askingHosts x => CalledBy x.subject acts ∧ Untouched acts
  | .awaitingHosts x => CalledBy x.subject acts ∧ Untouched acts
  | .fanning fan => FanInv acts fan
  | .opening subject o host gate =>
      Gated acts subject o.action gate ∧ HostId.parse o.hostId.text = some host ∧ NoFan acts
  | .sendingOpen o host _ _ =>
      Permitted acts o.action ∧ HostId.parse o.hostId.text = some host ∧ NoFan acts
  | _ => NoFan acts

/-- The acts of a call are licensed and fit its state. -/
structure CallInv (acts : List CallAct) (call : Call) : Prop where
  licensed : Licensed acts
  state : CallState acts call

section Steps

variable {acts new : List CallAct} {subject : Str} {action : ActionDescriptor} {gate : Gate}
  {out : GateOutput × List CallAct} {call : Call}

theorem CalledBy.append (h : CalledBy subject acts) (new : List CallAct) :
    CalledBy subject (acts ++ new) := by
  obtain ⟨rest, rfl⟩ := h
  exact ⟨rest ++ new, rfl⟩

theorem Gated.calledBy (h : Gated acts subject action gate) : CalledBy subject acts := by
  unfold Gated at h
  split at h
  · obtain ⟨before, rfl⟩ := h
    exact ⟨_, rfl⟩
  · exact h

theorem NoFan.append (h : NoFan acts) (hnew : NoFan new) : NoFan (acts ++ new) := by
  refine ⟨?_, ?_⟩
  · rw [resolvedHosts_append, h.1, hnew.1]
    rfl
  · rw [dispatchedHosts_append, h.2, hnew.2]
    rfl

/-- More acts, and the hosts they take up. -/
theorem Progress.append {hosts a r d : List HostId} (h : Progress acts hosts a r d)
    (new : List CallAct) (a' r' d' : List HostId) (hresolved : resolvedHosts new = [])
    (ha : List.Sublist (authorizedTargets new) (a'.map HostId.toStr))
    (hr : List.Sublist (recordedTargets new) (r'.map HostId.toStr))
    (hd : List.Sublist (dispatchedHosts new) d') :
    Progress (acts ++ new) hosts (a ++ a') (r ++ r') (d ++ d') where
  resolved := by rw [resolvedHosts_append, h.resolved, hresolved, List.append_nil]
  nodup := h.nodup
  bound := h.bound
  authorized := by
    rw [authorizedTargets_append, List.map_append]
    exact h.authorized.append ha
  recorded := by
    rw [recordedTargets_append, List.map_append]
    exact h.recorded.append hr
  dispatched := by
    rw [dispatchedHosts_append]
    exact h.dispatched.append hd

theorem Progress.fannedOnce {hosts a r d : List HostId} (h : Progress acts hosts a r d)
    (ha : List.Sublist a hosts) (hr : List.Sublist r hosts) (hd : List.Sublist d hosts) :
    FannedOnce acts :=
  ⟨hosts, h.resolved, h.nodup, h.bound, h.authorized.trans (ha.map _),
    h.recorded.trans (hr.map _), h.dispatched.trans hd⟩

/-- One answer at the gate of a call: where the gate then is, and what was done. -/
inductive GateStep (subject : Str) (action : ActionDescriptor) (gate : Gate) :
    GateOutput × List CallAct → Prop
  | idle : GateStep subject action gate (.waiting gate, [])
  | permitted (hgate : gate = .authorizing) :
      GateStep subject action gate (.waiting (.auditing .allow), [.authorize subject action .ok])
  | denied (hgate : gate = .authorizing) :
      GateStep subject action gate
        (.waiting (.auditing .deny), [.authorize subject action .denied])
  | undecided {status : Status} (hgate : gate = .authorizing) :
      GateStep subject action gate (.failed status, [.authorize subject action .failed])
  | recorded {decision : Decision} {tsUnix : Int64} (hgate : gate = .auditing decision) :
      GateStep subject action gate
        (.decided decision, [.append (auditRecord tsUnix subject action decision) true])
  | unrecorded {decision : Decision} {tsUnix : Int64} {status : Status}
      (hgate : gate = .auditing decision) :
      GateStep subject action gate
        (.failed status, [.append (auditRecord tsUnix subject action decision) false])

theorem authorizeAndAudit_gateStep (subject : Str) (action : ActionDescriptor) (gate : Gate)
    (input : GateInput) :
    GateStep subject action gate (authorizeAndAudit subject action gate input) := by
  cases gate with
  | authorizing =>
      cases input with
      | policy answer =>
          cases answer with
          | ok => exact .permitted rfl
          | denied => exact .denied rfl
          | failed => exact .undecided rfl
      | append tsUnix ok => exact .idle
  | auditing decision =>
      cases input with
      | policy answer => exact .idle
      | append tsUnix ok =>
          cases ok with
          | true => exact .recorded rfl
          | false => exact .unrecorded rfl

/-- The acts at a gate are no commands. -/
theorem GateStep.quiet (h : GateStep subject action gate out) :
    (∀ cmd, .emit cmd ∉ out.2) ∧ NoFan out.2 := by
  cases h <;> exact ⟨by simp, rfl, rfl⟩

theorem GateStep.kept (h : GateStep subject action gate out) (hlicensed : Licensed acts)
    (hnofan : NoFan acts) :
    Licensed (acts ++ out.2) ∧ NoFan (acts ++ out.2) :=
  ⟨hlicensed.append_quiet fun cmd hcmd => absurd hcmd (h.quiet.1 cmd), hnofan.append h.quiet.2⟩

/-- After an answer the gate is where its acts say. -/
theorem GateStep.gated (h : GateStep subject action gate out)
    (hgated : Gated acts subject action gate) :
    (∀ gate', out.1 = .waiting gate' → Gated (acts ++ out.2) subject action gate') ∧
      (out.1 = .decided .allow → Permitted (acts ++ out.2) action) := by
  have hcalled := hgated.calledBy
  cases h with
  | idle =>
      refine ⟨?_, nofun⟩
      rintro gate' ⟨rfl⟩
      rw [List.append_nil]
      exact hgated
  | permitted hgate =>
      refine ⟨?_, nofun⟩
      rintro gate' ⟨rfl⟩
      obtain ⟨rest, rfl⟩ := hcalled
      exact ⟨rest, rfl⟩
  | denied hgate =>
      refine ⟨?_, nofun⟩
      rintro gate' ⟨rfl⟩
      exact hcalled.append _
  | undecided hgate => exact ⟨nofun, nofun⟩
  | recorded hgate =>
      refine ⟨nofun, ?_⟩
      rintro ⟨rfl⟩
      subst hgate
      obtain ⟨before, rfl⟩ := hgated
      exact ⟨subject, before, _, List.append_assoc (.called subject :: before) _ _⟩
  | unrecorded hgate => exact ⟨nofun, nofun⟩

/-- An answer at the gate of a host. -/
theorem FanAt.answer {call : ExecCall} {remaining through : List HostId} {host : HostId}
    (hcalled : CalledBy call.subject acts)
    (h : FanAt acts call remaining through (some (.gated host gate)))
    (hgate : GateStep call.subject (call.perHost host) gate out) (jobId : Str) :
    FanAt (acts ++ out.2) call remaining through (some (match out.1 with
      | .waiting gate => .gated host gate
      | .decided .allow => .dispatching host ⟨jobId, call.kind, call.runAs, call.params⟩
      | .decided .deny => .reporting host (Str.lit "not authorized for this host")
      | .failed _ => .reporting host (Str.lit "authorization unavailable"))) := by
  have hgated : Gated acts call.subject (call.perHost host) gate := by
    cases gate with
    | authorizing => exact hcalled
    | auditing decision => exact h.2
  obtain ⟨hwaiting, hallow⟩ := hgate.gated hgated
  -- what the decision and the record add to the acts
  have hdecided : ∀ answer, gate = .authorizing →
      Progress (acts ++ [CallAct.authorize call.subject (call.perHost host) answer])
        (through ++ host :: remaining) (through ++ [host]) through through := by
    rintro answer rfl
    have happend := Progress.append h [.authorize call.subject (call.perHost host) answer]
      [host] [] [] rfl (List.Sublist.refl _) (List.Sublist.refl _) (List.Sublist.refl _)
    simpa using happend
  have hrecorded : ∀ decision tsUnix ok, gate = .auditing decision →
      Progress
        (acts ++ [CallAct.append (auditRecord tsUnix call.subject (call.perHost host) decision) ok])
        (through ++ host :: remaining) (through ++ [host]) (through ++ [host]) through := by
    rintro decision tsUnix ok rfl
    have happend := h.1.append
      [.append (auditRecord tsUnix call.subject (call.perHost host) decision) ok]
      [] [host] [] rfl (List.Sublist.refl _) (List.Sublist.refl _) (List.Sublist.refl _)
    simpa using happend
  cases hgate with
  | idle =>
      rw [List.append_nil]
      exact h
  | permitted hgate => exact ⟨hdecided _ hgate, hwaiting _ rfl⟩
  | denied hgate => exact ⟨hdecided _ hgate, hwaiting _ rfl⟩
  | undecided hgate =>
      have hprogress := (hdecided .failed hgate).append [] [] [host] [] rfl
        (List.Sublist.refl _) (List.nil_sublist _) (List.Sublist.refl _)
      simp only [List.append_nil] at hprogress
      exact hprogress
  | @recorded decision tsUnix hgate =>
      cases decision with
      | allow => exact ⟨hrecorded _ _ _ hgate, hallow rfl, rfl, rfl⟩
      | deny => exact hrecorded _ _ _ hgate
  | unrecorded hgate => exact hrecorded _ _ _ hgate

/-- A fan-out has taken up each of its hosts at most once. -/
theorem FanAt.fannedOnce {call : ExecCall} {remaining through : List HostId}
    {doing : Option FanStep} (h : FanAt acts call remaining through doing) :
    FannedOnce acts := by
  have hthrough : ∀ rest, List.Sublist through (through ++ rest) :=
    List.sublist_append_left through
  have hhost : ∀ host, List.Sublist (through ++ [host]) (through ++ host :: remaining) :=
    fun host => (List.Sublist.refl through).append (List.sublist_append_left [host] remaining)
  rcases doing with _ | (⟨host, (_ | decision)⟩ | ⟨host, dispatch⟩ | ⟨host, msg⟩)
  · exact Progress.fannedOnce h (hthrough _) (hthrough _) (hthrough _)
  · exact Progress.fannedOnce h (hthrough _) (hthrough _) (hthrough _)
  · exact h.1.fannedOnce (hhost host) (hthrough _) (hthrough _)
  · exact h.1.fannedOnce (hhost host) (hhost host) (hthrough _)
  · exact Progress.fannedOnce h (hhost host) (hhost host) (hthrough _)

theorem FanInv.step {fan : FanOut} (hlicensed : Licensed acts) (h : FanInv acts fan)
    (input : FanInput) :
    Licensed (acts ++ (fan.step input).2) ∧
      FanInv (acts ++ (fan.step input).2) (fan.step input).1 := by
  obtain ⟨call, remaining, doing⟩ := fan
  have hidle : Licensed (acts ++ []) ∧ FanInv (acts ++ []) ⟨call, remaining, doing⟩ := by
    rw [List.append_nil]
    exact ⟨hlicensed, h⟩
  obtain ⟨hcalled, through, hat⟩ := h
  dsimp only at hcalled hat
  cases input with
  | next =>
      -- a host that was just taken up is as untouched as one that remains
      rcases doing with _ | doing <;> rcases remaining with _ | ⟨host, rest⟩ <;> exact hidle
  | gate input jobId =>
      rcases doing with _ | (⟨host, gate⟩ | ⟨host, dispatch⟩ | ⟨host, msg⟩) <;> try exact hidle
      have hgate := authorizeAndAudit_gateStep call.subject (call.perHost host) gate input
      refine ⟨hlicensed.append_quiet fun cmd hcmd => absurd hcmd (hgate.quiet.1 cmd),
        hcalled.append _, through, ?_⟩
      exact FanAt.answer hcalled hat hgate jobId
  | bridgeSend ok =>
      rcases doing with _ | (⟨host, gate⟩ | ⟨host, dispatch⟩ | ⟨host, msg⟩) <;> try exact hidle
      obtain ⟨hprogress, hpermitted, hkind, hrunAs⟩ := hat
      cases ok with
      | true =>
          refine ⟨Justified.snoc hlicensed ?_, hcalled.append _, through ++ [host], ?_⟩
          · rintro cmd heq -
            obtain rfl := CallAct.emit.inj heq
            exact ⟨call.perHost host, hpermitted, hkind.symm, hrunAs.symm, HostId.parse_toStr host⟩
          · have happend := hprogress.append [.emit (.dispatch host dispatch call.events)]
              [] [] [host] rfl (List.Sublist.refl _) (List.Sublist.refl _) (List.Sublist.refl _)
            simpa [FanAt, FanOut.step] using happend
      | false =>
          simp only [FanOut.step, Bool.false_eq_true, if_false, List.append_nil]
          exact ⟨hlicensed, hcalled, through, hprogress⟩
  | eventSend ok =>
      rcases doing with _ | (⟨host, gate⟩ | ⟨host, dispatch⟩ | ⟨host, msg⟩) <;> try exact hidle
      have hthrough : Progress (acts ++ if ok then [.report call.events host (outcomeError msg)]
          else []) (through ++ host :: remaining) (through ++ [host]) (through ++ [host])
          (through ++ [host]) := by
        have happend := Progress.append hat
          (if ok then [.report call.events host (outcomeError msg)] else []) [] [] [host]
          (by cases ok <;> rfl) (by cases ok <;> exact List.Sublist.refl _)
          (by cases ok <;> exact List.Sublist.refl _) (by cases ok <;> exact List.nil_sublist _)
        simpa using happend
      refine ⟨hlicensed.append_quiet ?_, hcalled.append _, through ++ [host], ?_⟩
      · intro cmd hcmd
        cases ok <;> simp [FanOut.step] at hcmd
      · simpa [FanAt, FanOut.step] using hthrough

/-- A call ends, or goes on without another command on a host. -/
theorem CallInv.quiet (hlicensed : Licensed acts) (hnofan : NoFan acts)
    (hquiet : ∀ cmd, .emit cmd ∈ new → actsOnHost cmd = false) (hnew : NoFan new)
    (hcall : ∀ acts, NoFan acts → CallState acts call) : CallInv (acts ++ new) call :=
  ⟨hlicensed.append_quiet hquiet, hcall _ (hnofan.append hnew)⟩

theorem CallInv.respond (hlicensed : Licensed acts) (hnofan : NoFan acts)
    (status : Except Status Unit) : CallInv (acts ++ [CallAct.respond status]) .finished :=
  CallInv.quiet hlicensed hnofan (by simp) ⟨rfl, rfl⟩ fun _ h => h

/-- The hosts of a call are known. -/
theorem ExecCall.fanOut_inv {x : ExecCall} {hosts : Except Status (List HostId)}
    (hlicensed : Licensed acts) (hcalled : CalledBy x.subject acts) (huntouched : Untouched acts)
    (hbound : ∀ hs, hosts = .ok hs → hs.Nodup ∧ hs.length ≤ maxFanout) :
    CallInv (acts ++ (x.fanOut hosts).2) (x.fanOut hosts).1 := by
  obtain ⟨⟨hresolved, hdispatched⟩, hauthorized, hrecorded⟩ := huntouched
  rcases hosts with status | (_ | ⟨host, rest⟩)
  · exact CallInv.respond hlicensed ⟨hresolved, hdispatched⟩ _
  · exact CallInv.respond hlicensed ⟨hresolved, hdispatched⟩ _
  · obtain ⟨hnodup, hlen⟩ := hbound _ rfl
    refine ⟨hlicensed.append_quiet (by simp [ExecCall.fanOut]), hcalled.append _, [], ?_⟩
    refine ⟨?_, hnodup, hlen, ?_, ?_, ?_⟩
    · rw [resolvedHosts_append, hresolved]
      rfl
    · rw [authorizedTargets_append, hauthorized]
      exact List.Sublist.refl _
    · rw [recordedTargets_append, hrecorded]
      exact List.Sublist.refl _
    · rw [dispatchedHosts_append, hdispatched]
      exact List.Sublist.refl _

/-- A call arrives. -/
theorem CallStart.begin_inv (start : CallStart) : CallInv start.begin.2 start.begin.1 := by
  have hcalled : ∀ subject, CalledBy subject [.called subject] := fun subject => ⟨[], rfl⟩
  have hlicensed : ∀ subject, Licensed [.called subject] :=
    fun subject => Licensed.append_quiet justified_nil (by simp)
  have huntouched : ∀ subject, Untouched [.called subject] :=
    fun subject => ⟨⟨rfl, rfl⟩, rfl, rfl⟩
  have hfails : ∀ subject code message,
      CallInv ([.called subject] ++ (failWith code message).2) (failWith code message).1 :=
    fun subject code message => CallInv.respond (hlicensed subject) (huntouched subject).1 _
  cases start with
  | dispatch subject action =>
      rcases action with _ | action
      · exact hfails ..
      · simp only [CallStart.begin]
        split
        · exact hfails ..
        · exact ⟨hlicensed subject, hcalled subject, (huntouched subject).1⟩
  | exec subject action params events =>
      rcases action with _ | action
      · exact hfails ..
      · simp only [CallStart.begin]
        split
        · exact hfails ..
        split
        · exact ⟨hlicensed subject, hcalled subject, huntouched subject⟩
        · refine ExecCall.fanOut_inv (hlicensed subject) (hcalled subject) (huntouched subject) ?_
          intro hosts hhosts
          obtain ⟨hnodup, hlen, -⟩ := resolveTokens_eq_ok hhosts
          exact ⟨hnodup, hlen⟩
  | shell subject first =>
      rcases first with _ | first
      · exact hfails ..
      cases first with
      | opening o =>
          simp only [CallStart.begin]
          split
          · exact hfails ..
          · rename_i host hhost
            exact ⟨hlicensed subject, hcalled subject, hhost, (huntouched subject).1⟩
      | input data => exact hfails ..
      | close => exact hfails ..
      | empty => exact hfails ..

/-- One step of a call. -/
theorem CallInv.step (h : CallInv acts call) (input : CallInput) :
    CallInv (acts ++ (call.step input).2) (call.step input).1 := by
  have hidle : CallInv (acts ++ []) call := by
    rw [List.append_nil]
    exact h
  obtain ⟨hlicensed, hstate⟩ := h
  cases call with
  | deciding subject action gate =>
      cases input <;> try exact hidle
      rename_i input fresh output
      obtain ⟨hgated, hnofan⟩ := hstate
      have hgate := authorizeAndAudit_gateStep subject action gate input
      simp only [Call.step]
      generalize authorizeAndAudit subject action gate input = out at hgate ⊢
      obtain ⟨hwaiting, -⟩ := hgate.gated hgated
      obtain ⟨hlicensed, hnofan⟩ := hgate.kept hlicensed hnofan
      obtain ⟨(gate | decision | status), new⟩ := out
      · exact ⟨hlicensed, hwaiting gate rfl, hnofan⟩
      · cases decision <;>
          exact (List.append_assoc acts new _) ▸ CallInv.respond hlicensed hnofan _
      · exact (List.append_assoc acts new _) ▸ CallInv.respond hlicensed hnofan _
  | askingHosts x =>
      cases input <;> try exact hidle
      rename_i ok reply
      obtain ⟨hcalled, hnofan, hauthorized, hrecorded⟩ := hstate
      cases ok with
      | true =>
          refine ⟨hlicensed.append_quiet (by simp [Call.step, actsOnHost]), hcalled.append _,
            hnofan.append ⟨rfl, rfl⟩, ?_, ?_⟩
          · rw [authorizedTargets_append, hauthorized]
            rfl
          · rw [recordedTargets_append, hrecorded]
            rfl
      | false => exact CallInv.respond hlicensed hnofan _
  | awaitingHosts x =>
      cases input <;> try exact hidle
      rename_i hosts
      obtain ⟨hcalled, huntouched⟩ := hstate
      rcases hosts with _ | hosts
      · exact CallInv.respond hlicensed huntouched.1 _
      · refine ExecCall.fanOut_inv hlicensed hcalled huntouched fun hs hhs => ?_
        obtain ⟨hnodup, hlen, -⟩ := boundHosts_eq_ok hhs
        exact ⟨hnodup, hlen⟩
  | fanning fan =>
      cases input <;> try exact hidle
      rename_i input
      obtain ⟨hlicensed, hfan⟩ := FanInv.step hlicensed hstate input
      exact ⟨hlicensed, hfan⟩
  | opening subject o host gate =>
      cases input <;> try exact hidle
      rename_i input fresh output
      obtain ⟨hgated, hhost, hnofan⟩ := hstate
      have hgate := authorizeAndAudit_gateStep subject o.action gate input
      simp only [Call.step]
      generalize authorizeAndAudit subject o.action gate input = out at hgate ⊢
      obtain ⟨hwaiting, hallow⟩ := hgate.gated hgated
      obtain ⟨hlicensed, hnofan⟩ := hgate.kept hlicensed hnofan
      obtain ⟨(gate | decision | status), new⟩ := out
      · exact ⟨hlicensed, hwaiting gate rfl, hhost, hnofan⟩
      · cases decision with
        | allow => exact ⟨hlicensed, hallow rfl, hhost, hnofan⟩
        | deny => exact (List.append_assoc acts new _) ▸ CallInv.respond hlicensed hnofan _
      · exact (List.append_assoc acts new _) ▸ CallInv.respond hlicensed hnofan _
  | sendingOpen o host streamId output =>
      cases input <;> try exact hidle
      rename_i ok reply
      obtain ⟨hpermitted, hhost, hnofan⟩ := hstate
      cases ok with
      | true =>
          have hopened : Licensed
              (acts ++ [CallAct.emit (.openShell host streamId o.runAs o.rows o.cols output)]) := by
            refine Justified.snoc hlicensed ?_
            rintro cmd heq -
            obtain rfl := CallAct.emit.inj heq
            exact ⟨o.action, hpermitted, rfl, rfl, hhost⟩
          have hresponded : Licensed (_ ++ [CallAct.respond (.ok ())]) :=
            hopened.append_quiet (by simp)
          rw [List.append_assoc] at hresponded
          exact ⟨hresponded, hnofan.append ⟨rfl, rfl⟩⟩
      | false => exact CallInv.respond hlicensed hnofan _
  | pumping host streamId =>
      cases input <;> try exact hidle
      rename_i msg
      rcases msg with _ | (o | data | _ | _) <;>
        exact CallInv.quiet hlicensed hstate (by simp [Call.step]) ⟨rfl, rfl⟩ fun _ h => h
  | sendingInput host streamId data =>
      cases input <;> try exact hidle
      rename_i ok reply
      cases ok <;> exact CallInv.quiet hlicensed hstate (by simp [Call.step, actsOnHost])
        ⟨rfl, rfl⟩ fun _ h => h
  | sendingClose host streamId =>
      cases input <;> try exact hidle
      rename_i ok reply
      cases ok <;> exact CallInv.quiet hlicensed hstate (by simp [Call.step, actsOnHost])
        ⟨rfl, rfl⟩ fun _ h => h
  | finished => cases input <;> exact hidle

/-- The acts of a call that fit its state are mediated. -/
theorem CallInv.mediated (h : CallInv acts call) : Mediated acts := by
  obtain ⟨hlicensed, hstate⟩ := h
  refine ⟨hlicensed, ?_⟩
  cases call with
  | deciding subject action gate => exact .inl hstate.2
  | askingHosts x => exact .inl hstate.2.1
  | awaitingHosts x => exact .inl hstate.2.1
  | fanning fan =>
      right
      obtain ⟨-, through, hat⟩ := hstate
      exact hat.fannedOnce
  | opening subject o host gate => exact .inl hstate.2.2
  | sendingOpen o host streamId output => exact .inl hstate.2.2
  | pumping host streamId => exact .inl hstate
  | sendingInput host streamId data => exact .inl hstate
  | sendingClose host streamId => exact .inl hstate
  | finished => exact .inl hstate

end Steps

/-! ## The service -/

/-- The acts of every call fit its state; ids are taken in order. -/
structure ServiceInv (s : Service) (log : List (Nat × CallAct)) : Prop where
  calls : ∀ id call, s.calls.lookup id = some call → CallInv (callLog id log) call ∧ id < s.next
  unknown : ∀ id, s.calls.lookup id = none → callLog id log = []

section Runs

variable {s : Service} {log : List (Nat × CallAct)}

theorem ServiceInv.new : ServiceInv Service.new [] where
  calls id call hcall := by
    rw [Service.new, Table.lookup_empty] at hcall
    cases hcall
  unknown id _ := rfl

/-- One call moves on and logs what it does. -/
theorem ServiceInv.put {call : Call} {id next : Nat} {acts : List CallAct} (h : ServiceInv s log)
    (hcall : CallInv (callLog id log ++ acts) call) (hnext : s.next ≤ next) (hid : id < next) :
    ServiceInv ⟨s.calls.put id call, next⟩ (log ++ acts.map (Prod.mk id)) := by
  have hself : callLog id (log ++ acts.map (Prod.mk id)) = callLog id log ++ acts := by
    rw [callLog_append, callLog_map_self]
  have hother : ∀ id', id' ≠ id → callLog id' (log ++ acts.map (Prod.mk id)) = callLog id' log := by
    intro id' hne
    rw [callLog_append, callLog_map_ne (Ne.symm hne), List.append_nil]
  constructor
  · intro id' call' hlookup
    by_cases heq : id' = id
    · subst heq
      rw [Table.lookup_put_self] at hlookup
      cases hlookup
      rw [hself]
      exact ⟨hcall, hid⟩
    · rw [Table.lookup_put_ne _ _ heq] at hlookup
      obtain ⟨hinv, hlt⟩ := h.calls id' call' hlookup
      rw [hother id' heq]
      exact ⟨hinv, lt_of_lt_of_le hlt hnext⟩
  · intro id' hlookup
    by_cases heq : id' = id
    · subst heq
      rw [Table.lookup_put_self] at hlookup
      cases hlookup
    · rw [Table.lookup_put_ne _ _ heq] at hlookup
      rw [hother id' heq]
      exact h.unknown id' hlookup

theorem ServiceInv.step (h : ServiceInv s log) (ev : ServiceEvent) :
    ServiceInv (serviceStep s ev).1 (log ++ (serviceStep s ev).2) := by
  cases ev with
  | call start =>
      have hnone : s.calls.lookup s.next = none := by
        rw [Option.eq_none_iff_forall_not_mem]
        intro call hcall
        exact lt_irrefl _ (h.calls s.next call hcall).2
      refine h.put ?_ (Nat.le_succ _) (Nat.lt_succ_self _)
      rw [h.unknown s.next hnone, List.nil_append]
      exact start.begin_inv
  | input id input =>
      simp only [serviceStep]
      split
      · rw [List.append_nil]
        exact h
      · rename_i call hcall
        obtain ⟨hinv, hlt⟩ := h.calls id call hcall
        exact h.put (hinv.step input) le_rfl hlt

theorem ServiceInv.run (h : ServiceInv s log) (events : List ServiceEvent) :
    ServiceInv (serviceRun s events).1 (log ++ (serviceRun s events).2) := by
  induction events generalizing s log with
  | nil =>
      rw [serviceRun, List.append_nil]
      exact h
  | cons ev events ih =>
      rw [serviceRun, ← List.append_assoc]
      exact ih (h.step ev)

theorem ServiceInv.mediated (h : ServiceInv s log) (id : Nat) : Mediated (callLog id log) := by
  rcases hlookup : s.calls.lookup id with _ | call
  · rw [h.unknown id hlookup]
    exact ⟨justified_nil, .inl ⟨rfl, rfl⟩⟩
  · exact (h.calls id call hlookup).1.mediated

end Runs

/-- The hosts a listed selector resolves to. -/
theorem begin_resolved {subject : Str} {action : ActionDescriptor} {params : Blob}
    {events : Channel} {hosts : List HostId}
    (h : .resolved hosts ∈ (CallStart.exec subject (some action) params events).begin.2) :
    resolveTokens action.target = .ok hosts := by
  simp only [CallStart.begin, List.mem_cons, reduceCtorEq, false_or] at h
  split at h
  · simp [failWith] at h
  split at h
  · simp at h
  · generalize resolveTokens action.target = resolved at h ⊢
    rcases resolved with status | (_ | ⟨host, rest⟩)
    · simp [ExecCall.fanOut] at h
    · simp [ExecCall.fanOut, failWith] at h
    · simpa [ExecCall.fanOut, eq_comm] using h

/-- In every run of the service the acts of every call are mediated.  The hosts of a
listed selector are those its tokens name, however they are spelled or repeated. -/
theorem complete_mediation :
    (∀ events id, Mediated (callLog id (serviceRun Service.new events).2)) ∧
      ∀ subject action params events hosts,
        .resolved hosts ∈ (CallStart.exec subject (some action) params events).begin.2 →
        ∀ host, host ∈ hosts ↔ ∃ tok ∈ selectorTokens action.target,
          HostId.parse (String.ofList tok) = some host := by
  refine ⟨fun events id => ?_, fun subject action params events hosts hresolved => ?_⟩
  · have hrun := ServiceInv.new.run events
    rw [List.nil_append] at hrun
    exact hrun.mediated id
  · exact (resolveTokens_eq_ok (begin_resolved hresolved)).2.2

/-- A call whose selector names the sample host twice and another host once. -/
def sampleAction : ActionDescriptor where
  kind := Str.lit "exec"
  target := Str.lit ("77777777-7777-7777-7777-777777777777, 77777777777777777777777777777777,," ++
    "88888888-8888-8888-8888-888888888888")
  runAs := Str.lit "root"
  paramsHash := default

def sampleHosts : List HostId := [sampleHost, ⟨.lit (List.replicate 32 8)⟩]

/-- The sample host is allowed, the other one denied. -/
def sampleFanOut : List ServiceEvent :=
  let gate input := ServiceEvent.input 0 (.fan (.gate input (Str.lit "job")))
  [.call (.exec (Str.lit "operator") (some sampleAction) default 0),
    .input 0 (.fan .next), gate (.policy .ok), gate (.append 0 true),
    .input 0 (.fan (.bridgeSend true)),
    .input 0 (.fan .next), gate (.policy .denied), gate (.append 0 true),
    .input 0 (.fan (.eventSend true))]

theorem complete_mediation_two_spellings :
    dispatchedHosts (callLog 0 (serviceRun Service.new sampleFanOut).2) = [sampleHost] ∧
      recordedTargets (callLog 0 (serviceRun Service.new sampleFanOut).2) =
        sampleHosts.map HostId.toStr ∧
      Mediated (callLog 0 (serviceRun Service.new sampleFanOut).2) ∧
      ∀ host, host ∈ sampleHosts ↔ ∃ tok ∈ selectorTokens sampleAction.target,
        HostId.parse (String.ofList tok) = some host := by
  obtain ⟨hmediated, hselector⟩ := complete_mediation
  have hlog : let log := callLog 0 (serviceRun Service.new sampleFanOut).2
      dispatchedHosts log = [sampleHost] ∧
        recordedTargets log = sampleHosts.map HostId.toStr := by
    decide +kernel
  refine ⟨hlog.1, hlog.2, hmediated _ _, ?_⟩
  refine hselector (Str.lit "operator") sampleAction default 0 sampleHosts ?_
  have hbegin : (CallStart.exec (Str.lit "operator") (some sampleAction) default 0).begin.2 =
      [.called (Str.lit "operator"), .resolved sampleHosts, .respond (.ok ())] := by
    have hresolve : resolveTokens sampleAction.target = .ok sampleHosts := by decide +kernel
    simp only [CallStart.begin, hresolve]
    rfl
  rw [hbegin]
  simp

end Coordinator
end OpenSsmAgent
