import OpenSsmAgent.Coordinator.Bridge
import OpenSsmAgent.Core.Allowlist
import OpenSsmAgent.Core.Audit

/-!
# The operator service

The calls of {lit}`osa-coordinator/src/service.rs` that reach the bridge:
{lit}`exec` with its spawned fan-out, {lit}`shell` with its input pump, and
{lit}`dispatch`, which only decides.  Each call is a small state machine that moves
on when something it awaits answers; calls run side by side, and every answer of
the policy engine, the audit log, the bridge and the operator's channel is an
argument of the step.
-/

open Framing

namespace OpenSsmAgent
namespace Coordinator

open Domain Proto Audit

/-! ## Authorization and audit -/

/-- The answers of {lit}`policy.authorize`. -/
inductive PolicyAnswer where
  | ok
  | denied
  | failed
deriving DecidableEq

/-- The status codes the calls answer with. -/
inductive Code where
  | invalidArgument
  | permissionDenied
  | notFound
  | resourceExhausted
  | unavailable
  | internal
deriving DecidableEq

/-- A status with its message. -/
structure Status where
  code : Code
  message : String
deriving DecidableEq

/-- What a call does to the outside.  {lit}`called` is its arrival with the calling
subject, {lit}`resolved` the hosts its selector stands for. -/
inductive CallAct where
  | called (subject : Str)
  | resolved (hosts : List HostId)
  | authorize (subject : Str) (action : ActionDescriptor) (answer : PolicyAnswer)
  | append (record : AuditRecord) (ok : Bool)
  | emit (cmd : BridgeCommand)
  | report (events : Channel) (host : HostId) (result : JobResult)
  | respond (status : Except Status Unit)

/-- What {lit}`authorize_and_audit` awaits. -/
inductive Gate where
  | authorizing
  | auditing (decision : Decision)
deriving DecidableEq

/-- An answer to it. -/
inductive GateInput where
  | policy (answer : PolicyAnswer)
  | append (tsUnix : Int64) (ok : Bool)
deriving DecidableEq

/-- Where it is after an answer. -/
inductive GateOutput where
  | waiting (gate : Gate)
  | decided (decision : Decision)
  | failed (status : Status)

/-- The record of a decision. -/
def auditRecord (tsUnix : Int64) (subject : Str) (action : ActionDescriptor)
    (decision : Decision) : AuditRecord :=
  ⟨tsUnix, subject, action.kind, action.target, action.runAs, decision⟩

/-- {lit}`authorize_and_audit`: decide, record the decision either way, and only then
return it.  An answer that is not awaited changes nothing. -/
def authorizeAndAudit (subject : Str) (action : ActionDescriptor) :
    Gate → GateInput → GateOutput × List CallAct
  | .authorizing, .policy answer =>
      (match answer with
        | .ok => .waiting (.auditing .allow)
        | .denied => .waiting (.auditing .deny)
        | .failed => .failed ⟨.internal, "authorization failed"⟩,
        [.authorize subject action answer])
  | .auditing decision, .append tsUnix ok =>
      (if ok then .decided decision else .failed ⟨.internal, "audit log unavailable"⟩,
        [.append (auditRecord tsUnix subject action decision) ok])
  | gate, _ => (.waiting gate, [])

/-! ## Selectors -/

def maxFanout : Nat := 1024

/-- {lit}`char::is_whitespace`. -/
def isWhitespace (c : Char) : Bool :=
  c.toNat ∈ [9, 10, 11, 12, 13, 32, 133, 160, 5760, 8232, 8233, 8239, 8287, 12288] ||
    (8192 ≤ c.toNat && c.toNat ≤ 8202)

/-- {lit}`str::trim`. -/
def trim (cs : List Char) : List Char :=
  (cs.dropWhile isWhitespace).rdropWhile isWhitespace

/-- A text without white space is not padded. -/
theorem trim_of_forall {cs : List Char} (h : ∀ c ∈ cs, isWhitespace c = false) : trim cs = cs := by
  have hfront : cs.dropWhile isWhitespace = cs := by
    refine List.dropWhile_eq_self_iff.mpr ?_
    intro hpos
    simp [h _ (List.getElem_mem hpos)]
  have hback : cs.rdropWhile isWhitespace = cs := by
    refine List.rdropWhile_eq_self_iff.mpr ?_
    intro hne
    simp [h _ (List.getLast_mem hne)]
  rw [trim, hfront, hback]

/-- The tokens of a selector: split at commas, trimmed, empty ones skipped. -/
def selectorTokens (selector : Str) : List (List Char) :=
  ((selector.text.toList.splitOn ',').map trim).filter (· ≠ [])

/-- {lit}`hosts.retain(|h| seen.insert(*h))`: keep the first occurrence of each host. -/
def retainFirst (seen : List HostId) : List HostId → List HostId
  | [] => []
  | h :: hs => if h ∈ seen then retainFirst seen hs else h :: retainFirst (h :: seen) hs

/-- The end of {lit}`resolve`: deduplicate, then refuse too many hosts. -/
def boundHosts (hosts : List HostId) : Except Status (List HostId) :=
  let hosts := retainFirst [] hosts
  if maxFanout < hosts.length then
    .error ⟨.invalidArgument, "selector resolves to " ++ toString hosts.length ++
      " hosts (max " ++ toString maxFanout ++ ")"⟩
  else .ok hosts

/-- {lit}`resolve` on a list of host ids. -/
def resolveTokens (selector : Str) : Except Status (List HostId) :=
  match (selectorTokens selector).mapM (fun tok => HostId.parse (String.ofList tok)) with
  | none => .error ⟨.invalidArgument, "selector token is not a host_id"⟩
  | some hosts => boundHosts hosts

theorem mem_retainFirst {seen hs : List HostId} {h : HostId} :
    h ∈ retainFirst seen hs ↔ h ∈ hs ∧ h ∉ seen := by
  induction hs generalizing seen with
  | nil => simp [retainFirst]
  | cons g hs ih =>
      unfold retainFirst
      by_cases hg : g ∈ seen
      · rw [if_pos hg, ih, List.mem_cons]
        constructor
        · exact fun ⟨hmem, hnew⟩ => ⟨Or.inr hmem, hnew⟩
        · rintro ⟨rfl | hmem, hnew⟩
          · exact absurd hg hnew
          · exact ⟨hmem, hnew⟩
      · rw [if_neg hg, List.mem_cons, ih, List.mem_cons, List.mem_cons]
        by_cases heq : h = g
        · simp [heq, hg]
        · simp [heq]

theorem nodup_retainFirst (seen hs : List HostId) : (retainFirst seen hs).Nodup := by
  induction hs generalizing seen with
  | nil => exact List.nodup_nil
  | cons g hs ih =>
      unfold retainFirst
      split
      · exact ih seen
      · refine List.nodup_cons.mpr ⟨?_, ih (g :: seen)⟩
        intro hmem
        exact (mem_retainFirst.mp hmem).2 List.mem_cons_self

/-- What {lit}`resolve` returns names each host once, within the cap. -/
theorem boundHosts_eq_ok {hosts hosts' : List HostId} (h : boundHosts hosts = .ok hosts') :
    hosts'.Nodup ∧ hosts'.length ≤ maxFanout ∧ ∀ host, host ∈ hosts' ↔ host ∈ hosts := by
  unfold boundHosts at h
  dsimp only at h
  split at h
  · cases h
  · rename_i hle
    cases h
    exact ⟨nodup_retainFirst _ _, not_lt.mp hle, fun host => by simp [mem_retainFirst]⟩

theorem mem_of_mapM_eq_some {α β : Type} {f : α → Option β} {xs : List α} {ys : List β}
    (h : xs.mapM f = some ys) {y : β} : y ∈ ys ↔ ∃ x ∈ xs, f x = some y := by
  induction xs generalizing ys with
  | nil =>
      obtain rfl : [] = ys := Option.some.inj h
      simp
  | cons x xs ih =>
      rw [List.mapM_cons] at h
      obtain ⟨z, hz, h⟩ := Option.bind_eq_some_iff.mp h
      obtain ⟨zs, hzs, h⟩ := Option.bind_eq_some_iff.mp h
      obtain rfl : z :: zs = ys := Option.some.inj h
      simp [ih hzs, hz, eq_comm]

/-- The hosts of a selector are those its tokens name, each once, within the cap. -/
theorem resolveTokens_eq_ok {selector : Str} {hosts : List HostId}
    (h : resolveTokens selector = .ok hosts) :
    hosts.Nodup ∧ hosts.length ≤ maxFanout ∧ ∀ host, host ∈ hosts ↔
      ∃ tok ∈ selectorTokens selector, HostId.parse (String.ofList tok) = some host := by
  unfold resolveTokens at h
  split at h
  · cases h
  · rename_i named hnamed
    obtain ⟨hnodup, hlen, hmem⟩ := boundHosts_eq_ok h
    exact ⟨hnodup, hlen, fun host => (hmem host).trans (mem_of_mapM_eq_some hnamed)⟩

/-! ## The fan-out of a call -/

/-- What an {lit}`exec` call carries to its fan-out. -/
structure ExecCall where
  subject : Str
  kind : Str
  runAs : Str
  paramsHash : Blob
  params : Blob
  events : Channel
deriving DecidableEq

/-- The action on one host. -/
def ExecCall.perHost (x : ExecCall) (host : HostId) : ActionDescriptor :=
  ⟨x.kind, host.toStr, x.runAs, x.paramsHash⟩

/-- What the fan-out awaits for a host. -/
inductive FanStep where
  | gated (host : HostId) (gate : Gate)
  | dispatching (host : HostId) (dispatch : Dispatch)
  | reporting (host : HostId) (msg : Str)
deriving DecidableEq

/-- The spawned task of an {lit}`exec` call. -/
structure FanOut where
  call : ExecCall
  remaining : List HostId
  doing : Option FanStep
deriving DecidableEq

/-- What the task meets: it takes up the next host, its gate is answered (with the id
drawn for the job), or a send completes. -/
inductive FanInput where
  | next
  | gate (input : GateInput) (jobId : Str)
  | bridgeSend (ok : Bool)
  | eventSend (ok : Bool)

/-- {lit}`outcome_error`. -/
def outcomeError (msg : Str) : JobResult where
  jobId := default
  body := some (.outcome ⟨some (.error msg), false, false⟩)

/-- One step of the fan-out loop. -/
def FanOut.step (f : FanOut) : FanInput → FanOut × List CallAct
  | .next =>
      match f.doing, f.remaining with
      | none, host :: rest =>
          ({ f with remaining := rest, doing := some (.gated host .authorizing) }, [])
      | _, _ => (f, [])
  | .gate input jobId =>
      match f.doing with
      | some (.gated host gate) =>
          let out := authorizeAndAudit f.call.subject (f.call.perHost host) gate input
          ({ f with
            doing := some (match out.1 with
              | .waiting gate => .gated host gate
              | .decided .allow =>
                  .dispatching host ⟨jobId, f.call.kind, f.call.runAs, f.call.params⟩
              | .decided .deny => .reporting host (Str.lit "not authorized for this host")
              | .failed _ => .reporting host (Str.lit "authorization unavailable")) },
            out.2)
      | _ => (f, [])
  | .bridgeSend ok =>
      match f.doing with
      | some (.dispatching host dispatch) =>
          if ok then
            ({ f with doing := none }, [.emit (.dispatch host dispatch f.call.events)])
          else
            ({ f with
              doing := some (.reporting host (Str.lit "dispatch bridge unavailable")) }, [])
      | _ => (f, [])
  | .eventSend ok =>
      match f.doing with
      | some (.reporting host msg) =>
          ({ f with doing := none },
            if ok then [.report f.call.events host (outcomeError msg)] else [])
      | _ => (f, [])

/-! ## Calls -/

/-- The first message of a shell stream. -/
structure ShellOpen where
  hostId : Str
  runAs : Str
  rows : UInt32
  cols : UInt32
deriving DecidableEq

/-- A message of the operator on a shell stream; {lit}`empty` carries no variant. -/
inductive ShellClientMsg where
  | opening (o : ShellOpen)
  | input (data : Blob)
  | close
  | empty
deriving DecidableEq

/-- The action of a shell open; its target is the host id as the operator spelled
it. -/
def ShellOpen.action (o : ShellOpen) : ActionDescriptor :=
  ⟨Str.lit "shell", o.hostId, o.runAs, default⟩

/-- What a call awaits. -/
inductive Call where
  | deciding (subject : Str) (action : ActionDescriptor) (gate : Gate)
  | askingHosts (x : ExecCall)
  | awaitingHosts (x : ExecCall)
  | fanning (fan : FanOut)
  | opening (subject : Str) (o : ShellOpen) (host : HostId) (gate : Gate)
  | sendingOpen (o : ShellOpen) (host : HostId) (streamId : Str) (output : Channel)
  | pumping (host : HostId) (streamId : Str)
  | sendingInput (host : HostId) (streamId : Str) (data : Blob)
  | sendingClose (host : HostId) (streamId : Str)
  | finished
deriving DecidableEq

/-- A call arrives; a shell stream may end before its first message. -/
inductive CallStart where
  | dispatch (subject : Str) (action : Option ActionDescriptor)
  | exec (subject : Str) (action : Option ActionDescriptor) (params : Blob) (events : Channel)
  | shell (subject : Str) (first : Option ShellClientMsg)

/-- What a call meets.  {lit}`fresh` is the id drawn after the gate, {lit}`output` and
{lit}`reply` are the channels made for it; a message of {lit}`none` is the end of the
client's stream. -/
inductive CallInput where
  | gate (input : GateInput) (fresh : Str) (output : Channel)
  | bridgeSend (ok : Bool) (reply : Channel)
  | online (hosts : Option (List HostId))
  | fan (input : FanInput)
  | message (msg : Option ShellClientMsg)

/-- A call ends with a status. -/
def failWith (code : Code) (message : String) : Call × List CallAct :=
  (.finished, [.respond (.error ⟨code, message⟩)])

/-- The hosts are known: fan out, unless there are none or too many. -/
def ExecCall.fanOut (x : ExecCall) : Except Status (List HostId) → Call × List CallAct
  | .error status => (.finished, [.respond (.error status)])
  | .ok [] => failWith .notFound "no hosts matched the selector"
  | .ok hosts => (.fanning ⟨x, hosts, none⟩, [.resolved hosts, .respond (.ok ())])

/-- The beginning of {lit}`dispatch`, {lit}`exec` and {lit}`shell`. -/
def CallStart.begin : CallStart → Call × List CallAct
  | .dispatch subject action =>
      let out := match action with
        | none => failWith .invalidArgument "missing action"
        | some action =>
            if action.kind.text = "" then failWith .invalidArgument "action kind is empty"
            else (.deciding subject action .authorizing, [])
      (out.1, .called subject :: out.2)
  | .exec subject action params events =>
      let out := match action with
        | none => failWith .invalidArgument "missing action"
        | some action =>
            let x : ExecCall :=
              ⟨subject, action.kind, action.runAs, action.paramsHash, params, events⟩
            if action.kind.text = "" then failWith .invalidArgument "action kind is empty"
            else if action.target.text = "*" then (.askingHosts x, [])
            else x.fanOut (resolveTokens action.target)
      (out.1, .called subject :: out.2)
  | .shell subject first =>
      let out := match first with
        | none => failWith .invalidArgument "shell stream closed before ShellOpen"
        | some (.opening o) =>
            match HostId.parse o.hostId.text with
            | none => failWith .invalidArgument "host_id is not a UUID"
            | some host => (.opening subject o host .authorizing, [])
        | some _ => failWith .invalidArgument "first shell message must be ShellOpen"
      (out.1, .called subject :: out.2)

/-- One step of a call.  What is not awaited changes nothing. -/
def Call.step : Call → CallInput → Call × List CallAct
  | .deciding subject action gate, .gate input _ _ =>
      let out := authorizeAndAudit subject action gate input
      match out.1 with
      | .waiting gate => (.deciding subject action gate, out.2)
      | .decided .allow => (.finished, out.2 ++ [.respond (.ok ())])
      | .decided .deny =>
          (.finished,
            out.2 ++ [.respond (.error ⟨.permissionDenied, "not authorized for this action"⟩)])
      | .failed status => (.finished, out.2 ++ [.respond (.error status)])
  | .askingHosts x, .bridgeSend ok reply =>
      if ok then (.awaitingHosts x, [.emit (.onlineHosts reply)])
      else failWith .unavailable "dispatch bridge unavailable"
  | .awaitingHosts x, .online hosts =>
      match hosts with
      | none => failWith .unavailable "dispatch bridge unavailable"
      | some hosts => x.fanOut (boundHosts hosts)
  | .fanning fan, .fan input =>
      let out := fan.step input
      (.fanning out.1, out.2)
  | .opening subject o host gate, .gate input fresh output =>
      let out := authorizeAndAudit subject o.action gate input
      match out.1 with
      | .waiting gate => (.opening subject o host gate, out.2)
      | .decided .allow => (.sendingOpen o host fresh output, out.2)
      | .decided .deny =>
          (.finished,
            out.2 ++ [.respond (.error ⟨.permissionDenied, "not authorized to open a shell here"⟩)])
      | .failed status => (.finished, out.2 ++ [.respond (.error status)])
  | .sendingOpen o host streamId output, .bridgeSend ok _ =>
      if ok then
        (.pumping host streamId,
          [.emit (.openShell host streamId o.runAs o.rows o.cols output), .respond (.ok ())])
      else failWith .unavailable "dispatch bridge unavailable"
  | .pumping host streamId, .message msg =>
      match msg with
      | some (.input data) => (.sendingInput host streamId data, [])
      | some .close => (.sendingClose host streamId, [])
      | none => (.sendingClose host streamId, [])
      | some _ => (.pumping host streamId, [])
  | .sendingInput host streamId data, .bridgeSend ok _ =>
      if ok then (.pumping host streamId, [.emit (.shellInput host streamId data)])
      else (.sendingClose host streamId, [])
  | .sendingClose host streamId, .bridgeSend ok _ =>
      (.finished, if ok then [.emit (.shellClose host streamId)] else [])
  | call, _ => (call, [])

/-! ## The service -/

/-- The calls in progress. -/
structure Service where
  calls : Table Nat Call
  next : Nat

def Service.new : Service := ⟨∅, 0⟩

/-- A call arrives, or one of them meets something. -/
inductive ServiceEvent where
  | call (start : CallStart)
  | input (id : Nat) (input : CallInput)

/-- One step of the service; every act is logged with its call. -/
def serviceStep (s : Service) : ServiceEvent → Service × List (Nat × CallAct)
  | .call start =>
      (⟨s.calls.put s.next start.begin.1, s.next + 1⟩, start.begin.2.map (Prod.mk s.next))
  | .input id input =>
      match s.calls.lookup id with
      | none => (s, [])
      | some call =>
          ({ s with calls := s.calls.put id (call.step input).1 },
            (call.step input).2.map (Prod.mk id))

/-- A run of the service with the log of all acts. -/
def serviceRun (s : Service) : List ServiceEvent → Service × List (Nat × CallAct)
  | [] => (s, [])
  | ev :: events =>
      let here := serviceStep s ev
      let later := serviceRun here.1 events
      (later.1, here.2 ++ later.2)

end Coordinator
end OpenSsmAgent
