import OpenSsmAgent.Coordinator.Intake

/-!
# What the bridge publishes to a host

Seen from one host, a turn of the bridge seals and publishes at most one message:
a dispatch or a shell open on the session, keystrokes or the end of the stream on
the shell route.  Only a new session of the host is more than that.

Main results:

- Theorem {lit}`step_hostTurn`: what a turn does to the session and the route of one
  host, and what it hands to the broker for it.
-/

open Framing SymbolicCrypto

namespace OpenSsmAgent
namespace Coordinator

open Seal Wire Domain Hs Proto

/-! ## Messages for a host -/

/-- The downlink topics of a host. -/
def downTopics (host : HostId) : List String :=
  [Topics.hsDown host.toStr.text, Topics.ctrlDown host.toStr.text,
    Topics.dispatchDown host.toStr.text, Topics.streamDown host.toStr.text]

/-- What some effects hand to the broker for a host. -/
def sentTo (host : HostId) (es : List Effect) : List (String × Message) :=
  es.filterMap (fun
    | .published topic m true => if topic ∈ downTopics host then some (topic, m) else none
    | _ => none)

section Sent

variable {host : HostId}

/-- The downlinks of a host are its own. -/
theorem downTopics_subset {host target : HostId} {tail : String}
    (h : Topics.topic target.toStr.text tail ∈ downTopics host) : target = host := by
  simp only [downTopics, Topics.hsDown, Topics.ctrlDown, Topics.dispatchDown, Topics.streamDown,
    List.mem_cons, List.not_mem_nil, or_false] at h
  rcases h with h | h | h | h <;> exact (Topics.topic_inj h).1

/-- The messages of two lists. -/
theorem sentTo_append (es es' : List Effect) :
    sentTo host (es ++ es') = sentTo host es ++ sentTo host es' :=
  List.filterMap_append

/-- Effects that publish nothing on the host's downlinks. -/
theorem sentTo_eq_nil {es : List Effect}
    (h : ∀ topic m, .published topic m true ∈ es → topic ∉ downTopics host) :
    sentTo host es = [] := by
  refine List.filterMap_eq_nil_iff.mpr ?_
  intro e he
  cases e with
  | published topic m ok =>
      cases ok with
      | true => exact if_neg (h topic m he)
      | false => rfl
  | _ => rfl

/-- One message for the host. -/
theorem sentTo_publishTo (env : StepEnv) {topic : String} (m : Message)
    (htopic : topic ∈ downTopics host) :
    sentTo host [env.publishTo topic m] = if env.publish topic m then [(topic, m)] else [] := by
  cases hpublish : env.publish topic m <;> simp [sentTo, StepEnv.publishTo, hpublish, htopic]

/-- Messages for another host. -/
theorem sentTo_publishTo_of_ne (env : StepEnv) {target : HostId} (tail : String) (m : Message)
    (hne : target ≠ host) :
    sentTo host [env.publishTo (Topics.topic target.toStr.text tail) m] = [] := by
  refine sentTo_eq_nil ?_
  intro topic m' hmem hdown
  rw [List.mem_singleton, StepEnv.publishTo, Effect.published.injEq] at hmem
  rw [hmem.1] at hdown
  exact hne (downTopics_subset hdown)

/-- A seal is not a message. -/
theorem sentTo_cons_sealed (call : SealCall) (es : List Effect) :
    sentTo host (.sealed call :: es) = sentTo host es :=
  rfl

end Sent

/-! ## What a turn does to one host -/

/-- The session of a host without its uplink guard. -/
def Bridge.sessionView (b : Bridge) (host : HostId) : Option (Str × SessionKeys × Nat) :=
  (b.sessions.get host).map fun s => (s.sid, s.keys, s.sendSeq)

/-- The shell route of a host without its uplink guard and its operator. -/
def Bridge.routeView (b : Bridge) (host : HostId) : Option (Str × SessionKeys × Nat) :=
  (b.shells.lookup host).map fun r => (r.streamId, r.streamKeys, r.sendSeq)

/-- What a turn does to one host. -/
inductive HostTurn (host : HostId) (b : Bridge) (ev : BridgeEvent)
    (out : Bridge × List Effect) : Prop
  /-- Nothing is sealed. -/
  | quiet (hsession : out.1.sessionView host = b.sessionView host)
      (hroute : out.1.routeView host = b.routeView host) (hsent : sentTo host out.2 = [])
  /-- Something is sealed that does not leave. -/
  | unsent {s : Session} (hget : b.sessions.get host = some s)
      (hsession : out.1.sessionView host = some (s.sid, s.keys, s.sendSeq + 1))
      (hroute : out.1.routeView host = b.routeView host) (hsent : sentTo host out.2 = [])
  | dispatched {s : Session} {dispatch : Dispatch} {events : Channel}
      (hev : ev = .command (.dispatch host dispatch events))
      (hget : b.sessions.get host = some s)
      (hsession : out.1.sessionView host = some (s.sid, s.keys, s.sendSeq + 1))
      (hroute : out.1.routeView host = b.routeView host)
      (hsent : sentTo host out.2 = [(Topics.dispatchDown host.toStr.text,
        .envelope (s.sealDownlink host.toStr dispatch.encode).1)])
  | opened {s : Session} {streamId runAs : Str} {params : Blob}
      (hget : b.sessions.get host = some s)
      (hsession : out.1.sessionView host = some (s.sid, s.keys, s.sendSeq + 1))
      (hroute : out.1.routeView host = some (streamId, s.keys.deriveStream streamId.bytes, 0))
      (hsent : sentTo host out.2 = [(Topics.dispatchDown host.toStr.text,
        .envelope (s.sealDownlink host.toStr
          (Dispatch.encode ⟨streamId, Str.lit "shell", runAs, params⟩)).1)])
  | typed {r : ShellRoute} {data : Blob} (hlookup : b.shells.lookup host = some r)
      (hsession : out.1.sessionView host = b.sessionView host)
      (hroute : out.1.routeView host = some (r.streamId, r.streamKeys, r.sendSeq + 1))
      (hsent : sentTo host out.2 = [(Topics.streamDown host.toStr.text,
        .envelope (r.sealDownlink host.toStr ⟨data, false⟩).1)])
  | closed {r : ShellRoute} (hlookup : b.shells.lookup host = some r)
      (hsession : out.1.sessionView host = b.sessionView host)
      (hroute : out.1.routeView host = none)
      (hsent : sentTo host out.2 = [(Topics.streamDown host.toStr.text,
        .envelope (r.sealDownlink host.toStr eofFrame).1)])
  /-- The host has another session. -/
  | replaced
      (hsession : (out.1.sessionView host).map Prod.fst ≠ (b.sessionView host).map Prod.fst)

section Turn

variable {fromDer : FromDer} {cfg : BridgeConfig fromDer} {env : StepEnv} {b b' : Bridge}
  {host target : HostId} {ev : BridgeEvent} {topic : String} {payload : Payload}

/-- The session that was set. -/
@[simp] theorem sessionView_setSession_self (s : Session) :
    (b.setSession host s).sessionView host = some (s.sid, s.keys, s.sendSeq) := by
  simp [Bridge.sessionView, Bridge.setSession]

/-- Other sessions stay. -/
theorem sessionView_setSession_ne (hne : target ≠ host) (s : Session) :
    (b.setSession target s).sessionView host = b.sessionView host := by
  rw [Bridge.sessionView, Bridge.setSession, SessionStore.get_set_ne _ _ hne.symm]
  rfl

/-- The route that was set. -/
@[simp] theorem routeView_setRoute_self (r : ShellRoute) :
    (b.setRoute host r).routeView host = some (r.streamId, r.streamKeys, r.sendSeq) := by
  simp [Bridge.routeView, Bridge.setRoute]

/-- Other routes stay. -/
theorem routeView_setRoute_ne (hne : target ≠ host) (r : ShellRoute) :
    (b.setRoute target r).routeView host = b.routeView host := by
  simp [Bridge.routeView, Bridge.setRoute, Table.lookup_put, hne.symm]

/-- The route that was dropped. -/
@[simp] theorem routeView_dropRoute_self : (b.dropRoute host).routeView host = none := by
  simp [Bridge.routeView, Bridge.dropRoute, Table.lookup_drop]

/-- Other routes stay. -/
theorem routeView_dropRoute_ne (hne : target ≠ host) :
    (b.dropRoute target).routeView host = b.routeView host := by
  simp [Bridge.routeView, Bridge.dropRoute, Table.lookup_drop, hne.symm]

/-- Reading an uplink envelope of any host's session only moves its guard. -/
theorem sessionView_openUplink {s : Session} (hget : b.sessions.get target = some s)
    (e : Envelope) :
    (b.setSession target (s.openUplink e).2).sessionView host = b.sessionView host := by
  by_cases heq : target = host
  · subst heq
    rw [sessionView_setSession_self, Bridge.sessionView, hget]
    rfl
  · exact sessionView_setSession_ne heq _

/-- So does a frame on a shell. -/
theorem routeView_openUplink {r : ShellRoute} (hlookup : b.shells.lookup target = some r)
    (e : Envelope) :
    (b.setRoute target (r.openUplink e).2).routeView host = b.routeView host := by
  by_cases heq : target = host
  · subst heq
    rw [routeView_setRoute_self, Bridge.routeView, hlookup]
    rfl
  · exact routeView_setRoute_ne heq _

/-- Sealing on the session of a host and handing the result to the broker. -/
theorem sealDispatch_sent (env : StepEnv) (b : Bridge) (host target : HostId) (s : Session)
    (plaintext : Bytes) :
    sentTo host (sealDispatch env b target s plaintext).2.1 =
      if target = host ∧ (sealDispatch env b target s plaintext).2.2 = true then
        [(Topics.dispatchDown host.toStr.text, .envelope (s.sealDownlink host.toStr plaintext).1)]
      else [] := by
  by_cases heq : target = host
  · subst heq
    simp only [sealDispatch, sentTo_cons_sealed]
    rw [sentTo_publishTo env _ (by simp [downTopics])]
    simp
  · rw [if_neg fun h => heq h.1]
    exact sentTo_publishTo_of_ne env "/down/dispatch" _ heq

/-- Sealing on the shell of a host. -/
theorem sealFrame_sent (target : HostId) (r : ShellRoute) (frame : StreamFrame)
    (hstream : ∀ m, env.publish (Topics.streamDown host.toStr.text) m = true) :
    sentTo host (sealFrame env target r frame).1 =
      if target = host then
        [(Topics.streamDown host.toStr.text, .envelope (r.sealDownlink host.toStr frame).1)]
      else [] := by
  simp only [sealFrame, sentTo_cons_sealed]
  by_cases heq : target = host
  · subst heq
    rw [sentTo_publishTo env _ (by simp [downTopics]), hstream, if_pos rfl, if_pos rfl]
  · rw [if_neg heq]
    exact sentTo_publishTo_of_ne env "/down/stream" _ heq

/-- An envelope on the session that the broker does not take. -/
theorem unsent_hostTurn {s : Session} {plaintext : Bytes} {tail : List Effect}
    (hget : b.sessions.get target = some s)
    (hsent : (sealDispatch env b target s plaintext).2.2 = false) (htail : sentTo host tail = []) :
    HostTurn host b ev ((sealDispatch env b target s plaintext).1,
      (sealDispatch env b target s plaintext).2.1 ++ tail) := by
  have hnone : sentTo host ((sealDispatch env b target s plaintext).2.1 ++ tail) = [] := by
    rw [sentTo_append, sealDispatch_sent, if_neg (by simp [hsent]), htail, List.append_nil]
  by_cases heq : target = host
  · subst heq
    exact .unsent hget (sessionView_setSession_self _) rfl hnone
  · exact .quiet (sessionView_setSession_ne heq _) rfl hnone

/-- What a command does to one host. -/
theorem Handled.hostTurn {cmd : BridgeCommand} {out : Bridge × List Effect}
    (h : Handled env b cmd out)
    (hstream : ∀ m, env.publish (Topics.streamDown host.toStr.text) m = true) :
    HostTurn host b (.command cmd) out := by
  cases h with
  | unreached message hget hsent => exact unsent_hostTurn hget hsent rfl
  | @dispatched target dispatch events s hfree hroom hget hsent =>
      have hout := sealDispatch_sent env b host target s dispatch.encode
      by_cases heq : target = host
      · subst heq
        rw [if_pos ⟨rfl, hsent⟩] at hout
        exact .dispatched rfl hget (sessionView_setSession_self _) rfl hout
      · rw [if_neg fun h => heq h.1] at hout
        exact .quiet (sessionView_setSession_ne heq _) rfl hout
  | unopened hget hsent => exact unsent_hostTurn hget hsent rfl
  | @opened target streamId runAs rows cols output s plaintext hget hplain hsent =>
      subst hplain
      have hout := sealDispatch_sent env b host target s
        (Dispatch.encode ⟨streamId, Str.lit "shell", runAs, ShellParams.encode ⟨rows, cols⟩⟩)
      by_cases heq : target = host
      · subst heq
        rw [if_pos ⟨rfl, hsent⟩] at hout
        exact .opened hget (sessionView_setSession_self _) (routeView_setRoute_self _) hout
      · rw [if_neg fun h => heq h.1] at hout
        exact .quiet (sessionView_setSession_ne heq _) (routeView_setRoute_ne heq _) hout
  | @typed target streamId data r hlookup hid hsent =>
      have hout := sealFrame_sent target r ⟨data, false⟩ hstream
      by_cases heq : target = host
      · subst heq
        rw [if_pos rfl] at hout
        exact .typed hlookup rfl (routeView_setRoute_self _) hout
      · rw [if_neg heq] at hout
        exact .quiet rfl (routeView_setRoute_ne heq _) hout
  | @cut target streamId data r hlookup hid hsent =>
      have hout := sealFrame_sent target r ⟨data, false⟩ hstream
      by_cases heq : target = host
      · subst heq
        exact absurd (hsent.symm.trans (hstream _)) Bool.false_ne_true
      · rw [if_neg heq] at hout
        exact .quiet rfl (routeView_dropRoute_ne heq) hout
  | @closed target streamId r hlookup hid =>
      have hout := sealFrame_sent target r eofFrame hstream
      by_cases heq : target = host
      · subst heq
        rw [if_pos rfl] at hout
        exact .closed hlookup rfl routeView_dropRoute_self hout
      · rw [if_neg heq] at hout
        exact .quiet rfl (routeView_dropRoute_ne heq) hout
  | _ => exact .quiet rfl rfl rfl

/-- A session of another host, or a new one of this host. -/
theorem store_hostTurn {c : CheckedHello} {resp : ServerResponse} {tenant : String}
    {out : Bridge × List Effect} (hadmitted : Admitted cfg.ca env b tenant payload c resp)
    (hself : (out.1.sessionView c.host.hostId).map Prod.fst = some c.hello.sid)
    (hother : c.host.hostId ≠ host → out.1.sessionView host = b.sessionView host ∧
      out.1.routeView host = b.routeView host ∧ sentTo host out.2 = []) :
    HostTurn host b ev out := by
  by_cases heq : c.host.hostId = host
  · subst heq
    refine .replaced ?_
    obtain ⟨-, -, -, -, hfresh⟩ := checkHello_eq_some hadmitted.checked
    rw [hself]
    intro hsame
    unfold Bridge.sessionView at hsame
    cases hget : b.sessions.get c.host.hostId with
    | none => simp [hget] at hsame
    | some s =>
        simp only [hget, Option.map_some, Option.some.injEq] at hsame
        exact hfresh s hget hsame.symm
  · obtain ⟨hsession, hroute, hsent⟩ := hother heq
    exact .quiet hsession hroute hsent

/-- What a message does to one host. -/
theorem Intake.hostTurn {out : Bridge × List Effect} (h : Intake cfg env b topic payload out)
    (hstream : ∀ m, env.publish (Topics.streamDown host.toStr.text) m = true) :
    HostTurn host b ev out := by
  cases h with
  | ignored => exact .quiet rfl rfl rfl
  | heartbeat htopic => exact .quiet rfl rfl rfl
  | unanswered htopic hadmitted hpublish =>
      refine store_hostTurn hadmitted (by simp [CheckedHello.session, Session.start]) ?_
      intro hne
      exact ⟨sessionView_setSession_ne hne _, rfl, sentTo_publishTo_of_ne env "/down/hs" _ hne⟩
  | established htopic hadmitted hpublish hroom =>
      rename_i tenant c resp
      refine store_hostTurn hadmitted ?_ ?_
      · change (((c.store resp b)).sessionView _).map Prod.fst = _
        simp [CheckedHello.store, CheckedHello.session, Session.start]
      · intro hne
        refine ⟨?_, ?_, ?_⟩
        · change ((c.store resp b)).sessionView host = _
          rw [CheckedHello.store, sessionView_setSession_ne hne, sessionView_setSession_ne hne]
        · rw [routeView_dropRoute_ne hne]
          rfl
        · have hevents : sentTo host (purgeHostJobs env (c.store resp b) c.host.hostId).2 = [] := by
            refine sentTo_eq_nil ?_
            intro topic m hmem
            simp [purgeHostJobs, StepEnv.eventTo] at hmem
          rw [sentTo_append, hevents, List.append_nil]
          have hsplit : ∀ e e' e'' : Effect, [e, e', e''] = [e] ++ (e' :: [e'']) := fun _ _ _ => rfl
          rw [hsplit, sentTo_append, sentTo_cons_sealed]
          rw [show sentTo host [env.publishTo (Topics.hsDown c.host.hostId.toStr.text) _] = [] from
            sentTo_publishTo_of_ne env "/down/hs" _ hne]
          exact sentTo_publishTo_of_ne env "/down/ctrl" _ hne
  | control htopic hhost hopens hsid =>
      refine .quiet (sessionView_openUplink hopens.session _) rfl ?_
      split <;> rfl
  | unclaimed htopic hhost hopens =>
      exact .quiet (sessionView_openUplink hopens.session _) rfl rfl
  | result htopic hhost hopens hdecode hjob =>
      refine .quiet ?_ ?_ rfl
      · split <;> exact sessionView_openUplink hopens.session _
      · split <;> rfl
  | garbled htopic hhost hopens =>
      exact .quiet rfl (routeView_openUplink hopens.route _) rfl
  | frame htopic hhost hopens hdecode =>
      exact .quiet rfl (routeView_openUplink hopens.route _) rfl
  | lastFrame htopic hhost hopens hdecode =>
      rename_i tenant target e r p f
      have hsent := sealFrame_sent target (r.openUplink e).2 eofFrame hstream
      by_cases heq : target = host
      · subst heq
        rw [if_pos rfl] at hsent
        exact .closed hopens.route rfl routeView_dropRoute_self hsent
      · rw [if_neg heq] at hsent
        exact .quiet rfl (routeView_dropRoute_ne heq) hsent
  | inventory htopic hhost hopens heffects =>
      refine .quiet (sessionView_openUplink hopens.session _) rfl (sentTo_eq_nil ?_)
      intro topic m hmem
      obtain ⟨inv, -, heq⟩ := heffects _ hmem
      cases heq

/-- What a turn does to one host, if the link takes every frame for its shell. -/
theorem step_hostTurn (cfg : BridgeConfig fromDer) (b : Bridge) (ev : BridgeEvent)
    (hstream : ∀ m, env.publish (Topics.streamDown host.toStr.text) m = true) :
    HostTurn host b ev (step cfg env b ev) := by
  cases ev with
  | message topic payload => exact (onMessage_intake cfg env b topic payload).hostTurn hstream
  | command cmd => exact (handleCommand_handled env b cmd).hostTurn hstream
  | sweep =>
      refine .quiet rfl rfl (sentTo_eq_nil ?_)
      intro topic m hmem
      simp [step, reapStaleJobs, StepEnv.eventTo] at hmem

end Turn

end Coordinator
end OpenSsmAgent
