import OpenSsmAgent.Coordinator.Bridge

/-!
# What a forwarded message or a command amounts to

The handlers of the bridge return early in some thirty places.  {lit}`Intake` lists
what is left of the messages: a message is ignored, is a heartbeat, is a hello that
the stores admitted, or carries an envelope that opens with a fresh count under the
keys of the host it is addressed to.  {lit}`Handled` does the same for the commands of
the operator service.  Everything proved about a turn of the bridge starts from
these two lists.

Main results:

- Theorem {lit}`onMessage_intake`: every forwarded message is one of these.
- Theorem {lit}`handleCommand_handled`: every command is one of these.
-/

open Framing SymbolicCrypto

namespace OpenSsmAgent
namespace Coordinator

open Seal Wire Domain Hs Proto

/-! ## Authenticated payloads -/

/-- A hello that passed every check of {lit}`handle_client_hello` up to and
including the epoch store's answer. -/
structure Admitted {fromDer : FromDer} (ca : EmbeddedCa fromDer) (env : StepEnv) (b : Bridge)
    (tenant : String) (payload : Payload) (c : CheckedHello) (resp : ServerResponse) : Prop where
  checked : checkHello ca env.utcNow tenant payload b.sessions = some c
  unrevoked : env.isRevoked c.host.hostId = .ok false
  responded : c.respond ca env.eph = .ok resp
  admitted : env.admitEpoch c.host.hostId c.hello.epoch = .ok true

/-- The payload is an envelope that opens with a fresh count on a host's session. -/
structure OpensOn (b : Bridge) (host : HostId) (payload : Payload) (e : Envelope) (s : Session)
    (p : Bytes) : Prop where
  envelope : payload.envelope = some e
  session : b.sessions.get host = some s
  opens : (s.openUplink e).1 = some p

/-- The payload is an envelope that opens with a fresh count on a host's live
shell. -/
structure OpensOnShell (b : Bridge) (host : HostId) (payload : Payload) (e : Envelope)
    (r : ShellRoute) (p : Bytes) : Prop where
  envelope : payload.envelope = some e
  route : b.shells.lookup host = some r
  opens : (openGuarded r.streamKeys .agentToCoord r.recvHigh e).1 = some p

/-- What a checked hello has been checked for. -/
theorem checkHello_eq_some {fromDer : FromDer} {ca : EmbeddedCa fromDer} {utcNow : Int}
    {tenant : String} {payload : Payload} {sessions : SessionStore} {c : CheckedHello}
    (h : checkHello ca utcNow tenant payload sessions = some c) :
    payload.clientHello = some c.hello ∧ toPoint c.hello.clientEph = some c.clientEph ∧
      ca.verifyHostCert utcNow c.hello.certDer = .ok c.host ∧
      Topics.tenant c.host.hostId.toStr.text = tenant ∧
      ∀ s, sessions.get c.host.hostId = some s → s.sid ≠ c.hello.sid := by
  unfold checkHello at h
  split at h
  · cases h
  rename_i hello hhello
  split at h
  · cases h
  rename_i point hpoint
  split at h
  · cases h
  split at h
  · cases h
  rename_i verified hverify
  split at h
  · cases h
  rename_i htenant
  split at h
  · cases h
  rename_i hfresh
  obtain rfl := Option.some.inj h
  refine ⟨hhello, hpoint, hverify, not_not.mp htenant, ?_⟩
  intro s hget
  simpa [hget] using hfresh

/-- A hello that is not admitted is ignored. -/
theorem handleClientHello_cases {fromDer : FromDer} (ca : EmbeddedCa fromDer) (env : StepEnv)
    (b : Bridge) (tenant : String) (payload : Payload) :
    handleClientHello ca env b tenant payload = (b, [], none) ∨
      ∃ c resp, Admitted ca env b tenant payload c resp ∧
        handleClientHello ca env b tenant payload = establish env b c resp := by
  unfold handleClientHello
  split
  · exact Or.inl rfl
  rename_i c hcheck
  split
  · exact Or.inl rfl
  · exact Or.inl rfl
  rename_i hrevoked
  split
  · exact Or.inl rfl
  rename_i resp hrespond
  split
  · exact Or.inl rfl
  · exact Or.inl rfl
  rename_i hadmit
  exact Or.inr ⟨c, resp, ⟨hcheck, hrevoked, hrespond, hadmit⟩, rfl⟩

/-- What does not open on a session leaves it as it was. -/
theorem Session.openUplink_of_none {s : Session} {e : Envelope} (h : (s.openUplink e).1 = none) :
    s.openUplink e = (none, s) := by
  have hreject : openGuarded s.keys .agentToCoord s.recvHigh e = (none, s.recvHigh) :=
    Prod.ext h (ReplayGuard.guardedOpen_reject h)
  simp only [Session.openUplink, hreject]

/-- What does not open on a shell leaves its route as it was. -/
theorem ShellRoute.openUplink_of_none {r : ShellRoute} {e : Envelope}
    (h : (openGuarded r.streamKeys .agentToCoord r.recvHigh e).1 = none) :
    r.openUplink e = (none, r) := by
  have hreject : openGuarded r.streamKeys .agentToCoord r.recvHigh e = (none, r.recvHigh) :=
    Prod.ext h (ReplayGuard.guardedOpen_reject h)
  simp only [ShellRoute.openUplink, hreject, Option.bind_none]

/-- Writing a session back changes nothing. -/
theorem Bridge.setSession_of_get {b : Bridge} {host : HostId} {s : Session}
    (h : b.sessions.get host = some s) : b.setSession host s = b := by
  simp only [Bridge.setSession, SessionStore.set_of_get h]

/-- Nor does writing a route back. -/
theorem Bridge.setRoute_of_lookup {b : Bridge} {host : HostId} {r : ShellRoute}
    (h : b.shells.lookup host = some r) : b.setRoute host r = b := by
  simp only [Bridge.setRoute, Table.put_of_lookup h]

/-! ## The cases -/

/-- The answer to a hello. -/
def CheckedHello.answer (c : CheckedHello) (resp : ServerResponse) : Message :=
  .serverHello ⟨c.hello.sid, ofPoint resp.serverEph, resp.sig⟩

/-- The session a hello starts. -/
def CheckedHello.session (c : CheckedHello) (resp : ServerResponse) : Session :=
  Session.start c.hello.sid resp.keys

/-- The bridge with a hello's session stored and its beacon sealed. -/
def CheckedHello.store (c : CheckedHello) (resp : ServerResponse) (b : Bridge) : Bridge :=
  (b.setSession c.host.hostId (c.session resp)).setSession c.host.hostId
    { c.session resp with sendSeq := 1 }

/-- What a forwarded message amounts to. -/
inductive Intake {fromDer : FromDer} (cfg : BridgeConfig fromDer) (env : StepEnv) (b : Bridge)
    (topic : String) (payload : Payload) : Bridge × List Effect → Prop
  | ignored : Intake cfg env b topic payload (b, [])
  | heartbeat {tenant : String} (htopic : Topics.tenantFromHeartbeat topic = some tenant) :
      Intake cfg env b topic payload
        ({ b with lastSeen := (recordHeartbeat b.lastSeen tenant env.now maxTrackedHosts).1 }, [])
  /-- The session is stored, but its answer does not leave: nothing is purged. -/
  | unanswered {tenant : String} {c : CheckedHello} {resp : ServerResponse}
      (htopic : Topics.tenantFromHsUp topic = some tenant)
      (hadmitted : Admitted cfg.ca env b tenant payload c resp)
      (hpublish : env.publish (Topics.hsDown c.host.hostId.toStr.text) (c.answer resp) = false)
      (hroom : b.sessions.get c.host.hostId = none →
        b.sessions.byHost.size < b.sessions.cap) :
      Intake cfg env b topic payload
        (b.setSession c.host.hostId (c.session resp),
          [env.publishTo (Topics.hsDown c.host.hostId.toStr.text) (c.answer resp)])
  /-- The session is established. -/
  | established {tenant : String} {c : CheckedHello} {resp : ServerResponse}
      (htopic : Topics.tenantFromHsUp topic = some tenant)
      (hadmitted : Admitted cfg.ca env b tenant payload c resp)
      (hpublish : env.publish (Topics.hsDown c.host.hostId.toStr.text) (c.answer resp) = true)
      (hroom : b.sessions.get c.host.hostId = none →
        b.sessions.byHost.size < b.sessions.cap) :
      Intake cfg env b topic payload
        ((purgeHostJobs env (c.store resp b) c.host.hostId).1.dropRoute c.host.hostId,
          [env.publishTo (Topics.hsDown c.host.hostId.toStr.text) (c.answer resp),
            .sealed (c.session resp).sealCall,
            env.publishTo (Topics.ctrlDown c.host.hostId.toStr.text)
              (.envelope ((c.session resp).sealDownlink c.host.hostId.toStr ctrlSessionReady).1)] ++
          (purgeHostJobs env (c.store resp b) c.host.hostId).2)
  /-- A control acknowledgement names its host itself. -/
  | control {tenant : String} {host : HostId} {e : Envelope} {s : Session} {p : Bytes}
      (htopic : Topics.tenantFromCtrlUp topic = some tenant)
      (hhost : HostId.parse e.hostId.text = some host) (hopens : OpensOn b host payload e s p)
      (hsid : s.sid = e.sid) :
      Intake cfg env b topic payload
        (b.setSession host (s.openUplink e).2,
          if p = ctrlSessionAck then [.confirmed host] else [])
  /-- A result that cannot be decoded or belongs to no pending job. -/
  | unclaimed {tenant : String} {host : HostId} {e : Envelope} {s : Session} {p : Bytes}
      (htopic : Topics.tenantFromResultUp topic = some tenant)
      (hhost : HostId.parse tenant = some host) (hopens : OpensOn b host payload e s p) :
      Intake cfg env b topic payload (b.setSession host (s.openUplink e).2, [])
  /-- A result goes to the operator of its job. -/
  | result {tenant : String} {host : HostId} {e : Envelope} {s : Session} {p : Bytes}
      {result : JobResult} {job : PendingJob}
      (htopic : Topics.tenantFromResultUp topic = some tenant)
      (hhost : HostId.parse tenant = some host) (hopens : OpensOn b host payload e s p)
      (hdecode : JobResult.decode p = some result)
      (hjob : b.pending.lookup (host, result.jobId) = some job) :
      Intake cfg env b topic payload
        (if env.sendEvent job.events host result = .ok ∧ JobResult.isTerminal result = false then
          b.setSession host (s.openUplink e).2
        else (b.setSession host (s.openUplink e).2).dropPending (host, result.jobId),
        [env.eventTo job.events host result])
  /-- A stream frame that cannot be decoded. -/
  | garbled {tenant : String} {host : HostId} {e : Envelope} {r : ShellRoute} {p : Bytes}
      (htopic : Topics.tenantFromStreamUp topic = some tenant)
      (hhost : HostId.parse tenant = some host) (hopens : OpensOnShell b host payload e r p) :
      Intake cfg env b topic payload (b.setRoute host (r.openUplink e).2, [])
  /-- A frame goes to the operator of the shell, which lives on. -/
  | frame {tenant : String} {host : HostId} {e : Envelope} {r : ShellRoute} {p : Bytes}
      {f : StreamFrame} (htopic : Topics.tenantFromStreamUp topic = some tenant)
      (hhost : HostId.parse tenant = some host) (hopens : OpensOnShell b host payload e r p)
      (hdecode : StreamFrame.decode p = some f) :
      Intake cfg env b topic payload
        (b.setRoute host (r.openUplink e).2, [env.frameTo r.output f])
  /-- The last frame of a shell, or one that its operator does not take. -/
  | lastFrame {tenant : String} {host : HostId} {e : Envelope} {r : ShellRoute} {p : Bytes}
      {f : StreamFrame} (htopic : Topics.tenantFromStreamUp topic = some tenant)
      (hhost : HostId.parse tenant = some host) (hopens : OpensOnShell b host payload e r p)
      (hdecode : StreamFrame.decode p = some f) :
      Intake cfg env b topic payload
        (b.dropRoute host,
          env.frameTo r.output f :: (sealFrame env host (r.openUplink e).2 eofFrame).1)
  /-- An inventory report; at most the upsert is started. -/
  | inventory {tenant : String} {host : HostId} {e : Envelope} {s : Session} {p : Bytes}
      {effects : List Effect} (htopic : Topics.tenantFromInventoryUp topic = some tenant)
      (hhost : HostId.parse tenant = some host) (hopens : OpensOn b host payload e s p)
      (heffects : ∀ effect ∈ effects, ∃ inv, Inventory.decode p = some inv ∧
        effect = .upsert host inv) :
      Intake cfg env b topic payload (b.setSession host (s.openUplink e).2, effects)

/-- What a command of the operator service amounts to. -/
inductive Handled (env : StepEnv) (b : Bridge) : BridgeCommand → Bridge × List Effect → Prop
  /-- A dispatch is refused before anything is sealed. -/
  | refused {host : HostId} {dispatch : Dispatch} {events : Channel} (message : Str) :
      Handled env b (.dispatch host dispatch events)
        (b, [env.eventTo events host (errorResult dispatch.jobId message)])
  /-- The broker does not take a dispatch; the count is spent all the same. -/
  | unreached {host : HostId} {dispatch : Dispatch} {events : Channel} {s : Session}
      (message : Str) (hget : b.sessions.get host = some s)
      (hsent : (sealDispatch env b host s dispatch.encode).2.2 = false) :
      Handled env b (.dispatch host dispatch events)
        ((sealDispatch env b host s dispatch.encode).1,
          (sealDispatch env b host s dispatch.encode).2.1 ++
            [env.eventTo events host (errorResult dispatch.jobId message)])
  | dispatched {host : HostId} {dispatch : Dispatch} {events : Channel} {s : Session}
      (hfree : b.pending.lookup (host, dispatch.jobId) = none)
      (hroom : b.pending.size < maxPendingJobs) (hget : b.sessions.get host = some s)
      (hsent : (sealDispatch env b host s dispatch.encode).2.2 = true) :
      Handled env b (.dispatch host dispatch events)
        ((sealDispatch env b host s dispatch.encode).1.addPending (host, dispatch.jobId)
            ⟨events, env.now + pendingTtl⟩,
          (sealDispatch env b host s dispatch.encode).2.1)
  | online {reply : Channel} :
      Handled env b (.onlineHosts reply) (b, [.hosts reply b.sessions.hostIds])
  | offline {host : HostId} {streamId runAs : Str} {rows cols : UInt32} {output : Channel} :
      Handled env b (.openShell host streamId runAs rows cols output)
        (b, [env.frameTo output eofFrame])
  | unopened {host : HostId} {streamId runAs : Str} {rows cols : UInt32} {output : Channel}
      {s : Session} {plaintext : Bytes} (hget : b.sessions.get host = some s)
      (hsent : (sealDispatch env b host s plaintext).2.2 = false) :
      Handled env b (.openShell host streamId runAs rows cols output)
        ((sealDispatch env b host s plaintext).1,
          (sealDispatch env b host s plaintext).2.1 ++ [env.frameTo output eofFrame])
  | opened {host : HostId} {streamId runAs : Str} {rows cols : UInt32} {output : Channel}
      {s : Session} {plaintext : Bytes} (hget : b.sessions.get host = some s)
      (hplain : plaintext = Dispatch.encode
        ⟨streamId, Str.lit "shell", runAs, ShellParams.encode ⟨rows, cols⟩⟩)
      (hsent : (sealDispatch env b host s plaintext).2.2 = true) :
      Handled env b (.openShell host streamId runAs rows cols output)
        ((sealDispatch env b host s plaintext).1.setRoute host
            ⟨streamId, s.deriveStreamKeys streamId.bytes, s.sid, 0, none, output⟩,
          (sealDispatch env b host s plaintext).2.1)
  /-- Input for a shell that is not the host's live one. -/
  | strayInput {host : HostId} {streamId : Str} {data : Blob} :
      Handled env b (.shellInput host streamId data) (b, [])
  | typed {host : HostId} {streamId : Str} {data : Blob} {r : ShellRoute}
      (hlookup : b.shells.lookup host = some r) (hid : r.streamId = streamId)
      (hsent : (sealFrame env host r ⟨data, false⟩).2.2 = true) :
      Handled env b (.shellInput host streamId data)
        (b.setRoute host (sealFrame env host r ⟨data, false⟩).2.1,
          (sealFrame env host r ⟨data, false⟩).1)
  /-- Input that the broker does not take ends the shell. -/
  | cut {host : HostId} {streamId : Str} {data : Blob} {r : ShellRoute}
      (hlookup : b.shells.lookup host = some r) (hid : r.streamId = streamId)
      (hsent : (sealFrame env host r ⟨data, false⟩).2.2 = false) :
      Handled env b (.shellInput host streamId data)
        (b.dropRoute host, (sealFrame env host r ⟨data, false⟩).1)
  | strayClose {host : HostId} {streamId : Str} :
      Handled env b (.shellClose host streamId) (b, [])
  | closed {host : HostId} {streamId : Str} {r : ShellRoute}
      (hlookup : b.shells.lookup host = some r) (hid : r.streamId = streamId) :
      Handled env b (.shellClose host streamId)
        (b.dropRoute host, (sealFrame env host r eofFrame).1)

/-! ## Every message is one of the cases -/

section Cases

variable {fromDer : FromDer} {cfg : BridgeConfig fromDer} {env : StepEnv} {b : Bridge}
  {topic tenant : String} {payload : Payload}

/-- A hello. -/
theorem onHello_intake (htopic : Topics.tenantFromHsUp topic = some tenant) :
    Intake cfg env b topic payload (onHello cfg.ca env b tenant payload) := by
  unfold onHello
  rcases handleClientHello_cases cfg.ca env b tenant payload with
    hignored | ⟨c, resp, hadmitted, hestablish⟩
  · rw [hignored]
    exact .ignored
  rw [hestablish]
  unfold establish
  rcases b.sessions.insert_eq c.host.hostId c.hello.sid resp.keys with hinsert | ⟨hinsert, hroom⟩
  · simp only [hinsert]
    exact .ignored
  simp only [hinsert]
  by_cases hpublish : env.publish (Topics.hsDown c.host.hostId.toStr.text) (c.answer resp) = true
  · rw [CheckedHello.answer] at hpublish
    rw [if_pos hpublish]
    exact .established htopic hadmitted hpublish hroom
  · rw [CheckedHello.answer] at hpublish
    rw [if_neg hpublish]
    exact .unanswered htopic hadmitted (Bool.eq_false_iff.mpr hpublish) hroom

/-- A control acknowledgement. -/
theorem handleCtrlAck_intake (htopic : Topics.tenantFromCtrlUp topic = some tenant) :
    Intake cfg env b topic payload (handleCtrlAck b payload) := by
  unfold handleCtrlAck
  split
  · exact .ignored
  · rename_i e henv
    split
    · exact .ignored
    · rename_i host hhost
      split
      · exact .ignored
      · rename_i s hget
        split
        · exact .ignored
        · rename_i hsid
          dsimp only
          cases hopen : (s.openUplink e).1 with
          | none =>
              rw [Session.openUplink_of_none hopen, Bridge.setSession_of_get hget]
              exact .ignored
          | some p =>
              simp only [Option.some.injEq]
              exact .control htopic hhost ⟨henv, hget, hopen⟩ (not_not.mp hsid)

/-- A result. -/
theorem handleResult_intake (htopic : Topics.tenantFromResultUp topic = some tenant) :
    Intake cfg env b topic payload (handleResult env b tenant payload) := by
  unfold handleResult
  split
  · exact .ignored
  · rename_i host hhost
    split
    · exact .ignored
    · rename_i e henv
      split
      · exact .ignored
      · rename_i s hget
        dsimp only
        cases hopen : (s.openUplink e).1 with
        | none =>
            rw [Session.openUplink_of_none hopen, Bridge.setSession_of_get hget]
            exact .ignored
        | some p =>
            have hopens : OpensOn b host payload e s p := ⟨henv, hget, hopen⟩
            rw [Option.bind_some]
            cases hdecode : JobResult.decode p with
            | none => exact .unclaimed htopic hhost hopens
            | some result =>
                dsimp only
                cases hjob : b.pending.lookup (host, result.jobId) with
                | none =>
                    simp only [Bridge.setSession, hjob]
                    exact .unclaimed htopic hhost hopens
                | some job =>
                    have hcase : Intake cfg env b topic payload _ :=
                      .result htopic hhost hopens hdecode hjob
                    simp only [Bridge.setSession, hjob] at hcase ⊢
                    cases hsent : env.sendEvent job.events host result <;>
                      cases hterminal : JobResult.isTerminal result <;>
                      simpa [hsent, hterminal] using hcase

/-- A stream frame. -/
theorem handleStreamUp_intake (htopic : Topics.tenantFromStreamUp topic = some tenant) :
    Intake cfg env b topic payload (handleStreamUp env b tenant payload) := by
  unfold handleStreamUp
  split
  · exact .ignored
  · rename_i host hhost
    split
    · exact .ignored
    · rename_i r hget
      split
      · exact .ignored
      · rename_i e henv
        cases hopen : (openGuarded r.streamKeys .agentToCoord r.recvHigh e).1 with
        | none =>
            rw [ShellRoute.openUplink_of_none hopen]
            dsimp only
            rw [Bridge.setRoute_of_lookup hget]
            exact .ignored
        | some p =>
            have hopens : OpensOnShell b host payload e r p := ⟨henv, hget, hopen⟩
            have hread : (r.openUplink e).1 = StreamFrame.decode p := by
              simp only [ShellRoute.openUplink, hopen, Option.bind_some]
            split <;> rename_i hresult <;> rw [hresult] at hread
            · have hcase : Intake cfg env b topic payload _ := .garbled htopic hhost hopens
              rwa [hresult] at hcase
            · rename_i f r'
              have hframe : Intake cfg env b topic payload _ :=
                .frame htopic hhost hopens hread.symm
              have hlast : Intake cfg env b topic payload _ :=
                .lastFrame htopic hhost hopens hread.symm
              have hout : r'.output = r.output := by
                have hroute : r' = (r.openUplink e).2 := by rw [hresult]
                rw [hroute]
                rfl
              rw [hresult] at hframe hlast
              dsimp only at hframe hlast ⊢
              rw [hout]
              split
              · split
                · exact hlast
                · exact hframe
              · exact hframe
              · exact hlast

/-- An inventory report. -/
theorem onInventory_intake (htopic : Topics.tenantFromInventoryUp topic = some tenant) :
    Intake cfg env b topic payload (onInventory cfg.inventorySink env b tenant payload) := by
  unfold onInventory decodeInventory
  split
  · split
    · exact .ignored
    · rename_i host hhost
      split
      · exact .ignored
      · rename_i e henv
        split
        · exact .ignored
        · rename_i s hget
          dsimp only
          cases hopen : (s.openUplink e).1 with
          | none =>
              rw [Session.openUplink_of_none hopen, SessionStore.set_of_get hget]
              exact .ignored
          | some p =>
              refine .inventory htopic hhost ⟨henv, hget, hopen⟩ ?_
              intro effect hmem
              rw [Option.bind_some] at hmem
              cases hdecode : Inventory.decode p with
              | none => simp [hdecode] at hmem
              | some inv =>
                  simp only [hdecode, Option.map_some] at hmem
                  split at hmem
                  · exact ⟨inv, rfl, List.mem_singleton.mp hmem⟩
                  · simp at hmem
  · exact .ignored

/-- Every forwarded message is ignored, a heartbeat, an admitted hello or an
envelope that opens. -/
theorem onMessage_intake (cfg : BridgeConfig fromDer) (env : StepEnv) (b : Bridge)
    (topic : String) (payload : Payload) :
    Intake cfg env b topic payload (onMessage cfg env b topic payload) := by
  unfold onMessage
  split
  · rename_i htopic
    exact .heartbeat htopic
  split
  · rename_i htopic
    exact onHello_intake htopic
  split
  · rename_i htopic
    exact handleCtrlAck_intake htopic
  split
  · rename_i htopic
    exact handleResult_intake htopic
  split
  · rename_i htopic
    exact handleStreamUp_intake htopic
  split
  · rename_i htopic
    exact onInventory_intake htopic
  · exact .ignored

end Cases

/-! ## Every command is one of the cases -/

section Commands

variable {env : StepEnv} {b : Bridge}

/-- A dispatch. -/
theorem handleDispatch_handled (host : HostId) (dispatch : Dispatch) (events : Channel) :
    Handled env b (.dispatch host dispatch events)
      (handleDispatch env b host dispatch events) := by
  unfold handleDispatch
  dsimp only
  split
  · exact .refused _
  rename_i hfree
  split
  · exact .refused _
  rename_i hroom
  split
  · exact .refused _
  · rename_i s hget
    split <;> rename_i hresult
    · have hcase : Handled env b (.dispatch host dispatch events) _ :=
        .dispatched (Option.not_isSome_iff_eq_none.mp hfree) (not_le.mp hroom) hget
          (by rw [hresult])
      rw [hresult] at hcase
      exact hcase
    · have hcase : Handled env b (.dispatch host dispatch events) _ :=
        .unreached (Str.lit "failed to reach the host") hget (by rw [hresult])
      rw [hresult] at hcase
      exact hcase

/-- A shell open. -/
theorem openShell_handled (host : HostId) (streamId runAs : Str) (rows cols : UInt32)
    (output : Channel) :
    Handled env b (.openShell host streamId runAs rows cols output)
      (openShell env b host streamId runAs rows cols output) := by
  unfold openShell
  split
  · exact .offline
  · rename_i s hget
    dsimp only
    generalize hplain : Dispatch.encode _ = plaintext
    split <;> rename_i hresult
    · have hcase : Handled env b (.openShell host streamId runAs rows cols output) _ :=
        .unopened hget (by rw [hresult])
      rw [hresult] at hcase
      exact hcase
    · have hcase : Handled env b (.openShell host streamId runAs rows cols output) _ :=
        .opened hget hplain.symm (by rw [hresult])
      rw [hresult] at hcase
      exact hcase

/-- Keystrokes. -/
theorem shellInput_handled (host : HostId) (streamId : Str) (data : Blob) :
    Handled env b (.shellInput host streamId data) (shellInput env b host streamId data) := by
  unfold shellInput
  split
  · exact .strayInput
  · rename_i r hlookup
    split
    · exact .strayInput
    · rename_i hid
      split <;> rename_i hresult
      · have hcase : Handled env b (.shellInput host streamId data) _ :=
          .typed hlookup (not_not.mp hid) (by rw [hresult])
        rw [hresult] at hcase
        exact hcase
      · have hcase : Handled env b (.shellInput host streamId data) _ :=
          .cut hlookup (not_not.mp hid) (by rw [hresult])
        rw [hresult] at hcase
        exact hcase

/-- A shell close. -/
theorem shellClose_handled (host : HostId) (streamId : Str) :
    Handled env b (.shellClose host streamId) (shellClose env b host streamId) := by
  unfold shellClose
  split
  · exact .strayClose
  · rename_i r hlookup
    split
    · exact .strayClose
    · rename_i hid
      exact .closed hlookup (not_not.mp hid)

/-- Every command is refused, ignored, or seals one envelope on the session or the
shell of the host it names. -/
theorem handleCommand_handled (env : StepEnv) (b : Bridge) (cmd : BridgeCommand) :
    Handled env b cmd (handleCommand env b cmd) := by
  cases cmd with
  | dispatch host dispatch events => exact handleDispatch_handled host dispatch events
  | onlineHosts reply => exact .online
  | openShell host streamId runAs rows cols output =>
      exact openShell_handled host streamId runAs rows cols output
  | shellInput host streamId data => exact shellInput_handled host streamId data
  | shellClose host streamId => exact shellClose_handled host streamId

end Commands

end Coordinator
end OpenSsmAgent
