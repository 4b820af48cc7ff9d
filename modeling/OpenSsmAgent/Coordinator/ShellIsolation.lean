import OpenSsmAgent.Coordinator.BridgeActs
import OpenSsmAgent.Coordinator.Nonces

/-!
# Isolation of shells

One route slot per host is overwritten by every new shell, while input, output
and close requests of older shells keep arriving.  What keeps the operators apart
is the stream id: it selects the stream keys, and commands name it.

Main results:

- Theorem {lit}`run_routeInv`: every route was opened by a command with its stream
  id and output channel, and holds that stream's keys.
- Theorem {lit}`shell_isolation`: frames of a stream reach only the operator that
  opened it, commands for a stream touch only its route, and a stream that is gone
  stays without any effect.
-/

open Framing SymbolicCrypto

namespace OpenSsmAgent
namespace Coordinator

open Seal Wire Domain Hs Proto

/-- An operator opened a shell with this stream id and output channel. -/
def Opened (turns : List (StepEnv × BridgeEvent)) (host : HostId) (streamId : Str)
    (output : Channel) : Prop :=
  ∃ env runAs rows cols,
    (env, BridgeEvent.command (.openShell host streamId runAs rows cols output)) ∈ turns

/-- A plaintext was sealed under an uplink key of a stream. -/
def SealedFor (streamId : Str) (e : Envelope) (p : Bytes) : Prop :=
  ∃ (keys : SessionKeys) (nonce aad : Bytes),
    e.ciphertext = .sealed ((keys.deriveStream streamId.bytes).key .agentToCoord) nonce aad p

/-- No route belongs to a stream. -/
def Gone (streamId : Str) (b : Bridge) : Prop :=
  ∀ host r, b.shells.lookup host = some r → r.streamId ≠ streamId

/-- A command of the operator of a stream. -/
inductive CommandFor (streamId : Str) : BridgeEvent → Prop
  | input (host : HostId) (data : Blob) :
      CommandFor streamId (.command (.shellInput host streamId data))
  | close (host : HostId) : CommandFor streamId (.command (.shellClose host streamId))

/-- A message whose envelope was sealed for a stream, on any topic; on the hello and
heartbeat topics the envelope is not looked at, so there it says nothing. -/
def MessageFor (streamId : Str) : BridgeEvent → Prop
  | .message topic payload =>
      (∃ e p, payload.envelope = some e ∧ SealedFor streamId e p) ∧
        Topics.tenantFromHsUp topic = none ∧ Topics.tenantFromHeartbeat topic = none
  | _ => False

/-! ## Where routes come from -/

/-- Every route was opened by a command with its stream id and output channel and
holds the keys of that stream; every session holds the keys of a handshake. -/
structure RouteInv (turns : List (StepEnv × BridgeEvent)) (b : Bridge) : Prop where
  route : ∀ host r, b.shells.lookup host = some r → Opened turns host r.streamId r.output ∧
    ∃ keys : SessionKeys, r.streamKeys = keys.deriveStream r.streamId.bytes
  session : ∀ host s, b.sessions.get host = some s → ∃ p q, SessionKeysOf p q s.keys

theorem Opened.mono {turns turns' : List (StepEnv × BridgeEvent)} {host : HostId} {streamId : Str}
    {output : Channel} (h : Opened turns host streamId output) (hsub : turns ⊆ turns') :
    Opened turns' host streamId output := by
  obtain ⟨env, runAs, rows, cols, hmem⟩ := h
  exact ⟨env, runAs, rows, cols, hsub hmem⟩

section Runs

variable {fromDer : FromDer} {cfg : BridgeConfig fromDer} {env : StepEnv} {ev : BridgeEvent}
  {b : Bridge} {turns turns' : List (StepEnv × BridgeEvent)} {streamId : Str}

theorem RouteInv.step (h : RouteInv turns b) (env : StepEnv) (ev : BridgeEvent) :
    RouteInv (turns ++ [(env, ev)]) (step cfg env b ev).1 where
  route := by
    intro host r' hget
    rcases (step_acts cfg env b ev).route_of hget with ⟨r, hr, hid, hkeys, -, hout⟩ | hnew
    · obtain ⟨hopened, keys, hstream⟩ := h.route host r hr
      rw [hid, hout, hkeys]
      exact ⟨hopened.mono (List.subset_append_left _ _), keys, hstream⟩
    · obtain ⟨runAs, rows, cols, keys, rfl, hkeys⟩ := hnew
      exact ⟨⟨env, runAs, rows, cols, by simp⟩, keys, hkeys⟩
  session := by
    intro host s' hget
    rcases (step_acts cfg env b ev).session_of hget with ⟨s, hs, -, hkeys⟩ | hnew
    · rw [hkeys]
      exact h.session host s hs
    · exact hnew

/-- Every route was opened by a command of the run. -/
theorem run_routeInv (h : RouteInv turns b) (turns' : List (StepEnv × BridgeEvent)) :
    RouteInv (turns ++ turns') (run cfg b turns').1 := by
  induction turns' generalizing b turns with
  | nil => simpa [run] using h
  | cons turn turns' ih =>
      obtain ⟨env, ev⟩ := turn
      have hstep : RouteInv (turns ++ [(env, ev)] ++ turns')
          (run cfg (step cfg env b ev).1 turns').1 := ih (h.step env ev)
      simpa [run] using hstep

theorem routeInv_new : RouteInv [] Bridge.new :=
  ⟨nofun, nofun⟩

/-! ## Streams that are gone -/

/-- A stream that is gone comes back only by being opened. -/
theorem Gone.step (h : Gone streamId b) (hev : ev.openedStream ≠ some streamId) :
    Gone streamId (step cfg env b ev).1 := by
  intro host r' hget hid
  rcases (step_acts cfg env b ev).route_of hget with ⟨r, hr, hsame, -⟩ | hnew
  · exact h host r hr (hsame.symm.trans hid)
  · obtain ⟨runAs, rows, cols, keys, rfl, -⟩ := hnew
    exact hev (congrArg some hid)

theorem Gone.run (h : Gone streamId b) (hturns : streamId ∉ openedStreams turns) :
    Gone streamId (run cfg b turns).1 := by
  induction turns generalizing b with
  | nil => exact h
  | cons turn turns ih =>
      obtain ⟨env, ev⟩ := turn
      simp only [openedStreams, List.filterMap_cons] at hturns
      refine ih (h.step ?_) ?_
      · intro hev
        simp [hev] at hturns
      · intro hmem
        refine hturns ?_
        split
        · exact hmem
        · exact List.mem_cons_of_mem _ hmem

end Runs

/-! ## Frames -/

section Frames

variable {fromDer : FromDer} {cfg : BridgeConfig fromDer} {env : StepEnv} {b : Bridge}
  {topic : String} {payload : Payload} {ch : Channel} {f : StreamFrame} {sent : SendResult}

/-- A message sends a frame only as a stream uplink, to the operator of the route
under whose keys it was opened. -/
theorem frame_of_onMessage (h : Effect.frame ch f sent ∈ (onMessage cfg env b topic payload).2) :
    ∃ host r e p, b.shells.lookup host = some r ∧ payload.envelope = some e ∧
      openEnvelope r.streamKeys .agentToCoord e = some p ∧ StreamFrame.decode p = some f ∧
      ch = r.output := by
  have hopened : ∀ {host : HostId} {e : Envelope} {r : ShellRoute} {p : Bytes} {g : StreamFrame},
      OpensOnShell b host payload e r p → StreamFrame.decode p = some g →
      Effect.frame ch f sent = env.frameTo r.output g →
      ∃ host r e p, b.shells.lookup host = some r ∧ payload.envelope = some e ∧
        openEnvelope r.streamKeys .agentToCoord e = some p ∧ StreamFrame.decode p = some f ∧
        ch = r.output := by
    intro host e r p g hopens hdecode heq
    obtain ⟨hch, hf, -⟩ := Effect.frame.inj heq
    have hauth := (ReplayGuard.guardedOpen_fst_eq_some_iff.mp hopens.opens).1
    exact ⟨host, r, e, p, hopens.route, hopens.envelope, hauth, hf ▸ hdecode, hch⟩
  have hintake := onMessage_intake cfg env b topic payload
  generalize onMessage cfg env b topic payload = out at hintake h
  cases hintake with
  | unanswered => simp [StepEnv.publishTo] at h
  | established =>
      rcases List.mem_append.mp h with h | h
      · simp [StepEnv.publishTo] at h
      · obtain ⟨entry, -, heq⟩ := List.mem_map.mp h
        cases heq
  | control =>
      dsimp only at h
      split at h <;> simp at h
  | result => simp [StepEnv.eventTo] at h
  | frame htopic hhost hopens hdecode =>
      exact hopened hopens hdecode (List.mem_singleton.mp h)
  | lastFrame htopic hhost hopens hdecode =>
      refine hopened hopens hdecode ?_
      simpa [sealFrame, StepEnv.publishTo] using h
  | inventory htopic hhost hopens heffects =>
      obtain ⟨inv, -, heq⟩ := heffects _ h
      cases heq
  | _ => cases h

/-- A command sends a frame only to the operator of an {lit}`OpenShell` that
failed. -/
theorem frame_of_handleCommand {cmd : BridgeCommand}
    (h : Effect.frame ch f sent ∈ (handleCommand env b cmd).2) :
    f = eofFrame ∧ ∃ host streamId runAs rows cols,
      cmd = .openShell host streamId runAs rows cols ch := by
  have hhandled := handleCommand_handled env b cmd
  generalize handleCommand env b cmd = out at hhandled h
  cases hhandled with
  | offline =>
      obtain ⟨rfl, rfl, -⟩ := Effect.frame.inj (List.mem_singleton.mp h)
      exact ⟨rfl, _, _, _, _, _, rfl⟩
  | unopened hget hsent =>
      rcases List.mem_append.mp h with h | h
      · simp [sealDispatch, StepEnv.publishTo] at h
      · obtain ⟨rfl, rfl, -⟩ := Effect.frame.inj (List.mem_singleton.mp h)
        exact ⟨rfl, _, _, _, _, _, rfl⟩
  | strayInput => cases h
  | strayClose => cases h
  | _ => simp [sealDispatch, sealFrame, StepEnv.publishTo, StepEnv.eventTo] at h

end Frames

/-! ## Commands of a stream -/

section Commands

variable {fromDer : FromDer} {cfg : BridgeConfig fromDer} {env : StepEnv} {b : Bridge}
  {streamId : Str}

/-- A message for the agent of a route of the stream: a frame sealed under the
stream's downlink key. -/
def FrameFor (streamId : Str) (b : Bridge) (topic : String) (m : Message) : Prop :=
  ∃ host r, ∃ keys : SessionKeys, b.shells.lookup host = some r ∧ r.streamId = streamId ∧
    r.streamKeys = keys.deriveStream streamId.bytes ∧ topic = Topics.streamDown host.toStr.text ∧
    ∃ (e : Envelope) (f : StreamFrame) (nonce aad : Bytes), m = .envelope e ∧
      e.ciphertext =
        .sealed ((keys.deriveStream streamId.bytes).key .coordToAgent) nonce aad f.encode

/-- What a command of a stream may do: seal under that stream's keys, send what it
sealed, and change that stream's route. -/
structure StaysWithin (streamId : Str) (b : Bridge) (out : Bridge × List Effect) : Prop where
  seals : ∀ call, Effect.sealed call ∈ out.2 → ∃ host r, ∃ keys : SessionKeys,
    b.shells.lookup host = some r ∧ r.streamId = streamId ∧
    r.streamKeys = keys.deriveStream streamId.bytes ∧ call = r.sealCall
  /-- Whatever is published is a frame, sealed under the keys of the stream's route. -/
  frames : ∀ topic m ok, Effect.published topic m ok ∈ out.2 → FrameFor streamId b topic m
  sessions : out.1.sessions = b.sessions
  pending : out.1.pending = b.pending
  lastSeen : out.1.lastSeen = b.lastSeen
  routes : ∀ host, (∀ r, b.shells.lookup host = some r → r.streamId ≠ streamId) →
    out.1.shells.lookup host = b.shells.lookup host

/-- Doing nothing stays within every stream. -/
theorem StaysWithin.idle : StaysWithin streamId b (b, []) :=
  ⟨nofun, nofun, rfl, rfl, rfl, fun _ _ => rfl⟩

/-- Sealing a frame logs the call of the route. -/
theorem seals_sealFrame {host : HostId} {r : ShellRoute} {frame : StreamFrame} {call : SealCall}
    (h : Effect.sealed call ∈ (sealFrame env host r frame).1) : call = r.sealCall := by
  simpa [sealFrame, StepEnv.publishTo] using h

/-- Sealing a frame publishes the envelope the route sealed. -/
theorem published_sealFrame {host : HostId} {r : ShellRoute} {frame : StreamFrame}
    {topic : String} {m : Message} {ok : Bool}
    (h : Effect.published topic m ok ∈ (sealFrame env host r frame).1) :
    topic = Topics.streamDown host.toStr.text ∧
      m = .envelope (r.sealDownlink host.toStr frame).1 := by
  simp only [sealFrame, StepEnv.publishTo, List.mem_cons, reduceCtorEq, List.not_mem_nil,
    false_or, or_false, Effect.published.injEq] at h
  exact ⟨h.1, h.2.1⟩

/-- Sealing a frame on a stream's route and then keeping or dropping the route. -/
theorem StaysWithin.sealFrame (env : StepEnv) {host : HostId} {r : ShellRoute}
    {keys : SessionKeys} (hget : b.shells.lookup host = some r) (hid : r.streamId = streamId)
    (hkeys : r.streamKeys = keys.deriveStream r.streamId.bytes) (frame : StreamFrame) :
    StaysWithin streamId b
      (b.setRoute host (Coordinator.sealFrame env host r frame).2.1,
        (Coordinator.sealFrame env host r frame).1) ∧
    StaysWithin streamId b (b.dropRoute host, (Coordinator.sealFrame env host r frame).1) := by
  have hseals : ∀ call, Effect.sealed call ∈ (Coordinator.sealFrame env host r frame).1 →
      ∃ host r, ∃ keys : SessionKeys, b.shells.lookup host = some r ∧ r.streamId = streamId ∧
        r.streamKeys = keys.deriveStream streamId.bytes ∧ call = r.sealCall :=
    fun call hcall => ⟨host, r, keys, hget, hid, hid ▸ hkeys, seals_sealFrame hcall⟩
  have hframes : ∀ topic m ok,
      Effect.published topic m ok ∈ (Coordinator.sealFrame env host r frame).1 →
      FrameFor streamId b topic m := by
    intro topic m ok hmem
    obtain ⟨htopic, rfl⟩ := published_sealFrame hmem
    subst hid
    refine ⟨host, r, keys, hget, rfl, hkeys, htopic, ?_⟩
    rw [← hkeys]
    exact ⟨_, frame, _, _, rfl, rfl⟩
  have hother : ∀ other, (∀ r, b.shells.lookup other = some r → r.streamId ≠ streamId) →
      other ≠ host := by
    rintro other hnone rfl
    exact hnone r hget hid
  constructor
  · refine ⟨hseals, hframes, rfl, rfl, rfl, ?_⟩
    intro other hnone
    simp [Bridge.setRoute, Table.lookup_put, hother other hnone]
  · refine ⟨hseals, hframes, rfl, rfl, rfl, ?_⟩
    intro other hnone
    simp [Bridge.dropRoute, Table.lookup_drop, hother other hnone]

/-- Input and close requests of a stream stay within it. -/
theorem staysWithin_command {turns : List (StepEnv × BridgeEvent)} (h : RouteInv turns b)
    {ev : BridgeEvent} (hev : CommandFor streamId ev) :
    StaysWithin streamId b (step cfg env b ev) := by
  have hhandled : ∀ {cmd : BridgeCommand} {out : Bridge × List Effect}, Handled env b cmd out →
      CommandFor streamId (.command cmd) → StaysWithin streamId b out := by
    intro cmd out hhandled hcmd
    cases hhandled with
    | strayInput => exact .idle
    | typed hlookup hid =>
        cases hcmd
        obtain ⟨-, keys, hkeys⟩ := h.route _ _ hlookup
        exact (StaysWithin.sealFrame env hlookup hid hkeys _).1
    | cut hlookup hid =>
        cases hcmd
        obtain ⟨-, keys, hkeys⟩ := h.route _ _ hlookup
        exact (StaysWithin.sealFrame env hlookup hid hkeys _).2
    | strayClose => exact .idle
    | closed hlookup hid =>
        cases hcmd
        obtain ⟨-, keys, hkeys⟩ := h.route _ _ hlookup
        exact (StaysWithin.sealFrame env hlookup hid hkeys _).2
    | _ => cases hcmd
  cases hev with
  | input host data => exact hhandled (handleCommand_handled env b _) (.input host data)
  | close host => exact hhandled (handleCommand_handled env b _) (.close host)

end Commands

/-! ## Messages of a stream -/

section Messages

variable {fromDer : FromDer} {cfg : BridgeConfig fromDer} {env : StepEnv} {b : Bridge}
  {turns : List (StepEnv × BridgeEvent)} {streamId : Str} {e : Envelope} {p : Bytes}

/-- A receiver with other keys does not notice the envelope. -/
theorem openGuarded_of_foreign {keys : SessionKeys} (recvHigh : Option UInt64)
    (h : SealedFor streamId e p)
    (hkeys : ∀ keys' : SessionKeys,
      keys.key .agentToCoord ≠ (keys'.deriveStream streamId.bytes).key .agentToCoord) :
    openGuarded keys .agentToCoord recvHigh e = (none, recvHigh) := by
  obtain ⟨keys', nonce, aad, hct⟩ := h
  have hopen : openEnvelope keys .agentToCoord e = none := by
    refine Option.eq_none_iff_forall_ne_some.mpr ?_
    intro q hq
    obtain ⟨aad', hct'⟩ := ciphertext_of_openEnvelope hq
    exact hkeys keys' (Ciphertext.sealed.inj (hct'.symm.trans hct)).1
  simp only [openGuarded, ReplayGuard.guardedOpen, hopen]

/-- Sessions do not open what was sealed for a stream. -/
theorem RouteInv.session_openUplink (h : RouteInv turns b) {host : HostId} {s : Session}
    (hget : b.sessions.get host = some s) (he : SealedFor streamId e p) :
    s.openUplink e = (none, s) := by
  obtain ⟨q, q', hkeys⟩ := h.session host s hget
  have hopen := openGuarded_of_foreign s.recvHigh he (fun _ => hkeys.key_ne_stream _ _ _)
  simp only [Session.openUplink, hopen]

/-- Routes do not open what was sealed for another stream. -/
theorem RouteInv.route_openGuarded (h : RouteInv turns b) {host : HostId} {r : ShellRoute}
    (hget : b.shells.lookup host = some r) (hid : r.streamId ≠ streamId)
    (he : SealedFor streamId e p) :
    openGuarded r.streamKeys .agentToCoord r.recvHigh e = (none, r.recvHigh) := by
  obtain ⟨-, keys, hkeys⟩ := h.route host r hget
  refine openGuarded_of_foreign r.recvHigh he ?_
  intro keys' heq
  rw [hkeys] at heq
  exact hid (Str.bytes_injective (SessionKeys.deriveStream_key_inj heq).2)

/-- A message sealed for a stream without a route changes nothing and reaches
nobody, on whatever topic the broker puts it. -/
theorem onMessage_of_gone (h : RouteInv turns b) (hgone : Gone streamId b) {topic : String}
    {payload : Payload} (hmsg : MessageFor streamId (.message topic payload)) :
    onMessage cfg env b topic payload = (b, []) := by
  obtain ⟨⟨e, p, henv, he⟩, hhello, hbeat⟩ := hmsg
  have hsession : ∀ {host : HostId} {e' : Envelope} {s : Session} {q : Bytes},
      ¬ OpensOn b host payload e' s q := by
    intro host e' s q hopens
    obtain rfl := Option.some.inj (henv.symm.trans hopens.envelope)
    have hopen := hopens.opens
    rw [h.session_openUplink hopens.session he] at hopen
    cases hopen
  have hroute : ∀ {host : HostId} {e' : Envelope} {r : ShellRoute} {q : Bytes},
      ¬ OpensOnShell b host payload e' r q := by
    intro host e' r q hopens
    obtain rfl := Option.some.inj (henv.symm.trans hopens.envelope)
    have hopen := hopens.opens
    rw [h.route_openGuarded hopens.route (hgone host r hopens.route) he] at hopen
    cases hopen
  have hintake := onMessage_intake cfg env b topic payload
  generalize onMessage cfg env b topic payload = out at hintake ⊢
  cases hintake with
  | ignored => rfl
  | heartbeat htopic => simp [hbeat] at htopic
  | unanswered htopic => simp [hhello] at htopic
  | established htopic => simp [hhello] at htopic
  | control htopic hhost hopens => exact absurd hopens hsession
  | unclaimed htopic hhost hopens => exact absurd hopens hsession
  | result htopic hhost hopens => exact absurd hopens hsession
  | garbled htopic hhost hopens => exact absurd hopens hroute
  | frame htopic hhost hopens => exact absurd hopens hroute
  | lastFrame htopic hhost hopens => exact absurd hopens hroute
  | inventory htopic hhost hopens => exact absurd hopens hsession

/-- So do its operator's commands. -/
theorem command_of_gone (hgone : Gone streamId b) {ev : BridgeEvent}
    (hev : CommandFor streamId ev) : step cfg env b ev = (b, []) := by
  cases hev with
  | input host data =>
      simp only [step, handleCommand, shellInput]
      split
      · rfl
      · rename_i r hget
        rw [if_pos (hgone host r hget)]
  | close host =>
      simp only [step, handleCommand, shellClose]
      split
      · rfl
      · rename_i r hget
        rw [if_pos (hgone host r hget)]

end Messages

/-! ## Isolation -/

/-- With distinct stream ids, a stream has one operator. -/
theorem Opened.unique {turns : List (StepEnv × BridgeEvent)} {host host' : HostId}
    {streamId : Str} {ch ch' : Channel} (hnodup : (openedStreams turns).Nodup)
    (h : Opened turns host streamId ch) (h' : Opened turns host' streamId ch') : ch' = ch := by
  obtain ⟨env, runAs, rows, cols, hmem⟩ := h
  obtain ⟨env', runAs', rows', cols', hmem'⟩ := h'
  induction turns with
  | nil => cases hmem
  | cons turn turns ih =>
      have hnotMem : ∀ {env host runAs rows cols ch},
          turn.2.openedStream = some streamId →
          (env, BridgeEvent.command (.openShell host streamId runAs rows cols ch)) ∉ turns := by
        intro env host runAs rows cols ch hturn hlater
        simp only [openedStreams, List.filterMap_cons, hturn, List.nodup_cons] at hnodup
        exact hnodup.1 (List.mem_filterMap.mpr ⟨_, hlater, rfl⟩)
      rcases List.mem_cons.mp hmem with hhead | htail <;>
        rcases List.mem_cons.mp hmem' with hhead' | htail'
      · cases hhead.trans hhead'.symm
        rfl
      · exact absurd htail' (hnotMem (hhead ▸ rfl))
      · exact absurd htail (hnotMem (hhead' ▸ rfl))
      · refine ih ?_ htail htail'
        simp only [openedStreams, List.filterMap_cons] at hnodup
        split at hnodup
        · exact hnodup
        · exact (List.nodup_cons.mp hnodup).2

/-- Where the frames of a turn go, after some turns of a run. -/
structure Delivers (turns front : List (StepEnv × BridgeEvent)) (ev : BridgeEvent)
    (effects : List Effect) : Prop where
  /-- What was sealed for a stream reaches the channel its operator registered, and
  no other. -/
  sealed : ∀ topic payload e p streamId, ev = .message topic payload →
    payload.envelope = some e → SealedFor streamId e p →
    ∀ ch f sent, Effect.frame ch f sent ∈ effects →
      StreamFrame.decode p = some f ∧ (∃ host, Opened front host streamId ch) ∧
      ∀ host ch', Opened turns host streamId ch' → ch' = ch
  /-- Every frame was sealed for some stream, or is the end of a shell that could
  not be opened. -/
  source : ∀ ch f sent, Effect.frame ch f sent ∈ effects →
    (∃ topic payload e p streamId, ev = .message topic payload ∧ payload.envelope = some e ∧
      SealedFor streamId e p) ∨
    (f = eofFrame ∧ ∃ host streamId runAs rows cols,
      ev = .command (.openShell host streamId runAs rows cols ch))

section Isolation

variable {fromDer : FromDer} {cfg : BridgeConfig fromDer}

theorem RouteInv.delivers {turns front : List (StepEnv × BridgeEvent)} {b : Bridge}
    (h : RouteInv front b) (hsub : front ⊆ turns) (hnodup : (openedStreams turns).Nodup)
    (env : StepEnv) (ev : BridgeEvent) :
    Delivers turns front ev (Coordinator.step cfg env b ev).2 where
  sealed := by
    rintro topic payload e p streamId rfl henv ⟨keys, nonce, aad, hct⟩ ch f sent hframe
    obtain ⟨host, r, e', p', hget, henv', hopen, hdecode, rfl⟩ := frame_of_onMessage hframe
    obtain rfl : e = e' := Option.some.inj (henv.symm.trans henv')
    obtain ⟨hopened, rkeys, hrkeys⟩ := h.route host r hget
    obtain ⟨aad', hct'⟩ := ciphertext_of_openEnvelope hopen
    obtain ⟨hkey, -, -, rfl⟩ := Ciphertext.sealed.inj (hct.symm.trans hct')
    rw [hrkeys] at hkey
    obtain rfl : streamId = r.streamId :=
      Str.bytes_injective (SessionKeys.deriveStream_key_inj hkey).2
    exact ⟨hdecode, ⟨host, hopened⟩, fun _ _ h' => Opened.unique hnodup (hopened.mono hsub) h'⟩
  source := by
    intro ch f sent hframe
    cases ev with
    | message topic payload =>
        obtain ⟨host, r, e, p, hget, henv, hopen, -, -⟩ := frame_of_onMessage hframe
        obtain ⟨-, keys, hkeys⟩ := h.route host r hget
        obtain ⟨aad, hct⟩ := ciphertext_of_openEnvelope hopen
        exact Or.inl ⟨topic, payload, e, p, r.streamId, rfl, henv, keys, _, aad, hkeys ▸ hct⟩
    | command cmd =>
        obtain ⟨rfl, host, streamId, runAs, rows, cols, rfl⟩ := frame_of_handleCommand hframe
        exact Or.inr ⟨rfl, host, streamId, runAs, rows, cols, rfl⟩
    | sweep => simp [Coordinator.step, reapStaleJobs, StepEnv.eventTo] at hframe

/-- In every run in which shells are opened with distinct stream ids, at every
turn: frames sealed for a stream reach only the operator that opened it, commands
for a stream seal and publish frames under its keys only and leave everything but its
route alone, and a stream that lost its route is without any effect from then on. -/
theorem shell_isolation (cfg : BridgeConfig fromDer)
    (turns front back : List (StepEnv × BridgeEvent)) (env : StepEnv) (ev : BridgeEvent)
    (hturns : turns = front ++ (env, ev) :: back)
    (hnodup : (openedStreams turns).Nodup) :
    let b := (run cfg Bridge.new front).1
    let out := step cfg env b ev
    Delivers turns front ev out.2 ∧
    (∀ streamId, CommandFor streamId ev → StaysWithin streamId b out) ∧
    ∀ streamId before since, front = before ++ since → streamId ∈ openedStreams before →
      Gone streamId (run cfg Bridge.new before).1 →
      Gone streamId b ∧ (CommandFor streamId ev ∨ MessageFor streamId ev → out = (b, [])) := by
  intro b out
  have hinv : RouteInv front b := by
    simpa using run_routeInv routeInv_new front
  refine ⟨hinv.delivers ?_ hnodup env ev, fun streamId => staysWithin_command hinv, ?_⟩
  · rw [hturns]
    exact List.subset_append_left _ _
  intro streamId before since hfront hopened hlost
  have hsince : streamId ∉ openedStreams since := by
    rw [hturns, hfront, List.append_assoc] at hnodup
    have hdisjoint := List.disjoint_of_nodup_append (by simpa [openedStreams] using hnodup)
    intro hmem
    exact hdisjoint hopened (List.mem_append_left _ hmem)
  have hgone : Gone streamId b := by
    have hrun : Gone streamId (run cfg (run cfg Bridge.new before).1 since).1 :=
      hlost.run hsince
    simp only [b, hfront, run_append]
    exact hrun
  refine ⟨hgone, ?_⟩
  rintro (hev | hev)
  · exact command_of_gone hgone hev
  · cases ev with
    | message topic payload => exact onMessage_of_gone hinv hgone hev
    | command cmd => cases hev
    | sweep => cases hev

end Isolation

/-- What the agent sends on a stream of the sample session. -/
def sampleStreamUp (streamId : Str) (count : Nat) (f : StreamFrame) : StepEnv × BridgeEvent :=
  (sampleEnv, .message (Topics.streamUp sampleHost.toStr.text)
    (envelopePayload (sealEnvelope (sampleKeys.deriveStream streamId.bytes) .agentToCoord
      sampleHost.toStr sampleSid (wireSeq count) .stream f.encode)))

/-- What the operator of a stream types. -/
def sampleInput (streamId : Str) : BridgeEvent :=
  .command (.shellInput sampleHost streamId default)

/-- Its request to close. -/
def sampleClose (streamId : Str) : BridgeEvent :=
  .command (.shellClose sampleHost streamId)

/-- A shell sends a frame, is typed into and replaced by another operator's; it sends
again and is closed, and then the other is closed. -/
def sampleShells : List (StepEnv × BridgeEvent) :=
  [sampleHelloTurn,
    (sampleEnv, .command (.openShell sampleHost (Str.lit "a") default 0 0 0)),
    sampleStreamUp (Str.lit "a") 0 ⟨default, false⟩,
    (sampleEnv, sampleInput (Str.lit "a")),
    (sampleEnv, .command (.openShell sampleHost (Str.lit "b") default 0 0 1)),
    sampleStreamUp (Str.lit "a") 1 ⟨default, false⟩,
    (sampleEnv, sampleClose (Str.lit "a")),
    (sampleEnv, sampleClose (Str.lit "b"))]

/-- The bridge after some of these turns. -/
def sampleShellsAt (n : Nat) : Bridge :=
  (run sampleCfg Bridge.new (sampleShells.take n)).1

theorem gone_iff_entries {streamId : Str} {b : Bridge} :
    Gone streamId b ↔ ∀ e ∈ b.shells.entries, e.2.streamId ≠ streamId := by
  constructor
  · rintro h ⟨host, r⟩ he
    exact h host r (Table.mem_entries_iff.mp he)
  · intro h host r hget
    exact h ⟨host, r⟩ (Table.mem_entries_iff.mpr hget)

/-- The first frame reaches the first operator, whose input is sealed for its stream;
once it is replaced, its frames and its close request do nothing, and the other
operator's close request is sealed for the other stream. -/
theorem shell_isolation_sample :
    let early := step sampleCfg sampleEnv (sampleShellsAt 2)
      (sampleStreamUp (Str.lit "a") 0 ⟨default, false⟩).2
    let typed := step sampleCfg sampleEnv (sampleShellsAt 3) (sampleInput (Str.lit "a"))
    let closed := step sampleCfg sampleEnv (sampleShellsAt 7) (sampleClose (Str.lit "b"))
    (early.2 = [.frame 0 ⟨default, false⟩ .ok] ∧
      Delivers sampleShells (sampleShells.take 2)
        (sampleStreamUp (Str.lit "a") 0 ⟨default, false⟩).2 early.2) ∧
    ((wire typed.2).length = 1 ∧ StaysWithin (Str.lit "a") (sampleShellsAt 3) typed) ∧
    ((wire closed.2).length = 1 ∧ StaysWithin (Str.lit "b") (sampleShellsAt 7) closed) ∧
    step sampleCfg sampleEnv (sampleShellsAt 5)
      (sampleStreamUp (Str.lit "a") 1 ⟨default, false⟩).2 = (sampleShellsAt 5, []) ∧
    step sampleCfg sampleEnv (sampleShellsAt 6) (sampleClose (Str.lit "a")) =
      (sampleShellsAt 6, []) := by
  have hnodup : (openedStreams sampleShells).Nodup := by decide +kernel
  have hlost : Gone (Str.lit "a") (run sampleCfg Bridge.new (sampleShells.take 5)).1 :=
    gone_iff_entries.mpr (by decide +kernel)
  refine ⟨⟨by decide +kernel, ?_⟩, ⟨by decide +kernel, ?_⟩, ⟨by decide +kernel, ?_⟩, ?_, ?_⟩
  · exact (shell_isolation sampleCfg sampleShells (sampleShells.take 2) (sampleShells.drop 3)
      sampleEnv _ rfl hnodup).1
  · exact (shell_isolation sampleCfg sampleShells (sampleShells.take 3) (sampleShells.drop 4)
      sampleEnv _ rfl hnodup).2.1 _ (.input sampleHost default)
  · exact (shell_isolation sampleCfg sampleShells (sampleShells.take 7) [] sampleEnv _ rfl
      hnodup).2.1 _ (.close sampleHost)
  · have hlate := (shell_isolation sampleCfg sampleShells (sampleShells.take 5)
      (sampleShells.drop 6) sampleEnv (sampleStreamUp (Str.lit "a") 1 ⟨default, false⟩).2 rfl
      hnodup).2.2 (Str.lit "a") (sampleShells.take 5) [] (by simp) (by decide +kernel) hlost
    refine hlate.2 (Or.inr ⟨⟨_, _, rfl, sampleKeys, _, _, rfl⟩, ?_, ?_⟩) <;> decide +kernel
  · have hlate := (shell_isolation sampleCfg sampleShells (sampleShells.take 6)
      (sampleShells.drop 7) sampleEnv (sampleClose (Str.lit "a")) rfl hnodup).2.2 (Str.lit "a")
      (sampleShells.take 5) [sampleStreamUp (Str.lit "a") 1 ⟨default, false⟩] rfl
      (by decide +kernel) hlost
    exact hlate.2 (Or.inl (.close sampleHost))

end Coordinator
end OpenSsmAgent
