import OpenSsmAgent.Agent.Moves
import OpenSsmAgent.Coordinator.Downlinks
import OpenSsmAgent.Lib.Channels
import OpenSsmAgent.System.Fleet

/-!
# The live shell at both ends

The coordinator sets its route when it publishes a shell open; the agent may refuse
the open and keep the shell it had.  And a dispatch of the kind {lit}`shell` that
comes through the job path opens a shell for which there is no route.  Either way a
PTY runs on the host that no route of the coordinator reaches.

The downlinks are one ordered channel here, and nothing on it is lost.

Main results:

- Theorem {lit}`agrees_turn`: a turn of the bridge, received at once, keeps the two
  ends in agreement.
- Theorem {lit}`shells_agree`: along every run of a session in which no shell open is
  refused while a shell is live and no job is of the kind {lit}`shell`, the ends agree
  whenever nothing is in flight.
- Theorem {lit}`shell_without_route`: a refused open, and a job of the kind
  {lit}`shell`, leave a shell without a route.
-/

open Framing SymbolicCrypto

namespace OpenSsmAgent
namespace System

open Seal Wire Domain Proto Coordinator Agent

/-! ## The bridge, one agent and the downlinks between them -/

/-- A published message as the decoders of its receiver read it. -/
def messagePayload : Message → Payload
  | .clientHello hello => ⟨some hello, none, none⟩
  | .serverHello hello => ⟨none, some hello, none⟩
  | .envelope e => envelopePayload e

/-- The bridge, the agent of one host, and what the bridge has published for the host
and the agent has not received. -/
structure ShellLink where
  bridge : Bridge
  agent : Process
  inFlight : List (String × Message)

/-- The bridge takes a turn, the agent receives the next message, or one of its tasks
goes on. -/
inductive LinkEvent where
  | turn (env : StepEnv) (ev : BridgeEvent)
  | deliver (env : AgentEnv)
  | task (env : AgentEnv) (ev : AgentEvent)

/-- Whether a step of the agent is one of a job task or an uplink pump. -/
def isTask : AgentEvent → Bool
  | .jobSeals _ _ => true
  | .jobEnqueues _ => true
  | .jobEnds _ => true
  | .pumpSends _ _ => true
  | .pumpEnds _ => true
  | _ => false

section Steps

variable {fromDer : FromDer} (cfg : BridgeConfig fromDer) (agentCfg : AgentConfig)
  (host : HostId)

def linkStep (s : ShellLink) : LinkEvent → ShellLink
  | .turn env ev =>
      { s with
        bridge := (step cfg env s.bridge ev).1
        inFlight := s.inFlight ++ sentTo host (step cfg env s.bridge ev).2 }
  | .deliver env =>
      match s.inFlight with
      | [] => s
      | (topic, m) :: rest =>
          { s with
            agent := (agentStep agentCfg env s.agent (.publish topic (messagePayload m))).1
            inFlight := rest }
  | .task env ev => { s with agent := (agentStep agentCfg env s.agent ev).1 }

def linkRun (s : ShellLink) (events : List LinkEvent) : ShellLink :=
  events.foldl (linkStep cfg agentCfg host) s

/-- A condition on every step of a run. -/
def Along (P : ShellLink → LinkEvent → Prop) (s : ShellLink) : List LinkEvent → Prop
  | [] => True
  | ev :: events => P s ev ∧ Along P (linkStep cfg agentCfg host s ev) events

/-- The step stays within the session: the bridge keeps the host's session and the
agent its connection. -/
def InSession (s : ShellLink) : LinkEvent → Prop
  | .turn env ev =>
      ((step cfg env s.bridge ev).1.sessionView host).map Prod.fst =
        (s.bridge.sessionView host).map Prod.fst
  | .deliver _ => True
  | .task _ ev => isTask ev = true

/-- The agent takes a shell open. -/
structure TakesShell (env : AgentEnv) (conn : Connection) (dispatch : Dispatch) : Prop where
  named : dispatch.jobId.text ≠ ""
  short : dispatch.jobId.bytes.length ≤ maxStreamIdLen
  unused : dispatch.jobId ∉ conn.usedStreamIds
  room : conn.usedStreamIds.length < maxShellsPerSession
  permitted : agentCfg.backstop.permits ⟨dispatch.kind, default, dispatch.runAs, default⟩ = .ok ()
  spawned : ∀ rows cols, env.spawnPty dispatch.runAs rows cols = true

/-- If a shell is live and the message opens another one, the agent takes it. -/
def OpenTaken (env : AgentEnv) (conn : Connection) (topic : String) (m : Message) : Prop :=
  ∀ est dispatch, conn.activeStream ≠ none → topic = Topics.dispatchDown agentCfg.hostId.text →
    conn.session = some est → (openDispatch est (messagePayload m)).1 = some dispatch →
    dispatch.kind.text = shellKind → TakesShell agentCfg env conn dispatch

/-- What the ends need of a step: the link takes every frame for the host's shell, no
counter is exhausted, no job is of the kind {lit}`shell`, and no shell open is
refused while a shell is live. -/
def Undisturbed (s : ShellLink) : LinkEvent → Prop
  | .turn env ev =>
      (∀ m, env.publish (Topics.streamDown host.toStr.text) m = true) ∧
      (∀ view ∈ s.bridge.sessionView host, view.2.2 < 2 ^ 64) ∧
      (∀ view ∈ s.bridge.routeView host, view.2.2 < 2 ^ 64) ∧
      ∀ dispatch events, ev = .command (.dispatch host dispatch events) →
        dispatch.kind.text ≠ shellKind
  | .deliver env =>
      ∀ conn topic m rest, s.agent.conn = some conn → s.inFlight = (topic, m) :: rest →
        OpenTaken agentCfg env conn topic m
  | .task _ _ => True

end Steps

/-- Both ends hold the session, the agent has no shell, and nothing is in flight. -/
structure FreshSession (agentCfg : AgentConfig) (host : HostId) (s : ShellLink) : Prop where
  hostId : agentCfg.hostId = host.toStr
  session : ∃ session ∈ s.bridge.sessions.get host, ∃ conn ∈ s.agent.conn,
    ∃ est ∈ conn.session, est.keys = session.keys ∧
      (∀ high ∈ est.recvHigh, high.toNat < session.sendSeq) ∧ conn.activeStream = none
  inFlight : s.inFlight = []

/-- The agent's shell, if it has one, was opened with the stream id of the host's
route, and the end of the stream that the route seals next closes it. -/
def ShellsAgree (host : HostId) (s : ShellLink) : Prop :=
  ∀ conn ∈ s.agent.conn, ∀ stream ∈ conn.activeStream, ∃ est ∈ conn.session,
    ∃ route ∈ s.bridge.shells.lookup host,
      stream.streamKeys = est.keys.deriveStream route.streamId.bytes ∧
      (route.sendSeq < 2 ^ 64 →
        (stream.routeDownlink (route.sealDownlink host.toStr eofFrame).1).2.1 = false)

/-! ## Sealed downlinks at the agent -/

/-- Every number the guard has seen is below the sealer's next one. -/
def Below (recvHigh : Option UInt64) (sendSeq : Nat) : Prop :=
  ∀ high ∈ recvHigh, high.toNat < sendSeq

section Receive

variable {agentCfg : AgentConfig} {env : AgentEnv} {a : Process} {host : HostId}
  {conn conn' : Connection} {est : Established} {stream : ShellStream}

theorem Below.fresh {recvHigh : Option UInt64} {n : Nat} (h : Below recvHigh n)
    (hn : n < 2 ^ 64) : ReplayGuard.stale recvHigh (wireSeq n) = false := by
  cases recvHigh with
  | none => rfl
  | some high =>
      have hlt := h high rfl
      simp only [ReplayGuard.stale_some, decide_eq_false_iff_not, UInt64.le_iff_toNat_le,
        toNat_wireSeq hn]
      omega

theorem below_wireSeq {n : Nat} (hn : n < 2 ^ 64) : Below (some (wireSeq n)) (n + 1) := by
  intro high hhigh
  obtain rfl := Option.some.inj hhigh
  rw [toNat_wireSeq hn]
  exact Nat.lt_succ_self n

/-- The next envelope of the session opens at the agent. -/
theorem openDispatch_sealed (host : HostId) {s : Session} (hkeys : est.keys = s.keys)
    (hbelow : Below est.recvHigh s.sendSeq) (hn : s.sendSeq < 2 ^ 64) (dispatch : Dispatch) :
    openDispatch est (messagePayload (.envelope (s.sealDownlink host.toStr dispatch.encode).1)) =
      (some dispatch, { est with recvHigh := some (wireSeq s.sendSeq) }) := by
  have hopen : openEnvelope est.keys .coordToAgent
      (s.sealDownlink host.toStr dispatch.encode).1 = some dispatch.encode := by
    rw [hkeys]
    exact openEnvelope_sealEnvelope _ _ _ _ _ _ _
  have haccept : est.acceptRecv (s.sealDownlink host.toStr dispatch.encode).1.seq =
      (true, { est with recvHigh := some (wireSeq s.sendSeq) }) := by
    unfold Established.acceptRecv
    exact if_neg (by simp [Session.sealDownlink, sealEnvelope, hbelow.fresh hn])
  simp only [openDispatch, messagePayload, envelopePayload, Established.openDownlink, hopen,
    haccept, Dispatch.decode_encode]

/-- The next frame of a route is read by a stream with its keys. -/
theorem routeDownlink_sealed (host : HostId) {r : ShellRoute}
    (hkeys : stream.streamKeys = r.streamKeys)
    (hbelow : Below stream.recvHigh r.sendSeq) (hn : r.sendSeq < 2 ^ 64) (frame : StreamFrame) :
    stream.routeDownlink (r.sealDownlink host.toStr frame).1 =
      if frame.eof then (none, false, { stream with recvHigh := some (wireSeq r.sendSeq) })
      else (some frame.data, true, { stream with recvHigh := some (wireSeq r.sendSeq) }) := by
  have hopen : openGuarded stream.streamKeys .coordToAgent stream.recvHigh
      (r.sealDownlink host.toStr frame).1 = (some frame.encode, some (wireSeq r.sendSeq)) := by
    have hauth : openEnvelope stream.streamKeys .coordToAgent
        (r.sealDownlink host.toStr frame).1 = some frame.encode := by
      rw [hkeys]
      exact openEnvelope_sealEnvelope _ _ _ _ _ _ _
    have hfst := ReplayGuard.guardedOpen_fst_eq_some_iff.mpr
      ⟨hauth, show ReplayGuard.stale stream.recvHigh
        (r.sealDownlink host.toStr frame).1.seq = false from hbelow.fresh hn⟩
    exact Prod.ext hfst (ReplayGuard.guardedOpen_accept hfst)
  simp only [ShellStream.routeDownlink, ShellStream.openDownlink, hopen,
    StreamFrame.decode_encode]

/-- The connection receives a message, under some task set and environment in which a
shell open is not refused while a shell is live. -/
def Delivered (agentCfg : AgentConfig) (conn : Connection) (m : String × Message)
    (conn' : Connection) : Prop :=
  ∃ a env, a.conn = some conn ∧ OpenTaken agentCfg env conn m.1 m.2 ∧
    (agentStep agentCfg env a (.publish m.1 (messagePayload m.2))).1.conn = some conn'

/-- What a shell open does to the connection. -/
theorem handleShellOpen_conn (agentCfg : AgentConfig) (env : AgentEnv)
    (hconn : a.conn = some conn) (est : Established) (dispatch : Dispatch) :
    (handleShellOpen agentCfg env a conn est dispatch).1.conn = some conn ∧
        ¬ TakesShell agentCfg env conn dispatch ∨
      (handleShellOpen agentCfg env a conn est dispatch).1.conn = some
        { conn with
          activeStream := some ⟨est.keys.deriveStream dispatch.jobId.bytes, none⟩
          usedStreamIds := dispatch.jobId :: conn.usedStreamIds } := by
  unfold handleShellOpen
  split
  · rename_i hbad
    refine Or.inl ⟨hconn, ?_⟩
    rintro ⟨hnamed, hshort, -⟩
    rcases hbad with hempty | hlong
    · exact hnamed hempty
    · omega
  split
  · rename_i hused
    exact Or.inl ⟨hconn, fun htakes => htakes.unused hused⟩
  split
  · rename_i hfull
    refine Or.inl ⟨hconn, fun htakes => ?_⟩
    have hroom := htakes.room
    omega
  split
  · rename_i hdenied
    refine Or.inl ⟨hconn, fun htakes => ?_⟩
    rw [htakes.permitted] at hdenied
    cases hdenied
  · dsimp only
    split
    · exact Or.inr rfl
    · rename_i hspawn
      exact Or.inl ⟨hconn, fun htakes => hspawn (htakes.spawned _ _)⟩

/-- The next envelope of the session at the agent: a job leaves the shell alone; a
shell open replaces it, or is refused. -/
theorem Delivered.dispatch {s : Session} {dispatch : Dispatch}
    (h : Delivered agentCfg conn (Topics.dispatchDown host.toStr.text,
      .envelope (s.sealDownlink host.toStr dispatch.encode).1) conn')
    (hhost : agentCfg.hostId = host.toStr) (hest : conn.session = some est)
    (hkeys : est.keys = s.keys) (hbelow : Below est.recvHigh s.sendSeq)
    (hn : s.sendSeq < 2 ^ 64) :
    conn'.session = some { est with recvHigh := some (wireSeq s.sendSeq) } ∧
      (conn'.activeStream = conn.activeStream ∧
          (dispatch.kind.text = shellKind → conn.activeStream = none) ∨
        dispatch.kind.text = shellKind ∧
          conn'.activeStream = some ⟨s.keys.deriveStream dispatch.jobId.bytes, none⟩) := by
  obtain ⟨a, env, hconn, htaken, hstep⟩ := h
  have hopen := openDispatch_sealed host hkeys hbelow hn dispatch
  have htopic : Topics.dispatchDown host.toStr.text = Topics.dispatchDown agentCfg.hostId.text := by
    rw [hhost]
  simp only [agentStep, hconn, htopic, onPublish_dispatchDown] at hstep
  simp only [onDispatch, hest, hopen] at hstep
  split at hstep
  · rename_i hkind
    generalize hopened : { conn with
      session := some { est with recvHigh := some (wireSeq s.sendSeq) } } = opened at hstep
    have hactive : opened.activeStream = conn.activeStream := by rw [← hopened]
    have hused : opened.usedStreamIds = conn.usedStreamIds := by rw [← hopened]
    have hsession : opened.session = some { est with recvHigh := some (wireSeq s.sendSeq) } := by
      rw [← hopened]
    rcases handleShellOpen_conn agentCfg env
      (show (a.setConn opened).conn = some opened from rfl)
      { est with recvHigh := some (wireSeq s.sendSeq) } dispatch with ⟨hsame, hrefused⟩ | hnew
    · obtain rfl := Option.some.inj (hsame.symm.trans hstep)
      refine ⟨hsession, Or.inl ⟨hactive, fun _ => ?_⟩⟩
      by_contra hlive
      obtain ⟨hnamed, hshort, hunused, hroom, hpermitted, hspawned⟩ :=
        htaken est dispatch hlive (by rw [hhost]) hest (by rw [hopen]) hkind
      exact hrefused ⟨hnamed, hshort, hused ▸ hunused, hused ▸ hroom, hpermitted, hspawned⟩
    · obtain rfl := Option.some.inj (hnew.symm.trans hstep)
      refine ⟨hsession, Or.inr ⟨hkind, ?_⟩⟩
      simp [hkeys]
  · rename_i hkind
    unfold handleJob at hstep
    split at hstep <;> obtain rfl := Option.some.inj hstep <;>
      exact ⟨rfl, Or.inl ⟨rfl, fun h => absurd h hkind⟩⟩

/-- The next frame of a route at the agent. -/
theorem Delivered.frame {r : ShellRoute} {frame : StreamFrame}
    (h : Delivered agentCfg conn (Topics.streamDown host.toStr.text,
      .envelope (r.sealDownlink host.toStr frame).1) conn')
    (hhost : agentCfg.hostId = host.toStr) (hn : r.sendSeq < 2 ^ 64)
    (hstream : ∀ stream, conn.activeStream = some stream →
      stream.streamKeys = r.streamKeys ∧ Below stream.recvHigh r.sendSeq) :
    conn'.session = conn.session ∧ ∀ stream', conn'.activeStream = some stream' →
      frame.eof = false ∧ ∃ stream, conn.activeStream = some stream ∧
        stream' = { stream with recvHigh := some (wireSeq r.sendSeq) } := by
  obtain ⟨a, env, hconn, -, hstep⟩ := h
  have htopic : Topics.streamDown host.toStr.text = Topics.streamDown agentCfg.hostId.text := by
    rw [hhost]
  simp only [agentStep, hconn, htopic, onPublish_streamDown] at hstep
  unfold onStreamDown at hstep
  cases hactive : conn.activeStream with
  | none =>
      simp only [hactive] at hstep
      obtain rfl := Option.some.inj (hconn.symm.trans hstep)
      rw [hactive]
      refine ⟨rfl, ?_⟩
      intro stream' hstream'
      cases hstream'
  | some stream =>
      obtain ⟨hkeys, hbelow⟩ := hstream stream hactive
      have hroute := routeDownlink_sealed host hkeys hbelow hn frame
      simp only [hactive, messagePayload, envelopePayload, hroute] at hstep
      cases heof : frame.eof with
      | true =>
          simp only [heof, if_true] at hstep
          obtain rfl := Option.some.inj hstep
          refine ⟨rfl, ?_⟩
          intro stream' hstream'
          cases hstream'
      | false =>
          simp only [heof] at hstep
          obtain rfl := Option.some.inj hstep
          refine ⟨rfl, ?_⟩
          intro stream' hstream'
          obtain rfl := Option.some.inj hstream'
          exact ⟨rfl, stream, rfl, rfl⟩

end Receive

/-! ## Agreement -/

/-- The ends hold one session, and the agent's shell has the keys of the host's
route; both guards are behind the counters of the bridge. -/
structure Agrees (host : HostId) (b : Bridge) (conn : Connection) : Prop where
  session : ∃ sid n est, b.sessionView host = some (sid, est.keys, n) ∧
    conn.session = some est ∧ Below est.recvHigh n
  stream : ∀ stream, conn.activeStream = some stream → ∃ est streamId n,
    conn.session = some est ∧ b.routeView host = some (streamId, stream.streamKeys, n) ∧
      stream.streamKeys = est.keys.deriveStream streamId.bytes ∧ Below stream.recvHigh n

section Agreement

variable {fromDer : FromDer} {cfg : BridgeConfig fromDer} {agentCfg : AgentConfig}
  {host : HostId} {b : Bridge} {ev : BridgeEvent} {out : Bridge × List Effect}
  {conn conn' : Connection} {s : ShellLink}

/-- The session at both ends. -/
theorem Agrees.session_of_get (h : Agrees host b conn) {session : Session}
    (hget : b.sessions.get host = some session) : ∃ est, conn.session = some est ∧
      est.keys = session.keys ∧ Below est.recvHigh session.sendSeq := by
  obtain ⟨sid, n, est, hview, hest, hbelow⟩ := h.session
  rw [Bridge.sessionView, hget, Option.map_some, Option.some.injEq, Prod.mk.injEq,
    Prod.mk.injEq] at hview
  obtain ⟨-, hkeys, rfl⟩ := hview
  exact ⟨est, hest, hkeys.symm, hbelow⟩

/-- The shell at both ends. -/
theorem Agrees.stream_of_lookup (h : Agrees host b conn) {route : ShellRoute}
    (hlookup : b.shells.lookup host = some route) {stream : ShellStream}
    (hstream : conn.activeStream = some stream) : ∃ est, conn.session = some est ∧
      stream.streamKeys = route.streamKeys ∧
      stream.streamKeys = est.keys.deriveStream route.streamId.bytes ∧
      Below stream.recvHigh route.sendSeq := by
  obtain ⟨est, streamId, n, hest, hview, hkeys, hbelow⟩ := h.stream stream hstream
  rw [Bridge.routeView, hlookup, Option.map_some, Option.some.injEq, Prod.mk.injEq,
    Prod.mk.injEq] at hview
  obtain ⟨rfl, hroute, rfl⟩ := hview
  exact ⟨est, hest, hroute.symm, hkeys, hbelow⟩

/-- What the bridge sees of a host is all that agreement depends on. -/
theorem Agrees.of_views {b' : Bridge} (h : Agrees host b conn)
    (hsession : b'.sessionView host = b.sessionView host)
    (hroute : b'.routeView host = b.routeView host) : Agrees host b' conn := by
  refine ⟨?_, ?_⟩
  · rw [hsession]
    exact h.session
  · rw [hroute]
    exact h.stream

/-- A count that was sealed and never left. -/
theorem Agrees.skip {b' : Bridge} {session : Session} (h : Agrees host b conn)
    (hget : b.sessions.get host = some session)
    (hsession : b'.sessionView host = some (session.sid, session.keys, session.sendSeq + 1))
    (hroute : b'.routeView host = b.routeView host) : Agrees host b' conn := by
  obtain ⟨est, hest, hkeys, hbelow⟩ := h.session_of_get hget
  refine ⟨⟨session.sid, session.sendSeq + 1, est, by rw [hsession, hkeys], hest, ?_⟩, ?_⟩
  · exact fun high hhigh => Nat.lt_succ_of_lt (hbelow high hhigh)
  · rw [hroute]
    exact h.stream

/-- A turn of the bridge whose message is received at once keeps the ends in
agreement. -/
theorem agrees_turn (hhost : agentCfg.hostId = host.toStr) (hturn : HostTurn host b ev out)
    (hsid : (out.1.sessionView host).map Prod.fst = (b.sessionView host).map Prod.fst)
    (hsession : ∀ view ∈ b.sessionView host, view.2.2 < 2 ^ 64)
    (hroute : ∀ view ∈ b.routeView host, view.2.2 < 2 ^ 64)
    (hkind : ∀ dispatch events, ev = .command (.dispatch host dispatch events) →
      dispatch.kind.text ≠ shellKind)
    (h : Agrees host b conn)
    (hdrains : Fifo.Drains (Delivered agentCfg) conn (sentTo host out.2) conn') :
    Agrees host out.1 conn' := by
  have hsendSeq : ∀ {session : Session}, b.sessions.get host = some session →
      session.sendSeq < 2 ^ 64 := by
    intro session hget
    exact hsession (session.sid, session.keys, session.sendSeq) (by simp [Bridge.sessionView, hget])
  have hrouteSeq : ∀ {route : ShellRoute}, b.shells.lookup host = some route →
      route.sendSeq < 2 ^ 64 := by
    intro route hlookup
    exact hroute (route.streamId, route.streamKeys, route.sendSeq)
      (by simp [Bridge.routeView, hlookup])
  cases hturn with
  | quiet hview hview' hsent =>
      rw [hsent] at hdrains
      rw [Fifo.drains_nil hdrains]
      exact h.of_views hview hview'
  | unsent hget hview hview' hsent =>
      rw [hsent] at hdrains
      rw [Fifo.drains_nil hdrains]
      exact h.skip hget hview hview'
  | dispatched hev hget hview hview' hsent =>
      rename_i session dispatch events
      rw [hsent] at hdrains
      obtain ⟨est, hest, hkeys, hbelow⟩ := h.session_of_get hget
      obtain ⟨hest', hactive⟩ := (Fifo.drains_singleton hdrains).dispatch hhost hest hkeys hbelow
        (hsendSeq hget)
      refine ⟨⟨session.sid, _, _, by rw [hview, hkeys], hest', below_wireSeq (hsendSeq hget)⟩, ?_⟩
      rcases hactive with ⟨hsame, -⟩ | ⟨hshell, -⟩
      · intro stream hstream
        rw [hsame] at hstream
        obtain ⟨est₀, streamId, n, hest₀, hroute₀, hkeys₀, hbelow₀⟩ := h.stream stream hstream
        obtain rfl := Option.some.inj (hest.symm.trans hest₀)
        exact ⟨_, streamId, n, hest', by rw [hview', hroute₀], hkeys₀, hbelow₀⟩
      · exact absurd hshell (hkind dispatch events hev)
  | opened hget hview hview' hsent =>
      rename_i session streamId runAs params
      rw [hsent] at hdrains
      obtain ⟨est, hest, hkeys, hbelow⟩ := h.session_of_get hget
      obtain ⟨hest', hactive⟩ := (Fifo.drains_singleton hdrains).dispatch hhost hest hkeys hbelow
        (hsendSeq hget)
      refine ⟨⟨session.sid, _, _, by rw [hview, hkeys], hest', below_wireSeq (hsendSeq hget)⟩, ?_⟩
      intro stream hstream
      rcases hactive with ⟨hsame, hnone⟩ | ⟨-, hnew⟩
      · -- refused, so there was no shell
        rw [hsame, hnone rfl] at hstream
        cases hstream
      · rw [hnew] at hstream
        obtain rfl := Option.some.inj hstream
        exact ⟨_, streamId, 0, hest', hview', by rw [hkeys], fun _ h => by cases h⟩
  | typed hlookup hview hview' hsent =>
      rename_i route data
      rw [hsent] at hdrains
      obtain ⟨hest', hactive⟩ := (Fifo.drains_singleton hdrains).frame hhost (hrouteSeq hlookup)
        (fun stream hstream => by
          obtain ⟨-, -, hkeys, -, hbelow⟩ := h.stream_of_lookup hlookup hstream
          exact ⟨hkeys, hbelow⟩)
      refine ⟨by rw [hview, hest']; exact h.session, ?_⟩
      intro stream' hstream'
      obtain ⟨-, stream, hstream, rfl⟩ := hactive stream' hstream'
      obtain ⟨est, hest, hroute', hkeys, -⟩ := h.stream_of_lookup hlookup hstream
      exact ⟨est, route.streamId, _, by rw [hest', hest], by rw [hview', hroute'], hkeys,
        below_wireSeq (hrouteSeq hlookup)⟩
  | closed hlookup hview hview' hsent =>
      rw [hsent] at hdrains
      obtain ⟨hest', hactive⟩ := (Fifo.drains_singleton hdrains).frame hhost (hrouteSeq hlookup)
        (fun stream hstream => by
          obtain ⟨-, -, hkeys, -, hbelow⟩ := h.stream_of_lookup hlookup hstream
          exact ⟨hkeys, hbelow⟩)
      refine ⟨by rw [hview, hest']; exact h.session, ?_⟩
      intro stream' hstream'
      cases (hactive stream' hstream').1
  | replaced hview => exact absurd hsid hview

/-- The tasks of the agent leave its connection alone. -/
theorem agentStep_conn_of_isTask {env : AgentEnv} {a : Process} {ev : AgentEvent}
    (h : isTask ev = true) : (agentStep agentCfg env a ev).1.conn = a.conn := by
  have hmove := agentStep_move agentCfg env a ev
  generalize agentStep agentCfg env a ev = out at hmove ⊢
  cases hmove <;> first | rfl | cases h

/-- A delivery keeps the agent connected. -/
theorem agentStep_publish_conn (agentCfg : AgentConfig) (env : AgentEnv) {a : Process}
    (hconn : a.conn = some conn) (topic : String) (payload : Payload) :
    ∃ conn', (agentStep agentCfg env a (.publish topic payload)).1.conn = some conn' := by
  have hmove := agentStep_move agentCfg env a (.publish topic payload)
  generalize agentStep agentCfg env a (.publish topic payload) = out at hmove ⊢
  cases hmove with
  | idle => exact ⟨conn, hconn⟩
  | _ => exact ⟨_, rfl⟩

/-- However the agent takes in what is in flight, the ends then agree. -/
def LinkInv (agentCfg : AgentConfig) (host : HostId) (s : ShellLink) : Prop :=
  ∃ conn, s.agent.conn = some conn ∧
    Fifo.Settles (Delivered agentCfg) (Agrees host) s.bridge conn s.inFlight

theorem FreshSession.linkInv (h : FreshSession agentCfg host s) : LinkInv agentCfg host s := by
  obtain ⟨session, hget, conn, hconn, est, hest, hkeys, hbelow, hactive⟩ := h.session
  refine ⟨conn, hconn, ?_⟩
  rw [h.inFlight]
  refine Fifo.settles_empty ⟨⟨session.sid, session.sendSeq, est, ?_, hest, hbelow⟩, ?_⟩
  · have hget' : s.bridge.sessions.get host = some session := hget
    rw [Bridge.sessionView, hget', Option.map_some, hkeys]
  · intro stream hstream
    rw [hactive] at hstream
    cases hstream

theorem LinkInv.step (hhost : agentCfg.hostId = host.toStr) (h : LinkInv agentCfg host s)
    {ev : LinkEvent} (hin : InSession cfg host s ev) (hmeets : Undisturbed agentCfg host s ev) :
    LinkInv agentCfg host (linkStep cfg agentCfg host s ev) := by
  obtain ⟨conn, hconn, hsettles⟩ := h
  cases ev with
  | turn env ev =>
      obtain ⟨hstream, hsession, hroute, hkind⟩ := hmeets
      refine ⟨conn, hconn, hsettles.send ?_⟩
      intro conn' conn'' hagrees hdrains
      exact agrees_turn hhost (step_hostTurn cfg s.bridge ev hstream) hin hsession hroute hkind
        hagrees hdrains
  | deliver env =>
      unfold linkStep
      cases hflight : s.inFlight with
      | nil => exact ⟨conn, hconn, hsettles⟩
      | cons message rest =>
          obtain ⟨topic, m⟩ := message
          obtain ⟨conn', hconn'⟩ := agentStep_publish_conn agentCfg env hconn topic
            (messagePayload m)
          refine ⟨conn', hconn', ?_⟩
          rw [hflight] at hsettles
          exact hsettles.receive ⟨s.agent, env, hconn, hmeets conn topic m rest hconn hflight,
            hconn'⟩
  | task env ev =>
      exact ⟨conn, (agentStep_conn_of_isTask hin).trans hconn, hsettles⟩

theorem LinkInv.run (hhost : agentCfg.hostId = host.toStr) (h : LinkInv agentCfg host s)
    {events : List LinkEvent}
    (hrun : Along cfg agentCfg host
      (fun s ev => InSession cfg host s ev ∧ Undisturbed agentCfg host s ev) s events) :
    LinkInv agentCfg host (linkRun cfg agentCfg host s events) := by
  induction events generalizing s with
  | nil => exact h
  | cons ev events ih => exact ih (h.step hhost hrun.1.1 hrun.1.2) hrun.2

/-- With nothing in flight, agreement is about the states as they are. -/
theorem LinkInv.shellsAgree (h : LinkInv agentCfg host s) (hempty : s.inFlight = []) :
    ShellsAgree host s := by
  obtain ⟨conn, hconn, hsettles⟩ := h
  rw [hempty] at hsettles
  have hagrees := hsettles.of_empty
  intro conn' hconn' stream hstream
  obtain rfl := Option.some.inj (hconn.symm.trans hconn')
  obtain ⟨_, _, _, _, hview, _⟩ := hagrees.stream stream hstream
  obtain ⟨route, hlookup, -⟩ := Option.map_eq_some_iff.mp hview
  obtain ⟨est, hest, hroute, hkeys, hbelow⟩ := hagrees.stream_of_lookup hlookup hstream
  refine ⟨est, hest, route, hlookup, hkeys, fun hn => ?_⟩
  rw [routeDownlink_sealed host hroute hbelow hn]
  rfl

end Agreement

/-- Within one session in which nothing disturbs the shells, the agent's shell is the
one the host's route names, whenever nothing is in flight. -/
theorem shells_agree {fromDer : FromDer} (cfg : BridgeConfig fromDer) (agentCfg : AgentConfig)
    (host : HostId) (s : ShellLink) (hstart : FreshSession agentCfg host s)
    (events : List LinkEvent)
    (hrun : Along cfg agentCfg host
      (fun s ev => InSession cfg host s ev ∧ Undisturbed agentCfg host s ev) s events)
    (hempty : (linkRun cfg agentCfg host s events).inFlight = []) :
    ShellsAgree host (linkRun cfg agentCfg host s events) :=
  (hstart.linkInv.run hstart.hostId hrun).shellsAgree hempty

/-! ## Shells without a route -/

instance {fromDer : FromDer} (cfg : BridgeConfig fromDer) (host : HostId) (s : ShellLink) :
    (ev : LinkEvent) → Decidable (InSession cfg host s ev)
  | .turn env ev =>
      inferInstanceAs (Decidable (((step cfg env s.bridge ev).1.sessionView host).map Prod.fst =
        (s.bridge.sessionView host).map Prod.fst))
  | .deliver _ => isTrue trivial
  | .task _ ev => inferInstanceAs (Decidable (isTask ev = true))

instance decidableAlong {fromDer : FromDer} (cfg : BridgeConfig fromDer) (agentCfg : AgentConfig)
    (host : HostId) (P : ShellLink → LinkEvent → Prop) [∀ s ev, Decidable (P s ev)] :
    (s : ShellLink) → (events : List LinkEvent) → Decidable (Along cfg agentCfg host P s events)
  | _, [] => isTrue trivial
  | s, ev :: events =>
      have := decidableAlong cfg agentCfg host P (linkStep cfg agentCfg host s ev) events
      inferInstanceAs (Decidable (P s ev ∧ Along cfg agentCfg host P _ events))

/-- The sample session right after its handshake. -/
def sampleLink : ShellLink := ⟨sampleFleet.bridge, sampleFleet.agents 0, []⟩

/-- The agent's connection in the sample session. -/
def sampleConn (received : UInt64) (stream : Option ShellStream) (used : List Str) : Connection :=
  ⟨sampleIdentity, none, some ⟨sampleKeys, sampleSid, 0, some received⟩, stream, used⟩

/-- A shell of the sample session. -/
def sampleShell (streamId : Str) : ShellStream :=
  ⟨sampleKeys.deriveStream streamId.bytes, none⟩

def sampleShellDispatch (streamId : Str) : Dispatch :=
  ⟨streamId, Str.lit "shell", default, ShellParams.encode ⟨24, 80⟩⟩

theorem freshSession_sampleLink : FreshSession sampleAgentCfg sampleHost sampleLink where
  hostId := rfl
  session := ⟨⟨sampleSid, sampleKeys, 1, none⟩, by decide +kernel, sampleConn 0 none [],
    by decide +kernel, ⟨sampleKeys, sampleSid, 0, some 0⟩, rfl, rfl,
    fun high hhigh => Option.some.inj hhigh ▸ Nat.one_pos, rfl⟩
  inFlight := rfl

def sampleOpenShell (streamId : Str) : LinkEvent :=
  .turn sampleEnv (.command (.openShell sampleHost streamId default 24 80 0))

/-- Open a shell, and another one for which the host cannot spawn a PTY. -/
def sampleRefusedOpen : List LinkEvent :=
  [sampleOpenShell (Str.lit "a"), .deliver sampleAgentEnv,
    sampleOpenShell (Str.lit "b"), .deliver { sampleAgentEnv with spawnPty := fun _ _ _ => false }]

/-- A job of the kind {lit}`shell`. -/
def sampleShellJob : List LinkEvent :=
  [.turn sampleEnv (.command (.dispatch sampleHost (sampleShellDispatch (Str.lit "a")) 0)),
    .deliver sampleAgentEnv]

/-- A shell of the sample session disagrees with a route of another stream id, and
with none. -/
theorem not_shellsAgree_sample {s : ShellLink} {received : UInt64} {used : List Str}
    {streamId : Str}
    (hconn : s.agent.conn = some (sampleConn received (some (sampleShell streamId)) used))
    (hroute : ∀ route, s.bridge.shells.lookup sampleHost = some route →
      route.streamId ≠ streamId) : ¬ ShellsAgree sampleHost s := by
  intro hagree
  obtain ⟨est, hest, route, hlookup, hkeys, -⟩ := hagree _ hconn _ rfl
  obtain rfl := Option.some.inj hest
  have hid := (SessionKeys.deriveStream_key_inj (congrArg (·.key .agentToCoord) hkeys)).2
  exact hroute route hlookup (Str.bytes_injective hid).symm

/-- A shell open that is refused while another shell is live, and a job of the kind
{lit}`shell`, leave a shell on the host that no route of the coordinator closes. -/
theorem shell_without_route :
    FreshSession sampleAgentCfg sampleHost sampleLink ∧
    ∀ events ∈ [sampleRefusedOpen, sampleShellJob],
      Along sampleCfg sampleAgentCfg sampleHost (InSession sampleCfg sampleHost) sampleLink
        events ∧
      (linkRun sampleCfg sampleAgentCfg sampleHost sampleLink events).inFlight = [] ∧
      ¬ ShellsAgree sampleHost (linkRun sampleCfg sampleAgentCfg sampleHost sampleLink events) := by
  refine ⟨freshSession_sampleLink, ?_⟩
  intro events hevents
  simp only [List.mem_cons, List.not_mem_nil, or_false] at hevents
  rcases hevents with rfl | rfl
  · have hrun : let s := linkRun sampleCfg sampleAgentCfg sampleHost sampleLink sampleRefusedOpen
        Along sampleCfg sampleAgentCfg sampleHost (InSession sampleCfg sampleHost) sampleLink
          sampleRefusedOpen ∧
        s.inFlight = [] ∧
        s.agent.conn = some (sampleConn 2 (some (sampleShell (Str.lit "a"))) [Str.lit "a"]) ∧
        (s.bridge.shells.lookup sampleHost).map (·.streamId) = some (Str.lit "b") := by
      decide +kernel
    obtain ⟨halong, hempty, hconn, hid⟩ := hrun
    refine ⟨halong, hempty, not_shellsAgree_sample hconn ?_⟩
    intro route hlookup
    rw [hlookup, Option.map_some, Option.some.injEq] at hid
    rw [hid]
    decide
  · have hrun : let s := linkRun sampleCfg sampleAgentCfg sampleHost sampleLink sampleShellJob
        Along sampleCfg sampleAgentCfg sampleHost (InSession sampleCfg sampleHost) sampleLink
          sampleShellJob ∧
        s.inFlight = [] ∧
        s.agent.conn = some (sampleConn 1 (some (sampleShell (Str.lit "a"))) [Str.lit "a"]) ∧
        s.bridge.shells.lookup sampleHost = none := by
      decide +kernel
    obtain ⟨halong, hempty, hconn, hnone⟩ := hrun
    refine ⟨halong, hempty, not_shellsAgree_sample hconn ?_⟩
    intro route hlookup
    rw [hnone] at hlookup
    cases hlookup

/-- Open a shell and replace it. -/
def sampleReplaced : List LinkEvent :=
  [sampleOpenShell (Str.lit "a"), .deliver sampleAgentEnv,
    sampleOpenShell (Str.lit "b"), .deliver sampleAgentEnv]

theorem undisturbed_sampleOpenShell {s : ShellLink} {n : Nat}
    {route : Option (Str × SessionKeys × Nat)} (streamId : Str)
    (hsession : s.bridge.sessionView sampleHost = some (sampleSid, sampleKeys, n))
    (hn : n < 2 ^ 64) (hroute : s.bridge.routeView sampleHost = route)
    (hseq : ∀ view ∈ route, view.2.2 < 2 ^ 64) :
    Undisturbed sampleAgentCfg sampleHost s (sampleOpenShell streamId) := by
  refine ⟨fun _ => rfl, ?_, hroute ▸ hseq, nofun⟩
  intro view hview
  rw [hsession] at hview
  rw [← Option.some.inj hview]
  exact hn

theorem undisturbed_sampleDeliver {s : ShellLink} (received : UInt64)
    (stream : Option ShellStream) (used : List Str) (streamId : Str) (n : Nat)
    (hconn : s.agent.conn = some (sampleConn received stream used))
    (hflight : s.inFlight = [(Topics.dispatchDown sampleHost.toStr.text,
      .envelope (sampleDownlink n (sampleShellDispatch streamId).encode))])
    (hopen : (openDispatch ⟨sampleKeys, sampleSid, 0, some received⟩
      (envelopePayload (sampleDownlink n (sampleShellDispatch streamId).encode))).1 =
      some (sampleShellDispatch streamId))
    (htakes : TakesShell sampleAgentCfg sampleAgentEnv (sampleConn received stream used)
      (sampleShellDispatch streamId)) :
    Undisturbed sampleAgentCfg sampleHost s (.deliver sampleAgentEnv) := by
  intro conn topic m rest hconn' hflight' est dispatch _ _ hest hdispatch _
  obtain rfl := Option.some.inj (hconn.symm.trans hconn')
  rw [hflight, List.cons.injEq, Prod.mk.injEq] at hflight'
  obtain ⟨⟨-, rfl⟩, -⟩ := hflight'
  obtain rfl := Option.some.inj hest
  rw [messagePayload, hopen] at hdispatch
  obtain rfl := Option.some.inj hdispatch
  exact htakes

/-- The states of the run, as far as its conditions look at them. -/
theorem sampleReplaced_states :
    let next := linkStep sampleCfg sampleAgentCfg sampleHost
    let opened := fun n streamId => [(Topics.dispatchDown sampleHost.toStr.text,
      Message.envelope (sampleDownlink n (sampleShellDispatch streamId).encode))]
    let s₁ := next sampleLink (sampleOpenShell (Str.lit "a"))
    let s₂ := next s₁ (.deliver sampleAgentEnv)
    let s₃ := next s₂ (sampleOpenShell (Str.lit "b"))
    let s₄ := linkRun sampleCfg sampleAgentCfg sampleHost sampleLink sampleReplaced
    Along sampleCfg sampleAgentCfg sampleHost (InSession sampleCfg sampleHost) sampleLink
      sampleReplaced ∧
    (sampleLink.bridge.sessionView sampleHost = some (sampleSid, sampleKeys, 1) ∧
      sampleLink.bridge.routeView sampleHost = none) ∧
    (s₁.agent.conn = some (sampleConn 0 none []) ∧ s₁.inFlight = opened 1 (Str.lit "a")) ∧
    (s₂.bridge.sessionView sampleHost = some (sampleSid, sampleKeys, 2) ∧
      s₂.bridge.routeView sampleHost =
        some (Str.lit "a", sampleKeys.deriveStream (Str.lit "a").bytes, 0)) ∧
    (s₃.agent.conn = some (sampleConn 1 (some (sampleShell (Str.lit "a"))) [Str.lit "a"]) ∧
      s₃.inFlight = opened 2 (Str.lit "b")) ∧
    s₄.agent.conn =
      some (sampleConn 2 (some (sampleShell (Str.lit "b"))) [Str.lit "b", Str.lit "a"]) ∧
    s₄.inFlight = [] := by
  decide +kernel

/-- A shell and the one that replaces it, with every condition of the run checked. -/
theorem shells_agree_replaced :
    (linkRun sampleCfg sampleAgentCfg sampleHost sampleLink sampleReplaced).agent.conn =
      some (sampleConn 2 (some (sampleShell (Str.lit "b"))) [Str.lit "b", Str.lit "a"]) ∧
    ShellsAgree sampleHost
      (linkRun sampleCfg sampleAgentCfg sampleHost sampleLink sampleReplaced) := by
  obtain ⟨hin, h₀, h₁, h₂, h₃, hconn, hempty⟩ := sampleReplaced_states
  refine ⟨hconn, shells_agree sampleCfg sampleAgentCfg sampleHost sampleLink
    freshSession_sampleLink sampleReplaced ⟨⟨hin.1, ?_⟩, ⟨trivial, ?_⟩, ⟨hin.2.2.1, ?_⟩,
      ⟨trivial, ?_⟩, trivial⟩ hempty⟩
  · exact undisturbed_sampleOpenShell (Str.lit "a") h₀.1 (by decide) h₀.2 nofun
  · exact undisturbed_sampleDeliver 0 none [] (Str.lit "a") 1 h₁.1 h₁.2 (by decide +kernel)
      ⟨by decide, by decide, by decide, by decide, by decide +kernel, fun _ _ => rfl⟩
  · exact undisturbed_sampleOpenShell (Str.lit "b") h₂.1 (by decide) h₂.2
      (fun view hview => Option.some.inj hview ▸ by decide)
  · exact undisturbed_sampleDeliver 1 (some (sampleShell (Str.lit "a"))) [Str.lit "a"]
      (Str.lit "b") 2 h₃.1 h₃.2 (by decide +kernel)
      ⟨by decide, by decide, by decide, by decide, by decide +kernel, fun _ _ => rfl⟩

end System
end OpenSsmAgent
