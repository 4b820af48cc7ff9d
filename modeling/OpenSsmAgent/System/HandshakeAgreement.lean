import OpenSsmAgent.Agent.Moves
import OpenSsmAgent.Coordinator.BridgeActs
import OpenSsmAgent.Coordinator.Intake
import OpenSsmAgent.Coordinator.Uplink
import OpenSsmAgent.System.Fleet

/-!
# Agreement of the handshake

The coordinator signs neither the agent's identity nor its certificate, so a hello
that was signed again under another certificate gets an answer that the first
agent accepts.  What binds the identity is the salt of the session keys.  An
{lit}`Exchange` lists what the salt is made of; each side computes its keys from
the exchange as it sees it, and keys determine the exchange.

Every message of a run is the broker's choice, so it may also deliver what
compromised hosts sign.  An attacker is the set of the secrets it holds; the
secrets of the ephemerals that agents and coordinator draw are not among them.

Main results:

- Theorem {lit}`Exchange.keys_injective`: equal keys come from equal exchanges.
- Theorem {lit}`fleetOrigin_run`: along every run each session goes back to an
  exchange under its holder's certificate.
- Theorem {lit}`handshake_agreement`: in every run, an agent and the coordinator
  that end with the same keys took part in the same exchange.
-/

open Framing SymbolicCrypto

namespace OpenSsmAgent

/-! ## Exchanges -/

namespace Hs

open Seal

/-- What one side of a handshake takes the exchange to be. -/
structure Exchange where
  sid : Blob
  clientEph : Point
  serverEph : Point
  certDer : Blob
deriving DecidableEq

/-- The keys of an exchange. -/
def Exchange.keys (x : Exchange) : SessionKeys :=
  SessionKeys.fromShared (diffieHellman x.clientEph x.serverEph)
    (Handshake.transcript x.clientEph x.serverEph
      (sessionBinding x.sid.bytes x.clientEph x.serverEph x.certDer.bytes))

/-- One direction's key already determines the exchange. -/
theorem Exchange.key_inj {x y : Exchange} {d e : Direction} (h : x.keys.key d = y.keys.key e) :
    x = y := by
  obtain ⟨-, hsalt, -⟩ := SessionKeys.fromShared_key_inj h
  obtain ⟨hsid, hclient, hserver, hcert⟩ := sessionSalt_injective hsalt
  cases x
  cases y
  simp_all

/-- Equal keys come from equal exchanges. -/
theorem Exchange.keys_injective : Function.Injective Exchange.keys := by
  intro x y h
  have hkey : x.keys.key .coordToAgent = y.keys.key .coordToAgent := by rw [h]
  exact Exchange.key_inj hkey

/-- An attacker that holds neither ephemeral's secret knows no key of the exchange. -/
theorem Exchange.not_knows {x : Exchange} {secrets : Set Nat}
    (hclient : uCoordinate x.clientEph ∉ secrets) (hserver : uCoordinate x.serverEph ∉ secrets)
    (d : Direction) : ¬ Knows secrets (x.keys.key d) := by
  rw [knows_iff_root, Exchange.keys, SessionKeys.fromShared_key, Key.root, Key.root,
    diffieHellman_eq, knowsShared_iff]
  rintro (hknown | hknown)
  · exact hclient hknown
  · exact hserver hknown

/-- The exchange as an initiator sees it once it has the server's ephemeral. -/
def Initiator.exchange (i : Initiator) (serverEph : Point) : Exchange :=
  ⟨i.sid, i.eph.public, serverEph, i.certDer⟩

/-- An initiator that finishes holds the keys of its exchange. -/
theorem Initiator.keys_of_finish {i : Initiator} {serverEph : Point} {sig : Signature}
    {ca : VerifyingKey} {keys : SessionKeys} (h : i.finish serverEph sig ca = .ok keys) :
    keys = (i.exchange serverEph).keys :=
  (finish_eq_ok_iff.mp h).2.2

end Hs

namespace Coordinator

open Seal Hs Wire Domain

/-- The exchange as the coordinator sees it when it has answered. -/
def CheckedHello.exchange (c : CheckedHello) (resp : ServerResponse) : Exchange :=
  ⟨c.hello.sid.asBytes, c.clientEph, resp.serverEph, c.hello.certDer⟩

/-- The beacon of the session a hello starts. -/
def CheckedHello.beacon (c : CheckedHello) (resp : ServerResponse) : Envelope :=
  ((c.session resp).sealDownlink c.host.hostId.toStr ctrlSessionReady).1

section Responder

variable {fromDer : FromDer} {ca : EmbeddedCa fromDer} {c : CheckedHello} {resp : ServerResponse}
  {eph : Option Point}

/-- A responder holds the keys of its exchange; it takes the ephemerals in the other
order. -/
theorem CheckedHello.keys_of_respond (h : c.respond ca eph = .ok resp) :
    resp.keys = (c.exchange resp).keys := by
  unfold CheckedHello.respond EmbeddedCa.respondHandshake at h
  rw [(respond_eq_ok_iff.mp h).2.2.2.2, diffieHellman_comm, Handshake.transcript_comm]
  rfl

theorem CheckedHello.eph_of_respond (h : c.respond ca eph = .ok resp) :
    eph = some resp.serverEph := by
  unfold CheckedHello.respond EmbeddedCa.respondHandshake at h
  exact (respond_eq_ok_iff.mp h).2.1

end Responder

end Coordinator

/-! ## Where the sessions of a run come from -/

namespace System

open Seal Wire Domain Hs Proto Coordinator Agent

/-- The ephemeral a turn's party draws. -/
def FleetEvent.drawn : FleetEvent → Option Point
  | .coordinator env _ => env.eph
  | .coordinatorRestart => none
  | .agent _ _ (.connAck _ _ eph) => eph
  | .agent _ _ _ => none

/-- The ephemerals that the coordinator and the agents draw in a run. -/
def drawn (events : List FleetEvent) : List Point :=
  events.filterMap FleetEvent.drawn

/-- An agent's handshake and session go back to ephemerals it drew, under its own
certificate. -/
structure ConnOrigin (ephs : List Point) (conn : Connection) : Prop where
  handshaking : ∀ hs, conn.handshaking = some hs → hs.initiator.eph.public ∈ ephs ∧
    hs.initiator.sid = hs.sid.asBytes ∧ hs.initiator.certDer = conn.id.certDer
  session : ∀ est, conn.session = some est → ∃ x : Exchange, est.keys = x.keys ∧
    x.sid = est.sid.asBytes ∧ x.certDer = conn.id.certDer ∧ x.clientEph ∈ ephs

/-- A session of the coordinator goes back to an ephemeral it drew, under a
certificate that verified for the session's host. -/
def SessionOrigin {fromDer : FromDer} (ca : EmbeddedCa fromDer) (ephs : List Point)
    (host : HostId) (s : Session) : Prop :=
  ∃ (x : Exchange) (utcNow : Int) (v : VerifiedHost), s.keys = x.keys ∧
    x.sid = s.sid.asBytes ∧ x.serverEph ∈ ephs ∧
    ca.verifyHostCert utcNow x.certDer = .ok v ∧ v.hostId = host

/-- Where the sessions of the fleet come from. -/
structure FleetOrigin {fromDer : FromDer} (ca : EmbeddedCa fromDer) (ephs : List Point)
    (s : Fleet) : Prop where
  agents : ∀ i conn, (s.agents i).conn = some conn → ConnOrigin ephs conn
  bridge : ∀ host session, s.bridge.sessions.get host = some session →
    SessionOrigin ca ephs host session

theorem fleetOrigin_new {fromDer : FromDer} (ca : EmbeddedCa fromDer) :
    FleetOrigin ca [] Fleet.new :=
  ⟨nofun, nofun⟩

section Origin

variable {fromDer : FromDer} {cfg : BridgeConfig fromDer} {agentCfg : Nat → AgentConfig}
  {ephs ephs' : List Point} {s : Fleet}

theorem ConnOrigin.mono {conn : Connection} (h : ConnOrigin ephs conn) (hsub : ephs ⊆ ephs') :
    ConnOrigin ephs' conn where
  handshaking := fun hs hhs => ⟨hsub (h.handshaking hs hhs).1, (h.handshaking hs hhs).2⟩
  session := by
    intro est hest
    obtain ⟨x, hkeys, hsid, hcert, hmem⟩ := h.session est hest
    exact ⟨x, hkeys, hsid, hcert, hsub hmem⟩

theorem ConnOrigin.keeps {conn conn' : Connection} (h : ConnOrigin ephs conn)
    (hkeeps : conn.Keeps conn') : ConnOrigin ephs conn' where
  handshaking := by
    intro hs hhs
    rw [hkeeps.id]
    rcases hkeeps.handshaking with hnone | hsame
    · rw [hnone] at hhs
      cases hhs
    · exact h.handshaking hs (hsame ▸ hhs)
  session := by
    intro est' hest'
    obtain ⟨est, hest, hkeys, hsid, -⟩ := hkeeps.session est' hest'
    rw [hkeeps.id, hkeys, hsid]
    exact h.session est hest

/-- What a finished handshake leaves: the keys of the exchange as the agent saw it. -/
theorem finishHandshake_exchange {hs : Handshaking} {id : AgentIdentity} {payload : Payload}
    {cell : Nat} {est : Established} (h : finishHandshake hs id payload cell = .ok est) :
    ∃ sh serverEph, payload.serverHello = some sh ∧ toPoint sh.serverEph = some serverEph ∧
      est = ⟨(hs.initiator.exchange serverEph).keys, hs.sid, cell, none⟩ := by
  obtain ⟨sh, serverEph, keys, hhello, -, heph, hfinish, rfl⟩ := finishHandshake_eq_ok_iff.mp h
  exact ⟨sh, serverEph, hhello, heph, by rw [Initiator.keys_of_finish hfinish]⟩

/-- A step of an agent keeps its origins. -/
theorem ConnOrigin.step {cfg : AgentConfig} {env : AgentEnv} {a : Process} {ev : AgentEvent}
    (h : ∀ conn, a.conn = some conn → ConnOrigin ephs conn) (i : Nat) {conn' : Connection}
    (hconn' : (agentStep cfg env a ev).1.conn = some conn') :
    ConnOrigin (ephs ++ (FleetEvent.agent i env ev).drawn.toList) conn' := by
  have hsub : ephs ⊆ ephs ++ (FleetEvent.agent i env ev).drawn.toList :=
    List.subset_append_left _ _
  have hmove := agentStep_connMove cfg env a ev
  rw [hconn'] at hmove
  generalize hout : some conn' = out at hmove
  cases hmove with
  | connected id =>
      obtain rfl := Option.some.inj hout
      exact ⟨nofun, nofun⟩
  | @greeted conn epoch sid eph hconn =>
      obtain rfl := Option.some.inj hout
      refine ⟨?_, ((h conn hconn).mono hsub).session⟩
      intro hs hhs
      obtain ⟨rfl, horigin⟩ := beginHandshake_eq_some hhs
      exact ⟨List.mem_append_right _ (List.mem_singleton_self _), horigin⟩
  | @finished conn hs payload est hconn hhs hfinish =>
      obtain rfl := Option.some.inj hout
      obtain ⟨hmem, hsid, hcert⟩ := ((h conn hconn).mono hsub).handshaking hs hhs
      obtain ⟨sh, serverEph, -, -, rfl⟩ := finishHandshake_exchange hfinish
      refine ⟨nofun, ?_⟩
      intro est hest
      obtain rfl := Option.some.inj hest
      exact ⟨hs.initiator.exchange serverEph, rfl, hsid, hcert, hmem⟩
  | kept hkept =>
      obtain ⟨conn, hconn, hkeeps⟩ := hkept conn' hout.symm
      exact ((h conn hconn).mono hsub).keeps hkeeps

theorem SessionOrigin.mono {ca : EmbeddedCa fromDer} {host : HostId} {session : Session}
    (h : SessionOrigin ca ephs host session) (hsub : ephs ⊆ ephs') :
    SessionOrigin ca ephs' host session := by
  obtain ⟨x, utcNow, v, hkeys, hsid, hmem, hverify⟩ := h
  exact ⟨x, utcNow, v, hkeys, hsid, hsub hmem, hverify⟩

theorem SessionOrigin.same {ca : EmbeddedCa fromDer} {host : HostId} {session session' : Session}
    (h : SessionOrigin ca ephs host session) (hsame : session.Same session') :
    SessionOrigin ca ephs host session' := by
  obtain ⟨x, utcNow, v, hkeys, hsid, horigin⟩ := h
  exact ⟨x, utcNow, v, hsame.2.trans hkeys, by rw [hsame.1]; exact hsid, horigin⟩

/-- The session of an answered hello goes back to the coordinator's view of the
exchange. -/
theorem sessionOrigin_start {ca : EmbeddedCa fromDer} {c : CheckedHello} {resp : ServerResponse}
    {eph : Option Point} {utcNow : Int} {tenant : String} {payload : Payload}
    {sessions : SessionStore} (hcheck : checkHello ca utcNow tenant payload sessions = some c)
    (hresp : c.respond ca eph = .ok resp) :
    SessionOrigin ca eph.toList c.host.hostId (c.session resp) := by
  obtain ⟨-, -, hverify, -, -⟩ := checkHello_eq_some hcheck
  refine ⟨c.exchange resp, utcNow, c.host, c.keys_of_respond hresp, rfl, ?_, hverify, rfl⟩
  rw [c.eph_of_respond hresp]
  exact List.mem_singleton_self _

/-- The acts of a turn keep the origins of the sessions. -/
theorem SessionOrigin.acts {env : StepEnv} {ev : BridgeEvent} {flag : Bool} {b b' : Bridge}
    {es : List Effect} (hacts : Acts cfg env ev flag b es b') (hsub : env.eph.toList ⊆ ephs)
    (h : ∀ host session, b.sessions.get host = some session →
      SessionOrigin cfg.ca ephs host session) :
    ∀ host session, b'.sessions.get host = some session →
      SessionOrigin cfg.ca ephs host session := by
  induction hacts with
  | nil => exact h
  | act hact _ ih =>
      refine ih ?_
      intro host session hget
      obtain ⟨session₀, hget₀, hsame⟩ := hact.session_of hget
      exact (h host session₀ hget₀).same hsame
  | birth hbirth _ ih =>
      refine ih ?_
      cases hbirth with
      | session hcheck hresp =>
          intro host session hget
          simp only [Bridge.setSession, SessionStore.get_set] at hget
          split at hget
          · rename_i hhost
            obtain rfl := Option.some.inj hget
            rw [hhost]
            exact (sessionOrigin_start hcheck hresp).mono hsub
          · exact h host session hget
      | route hsession => exact h

/-- One step of the fleet keeps the origins. -/
theorem FleetOrigin.step (h : FleetOrigin cfg.ca ephs s) (ev : FleetEvent) :
    FleetOrigin cfg.ca (ephs ++ ev.drawn.toList) (fleetStep cfg agentCfg s ev).1 := by
  have hsub : ephs ⊆ ephs ++ ev.drawn.toList := List.subset_append_left _ _
  have hagents : ∀ i conn, (s.agents i).conn = some conn →
      ConnOrigin (ephs ++ ev.drawn.toList) conn :=
    fun i conn hconn => (h.agents i conn hconn).mono hsub
  have hbridge : ∀ host session, s.bridge.sessions.get host = some session →
      SessionOrigin cfg.ca (ephs ++ ev.drawn.toList) host session :=
    fun host session hget => (h.bridge host session hget).mono hsub
  cases ev with
  | coordinator env ev =>
      exact ⟨hagents, SessionOrigin.acts (step_acts cfg env s.bridge ev)
        (List.subset_append_right _ _) hbridge⟩
  | coordinatorRestart => exact ⟨hagents, nofun⟩
  | agent i env ev =>
      refine ⟨?_, hbridge⟩
      intro j conn hconn
      simp only [fleetStep] at hconn
      by_cases hj : j = i
      · subst hj
        rw [Function.update_self] at hconn
        exact ConnOrigin.step (h.agents j) j hconn
      · rw [Function.update_of_ne hj] at hconn
        exact hagents j conn hconn

theorem FleetOrigin.run {events : List FleetEvent} (h : FleetOrigin cfg.ca ephs s) :
    FleetOrigin cfg.ca (ephs ++ drawn events) (fleetRun cfg agentCfg s events).1 := by
  induction events generalizing s ephs with
  | nil => simpa [drawn, fleetRun] using h
  | cons ev events ih =>
      have hsplit : drawn (ev :: events) = ev.drawn.toList ++ drawn events := by
        unfold drawn
        cases hdrawn : ev.drawn <;> simp [hdrawn]
      rw [hsplit, ← List.append_assoc]
      exact ih (h.step ev)

/-- Along every run each session goes back to an exchange under its holder's
certificate, with an ephemeral its holder drew. -/
theorem fleetOrigin_run (cfg : BridgeConfig fromDer) (agentCfg : Nat → AgentConfig)
    (events : List FleetEvent) :
    FleetOrigin cfg.ca (drawn events) (fleetRun cfg agentCfg Fleet.new events).1 := by
  have hrun : FleetOrigin cfg.ca ([] ++ drawn events)
      (fleetRun cfg agentCfg Fleet.new events).1 := (fleetOrigin_new cfg.ca).run
  rwa [List.nil_append] at hrun

end Origin

/-! ## Ends of handshakes -/

/-- A turn in which an agent's {lit}`Initiator::finish` succeeds: under which
identity, in which exchange, and the session it starts. -/
inductive Finishes (cfg : AgentConfig) (a : Process) :
    AgentEvent → AgentIdentity → Exchange → Established → Prop
  | intro {conn : Connection} {hs : Handshaking} {payload : Payload} {sh : ServerHello}
      {serverEph : Point} {est : Established} (hconn : a.conn = some conn)
      (hhs : conn.handshaking = some hs) (hhello : payload.serverHello = some sh)
      (heph : toPoint sh.serverEph = some serverEph)
      (hfinish : finishHandshake hs conn.id payload a.cells.length = .ok est) :
      Finishes cfg a (.publish (Topics.hsDown cfg.hostId.text) payload) conn.id
        (hs.initiator.exchange serverEph) est

/-- A turn in which the coordinator's {lit}`respond` succeeds, whatever becomes of
the hello afterwards. -/
inductive Responds {fromDer : FromDer} (cfg : BridgeConfig fromDer) (env : StepEnv) (b : Bridge) :
    BridgeEvent → CheckedHello → ServerResponse → Prop
  | intro {topic tenant : String} {payload : Payload} {c : CheckedHello} {resp : ServerResponse}
      (htopic : Topics.tenantFromHsUp topic = some tenant)
      (hcheck : checkHello cfg.ca env.utcNow tenant payload b.sessions = some c)
      (hrevoked : env.isRevoked c.host.hostId = .ok false)
      (hrespond : c.respond cfg.ca env.eph = .ok resp) :
      Responds cfg env b (.message topic payload) c resp

section Instances

variable {fromDer : FromDer} (cfg : BridgeConfig fromDer) (agentCfg : Nat → AgentConfig)
  (events : List FleetEvent)

/-- Somewhere in a run an agent finishes a handshake. -/
def FinishesIn (i : Nat) (id : AgentIdentity) (x : Exchange) (est : Established) : Prop :=
  ∃ front env ev back, events = front ++ .agent i env ev :: back ∧
    Finishes (agentCfg i) ((fleetRun cfg agentCfg Fleet.new front).1.agents i) ev id x est

/-- Somewhere in a run the coordinator answers a hello. -/
def RespondsIn (c : CheckedHello) (resp : ServerResponse) : Prop :=
  ∃ front env ev back, events = front ++ .coordinator env ev :: back ∧
    Responds cfg env (fleetRun cfg agentCfg Fleet.new front).1.bridge ev c resp

end Instances

/-- The host an identity's certificate stands for, whenever it is verified. -/
def HostOf {fromDer : FromDer} (ca : EmbeddedCa fromDer) (id : AgentIdentity) (host : HostId) :
    Prop :=
  (∃ utcNow v, ca.verifyHostCert utcNow id.certDer = .ok v ∧ v.hostId = host) ∧
    ∀ utcNow v, ca.verifyHostCert utcNow id.certDer = .ok v → v.hostId = host

section Agreement

variable {fromDer : FromDer} {cfg : BridgeConfig fromDer} {agentCfg : Nat → AgentConfig}
  {events : List FleetEvent} {i : Nat} {id : AgentIdentity} {x : Exchange} {est : Established}
  {c : CheckedHello} {resp : ServerResponse}

/-- The host of a certificate does not depend on the time. -/
theorem hostOf_of_verifyHostCert {ca : EmbeddedCa fromDer} {utcNow : Int} {v : VerifiedHost}
    (h : ca.verifyHostCert utcNow id.certDer = .ok v) : HostOf ca id v.hostId := by
  refine ⟨⟨utcNow, v, h, rfl⟩, ?_⟩
  intro utcNow' v' h'
  obtain ⟨cert, hparse, -, -, hhost, -⟩ := EmbeddedCa.verifyHostCert_eq_ok_iff.mp h
  obtain ⟨cert', hparse', -, -, hhost', -⟩ := EmbeddedCa.verifyHostCert_eq_ok_iff.mp h'
  obtain rfl : cert = cert' := Option.some.inj (hparse.symm.trans hparse')
  exact Except.ok.inj (hhost'.symm.trans hhost)

theorem drawn_subset {front back : List FleetEvent} :
    drawn front ⊆ drawn (front ++ back) := by
  unfold drawn
  rw [List.filterMap_append]
  exact List.subset_append_left _ _

/-- An agent that finishes holds the keys of its exchange, for its own certificate, with
an ephemeral drawn in the run. -/
theorem FinishesIn.spec (h : FinishesIn cfg agentCfg events i id x est) :
    est.keys = x.keys ∧ x.sid = est.sid.asBytes ∧ x.certDer = id.certDer ∧
      x.clientEph ∈ drawn events ∧ est.recvHigh = none := by
  obtain ⟨front, env, ev, back, rfl, hfinishes⟩ := h
  cases hfinishes with
  | @intro conn hs payload sh serverEph _ hconn hhs hhello heph hfinish =>
      obtain ⟨hmem, hsid, hcert⟩ :=
        ((fleetOrigin_run cfg agentCfg front).agents i conn hconn).handshaking hs hhs
      obtain ⟨sh', serverEph', hhello', heph', rfl⟩ := finishHandshake_exchange hfinish
      obtain rfl : sh = sh' := Option.some.inj (hhello.symm.trans hhello')
      obtain rfl : serverEph = serverEph' := Option.some.inj (heph.symm.trans heph')
      exact ⟨rfl, hsid, hcert, drawn_subset hmem, rfl⟩

/-- A coordinator that answers holds the keys of its exchange, for a certificate that
verified, with an ephemeral drawn in the run. -/
theorem RespondsIn.spec (h : RespondsIn cfg agentCfg events c resp) :
    resp.keys = (c.exchange resp).keys ∧ resp.serverEph ∈ drawn events ∧
      ∃ utcNow, cfg.ca.verifyHostCert utcNow c.hello.certDer = .ok c.host := by
  obtain ⟨front, env, ev, back, rfl, hresponds⟩ := h
  cases hresponds with
  | @intro topic tenant payload _ _ htopic hcheck hrevoked hrespond =>
      obtain ⟨-, -, hverify, -, -⟩ := checkHello_eq_some hcheck
      have hturn : .coordinator env (.message topic payload) ∈
          front ++ .coordinator env (.message topic payload) :: back :=
        List.mem_append_right _ (List.mem_cons_self ..)
      exact ⟨c.keys_of_respond hrespond,
        List.mem_filterMap.mpr ⟨_, hturn, c.eph_of_respond hrespond⟩, env.utcNow, hverify⟩

/-- The beacon of a session opens in a new session of an agent exactly under the same
keys. -/
theorem confirms_beacon_iff (hkeys : est.keys = x.keys) (hsid : x.sid = est.sid.asBytes)
    (hfresh : est.recvHigh = none) (hresp : resp.keys = (c.exchange resp).keys) (count : Nat) :
    (∃ ack, (confirmSession est count id (envelopePayload (c.beacon resp))).1 = .ok ack) ↔
      est.keys = resp.keys := by
  have hopen : (est.openDownlink (c.beacon resp)).1 = some ctrlSessionReady ↔
      openEnvelope est.keys .coordToAgent (c.beacon resp) = some ctrlSessionReady := by
    rw [Established.openDownlink_eq, openGuarded, ReplayGuard.guardedOpen_fst_eq_some_iff, hfresh]
    simp [ReplayGuard.stale]
  rw [confirmSession_eq_ok_iff]
  constructor
  · rintro ⟨e, he, -, hread⟩
    obtain rfl := Option.some.inj he
    obtain ⟨aad, hct⟩ := ciphertext_of_openEnvelope (hopen.mp hread)
    have hkey : resp.keys.key .coordToAgent = est.keys.key .coordToAgent :=
      (Ciphertext.sealed.inj hct).1
    rw [hkeys, hresp] at hkey
    rw [hkeys, hresp, Exchange.key_inj hkey]
  · intro hequal
    refine ⟨c.beacon resp, rfl, ?_, hopen.mpr ?_⟩
    · -- equal keys come from one session id
      have hexchange : x = c.exchange resp :=
        Exchange.keys_injective (by rw [← hkeys, ← hresp, hequal])
      rw [hexchange] at hsid
      exact Str.asBytes_injective hsid
    · rw [hequal]
      exact openEnvelope_sealEnvelope ..

/-- What the handshakes of a run guarantee. -/
structure HandshakesAgree (cfg : BridgeConfig fromDer) (agentCfg : Nat → AgentConfig)
    (events : List FleetEvent) : Prop where
  /-- Both ends hold the same keys exactly if they saw the same exchange. -/
  keys : ∀ i id x est c resp, FinishesIn cfg agentCfg events i id x est →
    RespondsIn cfg agentCfg events c resp → (est.keys = resp.keys ↔ x = c.exchange resp)
  /-- The coordinator's beacon opens at the agent exactly then. -/
  beacon : ∀ i id x est c resp, FinishesIn cfg agentCfg events i id x est →
    RespondsIn cfg agentCfg events c resp → ∀ count,
    (∃ ack, (confirmSession est count id (envelopePayload (c.beacon resp))).1 = .ok ack) ↔
      est.keys = resp.keys
  /-- The coordinator then took the agent for the host it is. -/
  host : ∀ i id x est c resp, FinishesIn cfg agentCfg events i id x est →
    RespondsIn cfg agentCfg events c resp → est.keys = resp.keys → HostOf cfg.ca id c.host.hostId
  /-- The same of any session of an agent and any session of the coordinator, at any two
  moments of the run. -/
  sessions : ∀ front back front' back' i conn est host session,
    events = front ++ back → events = front' ++ back' →
    ((fleetRun cfg agentCfg Fleet.new front).1.agents i).conn = some conn →
    conn.session = some est →
    (fleetRun cfg agentCfg Fleet.new front').1.bridge.sessions.get host = some session →
    est.keys = session.keys → est.sid = session.sid ∧ HostOf cfg.ca conn.id host
  /-- A hello with an ephemeral that one of the parties drew gives no attacker a key,
  whoever signed it. -/
  secret : ∀ secrets : Set Nat, (∀ p ∈ drawn events, uCoordinate p ∉ secrets) →
    ∀ c resp p, RespondsIn cfg agentCfg events c resp → p ∈ drawn events →
      uCoordinate c.clientEph = uCoordinate p → ∀ d, ¬ Knows secrets (resp.keys.key d)
  /-- A hello under another certificate gives the agent no key of the coordinator's. -/
  unshared : ∀ i id x est c resp, FinishesIn cfg agentCfg events i id x est →
    RespondsIn cfg agentCfg events c resp → c.hello.certDer ≠ id.certDer →
      ∀ d e, est.keys.key d ≠ resp.keys.key e

/-- An exchange whose messages arrive as they were sent ends with the same keys on both
sides: the agent holds its key and pins the coordinator's, the coordinator accepts the
agent's certificate for that key, and neither ephemeral is a point of small order. -/
def UndisturbedAgrees (ca : EmbeddedCa fromDer) : Prop :=
  ∀ (id : AgentIdentity) (key : SigningKey) (epoch : UInt64) (sid : Str) (p q : Point),
    id.signingKeyPem = some key → id.caPubkeySec1 = ca.key.verifyingKey →
    contributory p = true → contributory q = true →
    ∃ hs hello, startHandshake id epoch sid (some p) = .ok (hs, hello) ∧
      ∀ utcNow tenant sessions c,
        checkHello ca utcNow tenant ⟨some hello, none, none⟩ sessions = some c →
        c.host.publicKeySec1 = key.verifyingKey →
        ∃ resp, c.respond ca (some q) = .ok resp ∧ ∀ cell, ∃ est,
          finishHandshake hs id ⟨none, some ⟨c.hello.sid, ofPoint resp.serverEph, resp.sig⟩, none⟩
            cell = .ok est ∧
          est.keys = resp.keys ∧
          ∀ count, ∃ ack,
            (confirmSession est count id (envelopePayload (c.beacon resp))).1 = .ok ack

/-- The coordinator answers a hello that the certified key signed. -/
theorem respond_of_signed {ca : EmbeddedCa fromDer} {key : SigningKey} {form : Nat}
    (hkey : c.host.publicKeySec1 = key.verifyingKey)
    (hsig : c.hello.sig =
      .signed key (clientTranscript c.hello.sid.asBytes.bytes c.hello.epoch c.clientEph) form)
    (hp : contributory c.clientEph = true) (q : Point) :
    c.respond ca (some q) = .ok
      ⟨q, .signed ca.key (serverTranscript c.hello.sid.asBytes.bytes c.clientEph q) 0,
        (Exchange.mk c.hello.sid.asBytes c.clientEph q c.hello.certDer).keys⟩ := by
  have hkeys : (Exchange.mk c.hello.sid.asBytes c.clientEph q c.hello.certDer).keys =
      SessionKeys.fromShared (diffieHellman q c.clientEph)
        (Handshake.transcript q c.clientEph
          (sessionBinding c.hello.sid.asBytes.bytes c.clientEph q c.hello.certDer.bytes)) := by
    rw [diffieHellman_comm, Handshake.transcript_comm]
    rfl
  unfold CheckedHello.respond EmbeddedCa.respondHandshake
  exact respond_eq_ok_iff.mpr ⟨⟨key, form, hkey, hsig⟩, rfl, ⟨ca.key, rfl, rfl⟩, hp, hkeys⟩

/-- An agent accepts an answer that the pinned key signed for its own hello. -/
theorem finishHandshake_of_signed {hs : Handshaking} {key : SigningKey} {q : Point} {form : Nat}
    (hca : id.caPubkeySec1 = key.verifyingKey) (hq : contributory q = true) (cell : Nat) :
    finishHandshake hs id
      ⟨none, some ⟨hs.sid, ofPoint q,
        .signed key (serverTranscript hs.initiator.sid.bytes hs.initiator.eph.public q) form⟩, none⟩
      cell = .ok ⟨(hs.initiator.exchange q).keys, hs.sid, cell, none⟩ :=
  finishHandshake_eq_ok_iff.mpr ⟨_, q, _, rfl, rfl, toPoint_ofPoint q,
    finish_eq_ok_iff.mpr ⟨⟨key, form, hca, rfl⟩, hq, rfl⟩, rfl⟩

theorem undisturbedAgrees (ca : EmbeddedCa fromDer) : UndisturbedAgrees ca := by
  intro id key epoch sid p q hkey hca hp hq
  refine ⟨_, _, startHandshake_eq_ok_iff.mpr ⟨p, key, rfl, hkey, rfl, rfl⟩, ?_⟩
  intro utcNow tenant sessions c hcheck hcertified
  obtain ⟨hhello, hpoint, -, -, -⟩ := checkHello_eq_some hcheck
  obtain ⟨hello, clientEph, host⟩ := c
  obtain rfl := Option.some.inj hhello
  obtain rfl : p = clientEph := Option.some.inj ((toPoint_ofPoint p).symm.trans hpoint)
  refine ⟨_, respond_of_signed hcertified rfl hp q, ?_⟩
  intro cell
  refine ⟨_, finishHandshake_of_signed hca hq cell, rfl, ?_⟩
  intro count
  exact (confirms_beacon_iff rfl rfl rfl rfl count).mpr rfl

/-- In every run, whatever the broker delivers, an agent and the coordinator that end with
the same keys took part in the same exchange, under the agent's own certificate; an
undisturbed exchange ends so; and signing an agent's hello again under another certificate
gains nothing. -/
theorem handshake_agreement (cfg : BridgeConfig fromDer) (agentCfg : Nat → AgentConfig)
    (events : List FleetEvent) :
    HandshakesAgree cfg agentCfg events ∧ UndisturbedAgrees cfg.ca := by
  have hkeys : ∀ i id x est c resp, FinishesIn cfg agentCfg events i id x est →
      RespondsIn cfg agentCfg events c resp → (est.keys = resp.keys ↔ x = c.exchange resp) := by
    intro i id x est c resp hfinish hrespond
    rw [hfinish.spec.1, hrespond.spec.1]
    exact Exchange.keys_injective.eq_iff
  refine ⟨⟨hkeys, ?_, ?_, ?_, ?_, ?_⟩, undisturbedAgrees cfg.ca⟩
  · intro i id x est c resp hfinish hrespond count
    obtain ⟨hest, hsid, -, -, hfresh⟩ := hfinish.spec
    exact confirms_beacon_iff hest hsid hfresh hrespond.spec.1 count
  · intro i id x est c resp hfinish hrespond hequal
    obtain ⟨-, -, hcert, -, -⟩ := hfinish.spec
    obtain ⟨-, -, utcNow, hverify⟩ := hrespond.spec
    rw [(hkeys i id x est c resp hfinish hrespond).mp hequal] at hcert
    change cfg.ca.verifyHostCert utcNow (c.exchange resp).certDer = .ok c.host at hverify
    rw [hcert] at hverify
    exact hostOf_of_verifyHostCert hverify
  · rintro front back front' back' i conn est host session hfront hfront' hconn hest hget hequal
    obtain ⟨x, hx, hsid, hcert, -⟩ :=
      ((fleetOrigin_run cfg agentCfg front).agents i conn hconn).session est hest
    obtain ⟨y, utcNow, v, hy, hsid', -, hverify, rfl⟩ :=
      (fleetOrigin_run cfg agentCfg front').bridge host session hget
    obtain rfl : x = y := Exchange.keys_injective (by rw [← hx, ← hy, hequal])
    refine ⟨Str.asBytes_injective (hsid.symm.trans hsid'), ?_⟩
    rw [hcert] at hverify
    exact hostOf_of_verifyHostCert hverify
  · intro secrets hsecrets c resp p hrespond hp hclient d
    obtain ⟨hresp, hserver, -⟩ := hrespond.spec
    rw [hresp]
    refine Exchange.not_knows ?_ (hsecrets _ hserver) d
    rw [show (c.exchange resp).clientEph = c.clientEph from rfl, hclient]
    exact hsecrets p hp
  · intro i id x est c resp hfinish hrespond hother d e hequal
    obtain ⟨hest, -, hcert, -, -⟩ := hfinish.spec
    rw [hest, hrespond.spec.1] at hequal
    rw [Exchange.key_inj hequal] at hcert
    exact hother hcert

end Agreement

/-! ## A hello signed again

A second host, whose key and certificate the attacker holds, signs the session id and the
ephemeral of the sample agent's hello again.  The agent accepts the coordinator's answer. -/

def sampleOtherCert : Certificate where
  tbs := [2]
  signature := .signed ⟨0⟩ [2] 0
  notBefore := 0
  notAfter := 100
  subjectAlternativeName := some [.uri ("urn:osa:host:" ++ sampleOther.toStr.text)]
  publicKey := .ec (.ofKey ⟨2⟩)

def sampleOtherCertDer : Blob := .lit [2]

/-- A parser that knows the certificates of both hosts. -/
def sampleDerOfTwo : FromDer
  | [2] => some sampleOtherCert
  | der => sampleDer der

def sampleCfgOfTwo : BridgeConfig sampleDerOfTwo :=
  ⟨⟨sampleRootDer, sampleRoot, ⟨0⟩, rfl, sampleCa.matches_key⟩, true⟩

def sampleResigned : ClientHello :=
  { sampleHello with
    certDer := sampleOtherCertDer
    sig := .signed ⟨2⟩ (clientTranscript sampleSid.asBytes.bytes 1 sampleClientEph) 0 }

def sampleChecked : CheckedHello :=
  ⟨sampleResigned, sampleClientEph, ⟨sampleOther, .ofKey ⟨2⟩⟩⟩

/-- The keys the coordinator shares with nobody. -/
def sampleStrayKeys : SessionKeys :=
  (Exchange.mk sampleSid.asBytes sampleClientEph sampleServerEph sampleOtherCertDer).keys

def sampleResignedRun : List FleetEvent :=
  [smoothAgentTurn (.connect sampleIdentity),
    smoothAgentTurn (.connAck (some 1) sampleSid (some sampleClientEph)),
    smoothTurn (.message (Topics.hsUp sampleOther.toStr.text) ⟨some sampleResigned, none, none⟩),
    smoothAgentTurn
      (.publish (Topics.hsDown sampleHost.toStr.text) ⟨none, some sampleAnswer, none⟩)]

/-- The agent ends with keys the coordinator does not hold, and the attacker knows neither. -/
theorem handshake_agreement_resigned :
    FinishesIn sampleCfgOfTwo (fun _ => sampleAgentCfg) sampleResignedRun 0 sampleIdentity
        ⟨sampleSid.asBytes, sampleClientEph, sampleServerEph, sampleCertDer⟩
        ⟨sampleKeys, sampleSid, 0, none⟩ ∧
      RespondsIn sampleCfgOfTwo (fun _ => sampleAgentCfg) sampleResignedRun sampleChecked
        ⟨sampleServerEph, sampleAnswer.sig, sampleStrayKeys⟩ ∧
      (∀ d e, sampleKeys.key d ≠ sampleStrayKeys.key e) ∧
      (∀ d, ¬ Knows {5} (sampleStrayKeys.key d)) := by
  have hfinishes : FinishesIn sampleCfgOfTwo (fun _ => sampleAgentCfg) sampleResignedRun 0
      sampleIdentity ⟨sampleSid.asBytes, sampleClientEph, sampleServerEph, sampleCertDer⟩
      ⟨sampleKeys, sampleSid, 0, none⟩ := by
    refine ⟨sampleResignedRun.take 3, sampleAgentEnv, _, [], rfl, ?_⟩
    have hconn : ((fleetRun sampleCfgOfTwo (fun _ => sampleAgentCfg) Fleet.new
        (sampleResignedRun.take 3)).1.agents 0).conn = some
        ⟨sampleIdentity, some ⟨⟨⟨sampleClientEph⟩, sampleSid.asBytes, sampleCertDer⟩, sampleSid⟩,
          none, none, []⟩ := by
      decide +kernel
    exact .intro hconn rfl rfl (toPoint_ofPoint sampleServerEph) (by decide +kernel)
  have hresponds : RespondsIn sampleCfgOfTwo (fun _ => sampleAgentCfg) sampleResignedRun
      sampleChecked ⟨sampleServerEph, sampleAnswer.sig, sampleStrayKeys⟩ := by
    have htopic : Topics.tenantFromHsUp (Topics.hsUp sampleOther.toStr.text) =
        some (Topics.tenant sampleOther.toStr.text) := by
      decide +kernel
    refine ⟨sampleResignedRun.take 2, sampleEnv, _, sampleResignedRun.drop 3, rfl, ?_⟩
    exact .intro htopic (by decide +kernel) rfl (by decide +kernel)
  have hagree := (handshake_agreement sampleCfgOfTwo (fun _ => sampleAgentCfg)
    sampleResignedRun).1
  refine ⟨hfinishes, hresponds, ?_, ?_⟩
  · exact hagree.unshared _ _ _ _ _ _ hfinishes hresponds (by decide)
  · refine hagree.secret {5} ?_ _ _ sampleClientEph hresponds (by decide +kernel) rfl
    decide +kernel

end System
end OpenSsmAgent
