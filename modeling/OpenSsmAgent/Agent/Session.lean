import OpenSsmAgent.Core.Handshake
import OpenSsmAgent.Core.Wire

/-!
# Agent sessions

The agent's side of a session, {lit}`osa-agent/src/session.rs`: starting and
finishing the handshake, opening the downlink under the replay guard, confirming
the session-ready beacon, and sealing on the uplink.

The uplink allocator is an atomic counter shared between the session and the job
tasks spawned under it.  It lives outside the session record, in a cell the
session names; the functions that allocate take the cell's value and return the
new one.

Main results:

- Theorem {lit}`finishHandshake_eq_ok_iff`: what the agent has checked when it
  holds a session.
- Theorem {lit}`confirmSession_eq_ok_iff`: the agent acknowledges exactly a fresh
  session-ready beacon of its session.
-/

open Framing SymbolicCrypto

namespace OpenSsmAgent
namespace Agent

open Seal Wire Hs

/-- The enrolled identity of an agent. -/
structure AgentIdentity where
  hostId : Str
  signingKeyPem : Option SigningKey
  certDer : Blob
  caPubkeySec1 : VerifyingKey
deriving DecidableEq

/-- An in-flight handshake. -/
structure Handshaking where
  initiator : Initiator
  sid : Str
deriving DecidableEq

/-- A live session.  {lit}`cell` names the shared uplink allocator. -/
structure Established where
  keys : SessionKeys
  sid : Str
  cell : Nat
  recvHigh : Option UInt64
deriving DecidableEq

namespace Established

/-- {lit}`accept_recv`. -/
def acceptRecv (est : Established) (seq : UInt64) : Bool × Established :=
  if ReplayGuard.stale est.recvHigh seq then (false, est)
  else (true, { est with recvHigh := some seq })

/-- {lit}`Established::open_downlink`. -/
def openDownlink (est : Established) (env : Envelope) : Option Bytes × Established :=
  match openEnvelope est.keys .coordToAgent env with
  | none => (none, est)
  | some plaintext =>
      match est.acceptRecv env.seq with
      | (true, est) => (some plaintext, est)
      | (false, est) => (none, est)

/-- The two-step receiver is the guarded receiver of the other channels. -/
theorem openDownlink_eq (est : Established) (env : Envelope) :
    est.openDownlink env =
      ((openGuarded est.keys .coordToAgent est.recvHigh env).1,
        { est with recvHigh := (openGuarded est.keys .coordToAgent est.recvHigh env).2 }) := by
  unfold openDownlink openGuarded ReplayGuard.guardedOpen acceptRecv
  cases openEnvelope est.keys .coordToAgent env with
  | none => rfl
  | some p => cases h : ReplayGuard.stale est.recvHigh env.seq <;> simp

/-- The same session, perhaps with another high-water mark. -/
structure Same (est est' : Established) : Prop where
  keys : est'.keys = est.keys
  sid : est'.sid = est.sid
  cell : est'.cell = est.cell

/-- A session is the same as itself. -/
theorem Same.refl (est : Established) : est.Same est :=
  ⟨rfl, rfl, rfl⟩

/-- Receiving moves the high-water mark only. -/
theorem openDownlink_same (est : Established) (env : Envelope) :
    est.Same (est.openDownlink env).2 := by
  rw [openDownlink_eq]
  exact ⟨rfl, rfl, rfl⟩

end Established

/-- {lit}`seal_uplink`: one atomic fetch-and-add on the cell, then the seal. -/
def sealUplink (keys : SessionKeys) (sendSeq : Nat) (hostId sid : Str) (payload : Bytes) :
    Envelope × Nat :=
  (sealEnvelope keys .agentToCoord hostId sid (wireSeq sendSeq) .control payload, sendSeq + 1)

/-- The call of {lit}`seal` that {lit}`seal_uplink` makes. -/
def sealUplinkCall (keys : SessionKeys) (sendSeq : Nat) : SealCall :=
  ⟨keys.key .agentToCoord, sendSeq⟩

/-! ## The handshake -/

/-- {lit}`start_handshake` with the session id and ephemeral it draws. -/
def startHandshake (id : AgentIdentity) (epoch : UInt64) (sid : Str) (eph : Option Point) :
    Except HsError (Handshaking × ClientHello) :=
  match Initiator.start sid.asBytes epoch id.certDer id.signingKeyPem eph with
  | .error e => .error e
  | .ok (initiator, clientEph, sig) =>
      .ok (⟨initiator, sid⟩, ⟨sid, ofPoint clientEph, id.certDer, sig, epoch⟩)

/-- What a hello carries and what the agent remembers of it. -/
theorem startHandshake_eq_ok_iff {id : AgentIdentity} {epoch : UInt64} {sid : Str}
    {eph : Option Point} {hs : Handshaking} {hello : ClientHello} :
    startHandshake id epoch sid eph = .ok (hs, hello) ↔
      ∃ p key, eph = some p ∧ id.signingKeyPem = some key ∧
        hs = ⟨⟨⟨p⟩, sid.asBytes, id.certDer⟩, sid⟩ ∧
        hello = ⟨sid, ofPoint p, id.certDer,
          .signed key (clientTranscript sid.asBytes.bytes epoch p) 0, epoch⟩ := by
  unfold startHandshake Initiator.start
  cases eph with
  | none => simp
  | some p =>
      cases hkey : id.signingKeyPem with
      | none => simp [sign]
      | some key => simp [sign, eq_comm]

/-- {lit}`finish_handshake`; a new session gets a new allocator cell. -/
def finishHandshake (hs : Handshaking) (id : AgentIdentity) (payload : Payload) (cell : Nat) :
    Except String Established :=
  match payload.serverHello with
  | none => .error "decoding ServerHello"
  | some sh =>
      if sh.sid ≠ hs.sid then .error "ServerHello sid does not match this session"
      else
        match toPoint sh.serverEph with
        | none => .error "ServerHello ephemeral is not 32 bytes"
        | some serverEph =>
            match hs.initiator.finish serverEph sh.sig id.caPubkeySec1 with
            | .error _ => .error "ServerHello did not verify against the pinned CA"
            | .ok keys => .ok ⟨keys, hs.sid, cell, none⟩

/-- What the agent has checked when it holds a session. -/
theorem finishHandshake_eq_ok_iff {hs : Handshaking} {id : AgentIdentity} {payload : Payload}
    {cell : Nat} {est : Established} :
    finishHandshake hs id payload cell = .ok est ↔
      ∃ sh serverEph keys, payload.serverHello = some sh ∧ sh.sid = hs.sid ∧
        toPoint sh.serverEph = some serverEph ∧
        hs.initiator.finish serverEph sh.sig id.caPubkeySec1 = .ok keys ∧
        est = ⟨keys, hs.sid, cell, none⟩ := by
  unfold finishHandshake
  cases payload.serverHello with
  | none => simp
  | some sh =>
      simp only [Option.some.injEq, exists_and_left, exists_eq_left']
      split_ifs with hsid
      · simp only [false_iff]
        rintro ⟨heq, -⟩
        exact hsid heq
      · simp only [ne_eq, not_not] at hsid
        cases toPoint sh.serverEph with
        | none => simp
        | some serverEph =>
            cases hfin : hs.initiator.finish serverEph sh.sig id.caPubkeySec1 with
            | error e => simp [hfin]
            | ok keys => simp [hfin, hsid, eq_comm]

/-- {lit}`confirm_session`: the acknowledgement, the advanced guard and the
advanced allocator. -/
def confirmSession (est : Established) (count : Nat) (id : AgentIdentity) (payload : Payload) :
    Except String Envelope × Established × Nat :=
  match payload.envelope with
  | none => (.error "decoding session-ready beacon", est, count)
  | some env =>
      if env.sid ≠ est.sid then (.error "beacon sid does not match this session", est, count)
      else
        match est.openDownlink env with
        | (none, est) =>
            (.error "session-ready beacon failed to open or was replayed", est, count)
        | (some plaintext, est) =>
            if plaintext ≠ ctrlSessionReady then
              (.error "unexpected sealed control payload", est, count)
            else
              let sealed := sealUplink est.keys count id.hostId est.sid ctrlSessionAck
              (.ok sealed.1, est, sealed.2)

/-- Confirming stays in the session; an acknowledgement takes one sequence number
and is sealed with it. -/
theorem confirmSession_spec (est : Established) (count : Nat) (id : AgentIdentity)
    (payload : Payload) :
    est.Same (confirmSession est count id payload).2.1 ∧
      ∀ ack, (confirmSession est count id payload).1 = .ok ack →
        (confirmSession est count id payload).2.2 = count + 1 ∧
          ack.ciphertext.keyNonce = some (sealUplinkCall est.keys count).keyNonce := by
  unfold confirmSession
  split
  · exact ⟨.refl est, nofun⟩
  · rename_i env _
    have hsame := est.openDownlink_same env
    split
    · exact ⟨.refl est, nofun⟩
    · split <;> rename_i hopen <;> rw [hopen] at hsame
      · exact ⟨hsame, nofun⟩
      · split
        · exact ⟨hsame, nofun⟩
        · refine ⟨hsame, ?_⟩
          rintro ack ⟨⟩
          rw [← hsame.keys]
          exact ⟨rfl, rfl⟩

/-- The agent acknowledges exactly a fresh session-ready beacon of its session. -/
theorem confirmSession_eq_ok_iff {est : Established} {count : Nat} {id : AgentIdentity}
    {payload : Payload} :
    (∃ ack, (confirmSession est count id payload).1 = .ok ack) ↔
      ∃ env, payload.envelope = some env ∧ env.sid = est.sid ∧
        (est.openDownlink env).1 = some ctrlSessionReady := by
  unfold confirmSession
  cases payload.envelope with
  | none => simp
  | some env =>
      simp only [Option.some.injEq, exists_eq_left']
      split_ifs with hsid
      · simp only [exists_false, false_iff]
        rintro ⟨heq, -⟩
        exact hsid heq
      · simp only [ne_eq, not_not] at hsid
        rcases hopen : est.openDownlink env with ⟨_ | plaintext, est'⟩
        · simp
        · by_cases hready : plaintext = ctrlSessionReady <;> simp [hready, hsid]

end Agent
end OpenSsmAgent
