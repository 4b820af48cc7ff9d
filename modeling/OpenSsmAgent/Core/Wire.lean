import OpenSsmAgent.Core.Domain
import OpenSsmAgent.Core.Seal
import OpenSsmAgent.Lib.ReplayGuard
import OpenSsmAgent.Lib.Sha256

/-!
# Sealed envelopes

The wire codec of {lit}`osa-core/src/wire.rs`: the cleartext routing header, its
canonical encoding as associated data, and the sealing and opening of envelopes.
The replay-guarded receivers of both ends share one shape, which is given here
once.

Main results:

- Theorem {lit}`aad_injective`: the associated data determines every header
  field.
- Theorem {lit}`openEnvelope_eq_some_iff`: an envelope opens exactly if it is the
  sealed envelope of its own header.
- Theorem {lit}`eq_of_openEnvelope_of_ciphertext_eq`: an envelope that opens with
  the ciphertext of a sealed envelope is that envelope.
-/

open Framing SymbolicCrypto

namespace OpenSsmAgent
namespace Wire

open Seal

/-! ## Envelopes -/

/-- The kinds of an envelope. -/
inductive Kind where
  | unspecified
  | control
  | stream
deriving DecidableEq

/-- {lit}`kind as i32`. -/
def Kind.toInt32 : Kind → Int32
  | .unspecified => 0
  | .control => 1
  | .stream => 2

/-- A sealed envelope with its cleartext routing header.  The kind is whatever
number was on the wire. -/
structure Envelope where
  hostId : Str
  sid : Str
  seq : UInt64
  kind : Int32
  ciphertext : Ciphertext
deriving DecidableEq

/-- The agent's cleartext hello. -/
structure ClientHello where
  sid : Str
  clientEph : Blob
  certDer : Blob
  sig : Signature
  epoch : UInt64
deriving DecidableEq

/-- The coordinator's cleartext answer. -/
structure ServerHello where
  sid : Str
  serverEph : Blob
  sig : Signature
deriving DecidableEq

/-- A message handed to the broker. -/
inductive Message where
  | clientHello (hello : ClientHello)
  | serverHello (hello : ServerHello)
  | envelope (env : Envelope)
deriving DecidableEq

/-- A payload received from the broker, as each of the three decoders reads it.
The bytes are the broker's choice, so any combination of readings can occur. -/
structure Payload where
  clientHello : Option ClientHello
  serverHello : Option ServerHello
  envelope : Option Envelope

/-- Read a byte vector as a 32-byte array. -/
def toPoint (b : Blob) : Option Point :=
  if h : b.bytes.length = 32 then some ⟨b.bytes, h⟩ else none

/-- The byte vector of a 32-byte array. -/
def ofPoint (p : Point) : Blob :=
  ⟨p.bytes, by rw [p.length_eq]; decide⟩

@[simp] theorem toPoint_ofPoint (p : Point) : toPoint (ofPoint p) = some p := by
  simp [toPoint, ofPoint, p.length_eq]

/-- The coordinator's session-ready beacon. -/
def ctrlSessionReady : Bytes := utf8 "osa/v1 session-ready"

/-- The agent's reply to the beacon. -/
def ctrlSessionAck : Bytes := utf8 "osa/v1 session-ack"

/-- The associated data of a header. -/
def aad (hostId sid : Str) (seq : UInt64) (kind : Int32) : Bytes :=
  pushField hostId.bytes ++ pushField sid.bytes ++ be64 seq ++ beI32 kind

/-- The associated data determines every header field. -/
theorem aad_injective {h h' s s' : Str} {n n' : UInt64} {k k' : Int32}
    (heq : aad h s n k = aad h' s' n' k') : h = h' ∧ s = s' ∧ n = n' ∧ k = k' := by
  simp only [aad, List.append_assoc] at heq
  obtain ⟨hhost, heq⟩ := lengthPrefixed_text heq
  obtain ⟨hsid, heq⟩ := lengthPrefixed_text heq
  obtain ⟨hseq, heq⟩ := be64_selfDelimiting heq
  exact ⟨hhost, hsid, hseq, beI32_selfDelimiting.injective heq⟩

/-- {lit}`seal_envelope`. -/
def sealEnvelope (keys : SessionKeys) (dir : Direction) (hostId sid : Str) (seq : UInt64)
    (kind : Kind) (plaintext : Bytes) : Envelope where
  hostId := hostId
  sid := sid
  seq := seq
  kind := kind.toInt32
  ciphertext := keys.seal dir seq (aad hostId sid seq kind.toInt32) plaintext

/-- {lit}`open_envelope`: the associated data is recomputed from the envelope's
own header. -/
def openEnvelope (keys : SessionKeys) (dir : Direction) (env : Envelope) : Option Bytes :=
  keys.open dir env.seq (aad env.hostId env.sid env.seq env.kind) env.ciphertext

/-- An envelope opens exactly if its ciphertext was sealed over its own header. -/
theorem openEnvelope_eq_some_iff {keys : SessionKeys} {dir : Direction} {env : Envelope}
    {p : Bytes} :
    openEnvelope keys dir env = some p ↔
      env.ciphertext = keys.seal dir env.seq (aad env.hostId env.sid env.seq env.kind) p :=
  SessionKeys.open_eq_some_iff

@[simp] theorem openEnvelope_sealEnvelope (keys : SessionKeys) (dir : Direction)
    (hostId sid : Str) (seq : UInt64) (kind : Kind) (p : Bytes) :
    openEnvelope keys dir (sealEnvelope keys dir hostId sid seq kind p) = some p :=
  openEnvelope_eq_some_iff.mpr rfl

/-- What opens under a key was sealed under that key. -/
theorem ciphertext_of_openEnvelope {keys : SessionKeys} {dir : Direction} {env : Envelope}
    {p : Bytes} (h : openEnvelope keys dir env = some p) :
    ∃ aad, env.ciphertext = .sealed (keys.key dir) (nonce env.seq) aad p :=
  ⟨_, openEnvelope_eq_some_iff.mp h⟩

/-- Two envelopes that open under one key and carry one ciphertext are the same
envelope: the broker cannot move a ciphertext to another header. -/
theorem eq_of_openEnvelope_of_ciphertext_eq {keys : SessionKeys} {dir : Direction}
    {env env' : Envelope} {p p' : Bytes} (h : openEnvelope keys dir env = some p)
    (h' : openEnvelope keys dir env' = some p') (hct : env.ciphertext = env'.ciphertext) :
    env = env' ∧ p = p' := by
  rw [openEnvelope_eq_some_iff] at h h'
  have hseal := h.symm.trans (hct.trans h')
  simp only [SessionKeys.seal, Ciphertext.sealed.injEq, true_and] at hseal
  obtain ⟨-, haad, hp⟩ := hseal
  obtain ⟨hhost, hsid, hseq, hkind⟩ := aad_injective haad
  refine ⟨?_, hp⟩
  cases env
  cases env'
  simp_all

/-! ## Digests as texts -/

/-- {lit}`sha256_hex`. -/
def sha256Hex (bytes : Bytes) : String :=
  String.ofList (Domain.hexChars (Sha256.sha256 bytes).bytes)

/-- Inputs without SHA-256 collisions have different texts. -/
theorem sha256Hex_injOn {inputs : Set Bytes} (h : Sha256.CollisionFreeOn inputs) :
    Set.InjOn sha256Hex inputs := by
  intro x hx y hy heq
  apply h hx hy
  have hbytes := Domain.hexChars_injective (String.ofList_injective heq)
  generalize Sha256.sha256 x = d at hbytes ⊢
  generalize Sha256.sha256 y = e at hbytes ⊢
  cases d
  cases e
  simpa using hbytes

/-! ## Guarded receivers -/

/-- The receiver that both ends use on every sealed channel: open the envelope
under the channel's keys, then advance the replay guard. -/
def openGuarded (keys : SessionKeys) (dir : Direction) (recvHigh : Option UInt64)
    (env : Envelope) : Option Bytes × Option UInt64 :=
  ReplayGuard.guardedOpen (openEnvelope keys dir) Envelope.seq recvHigh env

end Wire
end OpenSsmAgent
