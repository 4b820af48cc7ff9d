import OpenSsmAgent.Core.Audit
import OpenSsmAgent.Core.Handshake
import OpenSsmAgent.Core.Wire

/-!
# The framings of the protocol

What is signed, hashed, authenticated or used to derive a key is first written as one byte
string.  Each of these byte strings is a function of all its fields here: the transcripts
of the two hellos, the salt and the infos of the key derivation, the associated data of an
envelope, and the input of the audit hash.

Main results:

- Theorems {lit}`keys_of_finish` and {lit}`keys_of_respond`: both roles use one salt.
- Theorem {lit}`KeyUse.info_injective`: the info tells what a key is used for.
- Theorem {lit}`framings_canonical`: every framing determines its fields, and no two are
  confused.
-/

open Framing SymbolicCrypto

namespace OpenSsmAgent
namespace Framings

open Seal Hs

/-! ## The salt of the session keys -/

/-- The binding of an exchange followed by its ephemerals in ascending order. -/
def sessionSalt (sid : Blob) (clientEph serverEph : Point) (certDer : Blob) : Bytes :=
  Handshake.transcript clientEph serverEph
    (sessionBinding sid.bytes clientEph serverEph certDer.bytes)

/-- The keys an agent derives. -/
theorem keys_of_finish {i : Initiator} {serverEph : Point} {sig : Signature} {ca : VerifyingKey}
    {keys : SessionKeys} (h : i.finish serverEph sig ca = .ok keys) :
    keys = SessionKeys.fromShared (diffieHellman i.eph.public serverEph)
      (sessionSalt i.sid i.eph.public serverEph i.certDer) :=
  (finish_eq_ok_iff.mp h).2.2

/-- The responder has the ephemerals the other way round; they are put in order. -/
theorem keys_of_respond {sid certDer : Blob} {epoch : UInt64} {clientEph : Point}
    {clientSig : Signature} {agentKey : VerifyingKey} {caKey : Option SigningKey}
    {eph : Option Point} {r : ServerResponse}
    (h : respond sid epoch clientEph clientSig agentKey certDer caKey eph = .ok r) :
    r.keys = SessionKeys.fromShared (diffieHellman clientEph r.serverEph)
      (sessionSalt sid clientEph r.serverEph certDer) := by
  rw [sessionSalt, Handshake.transcript_comm, diffieHellman_comm]
  exact (respond_eq_ok_iff.mp h).2.2.2.2

/-! ## The infos of the key derivation -/

/-- What a key is expanded for. -/
inductive KeyUse where
  | session (d : Direction)
  | stream (streamId : Bytes)
deriving DecidableEq

/-- The info it is expanded with. -/
def KeyUse.info : KeyUse → Bytes
  | .session d => d.label
  | .stream streamId => streamInfo streamId

/-- Uses differ in their info. -/
theorem KeyUse.info_injective : Function.Injective KeyUse.info := by
  intro u v h
  cases u with
  | session d =>
      cases v with
      | session e => rw [Direction.label_injective h]
      | stream t => exact absurd h (d.label_ne_streamInfo t)
  | stream s =>
      cases v with
      | session e => exact absurd h.symm (e.label_ne_streamInfo s)
      | stream t => rw [streamInfo_injective h]

/-! ## Every framing determines its fields -/

/-- The fields are of any length that a machine word can hold; stream ids are of any length. -/
theorem framings_canonical :
    Function.Injective
      (fun x : Blob × UInt64 × Point => clientTranscript x.1.bytes x.2.1 x.2.2) ∧
    Function.Injective
      (fun x : Blob × Point × Point => serverTranscript x.1.bytes x.2.1 x.2.2) ∧
    (∀ sid epoch clientEph sid' clientEph' serverEph,
      clientTranscript sid epoch clientEph ≠ serverTranscript sid' clientEph' serverEph) ∧
    Function.Injective
      (fun x : Blob × Point × Point × Blob => sessionSalt x.1 x.2.1 x.2.2.1 x.2.2.2) ∧
    (∀ (i : Initiator) serverEph sig ca keys, i.finish serverEph sig ca = .ok keys →
      keys = SessionKeys.fromShared (diffieHellman i.eph.public serverEph)
        (sessionSalt i.sid i.eph.public serverEph i.certDer)) ∧
    (∀ sid epoch clientEph clientSig agentKey certDer caKey eph r,
      respond sid epoch clientEph clientSig agentKey certDer caKey eph = .ok r →
      r.keys = SessionKeys.fromShared (diffieHellman clientEph r.serverEph)
        (sessionSalt sid clientEph r.serverEph certDer)) ∧
    Function.Injective
      (fun x : Str × Str × UInt64 × Int32 => Wire.aad x.1 x.2.1 x.2.2.1 x.2.2.2) ∧
    Function.Injective
      (fun x : UInt64 × Audit.AuditRecord × Audit.Hash => Audit.hashInput x.1 x.2.1 x.2.2) ∧
    (∀ shared binding d, (SessionKeys.fromShared shared binding).key d =
      .expand (.extract binding shared) (KeyUse.session d).info) ∧
    (∀ (keys : SessionKeys) streamId d, (keys.deriveStream streamId).key d =
      .expand (keys.key d) (KeyUse.stream streamId).info) ∧
    Function.Injective KeyUse.info := by
  refine ⟨?_, ?_, fun _ _ _ _ _ _ => clientTranscript_ne_serverTranscript _ _ _ _ _ _, ?_,
    fun _ _ _ _ _ => keys_of_finish, fun _ _ _ _ _ _ _ _ _ => keys_of_respond, ?_, ?_,
    SessionKeys.fromShared_key, SessionKeys.deriveStream_key, KeyUse.info_injective⟩
  · rintro ⟨sid, epoch, clientEph⟩ ⟨sid', epoch', clientEph'⟩ h
    obtain ⟨rfl, rfl, rfl⟩ := clientTranscript_injective h
    rfl
  · rintro ⟨sid, clientEph, serverEph⟩ ⟨sid', clientEph', serverEph'⟩ h
    obtain ⟨rfl, rfl, rfl⟩ := serverTranscript_injective h
    rfl
  · rintro ⟨sid, clientEph, serverEph, certDer⟩ ⟨sid', clientEph', serverEph', certDer'⟩ h
    obtain ⟨rfl, rfl, rfl, rfl⟩ := sessionSalt_injective h
    rfl
  · rintro ⟨hostId, sid, seq, kind⟩ ⟨hostId', sid', seq', kind'⟩ h
    obtain ⟨rfl, rfl, rfl, rfl⟩ := Wire.aad_injective h
    rfl
  · rintro ⟨seq, record, prevHash⟩ ⟨seq', record', prevHash'⟩ h
    obtain ⟨rfl, rfl, rfl⟩ := Audit.hashInput_injective h
    rfl

/-! ### An exchange -/

def sampleEph (b : UInt8) : Point :=
  ⟨b :: List.replicate 31 0, by simp⟩

def sampleInitiator : Initiator := ⟨⟨sampleEph 9⟩, .lit [1], .lit [2]⟩

/-- The initiator has the answer that the responder signs. -/
def sampleFinish : Except HsError SessionKeys :=
  sampleInitiator.finish (sampleEph 16)
    (.signed ⟨0⟩ (serverTranscript [1] (sampleEph 9) (sampleEph 16)) 0) (.ofKey ⟨0⟩)

def sampleRespond : Except HsError ServerResponse :=
  respond (.lit [1]) 5 (sampleEph 9)
    (.signed ⟨1⟩ (clientTranscript [1] 5 (sampleEph 9)) 0) (.ofKey ⟨1⟩) (.lit [2])
    (some ⟨0⟩) (some (sampleEph 16))

/-- The boundary between two fields cannot be shifted, and both roles of an exchange hold
the same keys. -/
theorem framings_canonical_sample :
    Wire.aad (Str.lit "ab") (Str.lit "c") 0 0 ≠ Wire.aad (Str.lit "a") (Str.lit "bc") 0 0 ∧
    ∃ keys sig, sampleFinish = .ok keys ∧ sampleRespond = .ok ⟨sampleEph 16, sig, keys⟩ := by
  obtain ⟨-, -, -, -, hclient, hserver, haad, -⟩ := framings_canonical
  constructor
  · intro h
    have hfields : ((Str.lit "ab", Str.lit "c", 0, 0) : Str × Str × UInt64 × Int32) =
        (Str.lit "a", Str.lit "bc", 0, 0) := haad h
    revert hfields
    decide
  · obtain ⟨keys, hfinish⟩ : ∃ keys, sampleFinish = .ok keys := ⟨_, rfl⟩
    obtain ⟨sig, keys', hrespond⟩ : ∃ sig keys', sampleRespond = .ok ⟨sampleEph 16, sig, keys'⟩ :=
      ⟨_, _, rfl⟩
    have hkeys : keys = keys' :=
      (hclient _ _ _ _ _ hfinish).trans (hserver _ _ _ _ _ _ _ _ _ hrespond).symm
    exact ⟨keys, sig, hfinish, hkeys ▸ hrespond⟩

end Framings
end OpenSsmAgent
