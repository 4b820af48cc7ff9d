import OpenSsmAgent.Core.Domain
import OpenSsmAgent.Core.Handshake

/-!
# The embedded certificate authority

The part of {lit}`osa-coordinator/src/ca.rs` that the session handshake uses:
verifying a presented host certificate and answering a hello.  The X.509 parser
is a parameter: it reads the fields the verification looks at off a byte string,
and may read one certificate off several byte strings.

Main results:

- Theorem {lit}`verifyHostCert_eq_ok_iff`: what a verified certificate has been
  checked for.
-/

open Framing SymbolicCrypto

namespace OpenSsmAgent
namespace Coordinator

open Domain Hs

/-- A subject alternative name. -/
inductive GeneralName where
  | uri (text : String)
  | other
deriving DecidableEq

/-- A subject public key: a point of an elliptic curve, or of another kind. -/
inductive SubjectPublicKey where
  | ec (point : VerifyingKey)
  | other (key : VerifyingKey)
deriving DecidableEq

/-- The fields of a certificate that its verification reads. -/
structure Certificate where
  tbs : Bytes
  signature : Signature
  notBefore : Int
  notAfter : Int
  subjectAlternativeName : Option (List GeneralName)
  publicKey : SubjectPublicKey
deriving DecidableEq

/-- {lit}`X509Certificate::from_der`. -/
abbrev FromDer := Bytes → Option Certificate

/-- A port error with its text. -/
inductive PortError where
  | transport (message : String)
  | denied
  | notFound
  | invalid (message : String)
  | backend (message : String)
deriving DecidableEq

/-- {lit}`is_valid` at a time. -/
def Certificate.isValidAt (c : Certificate) (now : Int) : Bool :=
  c.notBefore ≤ now ∧ now ≤ c.notAfter

/-- {lit}`verify_signature` against an issuer's key. -/
def Certificate.verifySignature (c : Certificate) : SubjectPublicKey → Bool
  | .ec vk => SymbolicCrypto.verifySignature vk c.tbs c.signature = .ok ()
  | .other _ => false

/-- The text of the first URI name. -/
def firstUri : List GeneralName → Option String
  | [] => none
  | .uri text :: _ => some text
  | .other :: rest => firstUri rest

/-- The host a SAN text names. -/
def hostOfSan (text : String) : Option HostId :=
  match text.toList.dropPrefix? "urn:osa:host:".toList with
  | none => none
  | some rest => HostId.parse (String.ofList rest)

/-- {lit}`host_id_from_cert`. -/
def hostIdFromCert (c : Certificate) : Except PortError HostId :=
  match c.subjectAlternativeName with
  | none => .error (.invalid "current cert has no SAN")
  | some names =>
      match firstUri names with
      | none => .error (.invalid "current cert has no URI SAN")
      | some text =>
          match hostOfSan text with
          | none => .error (.invalid "SAN is not a host identity")
          | some host => .ok host

/-- The embedded CA.  As {lit}`from_material` checks, its key is the key of its
root certificate. -/
structure EmbeddedCa (fromDer : FromDer) where
  certDer : Blob
  root : Certificate
  key : SigningKey
  parses : fromDer certDer.bytes = some root
  matches_key : root.publicKey = .ec key.verifyingKey

/-- A host certificate that verified. -/
structure VerifiedHost where
  hostId : HostId
  publicKeySec1 : VerifyingKey
deriving DecidableEq

namespace EmbeddedCa

variable {fromDer : FromDer}

/-- {lit}`verify_host_cert` at a time. -/
def verifyHostCert (ca : EmbeddedCa fromDer) (now : Int) (certDer : Blob) :
    Except PortError VerifiedHost :=
  match fromDer certDer.bytes with
  | none => .error (.invalid "malformed host certificate")
  | some cert =>
      if cert.verifySignature ca.root.publicKey then
        if cert.isValidAt now then
          match hostIdFromCert cert with
          | .error e => .error e
          | .ok host =>
              match cert.publicKey with
              | .ec point => .ok ⟨host, point⟩
              | .other _ => .error (.invalid "host cert public key is not an EC key")
        else .error (.invalid "host cert is expired or not yet valid")
      else .error (.invalid "host cert was not issued by this CA")

/-- A signature that verifies was made with the key of the CA. -/
theorem verifySignature_iff (ca : EmbeddedCa fromDer) (cert : Certificate) :
    cert.verifySignature ca.root.publicKey = true ↔
      ∃ form, cert.signature = .signed ca.key cert.tbs form := by
  rw [ca.matches_key, Certificate.verifySignature, decide_eq_true_iff, verifySignature_eq_ok_iff]
  simp [SigningKey.verifyingKey]

/-- What a verified certificate has been checked for. -/
theorem verifyHostCert_eq_ok_iff {ca : EmbeddedCa fromDer} {now : Int} {certDer : Blob}
    {v : VerifiedHost} :
    ca.verifyHostCert now certDer = .ok v ↔
      ∃ cert, fromDer certDer.bytes = some cert ∧
        (∃ form, cert.signature = .signed ca.key cert.tbs form) ∧
        cert.isValidAt now = true ∧
        hostIdFromCert cert = .ok v.hostId ∧
        cert.publicKey = .ec v.publicKeySec1 := by
  obtain ⟨host, point⟩ := v
  unfold verifyHostCert
  cases hparse : fromDer certDer.bytes with
  | none => simp
  | some cert =>
      simp only [Option.some.injEq, exists_eq_left', ← ca.verifySignature_iff]
      split_ifs with h1 h2
      · cases hostIdFromCert cert with
        | error e => simp
        | ok h => cases cert.publicKey <;> simp [h1, h2]
      · simp [h2]
      · simp [h1]

/-- {lit}`respond_handshake`. -/
def respondHandshake (ca : EmbeddedCa fromDer) (sid : Blob) (epoch : UInt64) (clientEph : Point)
    (clientSig : Signature) (publicKeySec1 : VerifyingKey) (certDer : Blob)
    (eph : Option Point) : Except HsError ServerResponse :=
  respond sid epoch clientEph clientSig publicKeySec1 certDer (some ca.key) eph

end EmbeddedCa

/-! ## A sample authority -/

def sampleRoot : Certificate where
  tbs := [0]
  signature := .signed ⟨0⟩ [0] 0
  notBefore := 0
  notAfter := 1000
  subjectAlternativeName := none
  publicKey := .ec (.ofKey ⟨0⟩)

/-- The certificate of {lit}`sampleHost`. -/
def sampleCert : Certificate where
  tbs := [1]
  signature := .signed ⟨0⟩ [1] 0
  notBefore := 0
  notAfter := 100
  subjectAlternativeName := some [.other, .uri ("urn:osa:host:" ++ sampleHost.toStr.text)]
  publicKey := .ec (.ofKey ⟨1⟩)

/-- A parser that knows two certificates. -/
def sampleDer : FromDer
  | [0] => some sampleRoot
  | [1] => some sampleCert
  | _ => none

def sampleRootDer : Blob := .lit [0]

def sampleCertDer : Blob := .lit [1]

def sampleCa : EmbeddedCa sampleDer where
  certDer := sampleRootDer
  root := sampleRoot
  key := ⟨0⟩
  parses := rfl
  matches_key := rfl

example : sampleCa.verifyHostCert 10 sampleCertDer = .ok ⟨sampleHost, .ofKey ⟨1⟩⟩ := by
  decide +kernel

example : (sampleCa.verifyHostCert 101 sampleCertDer).isOk = false := by
  decide +kernel

end Coordinator
end OpenSsmAgent
