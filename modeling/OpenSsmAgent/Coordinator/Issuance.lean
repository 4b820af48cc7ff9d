import OpenSsmAgent.Coordinator.Ca
import OpenSsmAgent.Core.Topics

/-!
# Issuing certificates

The part of {lit}`osa-coordinator/src/ca.rs` that issues: host certificates from a
request, server certificates for the broker, and the validation of a renewal.  The
parser of requests is a parameter, and what the certificate writer returns is an
argument of the call.

Main results:

- Theorem {lit}`hostParams_organization`: the organization of a host certificate is
  the broker tenant of the host.
- Theorem {lit}`EmbeddedCa.validateRenewal_eq_ok`: what a renewal was checked for.
-/

open Framing SymbolicCrypto

namespace OpenSsmAgent
namespace Coordinator

open Domain Hs

/-! ## What is written into a certificate -/

inductive DnType where
  | commonName
  | organizationName
deriving DecidableEq

inductive SanType where
  | uri (text : String)
  | dnsName (name : String)
deriving DecidableEq

inductive IsCa where
  | explicitNoCa
  | ca
deriving DecidableEq

inductive KeyUsagePurpose where
  | digitalSignature
  | keyCertSign
  | crlSign
deriving DecidableEq

inductive ExtendedKeyUsagePurpose where
  | clientAuth
  | serverAuth
deriving DecidableEq

/-- {lit}`CertificateParams`. -/
structure CertificateParams where
  distinguishedName : List (DnType × String)
  subjectAltNames : List SanType
  isCa : IsCa
  keyUsages : List KeyUsagePurpose
  extendedKeyUsages : List ExtendedKeyUsagePurpose
  notBefore : Int
  notAfter : Int
deriving DecidableEq

/-- {lit}`CLOCK_SKEW`, in seconds. -/
def clockSkew : Int := 5 * 60

/-- {lit}`host_san_uri`. -/
def hostSanUri (host : HostId) : String :=
  "urn:osa:host:" ++ host.toStr.text

/-- The certificate of a host. -/
def hostParams (certTtl now : Int) (host : HostId) (san : String) : CertificateParams where
  distinguishedName :=
    [(.commonName, host.toStr.text), (.organizationName, String.ofList host.uuid.simpleChars)]
  subjectAltNames := [.uri san]
  isCa := .explicitNoCa
  keyUsages := [.digitalSignature]
  extendedKeyUsages := [.clientAuth]
  notBefore := now - clockSkew
  notAfter := now + certTtl

/-- The certificate of the broker. -/
def serverParams (certTtl now : Int) (dnsNames : List String) : CertificateParams where
  distinguishedName := [(.commonName, dnsNames.headD "broker")]
  subjectAltNames := dnsNames.map SanType.dnsName
  isCa := .explicitNoCa
  keyUsages := [.digitalSignature]
  extendedKeyUsages := [.serverAuth]
  notBefore := now - clockSkew
  notAfter := now + certTtl

/-- {lit}`ca_params`. -/
def caParams (now : Int) : CertificateParams where
  distinguishedName := [(.commonName, "open-ssm-agent embedded CA")]
  subjectAltNames := []
  isCa := .ca
  keyUsages := [.keyCertSign, .crlSign]
  extendedKeyUsages := []
  notBefore := now - clockSkew
  notAfter := now + 3650 * 24 * 60 * 60

/-- The organization of a host certificate is the tenant of the host. -/
theorem hostParams_organization (certTtl now : Int) (host : HostId) (san : String) :
    (hostParams certTtl now host san).distinguishedName =
      [(.commonName, host.toStr.text), (.organizationName, Topics.tenant host.toStr.text)] := by
  rw [Topics.tenant_toStr]
  rfl

/-- The names as the parser reads them back; without names there is no extension. -/
def CertificateParams.readNames (p : CertificateParams) : Option (List GeneralName) :=
  if p.subjectAltNames = [] then none
  else some (p.subjectAltNames.map fun
    | .uri text => .uri text
    | .dnsName _ => .other)

/-! ## Requests -/

/-- The key bytes of a subject public key. -/
def SubjectPublicKey.key : SubjectPublicKey → VerifyingKey
  | .ec point => point
  | .other key => key

/-- A parsed certificate signing request: what was signed, by whom, and everything the
requester asked for. -/
structure CertificateSigningRequest where
  tbs : Bytes
  signature : Signature
  publicKey : SubjectPublicKey
  params : CertificateParams
deriving DecidableEq

/-- {lit}`CertificateSigningRequestParams::from_der`. -/
abbrev CsrFromDer := Bytes → Except String CertificateSigningRequest

/-- The signature of a request is by its own key. -/
def CertificateSigningRequest.Possessed (req : CertificateSigningRequest) : Prop :=
  verifySignature req.publicKey.key req.tbs req.signature = .ok ()

/-- {lit}`from_der` accepts a request only with its proof of possession. -/
def ChecksPossession (parse : CsrFromDer) : Prop :=
  ∀ der req, parse der = .ok req → req.Possessed

/-! ## Issuing -/

/-- {lit}`Ia5String::try_from`. -/
def ia5String (text : String) : Except PortError String :=
  if text.toList.all (·.toNat < 128) then .ok text
  else .error (.backend ("Invalid Ia5String: '" ++ text ++ "'"))

/-- A certificate that was written and signed. -/
structure IssuedCert where
  params : CertificateParams
  publicKey : SubjectPublicKey
  der : Blob
deriving DecidableEq

/-- {lit}`validate_csr`. -/
def validateCsr (parse : CsrFromDer) (csr : Blob) : Except PortError Unit :=
  match parse csr.bytes with
  | .error e => .error (.invalid ("invalid CSR: " ++ e))
  | .ok _ => .ok ()

/-- {lit}`issue`: only the key is taken from the request. -/
def issue (parse : CsrFromDer) (certTtl now : Int) (host : HostId) (csr : Blob)
    (signed : Except String Blob) : Except PortError IssuedCert :=
  match parse csr.bytes with
  | .error e => .error (.invalid ("invalid CSR: " ++ e))
  | .ok req =>
      match ia5String (hostSanUri host) with
      | .error e => .error e
      | .ok san =>
          match signed with
          | .error e => .error (.backend ("signing failed: " ++ e))
          | .ok der => .ok ⟨hostParams certTtl now host san, req.publicKey, der⟩

/-- {lit}`issue_server_cert` with the key pair it generates. -/
def issueServerCert (certTtl now : Int) (dnsNames : List String)
    (key : Except String SigningKey) (signed : Except String Blob) : Except PortError IssuedCert :=
  if dnsNames = [] then .error (.invalid "a server cert needs at least one DNS name")
  else
    match key with
    | .error e => .error (.backend e)
    | .ok key =>
        match dnsNames.mapM ia5String with
        | .error e => .error e
        | .ok _ =>
            match signed with
            | .error e => .error (.backend ("signing server cert: " ++ e))
            | .ok der => .ok ⟨serverParams certTtl now dnsNames, .ec key.verifyingKey, der⟩

theorem issue_eq_ok {parse : CsrFromDer} {certTtl now : Int} {host : HostId} {csr : Blob}
    {signed : Except String Blob} {cert : IssuedCert}
    (h : issue parse certTtl now host csr signed = .ok cert) :
    ∃ req, parse csr.bytes = .ok req ∧ signed = .ok cert.der ∧
      cert.params = hostParams certTtl now host (hostSanUri host) ∧
      cert.publicKey = req.publicKey := by
  unfold issue at h
  split at h
  · cases h
  rename_i req hreq
  split at h
  · cases h
  rename_i san hsan
  split at h
  · cases h
  rename_i der
  cases h
  unfold ia5String at hsan
  split at hsan
  · cases hsan
    exact ⟨req, hreq, rfl, rfl, rfl⟩
  · cases hsan

theorem issueServerCert_eq_ok {certTtl now : Int} {dnsNames : List String}
    {key : Except String SigningKey} {signed : Except String Blob} {cert : IssuedCert}
    (h : issueServerCert certTtl now dnsNames key signed = .ok cert) :
    cert.params = serverParams certTtl now dnsNames := by
  unfold issueServerCert at h
  split at h
  · cases h
  split at h
  · cases h
  split at h
  · cases h
  split at h
  · cases h
  · cases h
    rfl

namespace EmbeddedCa

variable {fromDer : FromDer}

/-- {lit}`validate_renewal` at a time. -/
def validateRenewal (ca : EmbeddedCa fromDer) (parse : CsrFromDer) (now : Int)
    (currentCert csr : Blob) : Except PortError HostId :=
  match fromDer currentCert.bytes with
  | none => .error (.invalid "malformed current certificate")
  | some cert =>
      if cert.verifySignature ca.root.publicKey then
        if cert.isValidAt now then
          match hostIdFromCert cert with
          | .error e => .error e
          | .ok host =>
              match parse csr.bytes with
              | .error e => .error (.invalid ("invalid CSR: " ++ e))
              | .ok req =>
                  if req.publicKey.key = cert.publicKey.key then .ok host
                  else .error (.invalid "CSR key does not match the current identity")
        else .error (.invalid "current cert is expired or not yet valid")
      else .error (.invalid "current cert was not issued by this CA")

/-- What a renewal was checked for. -/
theorem validateRenewal_eq_ok {ca : EmbeddedCa fromDer} {parse : CsrFromDer} {now : Int}
    {currentCert csr : Blob} {host : HostId}
    (h : ca.validateRenewal parse now currentCert csr = .ok host) :
    ∃ cert req, fromDer currentCert.bytes = some cert ∧ parse csr.bytes = .ok req ∧
      (∃ form, cert.signature = .signed ca.key cert.tbs form) ∧
      hostIdFromCert cert = .ok host ∧ req.publicKey.key = cert.publicKey.key := by
  unfold validateRenewal at h
  split at h
  · cases h
  rename_i cert hcert
  split at h
  · rename_i hsig
    split at h
    · split at h
      · cases h
      rename_i host' hhost
      split at h
      · cases h
      rename_i req hreq
      split at h
      · rename_i hkey
        cases h
        exact ⟨cert, req, hcert, hreq, (ca.verifySignature_iff cert).mp hsig, hhost, hkey⟩
      · cases h
    · cases h
  · cases h

end EmbeddedCa

/-! ## Reading back -/

/-- The parser reads back what was written and signed with the key of the CA. -/
def ReadsBack (fromDer : FromDer) (key : SigningKey) (issued : IssuedCert) : Prop :=
  ∃ cert form, fromDer issued.der.bytes = some cert ∧
    cert.signature = .signed key cert.tbs form ∧
    cert.subjectAlternativeName = issued.params.readNames ∧
    cert.publicKey = issued.publicKey ∧
    cert.notBefore = issued.params.notBefore ∧ cert.notAfter = issued.params.notAfter

/-- What is read off a certificate is determined by what is signed. -/
def ReadsTbs (fromDer : FromDer) : Prop :=
  ∀ der der' cert cert', fromDer der = some cert → fromDer der' = some cert' →
    cert.tbs = cert'.tbs →
    cert.subjectAlternativeName = cert'.subjectAlternativeName ∧ cert.publicKey = cert'.publicKey

/-- What is signed in a certificate is the DER encoding of a sequence. -/
def ReadsSequence (fromDer : FromDer) : Prop :=
  ∀ der cert, fromDer der = some cert → cert.tbs.head? = some 0x30

/-- A SAN that names a host is read as that host. -/
@[simp] theorem hostOfSan_hostSanUri (host : HostId) : hostOfSan (hostSanUri host) = some host := by
  have hdrop : (hostSanUri host).toList.dropPrefix? "urn:osa:host:".toList =
      some host.toStr.text.toList := by
    rw [hostSanUri, String.toList_append]
    exact List.dropPrefix?_append_of_beq _ (beq_self_eq_true _)
  rw [hostOfSan, hdrop]
  simp

end Coordinator
end OpenSsmAgent
