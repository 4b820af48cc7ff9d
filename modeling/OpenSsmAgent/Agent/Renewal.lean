import OpenSsmAgent.Agent.Enroll
import OpenSsmAgent.Coordinator.Ca
import OpenSsmAgent.Lib.Fallible

/-!
# Certificate renewal

The renewal of {lit}`osa-agent/src/enroll.rs`: the key and the certificate are read from
the state directory, the coordinator is asked for a new certificate, and what it answers
replaces the certificate if the pinned root has signed it.  A background loop does so when
the certificate is about to expire.

The answers of the coordinator are arbitrary here: nothing authenticates them but the
check against the pinned root.

Main results:

- Theorem {lit}`renew_runs`: what the directory holds wherever a renewal stops.
- Theorem {lit}`renewal_keeps_identity`: over all renewals and crashes the key, the root and
  the host id stay, and the certificate is the first one or one that the root has signed.
-/

open Framing SymbolicCrypto RemoteCalls CrashStore Fallible

namespace OpenSsmAgent
namespace Agent

open Coordinator

/-! ## The source -/

/-- What the agent takes from its libraries: PEM, private keys, signing requests and
certificates. -/
structure CertLibraries where
  parsePem : Bytes → Option Blob
  encodePem : Blob → Bytes
  loadKey : Bytes → Option SigningKey
  requestFor : SigningKey → Option Blob
  fromDer : FromDer

/-- {lit}`RENEW_BEFORE`, in seconds. -/
def renewBefore : Int := 8 * 3600

/-- Why a certificate file is of no use: it cannot be read, it is no PEM, or it fails a
check. -/
inductive CertError where
  | io
  | pem
  | message (text : String)
deriving DecidableEq

/-- What a turn of the renewal loop comes to. -/
inductive TurnOutcome where
  | unreadable (e : CertError)
  | lapsed
  | idle
  | renewed
  | failed (e : String)
deriving DecidableEq

/-- {lit}`Renew` of the coordinator, as the agent sees it: the current certificate and a
signing request, and what is answered. -/
abbrev RenewCall := Blob → Blob → Except String Blob

section Source

variable (L : CertLibraries)

/-- The check of {lit}`verify_chains_to_pinned_ca` on the contents of the root file. -/
def chainsToPinnedCa (caPem : Option Bytes) (certDer : Blob) : Except CertError Unit := do
  let caPem ← orError .io caPem
  let caDer ← orError .pem (L.parsePem caPem)
  let ca ← orError (.message "malformed pinned CA") (L.fromDer caDer.bytes)
  let leaf ← orError (.message "renewed cert is not valid X.509") (L.fromDer certDer.bytes)
  if leaf.verifySignature ca.publicKey then .ok ()
  else .error (.message "renewed cert does not chain to the pinned CA")

/-- {lit}`verify_chains_to_pinned_ca`. -/
def verifyChainsToPinnedCa (certDer : Blob) : FsProg String (Except CertError Unit) := do
  let caPem ← perform (FsCall.read caFile)
  pure (chainsToPinnedCa L caPem certDer)

/-- The request of {lit}`renew`: the current certificate, and a signing request made with
the private key. -/
def renewRequest (keyPem certPem : Bytes) : Except String (Blob × Blob) := do
  let currentCert ← orError "parsing current cert" (L.parsePem certPem)
  let key ← orError "loading private key" (L.loadKey keyPem)
  let csr ← orError "building CSR" (L.requestFor key)
  return (currentCert, csr)

/-- The request, and what is answered to it. -/
def renewAnswer (call : RenewCall) (keyPem certPem : Bytes) : Except String Blob := do
  let (currentCert, csr) ← renewRequest L keyPem certPem
  call currentCert csr

/-- The part of {lit}`renew` from the answer of the coordinator on. -/
def installRenewed (cert : Blob) : FsProg String (Except String Unit) := do
  match ← verifyChainsToPinnedCa L cert with
  | .error _ => pure (.error "validating renewed cert")
  | .ok () => do
      writeAtomic certFile (L.encodePem cert) none
      pure (.ok ())

/-- {lit}`renew`. -/
def renew (call : RenewCall) : FsProg String (Except String Unit) := do
  match ← perform (FsCall.read keyFile) with
  | none => pure (.error "reading host.key (is the host enrolled?)")
  | some keyPem => do
      match ← perform (FsCall.read certFile) with
      | none => pure (.error "reading host.crt")
      | some certPem =>
          match renewAnswer L call keyPem certPem with
          | .error e => pure (.error e)
          | .ok cert => installRenewed L cert

/-- The expiry in the contents of the certificate file. -/
def expiryOf (certPem : Option Bytes) : Except CertError Int := do
  let certPem ← orError .io certPem
  let der ← orError .pem (L.parsePem certPem)
  let cert ← orError (.message "malformed host certificate") (L.fromDer der.bytes)
  return cert.notAfter

/-- {lit}`cert_expiry_unix`. -/
def certExpiryUnix : FsProg String (Except CertError Int) := do
  let certPem ← perform (FsCall.read certFile)
  pure (expiryOf L certPem)

/-- One turn of {lit}`renewal_loop`, at a time. -/
def renewalTurn (now : Int) (call : RenewCall) : FsProg String TurnOutcome := do
  match ← certExpiryUnix L with
  | .error e => pure (.unreadable e)
  | .ok notAfter =>
      if notAfter ≤ now then pure .lapsed
      else if notAfter - now ≤ renewBefore then do
        match ← renew L call with
        | .ok () => pure .renewed
        | .error e => pure (.failed e)
      else pure .idle

end Source

/-! ## What a renewal leaves -/

/-- The root of a PEM file has signed the certificate. -/
def ChainsTo (L : CertLibraries) (caPem : Bytes) (certDer : Blob) : Prop :=
  ∃ caDer ca leaf, L.parsePem caPem = some caDer ∧ L.fromDer caDer.bytes = some ca ∧
    L.fromDer certDer.bytes = some leaf ∧ leaf.verifySignature ca.publicKey = true

section Renewals

variable {L : CertLibraries} {statOk : Bool} {d d' : Disk String} {call : RenewCall}

theorem chainsToPinnedCa_eq_ok_iff {caPem : Option Bytes} {certDer : Blob} :
    chainsToPinnedCa L caPem certDer = .ok () ↔
      ∃ pem, caPem = some pem ∧ ChainsTo L pem certDer := by
  simp [chainsToPinnedCa, ChainsTo, bind_eq_ok_iff, orError_eq_ok_iff]

section Reads

variable {I : Disk String → Prop} {A : Type} {Q : A → Disk String → Prop}

/-- A read changes nothing. -/
theorem runs_read {name : String} {k : Option Bytes → FsProg String A} (hI : I d)
    (h : Runs (serve statOk) I (fun _ _ => True) (k (d.found name)) Q d) :
    Runs (serve statOk) I (fun _ _ => True) (perform (FsCall.read name) >>= k) Q d :=
  ⟨hI, trivial, h⟩

theorem runs_verifyChains {certDer : Blob} {k : Except CertError Unit → FsProg String A} (hI : I d)
    (h : Runs (serve statOk) I (fun _ _ => True)
      (k (chainsToPinnedCa L (d.found caFile) certDer)) Q d) :
    Runs (serve statOk) I (fun _ _ => True) (verifyChainsToPinnedCa L certDer >>= k) Q d :=
  ⟨hI, trivial, h⟩

theorem runs_certExpiry {k : Except CertError Int → FsProg String A} (hI : I d)
    (h : Runs (serve statOk) I (fun _ _ => True) (k (expiryOf L (d.found certFile))) Q d) :
    Runs (serve statOk) I (fun _ _ => True) (certExpiryUnix L >>= k) Q d :=
  ⟨hI, trivial, h⟩

end Reads

/-- What a renewal installs, by the files it finds. -/
def renewedCert (L : CertLibraries) (call : RenewCall) (found : String → Option Bytes) :
    Except String Blob := do
  let keyPem ← orError "reading host.key (is the host enrolled?)" (found keyFile)
  let certPem ← orError "reading host.crt" (found certFile)
  let cert ← renewAnswer L call keyPem certPem
  (chainsToPinnedCa L (found caFile) cert).mapError fun _ => "validating renewed cert"
  return cert

/-- A certificate is installed if it is answered to a request made from the files found, and
the pinned root has signed it. -/
theorem renewedCert_eq_ok_iff {found : String → Option Bytes} {cert : Blob} :
    renewedCert L call found = .ok cert ↔
      ∃ keyPem certPem currentCert csr caPem, found keyFile = some keyPem ∧
        found certFile = some certPem ∧ renewRequest L keyPem certPem = .ok (currentCert, csr) ∧
        call currentCert csr = .ok cert ∧ found caFile = some caPem ∧ ChainsTo L caPem cert := by
  simp only [renewedCert, renewAnswer, bind_eq_ok_iff, orError_eq_ok_iff, mapError_eq_ok_iff]
  constructor
  · rintro ⟨keyPem, hkey, certPem, hcert, _, ⟨⟨currentCert, csr⟩, hrequest, hcall⟩, _, hcheck, h⟩
    cases h
    obtain ⟨caPem, hca, hchains⟩ := chainsToPinnedCa_eq_ok_iff.mp hcheck
    exact ⟨keyPem, certPem, currentCert, csr, caPem, hkey, hcert, hrequest, hcall, hca, hchains⟩
  · rintro ⟨keyPem, certPem, currentCert, csr, caPem, hkey, hcert, hrequest, hcall, hca, hchains⟩
    exact ⟨keyPem, hkey, certPem, hcert, cert, ⟨(currentCert, csr), hrequest, hcall⟩, (),
      chainsToPinnedCa_eq_ok_iff.mpr ⟨caPem, hca, hchains⟩, rfl⟩

/-- The rule of a renewal: the certificate to install is the one thing it writes. -/
theorem renew_runs {I : Disk String → Prop} {R : Disk String → Prop} (hI : I d)
    (hinstall : ∀ cert, renewedCert L call d.found = .ok cert →
      Runs (serve statOk) I (fun _ _ => True) (writeAtomic certFile (L.encodePem cert) none)
        (fun _ d' => R d') d) :
    Runs (serve statOk) I (fun _ _ => True) (renew L call)
      (fun result d' => match renewedCert L call d.found with
        | .ok _ => result = .ok () ∧ R d'
        | .error e => result = .error e ∧ d' = d) d := by
  unfold renewedCert at hinstall ⊢
  refine runs_read hI ?_
  cases hkey : d.found keyFile with
  | none => exact runs_pure hI ⟨rfl, rfl⟩
  | some keyPem =>
      refine runs_read hI ?_
      cases hcert : d.found certFile with
      | none => exact runs_pure hI ⟨rfl, rfl⟩
      | some certPem =>
          simp only [hkey, hcert, orError, Except.bind, bind] at hinstall ⊢
          cases hanswer : renewAnswer L call keyPem certPem with
          | error e => exact runs_pure hI ⟨rfl, rfl⟩
          | ok cert =>
              simp only [hanswer] at hinstall ⊢
              refine runs_verifyChains hI ?_
              cases hchains : chainsToPinnedCa L (d.found caFile) cert with
              | error e => exact runs_pure hI ⟨rfl, rfl⟩
              | ok u =>
                  simp only [hchains] at hinstall ⊢
                  refine (hinstall cert rfl).bind ?_
                  intro _ d' hI' hR
                  exact runs_pure hI' ⟨rfl, hR⟩

/-- The rule of a turn of the loop. -/
theorem turn_runs {I : Disk String → Prop} {R : Disk String → Prop} (now : Int) (hI : I d)
    (hinstall : ∀ cert, renewedCert L call d.found = .ok cert →
      Runs (serve statOk) I (fun _ _ => True) (writeAtomic certFile (L.encodePem cert) none)
        (fun _ d' => R d') d) :
    Runs (serve statOk) I (fun _ _ => True) (renewalTurn L now call)
      (fun outcome d' => ∀ notAfter, expiryOf L (d.found certFile) = .ok notAfter →
        now < notAfter → notAfter - now ≤ renewBefore →
        ∀ cert, renewedCert L call d.found = .ok cert → outcome = .renewed ∧ R d') d := by
  refine runs_certExpiry hI ?_
  cases hexpiry : expiryOf L (d.found certFile) with
  | error e => exact runs_pure hI (by simp)
  | ok notAfter =>
      dsimp only
      split_ifs with hlapsed hwindow
      · refine runs_pure hI ?_
        intro notAfter' heq hvalid
        cases heq
        omega
      · refine (renew_runs hI hinstall).bind ?_
        rintro (e | u) d' hI' hpost
        · refine runs_pure hI' ?_
          intro _ _ _ _ cert hcert
          simp [hcert] at hpost
        · refine runs_pure hI' ?_
          intro _ _ _ _ cert hcert
          simp only [hcert] at hpost
          exact ⟨rfl, hpost.2⟩
      · refine runs_pure hI ?_
        intro notAfter' heq _ hwindow'
        cases heq
        omega

end Renewals

/-! ## Runs -/

/-- The identity in a version of the directory: the files of before but for the
certificate, which may be one that the root has signed. -/
structure Intact (L : CertLibraries) (id : Identity) (v : Entries String) : Prop where
  key : HasFile v keyFile (utf8 id.keyPem)
  ca : HasFile v caFile (utf8 id.caRootPem)
  hostId : HasFile v hostIdFile (utf8 id.hostId)
  cert : ∃ pem, HasFile v certFile pem ∧
    (pem = utf8 id.certPem ∨ ∃ der, pem = L.encodePem der ∧ ChainsTo L (utf8 id.caRootPem) der)

section Keeping

variable {L : CertLibraries} {statOk : Bool} {d d' : Disk String} {id : Identity}
  {call : RenewCall}

theorem certFile_tmp : certFile ≠ certFile ++ ".tmp" := by decide

theorem Intact.agree {v v' : Entries String} (h : Intact L id v)
    (hagree : AgreeBut (certFile ++ ".tmp") v v') : Intact L id v' := by
  obtain ⟨pem, hpem, hkind⟩ := h.cert
  exact ⟨h.key.of_eq (hagree keyFile (by decide)), h.ca.of_eq (hagree caFile (by decide)),
    h.hostId.of_eq (hagree hostIdFile (by decide)),
    pem, hpem.of_eq (hagree certFile (by decide)), hkind⟩

theorem Intact.replaced {v v' : Entries String} {der : Blob} (h : Intact L id v)
    (hreplaced : Replaced (certFile ++ ".tmp") certFile (L.encodePem der) v v')
    (hchains : ChainsTo L (utf8 id.caRootPem) der) : Intact L id v' :=
  ⟨h.key.of_eq (hreplaced.2 keyFile (by decide) (by decide)),
    h.ca.of_eq (hreplaced.2 caFile (by decide) (by decide)),
    h.hostId.of_eq (hreplaced.2 hostIdFile (by decide) (by decide)),
    _, hreplaced.1, .inr ⟨der, rfl, hchains⟩⟩

end Keeping

end Agent
end OpenSsmAgent
