import OpenSsmAgent.Agent.Renewal
import OpenSsmAgent.Coordinator.HostIdentity

/-!
# An enrolled host does not lapse

The renewal loop of the agent and the {lit}`Renew` call of the coordinator put together, with
both clocks.  A turn of the loop may fail at any point: no connection, a refusal, a signing
error, a full disk.  The loop begins to try long before the certificate ends, and tries again
at every turn, so that one turn out of many is enough.

Main results:

- Theorem {lit}`serveRenew_eq_ok_iff`: exactly the renewals the coordinator grants.
- Theorem {lit}`HoldsCert.turn`: what a turn of the loop leaves, and that it renews in time if
  nothing fails.
- Theorem {lit}`enrolled_host_never_lapses`: at every moment of a run the host holds a
  certificate that a handshake accepts.
-/

open Framing SymbolicCrypto RemoteCalls CrashStore Fallible

namespace OpenSsmAgent
namespace System

open Domain Coordinator Agent

/-! ## The coordinator's side -/

/-- The certificate in an answer to a renewal. -/
def renewReply (log : EnrollLog) : Option Blob :=
  log.findSome? (fun
    | (_, .replied (.renew (.ok der))) => some der
    | _ => none)

section Serving

variable {fromDer : FromDer} (cfg : EnrollConfig fromDer)

/-- {lit}`Renew` from the request to the answer: validation, the revocation check and the
issuing, each with what it meets. -/
def serveRenew (s : Enrollment) (utcNow : Int) (check issuing : EnrollEnv) : RenewCall :=
  fun currentCert csr =>
    match renewReply (enrollRun cfg s [.request 0 utcNow (.renew currentCert csr),
        .step s.next check, .step s.next issuing]).2 with
    | some der => .ok der
    | none => .error "renew request failed"

variable {cfg} {s : Enrollment} {utcNow : Int} {check issuing : EnrollEnv}
  {currentCert csr der : Blob}

/-- Exactly the renewals that are granted. -/
theorem serveRenew_eq_ok_iff :
    serveRenew cfg s utcNow check issuing currentCert csr = .ok der ↔
      ∃ host cert, cfg.ca.validateRenewal cfg.parseCsr utcNow currentCert csr = .ok host ∧
        check.fate = .answered ∧ host ∉ s.revoked ∧
        issue cfg.parseCsr cfg.certTtl issuing.utcNow host csr issuing.signed = .ok cert ∧
        cert.der = der := by
  simp only [serveRenew, enrollRun, enrollStep, EnrollRequest.begin]
  cases hvalid : cfg.ca.validateRenewal cfg.parseCsr utcNow currentCert csr with
  | error e =>
      cases e <;> simp [replyWith, Table.lookup_put_self, EnrollCall.onTokens, EnrollCall.step,
        renewReply]
  | ok host =>
      cases hissue : issue cfg.parseCsr cfg.certTtl issuing.utcNow host csr issuing.signed <;>
        by_cases hrevoked : host ∈ s.revoked <;> cases hfate : check.fate <;>
        simp [replyWith, Table.lookup_put_self, EnrollCall.onTokens, EnrollCall.step, renewReply,
          CallFate.statement, hfate, hrevoked, hissue]

end Serving

/-- The name of a host can be written into a certificate. -/
theorem ia5String_hostSanUri (host : HostId) :
    ia5String (hostSanUri host) = .ok (hostSanUri host) := by
  have hdigit : ∀ n : Fin 16, (hexChar n).toNat < 128 := by decide
  have hsimple : ∀ c ∈ host.uuid.simpleChars, c.toNat < 128 := by
    simpa [Uuid.simpleChars] using fun n _ => hdigit n
  have hmem : ∀ c ∈ host.uuid.hyphenatedChars, c ∈ host.uuid.simpleChars ∨ c = '-' := by
    simp only [Uuid.hyphenatedChars, Uuid.hyphenate, List.mem_append, List.mem_cons]
    grind [List.mem_of_mem_take, List.mem_of_mem_drop]
  have hchars : ∀ c ∈ host.uuid.hyphenatedChars, c.toNat < 128 := by
    intro c hc
    rcases hmem c hc with h | rfl
    · exact hsimple c h
    · decide
  refine if_pos (List.all_eq_true.mpr ?_)
  simpa [hostSanUri, HostId.toStr, or_imp, forall_and] using hchars

/-! ## What a host holds -/

/-- The libraries of the two sides agree: PEM is read back as it was written, and a signing
request is read as one for the key that made it. -/
structure RenewalLaws (L : CertLibraries) (cfg : EnrollConfig L.fromDer) : Prop where
  pem : ∀ der, L.parsePem (L.encodePem der) = some der
  request : ∀ key csr, L.requestFor key = some csr →
    ∃ req, cfg.parseCsr csr.bytes = .ok req ∧ req.publicKey = .ec key.verifyingKey

/-- A certificate of the CA for a host and a key, with its validity. -/
structure CertFor {fromDer : FromDer} (cfg : EnrollConfig fromDer) (host : HostId)
    (key : SigningKey) (notBefore notAfter : Int) (der : Blob) : Prop where
  read : ∃ cert, fromDer der.bytes = some cert ∧
    (∃ form, cert.signature = .signed cfg.ca.key cert.tbs form) ∧
    hostIdFromCert cert = .ok host ∧ cert.publicKey = .ec key.verifyingKey ∧
    cert.notBefore = notBefore ∧ cert.notAfter = notAfter

/-- The state directory of an enrolled host: its key, the root of the CA, and a
certificate. -/
structure HoldsCert {L : CertLibraries} (cfg : EnrollConfig L.fromDer) (host : HostId)
    (key : SigningKey) (notBefore notAfter : Int) (d : Disk String) : Prop where
  hasKey : ∃ pem csr, d.found keyFile = some pem ∧ L.loadKey pem = some key ∧
    L.requestFor key = some csr
  hasRoot : ∃ pem der root, d.found caFile = some pem ∧ L.parsePem pem = some der ∧
    L.fromDer der.bytes = some root ∧ root.publicKey = cfg.ca.root.publicKey
  hasCert : ∃ pem der, d.found certFile = some pem ∧ L.parsePem pem = some der ∧
    CertFor cfg host key notBefore notAfter der

/-- What a renewal meets at the coordinator: clocks that differ by at most the skew from that
of the agent, and a certificate writer whose output is read back. -/
structure Meets {L : CertLibraries} (cfg : EnrollConfig L.fromDer) (host : HostId)
    (key : SigningKey) (skew now utcNow : Int) (issuing : EnrollEnv) : Prop where
  early : now - skew ≤ utcNow ∧ now - skew ≤ issuing.utcNow
  late : utcNow ≤ now + skew ∧ issuing.utcNow ≤ now + skew
  writes : ∀ csr cert, L.requestFor key = some csr →
    issue cfg.parseCsr cfg.certTtl issuing.utcNow host csr issuing.signed = .ok cert →
    ReadsBack L.fromDer cfg.ca.key cert

section Holding

variable {L : CertLibraries} {cfg : EnrollConfig L.fromDer} {host : HostId} {key : SigningKey}
  {notBefore notAfter skew now utcNow : Int} {d d' : Disk String} {s : Enrollment}
  {check issuing : EnrollEnv} {der : Blob}

/-- A handshake accepts the certificate while it is valid. -/
theorem CertFor.verified {fromDer : FromDer} {cfg : EnrollConfig fromDer}
    (h : CertFor cfg host key notBefore notAfter der) {time : Int} (hearly : notBefore ≤ time)
    (hlate : time ≤ notAfter) :
    cfg.ca.verifyHostCert time der = .ok ⟨host, key.verifyingKey⟩ := by
  obtain ⟨cert, hcert, hsigned, hhost, hkey, rfl, rfl⟩ := h.read
  refine EmbeddedCa.verifyHostCert_eq_ok_iff.mpr ⟨cert, hcert, hsigned, ?_, hhost, hkey⟩
  simp [Certificate.isValidAt, hearly, hlate]

/-- A renewal of it is validated while it is valid. -/
theorem CertFor.validated (h : CertFor cfg host key notBefore notAfter der)
    (hlaws : RenewalLaws L cfg) {csr : Blob} (hcsr : L.requestFor key = some csr)
    (hearly : notBefore ≤ utcNow) (hlate : utcNow ≤ notAfter) :
    cfg.ca.validateRenewal cfg.parseCsr utcNow der csr = .ok host := by
  obtain ⟨cert, hcert, hsigned, hhost, hkey, rfl, rfl⟩ := h.read
  obtain ⟨req, hreq, hpublic⟩ := hlaws.request key csr hcsr
  have hsig := (cfg.ca.verifySignature_iff cert).mpr hsigned
  simp [EmbeddedCa.validateRenewal, hcert, hsig, Certificate.isValidAt, hearly, hlate, hhost, hreq,
    hkey, hpublic]

/-- What is issued for a request of the key. -/
theorem certFor_of_issue (hlaws : RenewalLaws L cfg) {csr : Blob} {cert : IssuedCert}
    (hcsr : L.requestFor key = some csr)
    (hissue : issue cfg.parseCsr cfg.certTtl issuing.utcNow host csr issuing.signed = .ok cert)
    (hreads : ReadsBack L.fromDer cfg.ca.key cert) :
    CertFor cfg host key (issuing.utcNow - clockSkew) (issuing.utcNow + cfg.certTtl) cert.der := by
  obtain ⟨req, hreq, -, hparams, hpublic⟩ := issue_eq_ok hissue
  obtain ⟨req', hreq', hkey⟩ := hlaws.request key csr hcsr
  obtain rfl := Except.ok.inj (hreq.symm.trans hreq')
  obtain ⟨read, form, hread, hsigned, hnames, hkey', hbefore, hafter⟩ := hreads
  rw [hparams] at hnames hbefore hafter
  refine ⟨read, hread, ⟨form, hsigned⟩, ?_, ?_, hbefore, hafter⟩
  · simp [hostIdFromCert, hnames, CertificateParams.readNames, hostParams, firstUri]
  · rw [hkey', hpublic, hkey]

/-- The request of the host, by what it holds. -/
theorem HoldsCert.request (h : HoldsCert cfg host key notBefore notAfter d) :
    ∃ keyPem certPem currentCert csr, d.found keyFile = some keyPem ∧
      d.found certFile = some certPem ∧ L.requestFor key = some csr ∧
      CertFor cfg host key notBefore notAfter currentCert ∧
      renewRequest L keyPem certPem = .ok (currentCert, csr) := by
  obtain ⟨keyPem, csr, hkey, hload, hcsr⟩ := h.hasKey
  obtain ⟨certPem, currentCert, hcert, hpem, hfor⟩ := h.hasCert
  refine ⟨keyPem, certPem, currentCert, csr, hkey, hcert, hcsr, hfor, ?_⟩
  simp only [renewRequest, bind_eq_ok_iff, orError_eq_ok_iff]
  exact ⟨_, hpem, _, hload, _, hcsr, rfl⟩

/-- A renewal that the coordinator answers is for the same host and key. -/
theorem HoldsCert.renewed (h : HoldsCert cfg host key notBefore notAfter d)
    (hlaws : RenewalLaws L cfg) (hmeets : Meets cfg host key skew now utcNow issuing)
    (hder : renewedCert L (serveRenew cfg s utcNow check issuing) d.found = .ok der) :
    CertFor cfg host key (issuing.utcNow - clockSkew) (issuing.utcNow + cfg.certTtl) der := by
  obtain ⟨keyPem, certPem, currentCert, csr, hkey, hcert, hcsr, hfor, hrequest⟩ := h.request
  obtain ⟨keyPem', certPem', currentCert', csr', caPem, hkey', hcert', hrequest', hcall, -, -⟩ :=
    renewedCert_eq_ok_iff.mp hder
  obtain rfl := Option.some.inj (hkey.symm.trans hkey')
  obtain rfl := Option.some.inj (hcert.symm.trans hcert')
  obtain ⟨rfl, rfl⟩ := Prod.mk.inj (Except.ok.inj (hrequest.symm.trans hrequest'))
  obtain ⟨host', cert, hvalid, -, -, hissue, rfl⟩ := serveRenew_eq_ok_iff.mp hcall
  obtain ⟨read, hread, -, hhost, -⟩ := hfor.read
  obtain ⟨read', -, hread', -, -, hhost', -⟩ := EmbeddedCa.validateRenewal_eq_ok hvalid
  obtain rfl := Option.some.inj (hread.symm.trans hread')
  obtain rfl := Except.ok.inj (hhost.symm.trans hhost')
  exact certFor_of_issue hlaws hcsr hissue (hmeets.writes _ _ hcsr hissue)

/-- A renewal that nothing keeps from happening is granted. -/
theorem HoldsCert.granted (h : HoldsCert cfg host key notBefore notAfter d)
    (hlaws : RenewalLaws L cfg) (hmeets : Meets cfg host key skew now utcNow issuing)
    (hearly : notBefore ≤ utcNow) (hlate : utcNow ≤ notAfter) (hfree : host ∉ s.revoked)
    (hcheck : check.fate = .answered) (hsigned : issuing.signed = .ok der) :
    renewedCert L (serveRenew cfg s utcNow check issuing) d.found = .ok der := by
  obtain ⟨keyPem, certPem, currentCert, csr, hkey, hcert, hcsr, hfor, hrequest⟩ := h.request
  obtain ⟨caPem, caDer, root, hca, hpem, hroot, hpublic⟩ := h.hasRoot
  obtain ⟨req, hreq, -⟩ := hlaws.request key csr hcsr
  have hissue : issue cfg.parseCsr cfg.certTtl issuing.utcNow host csr issuing.signed =
      .ok ⟨hostParams cfg.certTtl issuing.utcNow host (hostSanUri host), req.publicKey, der⟩ := by
    simp [issue, hreq, ia5String_hostSanUri, hsigned]
  refine renewedCert_eq_ok_iff.mpr ⟨keyPem, certPem, currentCert, csr, caPem, hkey, hcert,
    hrequest, ?_, hca, ?_⟩
  · exact serveRenew_eq_ok_iff.mpr
      ⟨host, _, hfor.validated hlaws hcsr hearly hlate, hcheck, hfree, hissue, rfl⟩
  · obtain ⟨leaf, form, hleaf, hsig, -⟩ := hmeets.writes _ _ hcsr hissue
    refine ⟨caDer, root, leaf, hpem, hroot, hleaf, ?_⟩
    rw [hpublic]
    exact (cfg.ca.verifySignature_iff leaf).mpr ⟨form, hsig⟩

theorem HoldsCert.of_found (h : HoldsCert cfg host key notBefore notAfter d)
    (hkey : d'.found keyFile = d.found keyFile) (hca : d'.found caFile = d.found caFile)
    (hcert : d'.found certFile = d.found certFile) :
    HoldsCert cfg host key notBefore notAfter d' := by
  refine ⟨?_, ?_, ?_⟩
  · rw [hkey]
    exact h.hasKey
  · rw [hca]
    exact h.hasRoot
  · rw [hcert]
    exact h.hasCert

theorem HoldsCert.agree (h : HoldsCert cfg host key notBefore notAfter d)
    (hagree : AgreeBut (certFile ++ ".tmp") d.live d'.live) :
    HoldsCert cfg host key notBefore notAfter d' := by
  refine h.of_found ?_ ?_ ?_
  · rw [Disk.found, hagree keyFile (by decide), Disk.found]
  · rw [Disk.found, hagree caFile (by decide), Disk.found]
  · rw [Disk.found, hagree certFile (by decide), Disk.found]

theorem HoldsCert.replaced (h : HoldsCert cfg host key notBefore notAfter d)
    (hlaws : RenewalLaws L cfg) {notBefore' notAfter' : Int}
    (hfor : CertFor cfg host key notBefore' notAfter' der)
    (hreplaced : Replaced (certFile ++ ".tmp") certFile (L.encodePem der) d.live d'.live) :
    HoldsCert cfg host key notBefore' notAfter' d' := by
  refine ⟨?_, ?_, _, der, hreplaced.1.found, hlaws.pem der, hfor⟩
  · rw [Disk.found, hreplaced.2 keyFile (by decide) (by decide)]
    exact h.hasKey
  · rw [Disk.found, hreplaced.2 caFile (by decide) (by decide)]
    exact h.hasRoot

end Holding

/-! ## Turns of the loop -/

/-- Who answers a renewal: nobody, or the coordinator with what its steps meet. -/
inductive Answerer where
  | nobody (e : String)
  | coordinator (s : Enrollment) (utcNow : Int) (check issuing : EnrollEnv)

/-- A turn of the loop: the clock of the agent, who answers, and the fates of its system
calls. -/
structure Turn where
  now : Int
  answerer : Answerer
  fates : List (Fate String)

section Turns

variable {L : CertLibraries} (cfg : EnrollConfig L.fromDer)

/-- {lit}`Renew` in a turn. -/
def Turn.call (t : Turn) : RenewCall :=
  match t.answerer with
  | .nobody e => fun _ _ => .error e
  | .coordinator s utcNow check issuing => serveRenew cfg s utcNow check issuing

/-- The directory after a turn. -/
def Turn.leaves (t : Turn) (d : Disk String) : Disk String :=
  (exec (serve true) (renewalTurn L t.now (t.call cfg)) ⟨d, t.fates, []⟩).2.state

/-- The directory after some turns. -/
def afterTurns (d : Disk String) (turns : List Turn) : Disk String :=
  turns.foldl (fun d t => t.leaves cfg d) d

/-- The coordinator answers with a clock that is near enough. -/
def Turn.Honest (host : HostId) (key : SigningKey) (skew : Int) (t : Turn) : Prop :=
  ∀ s utcNow check issuing, t.answerer = .coordinator s utcNow check issuing →
    Meets cfg host key skew t.now utcNow issuing

/-- Nothing fails in a turn, and the host is not revoked. -/
def Turn.Clean (host : HostId) (t : Turn) : Prop :=
  (∀ fate ∈ t.fates, fate = .answered) ∧
    ∃ s utcNow check issuing der, t.answerer = .coordinator s utcNow check issuing ∧
      host ∉ s.revoked ∧ check.fate = .answered ∧ issuing.signed = .ok der

/-- The host holds a certificate that was issued at about a time. -/
def HoldsNewCert (host : HostId) (key : SigningKey) (skew now : Int) (d : Disk String) : Prop :=
  ∃ utcNow, now - skew ≤ utcNow ∧ utcNow ≤ now + skew ∧
    HoldsCert cfg host key (utcNow - clockSkew) (utcNow + cfg.certTtl) d

variable {cfg} {host : HostId} {key : SigningKey} {notBefore notAfter skew : Int}
  {d : Disk String} {t : Turn}

/-- What a turn leaves: the certificate of before, or one issued in the turn.  If nothing
fails and the certificate is about to expire, it is a new one. -/
theorem HoldsCert.turn (h : HoldsCert cfg host key notBefore notAfter d)
    (hlaws : RenewalLaws L cfg) (hhonest : t.Honest cfg host key skew) :
    (HoldsCert cfg host key notBefore notAfter (t.leaves cfg d) ∨
      HoldsNewCert cfg host key skew t.now (t.leaves cfg d)) ∧
    (t.Clean host → notBefore ≤ t.now - skew → t.now + skew ≤ notAfter → t.now < notAfter →
      notAfter - t.now ≤ renewBefore → HoldsNewCert cfg host key skew t.now (t.leaves cfg d)) := by
  have hissued : ∀ cert, renewedCert L (t.call cfg) d.found = .ok cert →
      ∃ utcNow, t.now - skew ≤ utcNow ∧ utcNow ≤ t.now + skew ∧
        CertFor cfg host key (utcNow - clockSkew) (utcNow + cfg.certTtl) cert := by
    intro cert hcert
    unfold Turn.call at hcert
    split at hcert
    · obtain ⟨_, _, _, _, _, -, -, -, hcall, -⟩ := renewedCert_eq_ok_iff.mp hcert
      cases hcall
    · rename_i s utcNow check issuing hanswerer
      have hmeets := hhonest s utcNow check issuing hanswerer
      exact ⟨issuing.utcNow, hmeets.early.2, hmeets.late.2, h.renewed hlaws hmeets hcert⟩
  have hinstall : ∀ cert, renewedCert L (t.call cfg) d.found = .ok cert →
      Runs (serve true) (fun d' => HoldsCert cfg host key notBefore notAfter d' ∨
        HoldsNewCert cfg host key skew t.now d') (fun _ _ => True)
        (writeAtomic certFile (L.encodePem cert) none)
        (fun _ d' => HoldsNewCert cfg host key skew t.now d') d := by
    intro cert hcert
    obtain ⟨utcNow, hearly, hlate, hfor⟩ := hissued cert hcert
    have hnew : ∀ d' : Disk String, Replaced (certFile ++ ".tmp") certFile (L.encodePem cert)
        d.live d'.live → HoldsNewCert cfg host key skew t.now d' :=
      fun d' hreplaced => ⟨utcNow, hearly, hlate, h.replaced hlaws hfor hreplaced⟩
    refine (runs_replace certFile_tmp (.inl h) (fun _ _ _ hagree => .inl (h.agree hagree))
      (fun _ _ _ hreplaced => .inr (hnew _ hreplaced))).post ?_
    intro _ d' _ hreplaced
    exact hnew d' hreplaced.2
  have hruns := (turn_runs t.now (.inl h) hinstall).exec (w := ⟨d, t.fates, []⟩)
  refine ⟨hruns.1, ?_⟩
  rintro ⟨hfates, s, utcNow, check, issuing, der, hanswerer, hfree, hcheck, hsigned⟩ hbefore hafter
    hvalid hwindow
  have hmeets := hhonest s utcNow check issuing hanswerer
  have hgranted : renewedCert L (t.call cfg) d.found = .ok der := by
    rw [Turn.call, hanswerer]
    exact h.granted hlaws hmeets (hbefore.trans hmeets.early.1) (hmeets.late.1.trans hafter)
      hfree hcheck hsigned
  have hexpiry : expiryOf L (d.found certFile) = .ok notAfter := by
    obtain ⟨pem, der', hpem, hder', hfor⟩ := h.hasCert
    obtain ⟨cert, hcert, -, -, -, -, rfl⟩ := hfor.read
    simp only [expiryOf, bind_eq_ok_iff, orError_eq_ok_iff]
    exact ⟨pem, hpem, der', hder', cert, hcert, rfl⟩
  obtain ⟨outcome, houtcome⟩ := exec_of_answered (serve true)
    (renewalTurn L t.now (t.call cfg)) (w := ⟨d, t.fates, []⟩) hfates
  exact (hruns.2.1 outcome houtcome notAfter hexpiry hvalid hwindow der hgranted).2

end Turns

/-! ## Whole runs -/

/-- Turns follow one another within a gap, from a moment on. -/
def Paced (gap : Int) : Int → List Turn → Prop
  | _, [] => True
  | last, t :: turns => last ≤ t.now ∧ t.now ≤ last + gap ∧ Paced gap t.now turns

/-- The time of the last turn. -/
def lastTurn (start : Int) (turns : List Turn) : Int :=
  turns.foldl (fun _ t => t.now) start

/-- Some turn of any so many in a row is clean. -/
def OftenClean (host : HostId) (count : Nat) (turns : List Turn) : Prop :=
  ∀ front block back, turns = front ++ block ++ back → block.length = count →
    ∃ t ∈ block, t.Clean host

section Runs

variable {L : CertLibraries} {cfg : EnrollConfig L.fromDer} {host : HostId} {key : SigningKey}
  {skew gap : Int} {count : Nat}

/-- So many turns after one at which the certificate was good for the time in which the loop
tries. -/
def Since (cfg : EnrollConfig L.fromDer) (host : HostId) (key : SigningKey) (skew gap last : Int)
    (missed : Nat) (d : Disk String) : Prop :=
  ∃ notBefore notAfter, HoldsCert cfg host key notBefore notAfter d ∧ notBefore ≤ last - skew ∧
    last + renewBefore < notAfter + missed * gap

/-- What is assumed of the clocks and the lifetimes. -/
structure Budget (certTtl skew gap : Int) (count : Nat) : Prop where
  skew_nonneg : 0 ≤ skew
  gap_nonneg : 0 ≤ gap
  skew_le : 2 * skew ≤ clockSkew
  tries : count * gap + skew ≤ renewBefore
  lifetime : renewBefore + skew < certTtl

theorem OftenClean.lt_count {turns missed : List Turn} (h : OftenClean host count (missed ++ turns))
    (hmissed : ∀ t ∈ missed, ¬ t.Clean host) : missed.length < count := by
  by_contra hle
  obtain ⟨t, ht, hclean⟩ := h [] (missed.take count) (missed.drop count ++ turns)
    (by simp [← List.append_assoc]) (by simpa using hle)
  exact hmissed t (List.mem_of_mem_take ht) hclean

theorem OftenClean.of_append {front back : List Turn} (h : OftenClean host count (front ++ back)) :
    OftenClean host count front ∧ OftenClean host count back := by
  constructor
  · rintro front' block back' rfl hlength
    exact h front' block (back' ++ back) (by simp) hlength
  · rintro front' block back' rfl hlength
    exact h (front ++ front') block back' (by simp) hlength

/-- A turn within the budget. -/
theorem Since.turn {last : Int} {missed : Nat} {d : Disk String} {t : Turn}
    (h : Since cfg host key skew gap last missed d) (hlaws : RenewalLaws L cfg)
    (hbudget : Budget cfg.certTtl skew gap count) (hmissed : missed < count)
    (hhonest : t.Honest cfg host key skew) (hlast : last ≤ t.now) (hgap : t.now ≤ last + gap) :
    Since cfg host key skew gap t.now (missed + 1) (t.leaves cfg d) ∧
      (t.Clean host → Since cfg host key skew gap t.now 0 (t.leaves cfg d)) := by
  obtain ⟨notBefore, notAfter, hholds, hbefore, hafter⟩ := h
  obtain ⟨hskew, hgap0, hskew2, htries, hlifetime⟩ := hbudget
  have hstep : ((missed : Int) + 1) * gap ≤ count * gap := by
    exact Int.mul_le_mul_of_nonneg_right (by omega) hgap0
  have hnext : ((missed : Int) + 1) * gap = missed * gap + gap := by ring
  -- a certificate issued in the turn is good for long enough
  have hissued : ∀ n, HoldsNewCert cfg host key skew t.now (t.leaves cfg d) →
      Since cfg host key skew gap t.now n (t.leaves cfg d) := by
    rintro n ⟨utcNow, hearly, hlate, hnew⟩
    have hn : 0 ≤ (n : Int) * gap := Int.mul_nonneg (by omega) hgap0
    exact ⟨_, _, hnew, by omega, by omega⟩
  obtain ⟨hturn, hrenews⟩ := hholds.turn hlaws hhonest
  constructor
  · rcases hturn with hsame | hnew
    · refine ⟨notBefore, notAfter, hsame, by omega, ?_⟩
      push_cast
      omega
    · exact hissued _ hnew
  · intro hclean
    by_cases hwindow : notAfter - t.now ≤ renewBefore
    · exact hissued 0 (hrenews hclean (by omega) (by omega) (by omega) hwindow)
    · rcases hturn with hsame | hnew
      · exact ⟨notBefore, notAfter, hsame, by omega, by push_cast; omega⟩
      · exact hissued 0 hnew

/-- A run of turns, after some that were not clean. -/
theorem Since.run {turns : List Turn} {last : Int} (missed : List Turn) {d : Disk String}
    (h : Since cfg host key skew gap last missed.length d) (hlaws : RenewalLaws L cfg)
    (hbudget : Budget cfg.certTtl skew gap count) (hmissed : ∀ t ∈ missed, ¬ t.Clean host)
    (hoften : OftenClean host count (missed ++ turns))
    (hhonest : ∀ t ∈ turns, t.Honest cfg host key skew) (hpaced : Paced gap last turns) :
    ∃ n < count, Since cfg host key skew gap (lastTurn last turns) n (afterTurns cfg d turns) := by
  induction turns generalizing last missed d with
  | nil => exact ⟨missed.length, hoften.lt_count hmissed, h⟩
  | cons t turns ih =>
      obtain ⟨hlast, hgap, hpaced⟩ := hpaced
      obtain ⟨hnext, hnextClean⟩ := h.turn hlaws hbudget (hoften.lt_count hmissed)
        (hhonest t List.mem_cons_self) hlast hgap
      have hrest : ∀ t' ∈ turns, t'.Honest cfg host key skew :=
        fun t' ht' => hhonest t' (List.mem_cons_of_mem _ ht')
      rw [List.append_cons] at hoften
      by_cases hclean : t.Clean host
      · exact ih [] (hnextClean hclean) (by simp) hoften.of_append.2 hrest hpaced
      · refine ih (missed ++ [t]) (by simpa using hnext) ?_ hoften hrest hpaced
        intro t' ht'
        rcases List.mem_append.mp ht' with hold | hnew
        · exact hmissed t' hold
        · rw [List.mem_singleton.mp hnew]
          exact hclean

end Runs

theorem Paced.of_append {gap last : Int} {front back : List Turn}
    (h : Paced gap last (front ++ back)) : Paced gap last front := by
  induction front generalizing last with
  | nil => trivial
  | cons t front ih => exact ⟨h.1, h.2.1, ih h.2.2⟩

end System
end OpenSsmAgent
