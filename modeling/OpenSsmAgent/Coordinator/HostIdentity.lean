import OpenSsmAgent.Coordinator.Enrollment
import OpenSsmAgent.Lib.Logs

/-!
# One identity, one key

Every certificate issued for a host carries the identity of the host and the key of
the enrollment that created it.  A renewal starts from a presented certificate, so
the claim is one about whole runs: whatever carries a signature of the CA is the
root, a server certificate, a hello, or a certificate the run has already issued.

Main results:

- Theorem {lit}`signed_cert_names`: what a certificate with a signature of the CA can
  stand for.
- Theorem {lit}`IdentityInv.step`: one step of the deployment.
- Theorem {lit}`one_identity_one_key`: the certificates of every run.
-/

open Framing SymbolicCrypto Journal Fallible

namespace OpenSsmAgent
namespace Coordinator

open Domain Hs

/-! ## What the log says about identities -/

/-- The host certificates issued. -/
def hostCerts (log : EnrollLog) : List (HostId × IssuedCert) :=
  log.filterMap (fun
    | (_, .enrolled _ host _ cert) => some (host, cert)
    | (_, .renewed host _ cert) => some (host, cert)
    | _ => none)

/-- The hosts enrolled, with the keys of their requests. -/
def enrolledKeys (log : EnrollLog) : List (HostId × VerifyingKey) :=
  log.filterMap (fun
    | (_, .enrolled _ host _ cert) => some (host, cert.publicKey.key)
    | _ => none)

/-- The server certificates issued. -/
def serverCerts (log : EnrollLog) : List IssuedCert :=
  log.filterMap (fun
    | (_, .server cert) => some cert
    | _ => none)

/-- The hosts revoked. -/
def revokedHosts (log : EnrollLog) : List HostId :=
  log.filterMap (fun
    | (_, .revoked host) => some host
    | _ => none)

/-- The request proves possession of the key the host was enrolled with. -/
def Proven (parse : CsrFromDer) (log : EnrollLog) (host : HostId) (csr : Blob) : Prop :=
  ∃ req, parse csr.bytes = .ok req ∧ req.Possessed ∧ (host, req.publicKey.key) ∈ enrolledKeys log

/-- Why an act was in order: an enrollment and a renewal are for a request whose key was
proven, a renewal for the key of the host and after its call passed the revocation
check, and that check was passed by a host that was not revoked. -/
def ActJustified (parse : CsrFromDer) (front : EnrollLog) : Option Nat × EnrollAct → Prop
  | (_, .enrolled _ _ csr cert) =>
      ∃ req, parse csr.bytes = .ok req ∧ req.Possessed ∧ cert.publicKey = req.publicKey
  | (id, .renewed host csr _) =>
      Proven parse front host csr ∧ (id, .cleared host) ∈ front
  | (_, .cleared host) => host ∉ revokedHosts front
  | _ => True

section Assumptions

variable {fromDer : FromDer}

/-- What the CA has put its signature on: its root, the certificates issued so far, and
its hellos. -/
def SignedByCa (ca : EmbeddedCa fromDer) (log : EnrollLog) (tbs : Bytes) : Prop :=
  tbs = ca.root.tbs ∨
    (∃ issued cert, (issued ∈ serverCerts log ∨ ∃ host, (host, issued) ∈ hostCerts log) ∧
      fromDer issued.der.bytes = some cert ∧ cert.tbs = tbs) ∨
    ∃ sid clientEph serverEph, tbs = serverTranscript sid clientEph serverEph

/-- Signatures of the CA are not forged: a certificate that verifies under its key
carries something the CA has signed. -/
def Unforged (ca : EmbeddedCa fromDer) (log : EnrollLog) (der : Blob) : Prop :=
  ∀ cert form, fromDer der.bytes = some cert → cert.signature = .signed ca.key cert.tbs form →
    SignedByCa ca log cert.tbs

/-- No certificate presented for a renewal is forged. -/
def UnforgedRun (cfg : EnrollConfig fromDer) (s : Enrollment) (log : EnrollLog) :
    List EnrollEvent → Prop
  | [] => True
  | ev :: events =>
      (∀ now utcNow currentCert csr, ev = .request now utcNow (.renew currentCert csr) →
        Unforged cfg.ca log currentCert) ∧
      UnforgedRun cfg (enrollStep cfg s ev).1 (log ++ (enrollStep cfg s ev).2) events

/-- The certificate parser: what it reads is in what is signed, which is a DER
sequence. -/
structure ParserLaws (fromDer : FromDer) : Prop where
  tbs : ReadsTbs fromDer
  sequence : ReadsSequence fromDer

/-- The certificates of a run are read back as they were written, the root too. -/
structure WriterLaws (ca : EmbeddedCa fromDer) (log : EnrollLog) : Prop where
  root : ∃ now, ReadsBack fromDer ca.key ⟨caParams now, .ec ca.key.verifyingKey, ca.certDer⟩
  server : ∀ cert ∈ serverCerts log, ReadsBack fromDer ca.key cert
  host : ∀ host cert, (host, cert) ∈ hostCerts log → ReadsBack fromDer ca.key cert

end Assumptions

section Logs

variable {log log' : EnrollLog}

theorem hostCerts_append : hostCerts (log ++ log') = hostCerts log ++ hostCerts log' :=
  List.filterMap_append

theorem enrolledKeys_append : enrolledKeys (log ++ log') = enrolledKeys log ++ enrolledKeys log' :=
  List.filterMap_append

theorem serverCerts_append : serverCerts (log ++ log') = serverCerts log ++ serverCerts log' :=
  List.filterMap_append

theorem revokedHosts_append : revokedHosts (log ++ log') = revokedHosts log ++ revokedHosts log' :=
  List.filterMap_append

/-- The laws hold of the front of a log. -/
theorem WriterLaws.of_append {fromDer : FromDer} {ca : EmbeddedCa fromDer}
    (h : WriterLaws ca (log ++ log')) : WriterLaws ca log where
  root := h.root
  server cert hcert := h.server cert (by
    rw [serverCerts_append]
    exact List.mem_append_left _ hcert)
  host host cert hcert := h.host host cert (by
    rw [hostCerts_append]
    exact List.mem_append_left _ hcert)

end Logs

/-! ## What a signature of the CA can stand for -/

/-- A certificate as issued for a host. -/
def IssuedFor (certTtl : Int) (host : HostId) (cert : IssuedCert) : Prop :=
  ∃ now, cert.params = hostParams certTtl now host (hostSanUri host)

section Names

variable {fromDer : FromDer} {ca : EmbeddedCa fromDer} {log : EnrollLog} {cert : Certificate}

/-- Only a URI names a host. -/
theorem hostIdFromCert_of_names {names : List GeneralName} {host : HostId}
    (hnames : cert.subjectAlternativeName = some names) (h : hostIdFromCert cert = .ok host) :
    ∃ text, firstUri names = some text ∧ hostOfSan text = some host := by
  unfold hostIdFromCert at h
  rw [hnames] at h
  dsimp only at h
  split at h
  · cases h
  rename_i text htext
  split at h
  · cases h
  rename_i host' hhost
  cases h
  exact ⟨text, htext, hhost⟩

/-- DNS names hold no URI. -/
theorem firstUri_dnsNames (dnsNames : List String) :
    firstUri (dnsNames.map fun _ => GeneralName.other) = none := by
  induction dnsNames with
  | nil => rfl
  | cons name dnsNames ih => exact ih

/-- The root names no host. -/
theorem hostIdFromCert_root (hroot : cert.subjectAlternativeName = none) (host : HostId) :
    hostIdFromCert cert ≠ .ok host := by
  unfold hostIdFromCert
  rw [hroot]
  exact nofun

/-- A server certificate names no host. -/
theorem hostIdFromCert_server {certTtl now : Int} {dnsNames : List String}
    (hnames : cert.subjectAlternativeName = (serverParams certTtl now dnsNames).readNames)
    (host : HostId) : hostIdFromCert cert ≠ .ok host := by
  unfold CertificateParams.readNames at hnames
  split at hnames
  · exact hostIdFromCert_root hnames host
  · intro h
    obtain ⟨text, htext, -⟩ := hostIdFromCert_of_names hnames h
    rw [serverParams, List.map_map] at htext
    exact absurd (htext.symm.trans (firstUri_dnsNames dnsNames)) nofun

/-- A host certificate names its host. -/
theorem hostIdFromCert_host {certTtl now : Int} {host host' : HostId}
    (hnames : cert.subjectAlternativeName =
      (hostParams certTtl now host (hostSanUri host)).readNames)
    (h : hostIdFromCert cert = .ok host') : host' = host := by
  obtain ⟨text, htext, hhost⟩ := hostIdFromCert_of_names hnames h
  obtain rfl : hostSanUri host = text := Option.some.inj htext
  rw [hostOfSan_hostSanUri] at hhost
  exact (Option.some.inj hhost).symm

/-- A transcript starts with a letter. -/
theorem serverTranscript_head (sid : Bytes) (clientEph serverEph : Point) :
    (serverTranscript sid clientEph serverEph).head? = some 0x6f := by
  rfl

/-- A certificate that carries something the CA has signed and names a host carries what is
signed in one that was issued for that host, with its key. -/
theorem signed_cert_names {certTtl : Int} {der : Bytes} {host : HostId}
    (hparser : ParserLaws fromDer) (hwriter : WriterLaws ca log)
    (hserver : ∀ issued ∈ serverCerts log, ∃ now dnsNames,
      issued.params = serverParams certTtl now dnsNames)
    (hissued : ∀ host issued, (host, issued) ∈ hostCerts log → IssuedFor certTtl host issued)
    (hcert : fromDer der = some cert) (hsigned : SignedByCa ca log cert.tbs)
    (hhost : hostIdFromCert cert = .ok host) :
    ∃ issued cert', (host, issued) ∈ hostCerts log ∧ fromDer issued.der.bytes = some cert' ∧
      cert.tbs = cert'.tbs ∧ cert.publicKey = issued.publicKey ∧
      cert'.notAfter = issued.params.notAfter := by
  rcases hsigned with hroot | ⟨issued, cert', hkind, hcert', htbs⟩ | ⟨sid, p, q, htbs⟩
  · obtain ⟨now, root, form, hparse, -, hnames, -⟩ := hwriter.root
    obtain rfl := Option.some.inj (ca.parses.symm.trans hparse)
    have hsan := (hparser.tbs _ _ _ _ hcert ca.parses hroot).1
    exact absurd hhost (hostIdFromCert_root (hsan.trans hnames) host)
  · obtain ⟨hsan, hkey⟩ := hparser.tbs _ _ _ _ hcert hcert' htbs.symm
    rcases hkind with hkind | ⟨owner, hkind⟩
    · obtain ⟨now, dnsNames, hparams⟩ := hserver issued hkind
      obtain ⟨cert'', form, hparse, -, hnames, -⟩ := hwriter.server issued hkind
      obtain rfl := Option.some.inj (hcert'.symm.trans hparse)
      rw [hparams] at hnames
      exact absurd hhost (hostIdFromCert_server (hsan.trans hnames) host)
    · obtain ⟨now, hparams⟩ := hissued owner issued hkind
      obtain ⟨cert'', form, hparse, -, hnames, hpublic, -, hnotAfter⟩ :=
        hwriter.host owner issued hkind
      obtain rfl := Option.some.inj (hcert'.symm.trans hparse)
      rw [hparams] at hnames
      obtain rfl := hostIdFromCert_host (hsan.trans hnames) hhost
      exact ⟨issued, cert', hkind, hcert', htbs.symm, hkey.trans hpublic, hnotAfter⟩
  · have hhead := hparser.sequence _ _ hcert
    rw [htbs, serverTranscript_head] at hhead
    exact absurd hhead (by decide)

end Names

/-! ## What a step does to identities -/

/-- Whether an act concerns identities. -/
def EnrollAct.isIdentity : EnrollAct → Bool
  | .enrolled _ _ _ _ | .renewed _ _ _ | .cleared _ | .revoked _ | .server _ => true
  | _ => false

/-- Whether a call is a validated renewal. -/
def EnrollCall.renews : EnrollCall → Bool
  | .checking _ _ | .reissuing _ _ => true
  | _ => false

/-- What a step of a call does to identities. -/
inductive CallStep {fromDer : FromDer} (cfg : EnrollConfig fromDer) (revoked : List HostId)
    (call : EnrollCall) : List HostId × EnrollCall × List EnrollAct → Prop
  | quiet {call' : EnrollCall} {acts : List EnrollAct} (hcall : call'.renews = false)
      (hacts : ∀ act ∈ acts, act.isIdentity = false) :
      CallStep cfg revoked call (revoked, call', acts)
  | enrolled {token : Str} {csr : Blob} {host : HostId} {cert : IssuedCert} {reply : EnrollReply}
      {now : Int} {signed : Except String Blob}
      (hissue : issue cfg.parseCsr cfg.certTtl now host csr signed = .ok cert) :
      CallStep cfg revoked call
        (revoked, .finished, [.enrolled token host csr cert, .replied reply])
  | cleared {host : HostId} {csr : Blob} (hcall : call = .checking host csr)
      (hfree : host ∉ revoked) :
      CallStep cfg revoked call (revoked, .reissuing host csr, [.cleared host])
  | renewed {host : HostId} {csr : Blob} {cert : IssuedCert} {reply : EnrollReply} {now : Int}
      {signed : Except String Blob} (hcall : call = .reissuing host csr)
      (hissue : issue cfg.parseCsr cfg.certTtl now host csr signed = .ok cert) :
      CallStep cfg revoked call (revoked, .finished, [.renewed host csr cert, .replied reply])
  | revoked {host : HostId} {reply : EnrollReply} :
      CallStep cfg revoked call
        (host :: revoked, .finished, [.revoked host, .replied reply])

section Calls

variable {fromDer : FromDer} (cfg : EnrollConfig fromDer) (env : EnrollEnv)

/-- A reply issues nothing. -/
theorem quiet_replyWith (reply : EnrollReply) :
    (replyWith reply).1.renews = false ∧ ∀ act ∈ (replyWith reply).2, act.isIdentity = false :=
  ⟨rfl, by simp [replyWith, EnrollAct.isIdentity]⟩

/-- Nor does a redemption. -/
theorem quiet_decided (who : Redeemer) (now : Int) (result : Except RedeemError Unit) :
    (who.decided now result).1.renews = false ∧
      ∀ act ∈ (who.decided now result).2, act.isIdentity = false := by
  obtain ⟨token, _ | csr⟩ := who <;> rcases result with e | ⟨⟩ <;>
    exact ⟨rfl, by simp [Redeemer.decided, replyWith, EnrollAct.isIdentity]⟩

/-- Steps on the token store do not concern identities. -/
theorem JoinTokens.step_quiet (tokens : JoinTokens) (call : EnrollCall)
    (hcall : call.onTokens = true) :
    (tokens.step cfg env call).2.1.renews = false ∧
      ∀ act ∈ (tokens.step cfg env call).2.2, act.isIdentity = false := by
  have hnone : ∀ act ∈ ([] : List EnrollAct), act.isIdentity = false := by simp
  have hidle : call.renews = false ∧ ∀ act ∈ ([] : List EnrollAct), act.isIdentity = false := by
    refine ⟨?_, hnone⟩
    cases call <;> first | rfl | cases hcall
  cases tokens <;> cases call <;> first
    | exact hidle
    | exact quiet_decided _ _ _
    | skip
  all_goals simp only [JoinTokens.step]
  · split
    · exact ⟨rfl, by simp [EnrollAct.isIdentity]⟩
    · exact quiet_replyWith _
    · exact quiet_replyWith _
  · split
    · exact quiet_replyWith _
    · exact ⟨rfl, hnone⟩
  · split
    · exact quiet_replyWith _
    · split
      · exact quiet_replyWith _
      · exact ⟨rfl, hnone⟩
  · split
    · exact quiet_replyWith _
    · refine ⟨rfl, ?_⟩
      dsimp only
      split <;> simp [EnrollAct.isIdentity]
  · split
    · exact quiet_decided _ _ _
    · split
      · exact quiet_decided _ _ _
      · exact ⟨rfl, hnone⟩

/-- What a step of another call does. -/
theorem EnrollCall.step_callStep (revoked : List HostId) (call : EnrollCall)
    (hcall : call.onTokens = false) : CallStep cfg revoked call (call.step cfg env revoked) := by
  have hreply : ∀ reply, CallStep cfg revoked call (revoked, replyWith reply) :=
    fun reply => .quiet (quiet_replyWith reply).1 (quiet_replyWith reply).2
  cases call with
  | signing token csr =>
      simp only [EnrollCall.step]
      split
      · exact hreply _
      · exact hreply _
      · rename_i cert hissue
        exact .enrolled hissue
  | checking host csr =>
      simp only [EnrollCall.step, CallFate.statement]
      cases env.fate with
      | lost message => exact hreply _
      | failed message => exact hreply _
      | answered =>
          by_cases hrevoked : host ∈ revoked
          · simp only [hrevoked, decide_true]
            exact hreply _
          · simp only [hrevoked, decide_false]
            exact .cleared rfl hrevoked
  | reissuing host csr =>
      simp only [EnrollCall.step]
      split
      · exact hreply _
      · rename_i cert hissue
        exact .renewed rfl hissue
  | revoking host =>
      simp only [EnrollCall.step, CallFate.statement]
      cases env.fate with
      | lost message => exact .revoked
      | failed message => exact .quiet rfl (by simp [CallFate.ran, EnrollAct.isIdentity])
      | answered => exact .revoked
  | finished => exact .quiet rfl nofun
  | _ => cases hcall

/-- A request arrives: nothing that concerns identities, or a validated renewal. -/
theorem begin_identity (tokens : JoinTokens) (now : SystemTime) (utcNow : Int)
    (req : EnrollRequest) :
    (∀ act ∈ (req.begin cfg tokens now utcNow).2, act.isIdentity = false) ∧
      ((req.begin cfg tokens now utcNow).1.renews = false ∨
        ∃ host currentCert csr, req = .renew currentCert csr ∧
          (req.begin cfg tokens now utcNow).1 = .checking host csr ∧
          cfg.ca.validateRenewal cfg.parseCsr utcNow currentCert csr = .ok host) := by
  have hreply : ∀ reply, (∀ act ∈ (replyWith reply).2, act.isIdentity = false) ∧
      ((replyWith reply).1.renews = false) :=
    fun reply => ⟨(quiet_replyWith reply).2, (quiet_replyWith reply).1⟩
  have hnone : ∀ act ∈ ([] : List EnrollAct), act.isIdentity = false := by simp
  cases req with
  | mint ttlSeconds => cases tokens <;> exact ⟨hnone, .inl rfl⟩
  | redeem token => cases tokens <;> exact ⟨hnone, .inl rfl⟩
  | enroll joinToken csr =>
      simp only [EnrollRequest.begin]
      split
      · exact ⟨(hreply _).1, .inl (hreply _).2⟩
      · cases tokens <;> exact ⟨hnone, .inl rfl⟩
  | renew currentCert csr =>
      simp only [EnrollRequest.begin]
      split
      · exact ⟨(hreply _).1, .inl (hreply _).2⟩
      · exact ⟨(hreply _).1, .inl (hreply _).2⟩
      · rename_i host hvalid
        exact ⟨hnone, .inr ⟨host, currentCert, csr, rfl, rfl, hvalid⟩⟩
  | revoke hostId =>
      simp only [EnrollRequest.begin]
      split
      · exact ⟨(hreply _).1, .inl (hreply _).2⟩
      · exact ⟨hnone, .inl rfl⟩

end Calls

/-! ## The deployment -/

/-- What is known of a call that renews. -/
def RenewalOk (parse : CsrFromDer) (log : EnrollLog) (id : Nat) : EnrollCall → Prop
  | .checking host csr => Proven parse log host csr
  | .reissuing host csr => Proven parse log host csr ∧ (some id, .cleared host) ∈ log
  | _ => True

/-- The deployment fits its log. -/
structure IdentityInv {fromDer : FromDer} (cfg : EnrollConfig fromDer) (s : Enrollment)
    (log : EnrollLog) : Prop where
  issued : ∀ host cert, (host, cert) ∈ hostCerts log →
    IssuedFor cfg.certTtl host cert ∧ (host, cert.publicKey.key) ∈ enrolledKeys log
  server : ∀ cert ∈ serverCerts log, ∃ now dnsNames,
    cert.params = serverParams cfg.certTtl now dnsNames
  revoked : ∀ host, host ∈ s.revoked ↔ host ∈ revokedHosts log
  calls : ∀ id call, s.calls.lookup id = some call → RenewalOk cfg.parseCsr log id call
  justified : Justified (ActJustified cfg.parseCsr) log

section Inv

variable {fromDer : FromDer} {cfg : EnrollConfig fromDer} {s : Enrollment} {log new : EnrollLog}
  {id : Nat} {call : EnrollCall}

/-- A proof of possession stays. -/
theorem Proven.append {host : HostId} {csr : Blob} (h : Proven cfg.parseCsr log host csr)
    (new : EnrollLog) : Proven cfg.parseCsr (log ++ new) host csr := by
  obtain ⟨req, hparse, hpossessed, hkey⟩ := h
  refine ⟨req, hparse, hpossessed, ?_⟩
  rw [enrolledKeys_append]
  exact List.mem_append_left _ hkey

/-- A renewal stays in order. -/
theorem RenewalOk.append (h : RenewalOk cfg.parseCsr log id call) (new : EnrollLog) :
    RenewalOk cfg.parseCsr (log ++ new) id call := by
  cases call with
  | checking host csr => exact Proven.append h new
  | reissuing host csr => exact ⟨h.1.append new, List.mem_append_left _ h.2⟩
  | _ => trivial

/-- Other calls renew nothing. -/
theorem renewalOk_of_not_renews (h : call.renews = false) : RenewalOk cfg.parseCsr log id call := by
  cases call <;> trivial

/-- Acts that do not concern identities. -/
theorem quiet_log {acts : List EnrollAct} (h : ∀ act ∈ acts, act.isIdentity = false)
    (id : Option Nat) :
    hostCerts (acts.map (Prod.mk id)) = [] ∧ serverCerts (acts.map (Prod.mk id)) = [] ∧
      revokedHosts (acts.map (Prod.mk id)) = [] := by
  refine ⟨?_, ?_, ?_⟩ <;> refine List.filterMap_eq_nil_iff.mpr ?_ <;> intro entry hentry <;>
    obtain ⟨act, hact, rfl⟩ := List.mem_map.mp hentry <;>
    have hquiet := h act hact <;> cases act <;> first | rfl | cases hquiet

/-- Other acts need no reason. -/
theorem ActJustified.of_quiet {parse : CsrFromDer} {act : EnrollAct} (h : act.isIdentity = false)
    (front : EnrollLog) (id : Option Nat) : ActJustified parse front (id, act) := by
  cases act <;> trivial

/-- The deployment moves, and what the step adds to the log is in order. -/
theorem IdentityInv.extend (h : IdentityInv cfg s log) {s' : Enrollment}
    (hissued : ∀ host cert, (host, cert) ∈ hostCerts new →
      IssuedFor cfg.certTtl host cert ∧ (host, cert.publicKey.key) ∈ enrolledKeys (log ++ new))
    (hserver : ∀ cert ∈ serverCerts new, ∃ now dnsNames,
      cert.params = serverParams cfg.certTtl now dnsNames)
    (hrevoked : ∀ host, host ∈ s'.revoked ↔ host ∈ s.revoked ∨ host ∈ revokedHosts new)
    (hcalls : ∀ id call, s'.calls.lookup id = some call →
      s.calls.lookup id = some call ∨ RenewalOk cfg.parseCsr (log ++ new) id call)
    (hjustified : Justified (ActJustified cfg.parseCsr) (log ++ new)) :
    IdentityInv cfg s' (log ++ new) where
  issued host cert hcert := by
    rw [hostCerts_append, List.mem_append] at hcert
    rcases hcert with hcert | hcert
    · obtain ⟨hfor, hkey⟩ := h.issued host cert hcert
      refine ⟨hfor, ?_⟩
      rw [enrolledKeys_append]
      exact List.mem_append_left _ hkey
    · exact hissued host cert hcert
  server cert hcert := by
    rw [serverCerts_append, List.mem_append] at hcert
    exact hcert.elim (h.server cert) (hserver cert)
  revoked host := by
    rw [hrevoked host, h.revoked host, revokedHosts_append, List.mem_append]
  calls id call hcall := by
    rcases hcalls id call hcall with hold | hok
    · exact (h.calls id call hold).append new
    · exact hok
  justified := hjustified

/-- A call moves on. -/
theorem lookup_put_or {id' : Nat} {call' : EnrollCall}
    (h : (s.calls.put id call).lookup id' = some call') :
    s.calls.lookup id' = some call' ∨ id' = id ∧ call' = call := by
  by_cases heq : id' = id
  · subst heq
    rw [Table.lookup_put_self] at h
    exact .inr ⟨rfl, (Option.some.inj h).symm⟩
  · rw [Table.lookup_put_ne _ _ heq] at h
    exact .inl h

/-- A call moves on and does nothing that concerns identities. -/
theorem IdentityInv.quiet (h : IdentityInv cfg s log) {acts : List EnrollAct} {tokens : JoinTokens}
    {next : Nat} (hacts : ∀ act ∈ acts, act.isIdentity = false)
    (hcall : RenewalOk cfg.parseCsr log id call) (entry : Option Nat) :
    IdentityInv cfg ⟨tokens, s.revoked, s.calls.put id call, next⟩
      (log ++ acts.map (Prod.mk entry)) := by
  obtain ⟨hcerts, hservers, hrevoked⟩ := quiet_log hacts entry
  refine h.extend ?_ ?_ ?_ ?_ ?_
  · rw [hcerts]
    exact nofun
  · rw [hservers]
    exact nofun
  · rw [hrevoked]
    simp
  · intro id' call' hlookup
    rcases lookup_put_or hlookup with hold | ⟨rfl, rfl⟩
    · exact .inl hold
    · exact .inr (hcall.append _)
  · refine h.justified.append_free ?_
    rintro entry' hentry front
    obtain ⟨act, hact, rfl⟩ := List.mem_map.mp hentry
    exact .of_quiet (hacts act hact) front entry

/-- A call issues, clears or revokes. -/
theorem IdentityInv.callStep (h : IdentityInv cfg s log)
    {out : List HostId × EnrollCall × List EnrollAct} (hpossession : ChecksPossession cfg.parseCsr)
    (hcall : s.calls.lookup id = some call) (hstep : CallStep cfg s.revoked call out) :
    IdentityInv cfg { s with revoked := out.1, calls := s.calls.put id out.2.1 }
      (log ++ out.2.2.map (Prod.mk (some id))) := by
  -- the call is over
  have hover : ∀ (new : EnrollLog) id' call', (s.calls.put id .finished).lookup id' = some call' →
      s.calls.lookup id' = some call' ∨ RenewalOk cfg.parseCsr (log ++ new) id' call' := by
    intro new id' call' hlookup
    rcases lookup_put_or hlookup with hold | ⟨rfl, rfl⟩
    · exact .inl hold
    · exact .inr trivial
  have hreply : ∀ reply front, ActJustified cfg.parseCsr front (some id, .replied reply) :=
    fun _ _ => trivial
  cases hstep with
  | quiet hrenews hacts => exact h.quiet hacts (renewalOk_of_not_renews hrenews) (some id)
  | @enrolled token csr host cert reply now signed hissue =>
      obtain ⟨req, hparse, -, hparams, hkey⟩ := issue_eq_ok hissue
      refine h.extend ?_ nofun ?_ (hover _) ?_
      · rintro host' cert' hmem
        obtain ⟨rfl, rfl⟩ := Prod.mk.inj (List.mem_singleton.mp hmem)
        refine ⟨⟨now, hparams⟩, ?_⟩
        rw [enrolledKeys_append]
        exact List.mem_append_right _ List.mem_cons_self
      · simp [revokedHosts]
      · rw [List.map_cons, List.append_cons]
        refine (h.justified.snoc ?_).append_free ?_
        · exact ⟨req, hparse, hpossession _ _ hparse, hkey⟩
        · rintro entry hentry front
          rw [List.mem_singleton.mp hentry]
          exact hreply reply front
  | @cleared host csr hchecking hfree =>
      subst hchecking
      have hproven := h.calls id _ hcall
      refine h.extend nofun nofun ?_ ?_ ?_
      · simp [revokedHosts]
      · intro id' call' hlookup
        rcases lookup_put_or hlookup with hold | ⟨rfl, rfl⟩
        · exact .inl hold
        · exact .inr ⟨Proven.append hproven _, List.mem_append_right _ List.mem_cons_self⟩
      · refine h.justified.snoc ?_
        exact fun hmem => hfree ((h.revoked host).mpr hmem)
  | @renewed host csr cert reply now signed hreissuing hissue =>
      subst hreissuing
      obtain ⟨⟨req, hparse, hpossessed, hkey⟩, hcleared⟩ := h.calls id _ hcall
      obtain ⟨req', hparse', -, hparams, hpublic⟩ := issue_eq_ok hissue
      obtain rfl := Except.ok.inj (hparse.symm.trans hparse')
      refine h.extend ?_ nofun ?_ (hover _) ?_
      · rintro host' cert' hmem
        obtain ⟨rfl, rfl⟩ := Prod.mk.inj (List.mem_singleton.mp hmem)
        refine ⟨⟨now, hparams⟩, ?_⟩
        rw [enrolledKeys_append, hpublic]
        exact List.mem_append_left _ hkey
      · simp [revokedHosts]
      · rw [List.map_cons, List.append_cons]
        refine (h.justified.snoc ?_).append_free ?_
        · exact ⟨⟨req, hparse, hpossessed, hkey⟩, hcleared⟩
        · rintro entry hentry front
          rw [List.mem_singleton.mp hentry]
          exact hreply reply front
  | @revoked host reply =>
      refine h.extend nofun nofun ?_ (hover _) ?_
      · intro host'
        rw [List.mem_cons, or_comm]
        simp [revokedHosts]
      · refine h.justified.append_free ?_
        rintro entry hentry front
        rcases List.mem_pair.mp hentry with rfl | rfl <;> trivial

/-- One step of the deployment. -/
theorem IdentityInv.step (h : IdentityInv cfg s log) (hpossession : ChecksPossession cfg.parseCsr)
    (hparser : ParserLaws fromDer) (hwriter : WriterLaws cfg.ca log) (ev : EnrollEvent)
    (hunforged : ∀ now utcNow currentCert csr, ev = .request now utcNow (.renew currentCert csr) →
      Unforged cfg.ca log currentCert) :
    IdentityInv cfg (enrollStep cfg s ev).1 (log ++ (enrollStep cfg s ev).2) := by
  cases ev with
  | request now utcNow req =>
      obtain ⟨hacts, hcall⟩ := begin_identity cfg s.tokens now utcNow req
      refine h.quiet hacts ?_ (some s.next)
      rcases hcall with hcall | ⟨host, currentCert, csr, rfl, hchecking, hvalid⟩
      · exact renewalOk_of_not_renews hcall
      · rw [hchecking]
        obtain ⟨cert, req, hcert, hparse, ⟨form, hsigned⟩, hhost, hkey⟩ :=
          EmbeddedCa.validateRenewal_eq_ok hvalid
        obtain ⟨issued, -, hissued, -, -, hpublic, -⟩ := signed_cert_names hparser hwriter h.server
          (fun host issued hmem => (h.issued host issued hmem).1) hcert
          (hunforged _ _ _ _ rfl cert form hcert hsigned) hhost
        refine ⟨req, hparse, hpossession _ _ hparse, ?_⟩
        rw [hkey, hpublic]
        exact (h.issued host issued hissued).2
  | step id env =>
      simp only [enrollStep]
      split
      · rw [List.append_nil]
        exact h
      rename_i call hcall
      split
      · rename_i hon
        obtain ⟨hrenews, hacts⟩ := JoinTokens.step_quiet cfg env s.tokens call hon
        exact h.quiet hacts (renewalOk_of_not_renews hrenews) (some id)
      · rename_i hoff
        exact h.callStep hpossession hcall
          (EnrollCall.step_callStep cfg env s.revoked call (Bool.not_eq_true _ ▸ hoff))
  | server utcNow dnsNames key signed =>
      simp only [enrollStep]
      split
      · rw [List.append_nil]
        exact h
      · rename_i cert hcert
        refine h.extend (fun _ _ hcert => by cases hcert) ?_ ?_ (fun id call hcall => .inl hcall) ?_
        · rintro cert' hmem
          rw [List.mem_singleton.mp hmem]
          exact ⟨utcNow, dnsNames, issueServerCert_eq_ok hcert⟩
        · simp [revokedHosts]
        · refine h.justified.append_free ?_
          rintro entry hentry front
          rw [List.mem_singleton.mp hentry]
          trivial

/-- Runs keep the invariant. -/
theorem IdentityInv.run (h : IdentityInv cfg s log) (hpossession : ChecksPossession cfg.parseCsr)
    (hparser : ParserLaws fromDer) (events : List EnrollEvent)
    (hwriter : WriterLaws cfg.ca (log ++ (enrollRun cfg s events).2))
    (hunforged : UnforgedRun cfg s log events) :
    IdentityInv cfg (enrollRun cfg s events).1 (log ++ (enrollRun cfg s events).2) := by
  induction events generalizing s log with
  | nil =>
      rw [enrollRun, List.append_nil]
      exact h
  | cons ev events ih =>
      obtain ⟨hev, hrest⟩ := hunforged
      have hhere := h.step hpossession hparser hwriter.of_append ev hev
      rw [enrollRun, ← List.append_assoc] at hwriter ⊢
      exact ih hhere hwriter hrest

/-- Nothing is issued at the start. -/
theorem IdentityInv.start (cfg : EnrollConfig fromDer) (tokens : JoinTokens) :
    IdentityInv cfg (Enrollment.new tokens) [] where
  issued := nofun
  server := nofun
  revoked host := by simp [Enrollment.new, revokedHosts]
  calls id call hcall := by
    rw [Enrollment.new, Table.lookup_empty] at hcall
    cases hcall
  justified := justified_nil

end Inv

/-! ## One key -/

/-- The certificates of a run: their subjects and usages, the key of each host, and what
verification makes of them. -/
structure OneKey {fromDer : FromDer} (cfg : EnrollConfig fromDer) (log : EnrollLog) : Prop where
  names : ∀ host cert, (host, cert) ∈ hostCerts log →
    cert.params.subjectAltNames = [.uri (hostSanUri host)] ∧
    cert.params.distinguishedName = [(.commonName, host.toStr.text),
      (.organizationName, Topics.tenant host.toStr.text)]
  usages : ∀ host cert, (host, cert) ∈ hostCerts log →
    cert.params.isCa = .explicitNoCa ∧ cert.params.keyUsages = [.digitalSignature] ∧
    cert.params.extendedKeyUsages = [.clientAuth]
  key : ∀ host cert, (host, cert) ∈ hostCerts log →
    (host, cert.publicKey.key) ∈ enrolledKeys log
  keyUnique : ∀ host cert cert', (host, cert) ∈ hostCerts log → (host, cert') ∈ hostCerts log →
    cert.publicKey.key = cert'.publicKey.key
  justified : Justified (ActJustified cfg.parseCsr) log
  verified : ∀ host cert, (host, cert) ∈ hostCerts log → ∀ now v,
    cfg.ca.verifyHostCert now cert.der = .ok v →
    v.hostId = host ∧ v.publicKeySec1 = cert.publicKey.key
  presented : ∀ der, Unforged cfg.ca log der → ∀ now v,
    cfg.ca.verifyHostCert now der = .ok v → (v.hostId, v.publicKeySec1) ∈ enrolledKeys log
  root : ∀ now v, cfg.ca.verifyHostCert now cfg.ca.certDer ≠ .ok v
  server : ∀ cert ∈ serverCerts log, ∀ now v, cfg.ca.verifyHostCert now cert.der ≠ .ok v

section OneKey

variable {fromDer : FromDer} {cfg : EnrollConfig fromDer} {s : Enrollment} {log : EnrollLog}

/-- Hosts that were enrolled once have one key. -/
theorem key_unique {keys : List (HostId × VerifyingKey)} (hfresh : (keys.map Prod.fst).Nodup)
    {host : HostId} {key key' : VerifyingKey} (hkey : (host, key) ∈ keys)
    (hkey' : (host, key') ∈ keys) : key = key' :=
  (Prod.mk.inj (List.inj_on_of_nodup_map hfresh hkey hkey' rfl)).2

/-- What is read back off a certificate is what verification works with. -/
theorem ReadsBack.verified {issued : IssuedCert} (h : ReadsBack fromDer cfg.ca.key issued)
    {now : Int} {v : VerifiedHost} (hv : cfg.ca.verifyHostCert now issued.der = .ok v) :
    ∃ cert : Certificate, cert.subjectAlternativeName = issued.params.readNames ∧
      hostIdFromCert cert = .ok v.hostId ∧ issued.publicKey = .ec v.publicKeySec1 := by
  obtain ⟨cert, form, hparse, -, hnames, hkey, -⟩ := h
  obtain ⟨cert', hparse', -, -, hhost, hkey'⟩ := EmbeddedCa.verifyHostCert_eq_ok_iff.mp hv
  obtain rfl := Option.some.inj (hparse.symm.trans hparse')
  exact ⟨cert, hnames, hhost, hkey.symm.trans hkey'⟩

/-- The invariant gives the property. -/
theorem IdentityInv.oneKey (h : IdentityInv cfg s log) (hparser : ParserLaws fromDer)
    (hwriter : WriterLaws cfg.ca log) (hfresh : ((enrolledKeys log).map Prod.fst).Nodup) :
    OneKey cfg log where
  names host cert hcert := by
    obtain ⟨⟨now, hparams⟩, -⟩ := h.issued host cert hcert
    rw [hparams]
    exact ⟨rfl, hostParams_organization _ _ _ _⟩
  usages host cert hcert := by
    obtain ⟨⟨now, hparams⟩, -⟩ := h.issued host cert hcert
    rw [hparams]
    exact ⟨rfl, rfl, rfl⟩
  key host cert hcert := (h.issued host cert hcert).2
  keyUnique host cert cert' hcert hcert' :=
    key_unique hfresh (h.issued host cert hcert).2 (h.issued host cert' hcert').2
  justified := h.justified
  verified host cert hcert now v hv := by
    obtain ⟨⟨t, hparams⟩, -⟩ := h.issued host cert hcert
    obtain ⟨parsed, hnames, hhost, hkey⟩ := (hwriter.host host cert hcert).verified hv
    rw [hparams] at hnames
    refine ⟨hostIdFromCert_host hnames hhost, ?_⟩
    rw [hkey]
    rfl
  presented der hunforged now v hv := by
    obtain ⟨cert, hparse, ⟨form, hsigned⟩, -, hhost, hkey⟩ :=
      EmbeddedCa.verifyHostCert_eq_ok_iff.mp hv
    obtain ⟨issued, -, hissued, -, -, hpublic, -⟩ := signed_cert_names hparser hwriter h.server
      (fun host issued hmem => (h.issued host issued hmem).1) hparse
      (hunforged cert form hparse hsigned) hhost
    have hmem := (h.issued _ issued hissued).2
    rw [← hpublic, hkey] at hmem
    exact hmem
  root now v hv := by
    obtain ⟨t, hread⟩ := hwriter.root
    obtain ⟨parsed, hnames, hhost, -⟩ := hread.verified hv
    exact hostIdFromCert_root hnames _ hhost
  server cert hcert now v hv := by
    obtain ⟨t, dnsNames, hparams⟩ := h.server cert hcert
    obtain ⟨parsed, hnames, hhost, -⟩ := (hwriter.server cert hcert).verified hv
    rw [hparams] at hnames
    exact hostIdFromCert_server hnames _ hhost

end OneKey

/-- In every run of enrollments, renewals and revocations the CA certifies one key for a
host, the one its enrollment proved; and of a request nothing but the key reaches the
certificate. -/
theorem one_identity_one_key {fromDer : FromDer} (cfg : EnrollConfig fromDer)
    (hpossession : ChecksPossession cfg.parseCsr) (hparser : ParserLaws fromDer)
    (tokens : JoinTokens) (events : List EnrollEvent)
    (hwriter : WriterLaws cfg.ca (enrollRun cfg (Enrollment.new tokens) events).2)
    (hunforged : UnforgedRun cfg (Enrollment.new tokens) [] events)
    (hfresh : ((enrolledKeys (enrollRun cfg (Enrollment.new tokens) events).2).map
      Prod.fst).Nodup) :
    OneKey cfg (enrollRun cfg (Enrollment.new tokens) events).2 ∧
      ∀ host csr csr' req req' now signed, cfg.parseCsr csr.bytes = .ok req →
        cfg.parseCsr csr'.bytes = .ok req' → req.publicKey = req'.publicKey →
        issue cfg.parseCsr cfg.certTtl now host csr signed =
          issue cfg.parseCsr cfg.certTtl now host csr' signed := by
  constructor
  · have hrun := (IdentityInv.start cfg tokens).run hpossession hparser events
    rw [List.nil_append] at hrun
    exact (hrun hwriter hunforged).oneKey hparser hwriter hfresh
  · intro host csr csr' req req' now signed hparse hparse' hkey
    simp only [issue, hparse, hparse', hkey]

/-! ## A host enrolls and renews -/

def demoRoot : Certificate where
  tbs := [0x30, 0]
  signature := .signed ⟨0⟩ [0x30, 0] 0
  notBefore := (caParams 0).notBefore
  notAfter := (caParams 0).notAfter
  subjectAlternativeName := none
  publicKey := .ec (.ofKey ⟨0⟩)

/-- A certificate of the sample host with a serial number. -/
def demoCert (serial : UInt8) : Certificate where
  tbs := [0x30, serial]
  signature := .signed ⟨0⟩ [0x30, serial] 0
  notBefore := -300
  notAfter := 100
  subjectAlternativeName := some [.uri (hostSanUri sampleHost)]
  publicKey := .ec (.ofKey ⟨1⟩)

def demoServer : Certificate where
  tbs := [0x30, 3]
  signature := .signed ⟨0⟩ [0x30, 3] 0
  notBefore := -300
  notAfter := 100
  subjectAlternativeName := some [.other]
  publicKey := .ec (.ofKey ⟨2⟩)

/-- The certificates that are ever presented. -/
def demoCerts : List Certificate := [demoRoot, demoCert 1, demoServer, demoCert 4]

/-- A parser that knows them; their encoding is what is signed. -/
def demoDer (der : Bytes) : Option Certificate :=
  demoCerts.find? (fun cert => cert.tbs = der)

def demoBlob (serial : UInt8) : Blob := ⟨[0x30, serial], by simp⟩

def demoCa : EmbeddedCa demoDer where
  certDer := demoBlob 0
  root := demoRoot
  key := ⟨0⟩
  parses := by decide +kernel
  matches_key := rfl

def demoRequest : CertificateSigningRequest where
  tbs := [2]
  signature := .signed ⟨1⟩ [2] 0
  publicKey := .ec (.ofKey ⟨1⟩)
  params := caParams 0

def demoCsr : Blob := .lit [2]

def demoParseCsr (der : Bytes) : Except String CertificateSigningRequest :=
  if der = [2] then .ok demoRequest else .error "unexpected tag"

def demoCfg : EnrollConfig demoDer :=
  ⟨demoCa, demoParseCsr, 100, 3600 * nanosPerSec, 600 * nanosPerSec, defaultMaxOutstanding⟩

/-- A step in which nothing fails and the certificate writer returns a certificate. -/
def demoEnv (serial : UInt8) : EnrollEnv :=
  ⟨.answered, 0, 0, some (.lit (List.replicate 32 0)), sampleHost, .ok (demoBlob serial)⟩

/-- The sample host enrolls, the broker gets its certificate, the host renews. -/
def demoEvents : List EnrollEvent :=
  let token := tokenOf (.lit (List.replicate 32 0))
  [.request 0 0 (.mint 0), .step 0 (demoEnv 1), .request 0 0 (.enroll token demoCsr),
    .step 1 (demoEnv 1), .step 1 (demoEnv 1), .server 0 ["broker"] (.ok ⟨2⟩) (.ok (demoBlob 3)),
    .request 0 0 (.renew (demoBlob 1) demoCsr), .step 2 (demoEnv 4), .step 2 (demoEnv 4)]

def demoLog : EnrollLog := (enrollRun demoCfg (Enrollment.new (.registry ∅)) demoEvents).2

def demoIssued (serial : UInt8) : IssuedCert :=
  ⟨hostParams 100 0 sampleHost (hostSanUri sampleHost), .ec (.ofKey ⟨1⟩), demoBlob serial⟩

theorem demoDer_mem {der : Bytes} {cert : Certificate} (h : demoDer der = some cert) :
    cert ∈ demoCerts :=
  List.mem_of_find?_eq_some h

/-- The reader of the example keeps the laws. -/
theorem demo_parserLaws : ParserLaws demoDer where
  tbs der der' cert cert' hcert hcert' htbs := by
    have hall : ∀ c ∈ demoCerts, ∀ c' ∈ demoCerts, c.tbs = c'.tbs →
        c.subjectAlternativeName = c'.subjectAlternativeName ∧ c.publicKey = c'.publicKey := by
      decide +kernel
    exact hall cert (demoDer_mem hcert) cert' (demoDer_mem hcert') htbs
  sequence der cert hcert := by
    have hall : ∀ c ∈ demoCerts, c.tbs.head? = some 0x30 := by decide +kernel
    exact hall cert (demoDer_mem hcert)

/-- Its request reader checks possession. -/
theorem demo_possession : ChecksPossession demoParseCsr := by
  intro der req hreq
  unfold demoParseCsr at hreq
  split at hreq
  · cases hreq
    rfl
  · cases hreq

/-- An enrollment and a renewal. -/
theorem demo_hostCerts :
    hostCerts demoLog = [(sampleHost, demoIssued 1), (sampleHost, demoIssued 4)] := by
  decide +kernel

/-- The writer keeps the laws. -/
theorem demo_writerLaws : WriterLaws demoCa demoLog where
  root := ⟨0, demoRoot, 0, by decide +kernel, rfl, rfl, rfl, rfl, rfl⟩
  server cert hcert := by
    have hserver : serverCerts demoLog =
        [⟨serverParams 100 0 ["broker"], .ec (.ofKey ⟨2⟩), demoBlob 3⟩] := by
      decide +kernel
    rw [hserver] at hcert
    rw [List.mem_singleton.mp hcert]
    exact ⟨demoServer, 0, by decide +kernel, rfl, rfl, rfl, rfl, rfl⟩
  host host cert hcert := by
    rw [demo_hostCerts] at hcert
    rcases List.mem_pair.mp hcert with heq | heq
    · obtain ⟨-, rfl⟩ := Prod.mk.inj heq
      exact ⟨demoCert 1, 0, by decide +kernel, rfl, rfl, rfl, rfl, rfl⟩
    · obtain ⟨-, rfl⟩ := Prod.mk.inj heq
      exact ⟨demoCert 4, 0, by decide +kernel, rfl, rfl, rfl, rfl, rfl⟩

/-- Nobody forges. -/
theorem demo_unforged : UnforgedRun demoCfg (Enrollment.new (.registry ∅)) [] demoEvents := by
  refine ⟨(by simp), (by simp), (by simp), (by simp), (by simp), (by simp), ?_, (by simp),
    (by simp), trivial⟩
  intro now utcNow currentCert csr hev cert form hcert hsigned
  obtain ⟨rfl, rfl⟩ := EnrollRequest.renew.inj (EnrollEvent.request.inj hev).2.2
  have hone : demoDer (demoBlob 1).bytes = some (demoCert 1) := by decide +kernel
  obtain rfl := Option.some.inj (hone.symm.trans hcert)
  refine .inr (.inl ⟨demoIssued 1, demoCert 1, .inr ⟨sampleHost, ?_⟩, hone, rfl⟩)
  decide +kernel

theorem one_identity_one_key_renewed :
    hostCerts demoLog = [(sampleHost, demoIssued 1), (sampleHost, demoIssued 4)] ∧
      OneKey demoCfg demoLog :=
  ⟨demo_hostCerts, (one_identity_one_key demoCfg demo_possession demo_parserLaws (.registry ∅)
    demoEvents demo_writerLaws demo_unforged (by decide +kernel)).1⟩

end Coordinator
end OpenSsmAgent
