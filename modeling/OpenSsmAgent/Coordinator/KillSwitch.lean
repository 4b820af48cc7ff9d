import OpenSsmAgent.Coordinator.HostIdentity

/-!
# The kill switch

What a revocation achieves, over whole runs of the enrollment service.  Renewal is refused
to a revoked host, so its certificates run out; {lit}`osa-coordinator/src/revocation.rs`
calls this a kill switch bounded by the lifetime of a certificate.  The one exception is a
renewal that passed the revocation check before the revocation and is issued after it.

Main results:

- Theorem {lit}`enrollStep_hostCert`: every way a host certificate is issued, with the clock
  its validity counts from.
- Theorem {lit}`Lapsing.run`: nothing but the renewals in flight is issued to a revoked
  host.
- Theorem {lit}`revoked_host_lapses`: a lifetime after the last of them, nothing the host
  holds is accepted any more.
-/

open Framing SymbolicCrypto Journal

namespace OpenSsmAgent
namespace Coordinator

open Domain

/-! ## What a step issues -/

/-- The clock at an event. -/
def EnrollEvent.utcNow : EnrollEvent → Int
  | .request _ utcNow _ => utcNow
  | .step _ env => env.utcNow
  | .server utcNow _ _ _ => utcNow

/-- A renewal of the host that has passed the revocation check. -/
def InFlight (s : Enrollment) (host : HostId) (id : Nat) : Prop :=
  ∃ csr, s.calls.lookup id = some (.reissuing host csr)

section Step

variable {fromDer : FromDer} {cfg : EnrollConfig fromDer} {s : Enrollment} {host : HostId}

/-- Every way a host certificate is issued: a call that has redeemed a token draws the
host, or a renewal in flight is completed. -/
theorem EnrollCall.step_hostCert {env : EnrollEnv} {revoked : List HostId} {call : EnrollCall}
    {id : Option Nat} {cert : IssuedCert}
    (h : (host, cert) ∈ hostCerts ((call.step cfg env revoked).2.2.map (Prod.mk id))) :
    cert.params = hostParams cfg.certTtl env.utcNow host (hostSanUri host) ∧
      ((host, cert.publicKey.key) ∈
          enrolledKeys ((call.step cfg env revoked).2.2.map (Prod.mk id)) ∨
        ∃ csr, call = .reissuing host csr) := by
  cases call with
  | signing token csr =>
      simp only [EnrollCall.step] at h ⊢
      cases hissue : issue cfg.parseCsr cfg.certTtl env.utcNow env.host csr env.signed with
      | error e =>
          rw [hissue] at h
          cases e <;> simp [replyWith, hostCerts] at h
      | ok issued =>
          rw [hissue] at h
          obtain ⟨rfl, rfl⟩ : host = env.host ∧ cert = issued := by simpa [hostCerts] using h
          obtain ⟨-, -, -, hparams, -⟩ := issue_eq_ok hissue
          exact ⟨hparams, .inl (by simp [enrolledKeys])⟩
  | reissuing host' csr =>
      simp only [EnrollCall.step] at h
      cases hissue : issue cfg.parseCsr cfg.certTtl env.utcNow host' csr env.signed with
      | error e =>
          rw [hissue] at h
          simp [replyWith, hostCerts] at h
      | ok issued =>
          rw [hissue] at h
          obtain ⟨rfl, rfl⟩ : host = host' ∧ cert = issued := by simpa [hostCerts] using h
          obtain ⟨-, -, -, hparams, -⟩ := issue_eq_ok hissue
          exact ⟨hparams, .inr ⟨csr, rfl⟩⟩
  | checking host' csr =>
      simp only [EnrollCall.step] at h
      split at h <;> simp [replyWith, hostCerts] at h
  | revoking host' =>
      simp only [EnrollCall.step] at h
      split_ifs at h <;> simp [hostCerts] at h
  | _ => simp [EnrollCall.step, hostCerts] at h

/-- The same for a step of the deployment. -/
theorem enrollStep_hostCert {ev : EnrollEvent} {cert : IssuedCert}
    (h : (host, cert) ∈ hostCerts (enrollStep cfg s ev).2) :
    cert.params = hostParams cfg.certTtl ev.utcNow host (hostSanUri host) ∧
      ((host, cert.publicKey.key) ∈ enrolledKeys (enrollStep cfg s ev).2 ∨
        ∃ id env, ev = .step id env ∧ InFlight s host id) := by
  cases ev with
  | request now utcNow req =>
      simp only [enrollStep] at h
      rw [(quiet_log (begin_identity cfg s.tokens now utcNow req).1 _).1] at h
      cases h
  | step id env =>
      simp only [enrollStep] at h ⊢
      cases hcall : s.calls.lookup id with
      | none =>
          simp only [hcall] at h
          cases h
      | some call =>
          simp only [hcall] at h ⊢
          split_ifs at h ⊢ with hon
          · rw [(quiet_log (JoinTokens.step_quiet cfg env s.tokens call hon).2 _).1] at h
            cases h
          · obtain ⟨hparams, hkey | ⟨csr, rfl⟩⟩ := EnrollCall.step_hostCert h
            · exact ⟨hparams, .inl hkey⟩
            · exact ⟨hparams, .inr ⟨id, env, rfl, csr, hcall⟩⟩
  | server utcNow dnsNames key signed =>
      simp only [enrollStep] at h
      split at h
      · cases h
      · simp [hostCerts] at h

/-- A revocation is not taken back, and no renewal of a revoked host passes the check. -/
theorem enrollStep_revoked {ev : EnrollEvent} (hrevoked : host ∈ s.revoked) :
    host ∈ (enrollStep cfg s ev).1.revoked ∧
      ∀ id, InFlight (enrollStep cfg s ev).1 host id → InFlight s host id := by
  -- a call that is put is not a renewal in flight
  have hput : ∀ {id' call'}, (∀ csr, call' ≠ .reissuing host csr) → ∀ id,
      (∃ csr, (s.calls.put id' call').lookup id = some (.reissuing host csr)) →
      InFlight s host id := by
    rintro id' call' hne id ⟨csr, hlookup⟩
    rcases lookup_put_or hlookup with hold | ⟨-, rfl⟩
    · exact ⟨csr, hold⟩
    · exact absurd rfl (hne csr)
  cases ev with
  | request now utcNow req =>
      refine ⟨hrevoked, hput fun csr heq => ?_⟩
      obtain ⟨-, hrenews | ⟨host', currentCert, csr', -, hchecking, -⟩⟩ :=
        begin_identity cfg s.tokens now utcNow req
      · rw [heq] at hrenews
        cases hrenews
      · rw [heq] at hchecking
        cases hchecking
  | step id' env =>
      simp only [enrollStep]
      split
      · exact ⟨hrevoked, fun _ hflight => hflight⟩
      rename_i call hlookup
      split
      · rename_i hon
        refine ⟨hrevoked, hput fun csr heq => ?_⟩
        have hrenews := (JoinTokens.step_quiet cfg env s.tokens call hon).1
        rw [heq] at hrenews
        cases hrenews
      · rename_i hoff
        have hstep := EnrollCall.step_callStep cfg env s.revoked call (Bool.not_eq_true _ ▸ hoff)
        generalize call.step cfg env s.revoked = out at hstep ⊢
        cases hstep with
        | quiet hrenews _ =>
            refine ⟨hrevoked, hput ?_⟩
            rintro csr rfl
            cases hrenews
        | cleared _ hfree =>
            refine ⟨hrevoked, hput fun csr heq => ?_⟩
            cases heq
            exact hfree hrevoked
        | enrolled _ => exact ⟨hrevoked, hput (by simp)⟩
        | renewed _ _ => exact ⟨hrevoked, hput (by simp)⟩
        | revoked => exact ⟨List.mem_cons_of_mem _ hrevoked, hput (by simp)⟩
  | server utcNow dnsNames key signed => exact ⟨hrevoked, fun _ hflight => hflight⟩

end Step

/-! ## Runs -/

section Runs

variable {fromDer : FromDer} {cfg : EnrollConfig fromDer} {s : Enrollment} {host : HostId}
  {log : EnrollLog}

theorem enrollRun_append (s : Enrollment) (before after : List EnrollEvent) :
    enrollRun cfg s (before ++ after) =
      ((enrollRun cfg (enrollRun cfg s before).1 after).1,
        (enrollRun cfg s before).2 ++ (enrollRun cfg (enrollRun cfg s before).1 after).2) := by
  induction before generalizing s with
  | nil => rfl
  | cons ev before ih => simp [enrollRun, ih]

/-- Certificates are valid for a lifetime from the last clock reading on. -/
theorem notAfter_le_of_run {last : Int} {events : List EnrollEvent}
    (hclock : ∀ ev ∈ events, ev.utcNow ≤ last) {cert : IssuedCert}
    (h : (host, cert) ∈ hostCerts (enrollRun cfg s events).2) :
    cert.params.notAfter ≤ last + cfg.certTtl := by
  induction events generalizing s with
  | nil => cases h
  | cons ev events ih =>
      rw [enrollRun, hostCerts_append, List.mem_append] at h
      rcases h with h | h
      · rw [(enrollStep_hostCert h).1]
        exact Int.add_le_add_right (hclock ev List.mem_cons_self) _
      · exact ih (fun ev' hev' => hclock ev' (List.mem_cons_of_mem _ hev')) h

/-- A revoked host that lapses: the renewals in flight for it are among some calls, and
every certificate it was issued is as it should be. -/
structure Lapsing (cfg : EnrollConfig fromDer) (host : HostId) (calls : Nat → Prop)
    (Good : IssuedCert → Prop) (s : Enrollment) (log : EnrollLog) : Prop where
  revoked : host ∈ s.revoked
  inFlight : ∀ id, InFlight s host id → calls id
  enrolled : host ∈ (enrolledKeys log).map Prod.fst
  issued : ∀ cert, (host, cert) ∈ hostCerts log → Good cert

variable {calls : Nat → Prop} {Good : IssuedCert → Prop}

theorem Lapsing.step (h : Lapsing cfg host calls Good s log) {ev : EnrollEvent}
    (hfresh : ((enrolledKeys (log ++ (enrollStep cfg s ev).2)).map Prod.fst).Nodup)
    (hgood : ∀ id env, ev = .step id env → calls id → ∀ cert : IssuedCert,
      cert.params = hostParams cfg.certTtl env.utcNow host (hostSanUri host) → Good cert) :
    Lapsing cfg host calls Good (enrollStep cfg s ev).1 (log ++ (enrollStep cfg s ev).2) where
  revoked := (enrollStep_revoked h.revoked).1
  inFlight id hflight := h.inFlight id ((enrollStep_revoked h.revoked).2 id hflight)
  enrolled := by
    rw [enrolledKeys_append, List.map_append]
    exact List.mem_append_left _ h.enrolled
  issued cert hcert := by
    rw [hostCerts_append, List.mem_append] at hcert
    rcases hcert with hcert | hcert
    · exact h.issued cert hcert
    obtain ⟨hparams, hkey | ⟨id, env, rfl, hflight⟩⟩ := enrollStep_hostCert hcert
    · -- the host would be drawn a second time
      rw [enrolledKeys_append, List.map_append] at hfresh
      exact absurd (List.mem_map_of_mem hkey)
        (List.disjoint_of_nodup_append hfresh h.enrolled)
    · exact hgood id env rfl (h.inFlight id hflight) cert hparams

/-- Nothing but the renewals in flight is issued to a revoked host. -/
theorem Lapsing.run (h : Lapsing cfg host calls Good s log) {events : List EnrollEvent}
    (hfresh : ((enrolledKeys (log ++ (enrollRun cfg s events).2)).map Prod.fst).Nodup)
    (hgood : ∀ id env, .step id env ∈ events → calls id → ∀ cert : IssuedCert,
      cert.params = hostParams cfg.certTtl env.utcNow host (hostSanUri host) → Good cert) :
    Lapsing cfg host calls Good (enrollRun cfg s events).1
      (log ++ (enrollRun cfg s events).2) := by
  induction events generalizing s log with
  | nil =>
      rw [enrollRun, List.append_nil]
      exact h
  | cons ev events ih =>
      rw [enrollRun, ← List.append_assoc] at hfresh ⊢
      have hhere : ((enrolledKeys (log ++ (enrollStep cfg s ev).2)).map Prod.fst).Nodup := by
        rw [enrolledKeys_append, List.map_append] at hfresh
        exact hfresh.of_append_left
      refine ih (h.step hhere ?_) hfresh ?_
      · rintro id env rfl hcall
        exact hgood id env List.mem_cons_self hcall
      · intro id env hmem
        exact hgood id env (List.mem_cons_of_mem _ hmem)

end Runs

/-! ## What is presented -/

/-- The validity of a certificate is in what is signed. -/
def ReadsValidity (fromDer : FromDer) : Prop :=
  ∀ der der' cert cert', fromDer der = some cert → fromDer der' = some cert' →
    cert.tbs = cert'.tbs → cert.notAfter = cert'.notAfter

/-- A renewal is for a certificate that is still valid. -/
theorem EmbeddedCa.validateRenewal_valid {fromDer : FromDer} {ca : EmbeddedCa fromDer}
    {host : HostId} {now : Int} {parse : CsrFromDer} {currentCert csr : Blob}
    (h : ca.validateRenewal parse now currentCert csr = .ok host) :
    ∃ cert, fromDer currentCert.bytes = some cert ∧
      (∃ form, cert.signature = .signed ca.key cert.tbs form) ∧ now ≤ cert.notAfter ∧
      hostIdFromCert cert = .ok host := by
  obtain ⟨cert, req, hcert, -, hsigned, hhost, -⟩ := validateRenewal_eq_ok h
  refine ⟨cert, hcert, hsigned, ?_, hhost⟩
  simp only [validateRenewal, hcert] at h
  split_ifs at h with hsig hvalid
  simp only [Certificate.isValidAt, decide_eq_true_eq] at hvalid
  exact hvalid.2

/-- What a revocation achieves, in any run before and after it.  If no renewal of the host
is in flight at that point, it is never issued a certificate again.  In any case, a lifetime
after the last clock reading up to then, or at the renewals in flight, no certificate that
anyone presents is accepted for the host: not in a handshake and not for a renewal. -/
theorem revoked_host_lapses {fromDer : FromDer} (cfg : EnrollConfig fromDer)
    (hpossession : ChecksPossession cfg.parseCsr) (hparser : ParserLaws fromDer)
    (hvalidity : ReadsValidity fromDer) (tokens : JoinTokens) (before after : List EnrollEvent)
    {s s' : Enrollment} {log log' : EnrollLog}
    (hbefore : enrollRun cfg (Enrollment.new tokens) before = (s, log))
    (hafter : enrollRun cfg s after = (s', log'))
    (hwriter : WriterLaws cfg.ca (log ++ log'))
    (hunforged : UnforgedRun cfg (Enrollment.new tokens) [] (before ++ after))
    (hfresh : ((enrolledKeys (log ++ log')).map Prod.fst).Nodup) (host : HostId)
    (henrolled : host ∈ (enrolledKeys log).map Prod.fst) (hrevoked : host ∈ s.revoked) :
    ((∀ id, ¬ InFlight s host id) → ∀ cert, (host, cert) ∈ hostCerts (log ++ log') →
      (host, cert) ∈ hostCerts log) ∧
    ∀ last, (∀ ev ∈ before, ev.utcNow ≤ last) →
      (∀ id env, .step id env ∈ after → InFlight s host id → env.utcNow ≤ last) →
      ∀ der, Unforged cfg.ca (log ++ log') der → ∀ now, last + cfg.certTtl < now →
        (∀ v, cfg.ca.verifyHostCert now der = .ok v → v.hostId ≠ host) ∧
        ∀ csr, cfg.ca.validateRenewal cfg.parseCsr now der csr ≠ .ok host := by
  have hrun : enrollRun cfg (Enrollment.new tokens) (before ++ after) = (s', log ++ log') := by
    rw [enrollRun_append, hbefore]
    simp only [hafter]
  have hinv := (IdentityInv.start cfg tokens).run hpossession hparser (before ++ after)
  rw [List.nil_append, hrun] at hinv
  replace hinv := hinv hwriter hunforged
  have hlog : log' = (enrollRun cfg s after).2 := by rw [hafter]
  rw [hlog] at hwriter hfresh hinv ⊢
  constructor
  · intro hnone
    have hlapsing : Lapsing cfg host (fun _ => False) (fun cert => (host, cert) ∈ hostCerts log)
        s log :=
      ⟨hrevoked, hnone, henrolled, fun cert hcert => hcert⟩
    exact (hlapsing.run hfresh fun _ _ _ hfalse => hfalse.elim).issued
  · intro last hclock hwindow der hder now hlate
    have hlapsing : Lapsing cfg host (InFlight s host)
        (fun cert => cert.params.notAfter ≤ last + cfg.certTtl) s log := by
      refine ⟨hrevoked, fun _ hflight => hflight, henrolled, fun cert hcert => ?_⟩
      exact notAfter_le_of_run hclock (by rw [hbefore]; exact hcert)
    have hbound := (hlapsing.run hfresh (by
      intro id env hmem hflight cert hparams
      rw [hparams]
      exact Int.add_le_add_right (hwindow id env hmem hflight) _)).issued
    have hexpired : ∀ cert form, fromDer der.bytes = some cert →
        cert.signature = .signed cfg.ca.key cert.tbs form → hostIdFromCert cert = .ok host →
        cert.notAfter < now := by
      intro cert form hcert hsigned hhost
      obtain ⟨issued, cert', hissued, hcert', htbs, -, hnotAfter⟩ := signed_cert_names hparser
        hwriter hinv.server (fun host issued hmem => (hinv.issued host issued hmem).1) hcert
        (hder cert form hcert hsigned) hhost
      rw [hvalidity _ _ _ _ hcert hcert' htbs, hnotAfter]
      exact lt_of_le_of_lt (hbound issued hissued) hlate
    constructor
    · rintro v hv rfl
      obtain ⟨cert, hcert, ⟨form, hsigned⟩, hvalid, hhost, -⟩ :=
        EmbeddedCa.verifyHostCert_eq_ok_iff.mp hv
      simp only [Certificate.isValidAt, decide_eq_true_eq] at hvalid
      exact absurd hvalid.2 (not_le.mpr (hexpired cert form hcert hsigned hhost))
    · intro csr hrenew
      obtain ⟨cert, hcert, ⟨form, hsigned⟩, hvalid, hhost⟩ :=
        EmbeddedCa.validateRenewal_valid hrenew
      exact absurd hvalid (not_le.mpr (hexpired cert form hcert hsigned hhost))

/-! ## A host is revoked while it renews -/

/-- The renewal of the sample host has passed the check when the host is revoked. -/
def lapseBefore : List EnrollEvent :=
  demoEvents.take 8 ++
    [.request 0 0 (.revoke (.lit "77777777-7777-7777-7777-777777777777")), .step 3 (demoEnv 0)]

/-- It is issued all the same. -/
def lapseAfter : List EnrollEvent := [.step 2 (demoEnv 4)]

/-- The run up to the revocation. -/
def lapseRun : Enrollment × EnrollLog :=
  enrollRun demoCfg (Enrollment.new (.registry ∅)) lapseBefore

/-- The log of the whole run. -/
def lapseLog : EnrollLog := lapseRun.2 ++ (enrollRun demoCfg lapseRun.1 lapseAfter).2

theorem lapse_certs :
    hostCerts lapseLog = hostCerts demoLog ∧ serverCerts lapseLog = serverCerts demoLog := by
  decide +kernel

theorem lapse_writerLaws : WriterLaws demoCa lapseLog where
  root := demo_writerLaws.root
  server cert hcert := demo_writerLaws.server cert (lapse_certs.2 ▸ hcert)
  host host cert hcert := demo_writerLaws.host host cert (lapse_certs.1 ▸ hcert)

theorem lapse_unforged :
    UnforgedRun demoCfg (Enrollment.new (.registry ∅)) [] (lapseBefore ++ lapseAfter) := by
  refine ⟨(by simp), (by simp), (by simp), (by simp), (by simp), (by simp), ?_, (by simp),
    (by simp), (by simp), (by simp), trivial⟩
  exact demo_unforged.2.2.2.2.2.2.1

theorem revoked_host_lapses_in_flight :
    InFlight lapseRun.1 sampleHost 2 ∧ (sampleHost, demoIssued 4) ∈ hostCerts lapseLog ∧
      ∀ csr, demoCa.validateRenewal demoParseCsr 101 (demoBlob 4) csr ≠ .ok sampleHost := by
  have hcert : (sampleHost, demoIssued 4) ∈ hostCerts lapseLog := by decide +kernel
  refine ⟨⟨demoCsr, by decide +kernel⟩, hcert, ?_⟩
  have hvalidity : ReadsValidity demoDer := by
    intro der der' cert cert' hcert hcert' htbs
    have hall : ∀ c ∈ demoCerts, ∀ c' ∈ demoCerts, c.tbs = c'.tbs → c.notAfter = c'.notAfter := by
      decide +kernel
    exact hall cert (demoDer_mem hcert) cert' (demoDer_mem hcert') htbs
  have hunforged : Unforged demoCa lapseLog (demoBlob 4) := by
    intro cert form hparse hsigned
    have hfour : demoDer (demoBlob 4).bytes = some (demoCert 4) := by decide +kernel
    obtain rfl := Option.some.inj (hfour.symm.trans hparse)
    exact .inr (.inl ⟨demoIssued 4, demoCert 4, .inr ⟨sampleHost, hcert⟩, hfour, rfl⟩)
  refine ((revoked_host_lapses demoCfg demo_possession demo_parserLaws hvalidity (.registry ∅)
    lapseBefore lapseAfter rfl rfl lapse_writerLaws lapse_unforged (by decide +kernel) sampleHost
    (by decide +kernel) (by decide +kernel)).2 0 ?_ ?_ (demoBlob 4) hunforged 101 (by decide)).2
  · decide +kernel
  · intro id env hmem _
    cases List.mem_singleton.mp hmem
    decide

end Coordinator
end OpenSsmAgent
