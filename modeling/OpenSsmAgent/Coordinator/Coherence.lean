import OpenSsmAgent.Coordinator.BridgeActs
import OpenSsmAgent.Coordinator.Intake

/-!
# Coherence of sessions, jobs and routes

Three maps of the bridge belong together: a pending job was sealed under its host's
session, and a shell route holds keys derived from it.  A hello replaces the
session; the jobs and the route of the old one are ended by the caller of
{lit}`handle_client_hello`, and only if that handler reports success.  It does not
when the answer cannot be published, although the session is stored by then.

Main results:

- Theorem {lit}`session_coherence`: as long as every answer to a hello can be
  published, jobs and routes belong to the current session.
- Theorem {lit}`unanswered_hello_incoherent`: an answer that cannot be published
  leaves a route of the old session behind.
-/

open Framing SymbolicCrypto

namespace OpenSsmAgent
namespace Coordinator

open Seal Wire Domain Hs Proto

/-! ## Coherence -/

section Defs

variable {fromDer : FromDer} (cfg : BridgeConfig fromDer)

/-- The state after a run from the start. -/
def reached (turns : List (StepEnv × BridgeEvent)) : Bridge :=
  (run cfg Bridge.new turns).1

theorem reached_snoc (turns : List (StepEnv × BridgeEvent)) (turn : StepEnv × BridgeEvent) :
    reached cfg (turns ++ [turn]) = (step cfg turn.1 (reached cfg turns) turn.2).1 := by
  simp [reached, run_append, run]

/-- The session under which the dispatch of a pending job was sealed and published. -/
inductive SealedUnder : List (StepEnv × BridgeEvent) → HostId × Str → Session → Prop
  | dispatched {turns : List (StepEnv × BridgeEvent)} {env : StepEnv} {host : HostId}
      {dispatch : Dispatch} {events : Channel} {s : Session}
      (hfree : (reached cfg turns).pending.lookup (host, dispatch.jobId) = none)
      (hsession : (reached cfg turns).sessions.get host = some s)
      (hpublished : Effect.published (Topics.dispatchDown host.toStr.text)
        (.envelope (s.sealDownlink host.toStr dispatch.encode).1) true ∈
        (step cfg env (reached cfg turns) (.command (.dispatch host dispatch events))).2) :
      SealedUnder (turns ++ [(env, .command (.dispatch host dispatch events))])
        (host, dispatch.jobId) s
  | kept {turns : List (StepEnv × BridgeEvent)} {turn : StepEnv × BridgeEvent}
      {key : HostId × Str} {s : Session} {job : PendingJob} (h : SealedUnder turns key s)
      (hpending : (reached cfg turns).pending.lookup key = some job) :
      SealedUnder (turns ++ [turn]) key s

/-- Every pending job was sealed under the current session of its host, and every
route carries its sid and stream keys. -/
structure Coherent (turns : List (StepEnv × BridgeEvent)) : Prop where
  job : ∀ host jobId job, (reached cfg turns).pending.lookup (host, jobId) = some job →
    ∃ s s', SealedUnder cfg turns (host, jobId) s ∧
      (reached cfg turns).sessions.get host = some s' ∧ s.Same s'
  route : ∀ host r, (reached cfg turns).shells.lookup host = some r →
    ∃ s, (reached cfg turns).sessions.get host = some s ∧ r.sid = s.sid ∧
      r.streamKeys = s.deriveStreamKeys r.streamId.bytes

end Defs

/-- A turn fails all pending jobs of a host and drops its route. -/
structure Clears (host : HostId) (b : Bridge) (out : Bridge × List Effect) : Prop where
  job : ∀ jobId job, b.pending.lookup (host, jobId) = some job →
    out.1.pending.lookup (host, jobId) = none ∧
    ∃ sent, Effect.event job.events host
      (errorResult jobId (Str.lit "host reconnected; job interrupted")) sent ∈ out.2
  route : out.1.shells.lookup host = none

/-- A turn in which no answer to a hello fails to be published. -/
def StepEnv.Answers (env : StepEnv) : Prop :=
  ∀ topic hello, env.publish topic (.serverHello hello) = true

/-! ## Commands and the sweep -/

section Commands

variable {fromDer : FromDer} {cfg : BridgeConfig fromDer} {env : StepEnv} {ev : BridgeEvent}
  {flag : Bool} {b b' : Bridge} {es : List Effect} {host : HostId}

/-- An act keeps every session. -/
theorem Act.session_kept (h : Act b es b') {s : Session} (hget : b.sessions.get host = some s) :
    ∃ s', b'.sessions.get host = some s' ∧ s.Same s' := by
  have hset : ∀ {other : HostId} {t t' : Session}, b.sessions.get other = some t → t.Same t' →
      ∃ s', (b.setSession other t').sessions.get host = some s' ∧ s.Same s' := by
    intro other t t' hother hsame
    by_cases heq : host = other
    · subst heq
      obtain rfl : s = t := Option.some.inj (hget.symm.trans hother)
      exact ⟨t', SessionStore.get_set_self _ _ _, hsame⟩
    · exact ⟨s, (SessionStore.get_set_ne _ _ heq).trans hget, rfl, rfl⟩
  cases h with
  | sealSession hold => exact hset hold ⟨rfl, rfl⟩
  | readSession hold e => exact hset hold ⟨rfl, rfl⟩
  | _ => exact ⟨s, hget, rfl, rfl⟩

/-- Whatever is not a message keeps every session. -/
theorem Acts.session_kept (h : Acts cfg env ev flag b es b')
    (hev : ∀ topic payload, ev ≠ .message topic payload) {s : Session}
    (hget : b.sessions.get host = some s) :
    ∃ s', b'.sessions.get host = some s' ∧ s.Same s' := by
  induction h generalizing s with
  | nil => exact ⟨s, hget, rfl, rfl⟩
  | act hact _ ih =>
      obtain ⟨t, ht, hsame⟩ := hact.session_kept hget
      obtain ⟨s', hs', hsame'⟩ := ih ht
      exact ⟨s', hs', hsame.trans hsame'⟩
  | birth hbirth _ ih =>
      cases hbirth with
      | session hcheck hresp => exact absurd rfl (hev _ _)
      | route hsession => exact ih hget

/-- Whatever is not a message opens a route only on the host's current session. -/
theorem Acts.route_on_session (h : Acts cfg env ev flag b es b')
    (hev : ∀ topic payload, ev ≠ .message topic payload) {r' : ShellRoute}
    (hget : b'.shells.lookup host = some r') :
    (∃ r, b.shells.lookup host = some r ∧ r.Same r') ∨
      ∃ s, b.sessions.get host = some s ∧ r'.sid = s.sid ∧
        r'.streamKeys = s.deriveStreamKeys r'.streamId.bytes := by
  induction h with
  | nil => exact Or.inl ⟨r', hget, rfl, rfl, rfl, rfl⟩
  | act hact _ ih =>
      rcases ih hget with ⟨r, hr, hsame⟩ | ⟨s, hs, hsid, hkeys⟩
      · obtain ⟨t, ht, hsame'⟩ := hact.route_of hr
        exact Or.inl ⟨t, ht, hsame'.trans hsame⟩
      · obtain ⟨t, ht, hsame⟩ := hact.session_of hs
        refine Or.inr ⟨t, ht, hsid.trans hsame.1, ?_⟩
        rw [hkeys, Session.deriveStreamKeys, hsame.2]
        rfl
  | birth hbirth hrest ih =>
      cases hbirth with
      | session hcheck hresp => exact absurd rfl (hev _ _)
      | route hsession =>
          rename_i s
          rcases ih hget with ⟨r, hr, hsame⟩ | hold
          · simp only [Bridge.setRoute, Table.lookup_put] at hr
            split at hr
            · rename_i heq
              subst heq
              obtain rfl := Option.some.inj hr
              obtain ⟨hid, hkeys, hsid, -⟩ := hsame
              exact Or.inr ⟨s, hsession, hsid, by rw [hkeys, hid]⟩
            · exact Or.inl ⟨r, hr, hsame⟩
          · exact Or.inr hold

end Commands

/-! ## One turn -/

section Turn

variable {fromDer : FromDer} {cfg : BridgeConfig fromDer} {env : StepEnv} {b b' : Bridge}
  {topic : String} {payload : Payload} {host : HostId}

/-- The host's session survives a turn. -/
def SessionKept (b b' : Bridge) (host : HostId) : Prop :=
  ∀ s, b.sessions.get host = some s → ∃ s', b'.sessions.get host = some s' ∧ s.Same s'

/-- The jobs and routes found after a turn were there before, and so was the session
of their host. -/
structure Carries (b b' : Bridge) : Prop where
  job : ∀ host jobId job, b'.pending.lookup (host, jobId) = some job →
    (∃ job', b.pending.lookup (host, jobId) = some job') ∧ SessionKept b b' host
  route : ∀ host r', b'.shells.lookup host = some r' →
    (∃ r, b.shells.lookup host = some r ∧ r.Same r') ∧ SessionKept b b' host

theorem sessionKept_refl (b : Bridge) (host : HostId) : SessionKept b b host :=
  fun s hget => ⟨s, hget, rfl, rfl⟩

theorem sessionKept_openUplink {s : Session} (hget : b.sessions.get host = some s)
    (e : Envelope) (other : HostId) :
    SessionKept b (b.setSession host (s.openUplink e).2) other :=
  fun _ hother => (Act.readSession hget e).session_kept hother

/-- A message that does not replace a session. -/
theorem Carries.of_acts (hkept : ∀ host, SessionKept b b' host)
    (hjob : ∀ key job, b'.pending.lookup key = some job → b.pending.lookup key = some job)
    (hroute : ∀ host r', b'.shells.lookup host = some r' →
      ∃ r, b.shells.lookup host = some r ∧ r.Same r') : Carries b b' where
  job host _ job hget := ⟨⟨job, hjob _ _ hget⟩, hkept host⟩
  route host r' hget := ⟨hroute host r' hget, hkept host⟩

theorem Carries.setSession {s : Session} (hget : b.sessions.get host = some s) (e : Envelope) :
    Carries b (b.setSession host (s.openUplink e).2) :=
  .of_acts (sessionKept_openUplink hget e) (fun _ _ h => h)
    (fun _ r' h => ⟨r', h, rfl, rfl, rfl, rfl⟩)

theorem Carries.setRoute {r : ShellRoute} (hget : b.shells.lookup host = some r) (e : Envelope) :
    Carries b (b.setRoute host (r.openUplink e).2) :=
  .of_acts (sessionKept_refl b) (fun _ _ h => h)
    (fun _ _ h => (Act.readRoute hget e).route_of h)

/-- A hello whose answer can be published leaves nothing of the old session. -/
theorem Carries.established (env : StepEnv) (b : Bridge) (c : CheckedHello)
    (resp : ServerResponse) :
    Carries b ((purgeHostJobs env (c.store resp b) c.host.hostId).1.dropRoute c.host.hostId) where
  job host jobId job hget := by
    change ((c.store resp b).pending.retain _).lookup _ = _ at hget
    rw [Table.lookup_retain, Option.filter_eq_some_iff] at hget
    obtain ⟨hold, hne⟩ := hget
    refine ⟨⟨job, hold⟩, fun s hs => ⟨s, ?_, rfl, rfl⟩⟩
    have hne : host ≠ c.host.hostId := by simpa using hne
    change (c.store resp b).sessions.get host = some s
    simp only [CheckedHello.store, Bridge.setSession, SessionStore.get_set, hne, if_false, hs]
  route host r' hget := by
    change ((c.store resp b).shells.drop _).lookup _ = _ at hget
    rw [Table.lookup_drop] at hget
    split at hget
    · cases hget
    · rename_i hne
      refine ⟨⟨r', hget, rfl, rfl, rfl, rfl⟩, fun s hs => ⟨s, ?_, rfl, rfl⟩⟩
      change (c.store resp b).sessions.get host = some s
      simp only [CheckedHello.store, Bridge.setSession, SessionStore.get_set, hne, if_false, hs]

/-- It fails the jobs of the old session and drops its route. -/
theorem clears_established (env : StepEnv) (b : Bridge) (c : CheckedHello)
    (resp : ServerResponse) (effects : List Effect) :
    Clears c.host.hostId b
      ((purgeHostJobs env (c.store resp b) c.host.hostId).1.dropRoute c.host.hostId,
        effects ++ (purgeHostJobs env (c.store resp b) c.host.hostId).2) where
  job jobId job hget := by
    constructor
    · change ((c.store resp b).pending.retain _).lookup _ = _
      rw [Table.lookup_retain]
      cases (c.store resp b).pending.lookup (c.host.hostId, jobId) with
      | none => rfl
      | some other => simp
    · have hentry : (⟨(c.host.hostId, jobId), job⟩ : Sigma fun _ : HostId × Str => PendingJob) ∈
          (c.store resp b).pending.entries := Table.mem_entries_iff.mpr hget
      refine ⟨_, List.mem_append_right _
        (List.mem_map.mpr ⟨⟨(c.host.hostId, jobId), job⟩, ?_, rfl⟩)⟩
      exact List.mem_filter.mpr ⟨hentry, by simp⟩
  route := by
    change ((c.store resp b).shells.drop _).lookup _ = _
    rw [Table.lookup_drop, if_pos rfl]

/-- A message carries jobs and routes over if it cannot fail to be answered. -/
theorem Intake.carries {out : Bridge × List Effect} (h : Intake cfg env b topic payload out)
    (hanswers : env.Answers) : Carries b out.1 := by
  have hsame : Carries b b :=
    .of_acts (sessionKept_refl b) (fun _ _ h => h) (fun _ r' h => ⟨r', h, rfl, rfl, rfl, rfl⟩)
  have hdrop : ∀ host, Carries b (b.dropRoute host) := fun host =>
    .of_acts (sessionKept_refl b) (fun _ _ h => h) (fun _ _ h => (Act.dropRoute host).route_of h)
  cases h with
  | ignored => exact hsame
  | heartbeat htopic => exact ⟨hsame.job, hsame.route⟩
  | unanswered htopic hadmitted hpublish =>
      rw [CheckedHello.answer, hanswers] at hpublish
      cases hpublish
  | established htopic hadmitted hpublish => exact .established env b _ _
  | control htopic hhost hopens hsid => exact .setSession hopens.session _
  | unclaimed htopic hhost hopens => exact .setSession hopens.session _
  | result htopic hhost hopens hdecode hjob =>
      have hread := Carries.setSession hopens.session
      split
      · exact hread _
      · refine ⟨fun host jobId job hget => (hread _).job host jobId job ?_, (hread _).route⟩
        simp only [Bridge.dropPending, Table.lookup_drop] at hget
        split at hget
        · cases hget
        · exact hget
  | garbled htopic hhost hopens => exact .setRoute hopens.route _
  | frame htopic hhost hopens hdecode => exact .setRoute hopens.route _
  | lastFrame htopic hhost hopens hdecode => exact hdrop _
  | inventory htopic hhost hopens heffects => exact .setSession hopens.session _

/-- A message that replaces a session clears the host's jobs and route. -/
theorem Intake.clears {out : Bridge × List Effect} (h : Intake cfg env b topic payload out)
    (hanswers : env.Answers) {s s' : Session} (hget : b.sessions.get host = some s)
    (hget' : out.1.sessions.get host = some s') (hnew : ¬ s.Same s') : Clears host b out := by
  have hread : ∀ {other : HostId} {t : Session} {e : Envelope}, b.sessions.get other = some t →
      (b.setSession other (t.openUplink e).2).sessions.get host = some s' → False := by
    intro other t e hother hafter
    obtain ⟨s'', hs'', hsame⟩ := sessionKept_openUplink hother e host s hget
    exact hnew (Option.some.inj (hs''.symm.trans hafter) ▸ hsame)
  have hkeep : b.sessions.get host = some s' → False := fun hafter =>
    hnew (Option.some.inj (hget.symm.trans hafter) ▸ ⟨rfl, rfl⟩)
  cases h with
  | ignored => exact (hkeep hget').elim
  | heartbeat htopic => exact (hkeep hget').elim
  | unanswered htopic hadmitted hpublish =>
      rw [CheckedHello.answer, hanswers] at hpublish
      cases hpublish
  | established htopic hadmitted hpublish hroom =>
      rename_i tenant c resp
      by_cases heq : host = c.host.hostId
      · subst heq
        exact clears_established env b c resp _
      · refine (hkeep ?_).elim
        change (c.store resp b).sessions.get host = some s' at hget'
        simpa only [CheckedHello.store, Bridge.setSession, SessionStore.get_set, heq, if_false]
          using hget'
  | control htopic hhost hopens hsid => exact (hread hopens.session hget').elim
  | unclaimed htopic hhost hopens => exact (hread hopens.session hget').elim
  | result htopic hhost hopens hdecode hjob =>
      split at hget' <;> exact (hread hopens.session hget').elim
  | garbled htopic hhost hopens => exact (hkeep hget').elim
  | frame htopic hhost hopens hdecode => exact (hkeep hget').elim
  | lastFrame htopic hhost hopens hdecode => exact (hkeep hget').elim
  | inventory htopic hhost hopens heffects => exact (hread hopens.session hget').elim

end Turn

/-! ## Whole runs -/

section Runs

variable {fromDer : FromDer} {cfg : BridgeConfig fromDer} {env : StepEnv} {ev : BridgeEvent}
  {turns : List (StepEnv × BridgeEvent)}

/-- Coherence goes over with the jobs and routes that are carried over. -/
theorem Coherent.of_carries (h : Coherent cfg turns)
    (hcarries : Carries (reached cfg turns) (step cfg env (reached cfg turns) ev).1) :
    Coherent cfg (turns ++ [(env, ev)]) where
  job host jobId job hget := by
    rw [reached_snoc] at hget ⊢
    obtain ⟨⟨job', hjob'⟩, hkept⟩ := hcarries.job host jobId job hget
    obtain ⟨s, s', hsealed, hs', hsame⟩ := h.job host jobId job' hjob'
    obtain ⟨s'', hs'', hsame'⟩ := hkept s' hs'
    exact ⟨s, s'', .kept hsealed hjob', hs'', hsame.trans hsame'⟩
  route host r' hget := by
    rw [reached_snoc] at hget ⊢
    obtain ⟨⟨r, hr, hid, hkeys, hsid, -⟩, hkept⟩ := hcarries.route host r' hget
    obtain ⟨s, hs, hrsid, hrkeys⟩ := h.route host r hr
    obtain ⟨s', hs', hsame⟩ := hkept s hs
    refine ⟨s', hs', by rw [hsid, hrsid, hsame.1], ?_⟩
    rw [hkeys, hid, hrkeys, Session.deriveStreamKeys, Session.deriveStreamKeys, hsame.2]

/-- Commands and the sweep add at most a job and a route of the current session. -/
theorem Coherent.snoc_local (h : Coherent cfg turns)
    (hev : ∀ topic payload, ev ≠ .message topic payload)
    (hjob : ∀ host jobId job,
      (step cfg env (reached cfg turns) ev).1.pending.lookup (host, jobId) = some job →
      (∃ job', (reached cfg turns).pending.lookup (host, jobId) = some job') ∨
      ∃ s, (reached cfg turns).sessions.get host = some s ∧
        SealedUnder cfg (turns ++ [(env, ev)]) (host, jobId) s) :
    Coherent cfg (turns ++ [(env, ev)]) where
  job host jobId job hget := by
    rw [reached_snoc] at hget ⊢
    have hacts := step_acts cfg env (reached cfg turns) ev
    rcases hjob host jobId job hget with ⟨job', hjob'⟩ | ⟨s, hs, hsealed⟩
    · obtain ⟨s, s', hsealed, hs', hsame⟩ := h.job host jobId job' hjob'
      obtain ⟨s'', hs'', hsame'⟩ := hacts.session_kept hev hs'
      exact ⟨s, s'', .kept hsealed hjob', hs'', hsame.trans hsame'⟩
    · obtain ⟨s', hs', hsame⟩ := hacts.session_kept hev hs
      exact ⟨s, s', hsealed, hs', hsame⟩
  route host r' hget := by
    rw [reached_snoc] at hget ⊢
    have hacts := step_acts cfg env (reached cfg turns) ev
    have hcurrent : ∃ s, (reached cfg turns).sessions.get host = some s ∧ r'.sid = s.sid ∧
        r'.streamKeys = s.deriveStreamKeys r'.streamId.bytes := by
      rcases hacts.route_on_session hev hget with ⟨r, hr, hid, hkeys, hsid, -⟩ | hnew
      · rw [hid, hkeys, hsid]
        exact h.route host r hr
      · exact hnew
    obtain ⟨s, hs, hrsid, hrkeys⟩ := hcurrent
    obtain ⟨s', hs', hsame⟩ := hacts.session_kept hev hs
    refine ⟨s', hs', by rw [hrsid, hsame.1], ?_⟩
    rw [hrkeys, Session.deriveStreamKeys, Session.deriveStreamKeys, hsame.2]

/-- One turn keeps coherence. -/
theorem Coherent.snoc (h : Coherent cfg turns) (hanswers : env.Answers) :
    Coherent cfg (turns ++ [(env, ev)]) := by
  cases ev with
  | message topic payload =>
      exact h.of_carries ((onMessage_intake cfg env _ topic payload).carries hanswers)
  | command cmd =>
      refine h.snoc_local (by simp) ?_
      intro host jobId job hget
      have hhandled := handleCommand_handled env (reached cfg turns) cmd
      change (handleCommand env _ cmd).1.pending.lookup _ = _ at hget
      generalize hout : handleCommand env (reached cfg turns) cmd = out at hhandled hget
      cases hhandled with
      | @dispatched target dispatch events s hfree hroom hsession hsent =>
          change ((reached cfg turns).pending.put _ _).lookup _ = _ at hget
          rw [Table.lookup_put] at hget
          split at hget
          · rename_i heq
            obtain ⟨rfl, rfl⟩ := Prod.mk.inj heq
            refine Or.inr ⟨s, hsession, .dispatched hfree hsession ?_⟩
            change _ ∈ (handleCommand env (reached cfg turns) (.dispatch host dispatch events)).2
            rw [hout]
            exact List.mem_cons_of_mem _ (hsent ▸ List.mem_singleton_self _)
          · exact Or.inl ⟨job, hget⟩
      | _ => exact Or.inl ⟨job, hget⟩
  | sweep =>
      refine h.snoc_local (by simp) ?_
      intro host jobId job hget
      change ((reached cfg turns).pending.retain _).lookup _ = _ at hget
      rw [Table.lookup_retain, Option.filter_eq_some_iff] at hget
      exact Or.inl ⟨job, hget.1⟩

theorem coherent_nil : Coherent cfg [] :=
  ⟨nofun, nofun⟩

/-- If no answer to a hello fails to be published, jobs and routes belong to the
current session of their host in every state of the run, and a turn that replaces
a session fails the host's jobs and drops its route. -/
theorem session_coherence (cfg : BridgeConfig fromDer) (turns : List (StepEnv × BridgeEvent))
    (hanswers : ∀ turn ∈ turns, turn.1.Answers) :
    Coherent cfg turns ∧
    ∀ front env ev back, turns = front ++ (env, ev) :: back →
      ∀ host s s', (reached cfg front).sessions.get host = some s →
        (step cfg env (reached cfg front) ev).1.sessions.get host = some s' → ¬ s.Same s' →
        Clears host (reached cfg front) (step cfg env (reached cfg front) ev) := by
  constructor
  · induction turns using List.reverseRecOn with
    | nil => exact coherent_nil
    | append_singleton turns turn ih =>
        refine (ih ?_).snoc (hanswers turn (by simp))
        intro turn' hmem
        exact hanswers turn' (List.mem_append_left _ hmem)
  · rintro front env ev back rfl host s s' hget hget' hnew
    by_cases hev : ∃ topic payload, ev = .message topic payload
    · obtain ⟨topic, payload, rfl⟩ := hev
      exact (onMessage_intake cfg env _ topic payload).clears
        (hanswers (env, .message topic payload) (by simp)) hget hget' hnew
    · -- Whatever is not a message keeps the session.
      obtain ⟨s'', hs'', hsame⟩ := (step_acts cfg env (reached cfg front) ev).session_kept
        (fun _ _ heq => hev ⟨_, _, heq⟩) hget
      exact absurd (Option.some.inj (hs''.symm.trans hget') ▸ hsame) hnew

end Runs

/-- The sample host opens another session, with a fresh sid and a later epoch. -/
def sampleReconnect : ClientHello :=
  ⟨Str.lit "t", ofPoint sampleClientEph, sampleCertDer,
    .signed ⟨1⟩ (clientTranscript (Str.lit "t").asBytes.bytes 2 sampleClientEph) 0, 2⟩

/-- A turn with the sample host's second hello. -/
def sampleReconnectTurn (env : StepEnv) : StepEnv × BridgeEvent :=
  (env, .message (Topics.hsUp sampleHost.toStr.text) ⟨some sampleReconnect, none, none⟩)

/-- A job and a shell on the first session, then the second hello. -/
def sampleReconnectRun (env : StepEnv) : List (StepEnv × BridgeEvent) :=
  [sampleHelloTurn,
    (sampleEnv, .command (.dispatch sampleHost ⟨Str.lit "j", Str.lit "shell", default, default⟩ 0)),
    (sampleEnv, .command (.openShell sampleHost (Str.lit "a") default 0 0 1)),
    sampleReconnectTurn env]

/-- If the answer to the second hello cannot be published, the shell of the first
session keeps its route beside the second session. -/
theorem unanswered_hello_incoherent :
    ¬ Coherent sampleCfg (sampleReconnectRun { sampleEnv with publish := fun _ _ => false }) := by
  intro h
  have hends : let b := reached sampleCfg (sampleReconnectRun
        { sampleEnv with publish := fun _ _ => false })
      (b.shells.lookup sampleHost).map (·.sid) = some sampleSid ∧
        (b.sessions.get sampleHost).map (·.sid) = some (Str.lit "t") := by
    decide +kernel
  obtain ⟨hroute, hsession⟩ := hends
  obtain ⟨r, hr, hrsid⟩ := Option.map_eq_some_iff.mp hroute
  obtain ⟨s, hs, hsid, -⟩ := h.route sampleHost r hr
  rw [hs] at hsession
  have hne : sampleSid ≠ Str.lit "t" := by decide
  exact hne (hrsid.symm.trans (hsid.trans (Option.some.inj hsession)))

/-- If it can, the job and the route are gone. -/
theorem session_coherence_reconnect :
    Coherent sampleCfg (sampleReconnectRun sampleEnv) ∧
    Clears sampleHost (reached sampleCfg ((sampleReconnectRun sampleEnv).take 3))
      (step sampleCfg sampleEnv (reached sampleCfg ((sampleReconnectRun sampleEnv).take 3))
        (sampleReconnectTurn sampleEnv).2) := by
  have hanswers : ∀ turn ∈ sampleReconnectRun sampleEnv, turn.1.Answers := by
    simp [sampleReconnectRun, sampleHelloTurn, sampleReconnectTurn, StepEnv.Answers, sampleEnv,
      StepEnv.smooth]
  obtain ⟨hcoherent, hclears⟩ :=
    session_coherence sampleCfg (sampleReconnectRun sampleEnv) hanswers
  have hsids : let b := reached sampleCfg ((sampleReconnectRun sampleEnv).take 3)
      (b.sessions.get sampleHost).map (·.sid) = some sampleSid ∧
        ((step sampleCfg sampleEnv b (sampleReconnectTurn sampleEnv).2).1.sessions.get
          sampleHost).map (·.sid) = some (Str.lit "t") := by
    decide +kernel
  obtain ⟨hbefore, hafter⟩ := hsids
  obtain ⟨s, hs, hsid⟩ := Option.map_eq_some_iff.mp hbefore
  obtain ⟨s', hs', hsid'⟩ := Option.map_eq_some_iff.mp hafter
  refine ⟨hcoherent, hclears _ _ _ [] rfl sampleHost s s' hs hs' ?_⟩
  intro hsame
  have hne : Str.lit "t" ≠ sampleSid := by decide
  exact hne (hsid'.symm.trans (hsame.1.trans hsid))

end Coordinator
end OpenSsmAgent
