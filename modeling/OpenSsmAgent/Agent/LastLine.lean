import OpenSsmAgent.Agent.Host
import OpenSsmAgent.Agent.JobRecords
import OpenSsmAgent.Lib.Logs

/-!
# The agent is the last line

Whatever is sent to an agent, by the broker or by a coordinator that holds the keys of the
session, every command and every shell that it starts has a kind and a user that the
allowlist of the host permits, and goes back to one dispatch that opened under the key of
the session with a new sequence number.

Main results:

- Theorem {lit}`Guarded.move`: the envelopes opened under one key have increasing sequence
  numbers, over all sessions of the agent.
- Theorem {lit}`Accounted.next`: every process has a cause, and no cause has two.
- Theorem {lit}`last_line`: both, with what refused dispatches leave alone.
-/

open Framing SymbolicCrypto RemoteCalls CrashStore Journal

namespace OpenSsmAgent
namespace Agent

open Seal Wire Proto Hs

/-! ## Envelopes open once -/

/-- The envelopes opened so far: each under keys that go back to a hello of the agent, in
the order of their sequence numbers under the same keys, with the guard of the session
above them.  An unfinished handshake has no envelope yet. -/
structure Guarded (a : Process) (openings : List Opening) (es : List AgentEffect) : Prop where
  origin : ∀ o ∈ openings, ∃ p q, ofPoint p ∈ helloEphs es ∧ SessionKeysOf p q o.keys
  handshake : ∀ conn hs, a.conn = some conn → conn.handshaking = some hs →
    ofPoint hs.initiator.eph.public ∈ helloEphs es ∧
    (∀ o ∈ openings, ∀ q, ¬ SessionKeysOf hs.initiator.eph.public q o.keys) ∧
    ∀ est, conn.session = some est → ∀ q, ¬ SessionKeysOf hs.initiator.eph.public q est.keys
  session : ∀ conn est, a.conn = some conn → conn.session = some est →
    (∃ p q, ofPoint p ∈ helloEphs es ∧ SessionKeysOf p q est.keys) ∧
    ∀ o ∈ openings, o.keys = est.keys → ReplayGuard.stale est.recvHigh o.env.seq = true
  order : openings.Pairwise fun o o' => o.keys = o'.keys → o.env.seq < o'.env.seq
  opens : ∀ o ∈ openings, openEnvelope o.keys .coordToAgent o.env = some o.plaintext

section Guarded

variable {cfg : AgentConfig} {a a' : Process} {event : AgentEvent} {openings opened : List Opening}
  {es es' : List AgentEffect}

/-- Nothing is opened at the start. -/
theorem guarded_new : Guarded Process.new [] [] := by
  constructor <;> simp [Process.new]

/-- Session keys go back to one ephemeral of the agent. -/
theorem eph_of_sessionKeysOf {p p' q q' : Point} {keys : SessionKeys}
    (h : SessionKeysOf p q keys) (h' : SessionKeysOf p' q' keys) : p = p' :=
  (h.key_inj h' (d := .coordToAgent) rfl).1

/-- A sequence number that passes the guard is above those that do not. -/
theorem lt_of_stale {high : Option UInt64} {seq seq' : UInt64}
    (h : ReplayGuard.stale high seq = true) (h' : ReplayGuard.stale high seq' = false) :
    seq < seq' := by
  cases high with
  | none => simp at h
  | some high =>
      simp only [ReplayGuard.stale_some, decide_eq_true_eq, decide_eq_false_iff_not,
        UInt64.le_iff_toNat_le] at h h'
      rw [UInt64.lt_iff_toNat_lt]
      omega

/-- More effects, with or without hellos. -/
theorem Guarded.mono (h : Guarded a openings es) (es' : List AgentEffect) :
    Guarded a openings (es ++ es') := by
  have hsub : helloEphs es ⊆ helloEphs (es ++ es') := by
    rw [helloEphs_append]
    exact List.subset_append_left _ _
  refine ⟨?_, ?_, ?_, h.order, h.opens⟩
  · intro o ho
    obtain ⟨p, q, hp, hkeys⟩ := h.origin o ho
    exact ⟨p, q, hsub hp, hkeys⟩
  · intro conn hs hc hhs
    obtain ⟨heph, hunused⟩ := h.handshake conn hs hc hhs
    exact ⟨hsub heph, hunused⟩
  · intro conn est hc hest
    obtain ⟨⟨p, q, hp, hkeys⟩, hstale⟩ := h.session conn est hc hest
    exact ⟨⟨p, q, hsub hp, hkeys⟩, hstale⟩

/-- A connection that is new, or keeps its session and its handshake or none. -/
theorem Guarded.settle (h : Guarded a openings es)
    (hconn : ∀ conn', a'.conn = some conn' → (conn'.session = none ∧ conn'.handshaking = none) ∨
      ∃ conn, a.conn = some conn ∧ conn'.session = conn.session ∧
        (conn'.handshaking = none ∨ conn'.handshaking = conn.handshaking)) :
    Guarded a' openings es := by
  refine ⟨h.origin, ?_, ?_, h.order, h.opens⟩
  · intro conn' hs hc' hhs
    rcases hconn conn' hc' with ⟨-, hnone⟩ | ⟨conn, hc, hsession, hhandshaking⟩
    · rw [hnone] at hhs
      cases hhs
    · rcases hhandshaking with hnone | hsame
      · rw [hnone] at hhs
        cases hhs
      · rw [hsession]
        exact h.handshake conn hs hc (hsame ▸ hhs)
  · intro conn' est hc' hest
    rcases hconn conn' hc' with ⟨hnone, -⟩ | ⟨conn, hc, hsession, -⟩
    · rw [hnone] at hest
      cases hest
    · exact h.session conn est hc (hsession ▸ hest)

/-- A handshake that begins with a new ephemeral: the keys made so far go back to earlier
hellos. -/
theorem Guarded.hello (h : Guarded a openings es) {conn : Connection}
    {handshaking : Option Handshaking} (hc : a.conn = some conn)
    (hephs : ∀ hs, handshaking = some hs → ofPoint hs.initiator.eph.public ∈ helloEphs es')
    (hnew : (helloEphs (es ++ es')).Nodup) :
    Guarded (a.setConn { conn with handshaking := handshaking }) openings (es ++ es') := by
  have hunused : ∀ {hs : Handshaking} {keys : SessionKeys}, handshaking = some hs →
      (∃ p q, ofPoint p ∈ helloEphs es ∧ SessionKeysOf p q keys) →
      ∀ q, ¬ SessionKeysOf hs.initiator.eph.public q keys := by
    rintro hs keys hhs ⟨p, q', hp, hkeys⟩ q hkeys'
    obtain rfl := eph_of_sessionKeysOf hkeys hkeys'
    rw [helloEphs_append] at hnew
    exact List.disjoint_of_nodup_append hnew hp (hephs hs hhs)
  refine ⟨(h.mono es').origin, ?_, ?_, h.order, h.opens⟩
  · intro conn' hs hc' hhs
    obtain rfl := Option.some.inj hc'
    refine ⟨?_, fun o ho => hunused hhs (h.origin o ho), ?_⟩
    · rw [helloEphs_append]
      exact List.mem_append_right _ (hephs hs hhs)
    · intro est hest
      exact hunused hhs (h.session conn est hc hest).1
  · intro conn' est hc' hest
    obtain rfl := Option.some.inj hc'
    exact (h.mono es').session conn est hc hest

/-- A handshake that ends: under its keys nothing was opened yet. -/
theorem Guarded.finish (h : Guarded a openings es) {conn : Connection} {hs : Handshaking}
    {q : Point} {est : Established} (hc : a.conn = some conn) (hhs : conn.handshaking = some hs)
    (hkeys : SessionKeysOf hs.initiator.eph.public q est.keys)
    (hconn : a'.conn = some { conn with handshaking := none, session := some est }) :
    Guarded a' openings es := by
  obtain ⟨heph, hopenings, -⟩ := h.handshake conn hs hc hhs
  refine ⟨h.origin, ?_, ?_, h.order, h.opens⟩
  · intro conn' hs' hc' hhs'
    rw [hconn] at hc'
    obtain rfl := Option.some.inj hc'
    cases hhs'
  · intro conn' est' hc' hest'
    rw [hconn] at hc'
    obtain rfl := Option.some.inj hc'
    obtain rfl := Option.some.inj hest'
    refine ⟨⟨_, q, heph, hkeys⟩, ?_⟩
    intro o ho heq
    exact absurd (heq ▸ hkeys) (hopenings o ho q)

/-- An envelope that opens passes the guard, which is above all that were opened under its
keys. -/
theorem Guarded.opening (h : Guarded a openings es) {conn conn' : Connection} {est : Established}
    {env : Envelope} {plaintext : Bytes} (hc : a.conn = some conn)
    (hsession : conn.session = some est)
    (hopen : openEnvelope est.keys .coordToAgent env = some plaintext)
    (hfresh : ReplayGuard.stale est.recvHigh env.seq = false) (hconn' : a'.conn = some conn')
    (hsession' : conn'.session = some { est with recvHigh := some env.seq })
    (hhandshaking : conn'.handshaking = conn.handshaking) :
    Guarded a' (openings ++ [⟨est.keys, env, plaintext⟩]) es := by
  obtain ⟨hkeys, hstale⟩ := h.session conn est hc hsession
  have hlt : ∀ o ∈ openings, o.keys = est.keys → o.env.seq < env.seq :=
    fun o ho heq => lt_of_stale (hstale o ho heq) hfresh
  refine ⟨?_, ?_, ?_, ?_, ?_⟩
  · exact List.forall_mem_append.mpr ⟨h.origin, List.forall_mem_singleton.mpr hkeys⟩
  · intro conn'' hs hc'' hhs
    rw [hconn'] at hc''
    obtain rfl := Option.some.inj hc''
    obtain ⟨heph, hopenings, hest⟩ := h.handshake conn hs hc (hhandshaking ▸ hhs)
    refine ⟨heph, List.forall_mem_append.mpr
      ⟨hopenings, List.forall_mem_singleton.mpr (hest est hsession)⟩, ?_⟩
    intro est' hest'
    rw [hsession'] at hest'
    obtain rfl := Option.some.inj hest'
    exact hest est hsession
  · intro conn'' est' hc'' hest'
    rw [hconn'] at hc''
    obtain rfl := Option.some.inj hc''
    rw [hsession'] at hest'
    obtain rfl := Option.some.inj hest'
    refine ⟨hkeys, ?_⟩
    intro o ho heq
    simp only [ReplayGuard.stale_some, decide_eq_true_eq]
    rcases List.mem_append.mp ho with ho | ho
    · exact UInt64.le_of_lt (hlt o ho heq)
    · obtain rfl := List.mem_singleton.mp ho
      exact UInt64.le_refl _
  · refine List.pairwise_append.mpr ⟨h.order, List.pairwise_singleton _ _, ?_⟩
    intro o ho o' ho' heq
    rw [List.mem_singleton.mp ho'] at heq ⊢
    exact hlt o ho heq
  · exact List.forall_mem_append.mpr ⟨h.opens, List.forall_mem_singleton.mpr hopen⟩

/-- A move keeps the envelopes guarded. -/
theorem Guarded.move (h : Guarded a openings es) (hmove : ChannelMove cfg a event a' es' opened)
    (hnew : (helloEphs (es ++ es')).Nodup) : Guarded a' (openings ++ opened) (es ++ es') := by
  cases hmove with
  | quiet _ _ _ _ _ hconn =>
      rw [List.append_nil]
      exact (h.mono _).settle hconn
  | hello conn handshaking _ _ hc _ _ hephs =>
      rw [List.append_nil]
      exact h.hello hc hephs hnew
  | finish _ conn hs q est hc hhs hkeys hhigh hconn =>
      rw [List.append_nil]
      exact (h.mono _).finish hc hhs hkeys hconn
  | opens _ conn conn' est env plaintext _ _ hc hsession hopen hfresh hconn' hsession'
      hhandshaking _ =>
      exact (h.mono _).opening hc hsession hopen hfresh hconn' hsession' hhandshaking

/-- A new process has no connection. -/
theorem Guarded.restart (h : Guarded a openings es) : Guarded Process.new openings es :=
  ⟨h.origin, fun _ _ hconn => (by cases hconn), fun _ _ hconn => (by cases hconn), h.order,
    h.opens⟩

/-- An envelope opens once, over all sessions. -/
theorem Guarded.env_inj (h : Guarded a openings es) {m n : Nat} {o o' : Opening}
    (hm : openings[m]? = some o) (hn : openings[n]? = some o') (henv : o.env = o'.env) : m = n := by
  have hkeys : o.keys = o'.keys := by
    obtain ⟨p, q, -, hp⟩ := h.origin o (List.mem_of_getElem? hm)
    obtain ⟨p', q', -, hp'⟩ := h.origin o' (List.mem_of_getElem? hn)
    obtain ⟨aad, hc⟩ := ciphertext_of_openEnvelope (h.opens o (List.mem_of_getElem? hm))
    obtain ⟨aad', hc'⟩ := ciphertext_of_openEnvelope (h.opens o' (List.mem_of_getElem? hn))
    rw [henv, hc'] at hc
    simp only [Ciphertext.sealed.injEq] at hc
    exact (hp.key_inj hp' hc.1.symm).2.2.2
  have hlt : ∀ {m n : Nat} {o o' : Opening}, openings[m]? = some o → openings[n]? = some o' →
      m < n → o.keys = o'.keys → o.env.seq < o'.env.seq := by
    intro m n o o' hm hn hmn
    obtain ⟨hm', rfl⟩ := List.getElem?_eq_some_iff.mp hm
    obtain ⟨hn', rfl⟩ := List.getElem?_eq_some_iff.mp hn
    exact List.pairwise_iff_getElem.mp h.order m n hm' hn' hmn
  rcases Nat.lt_trichotomy m n with hmn | hmn | hmn
  · exact absurd (hlt hm hn hmn hkeys) (by rw [henv]; exact UInt64.lt_irrefl _)
  · exact hmn
  · exact absurd (hlt hn hm hmn hkeys.symm) (by rw [henv]; exact UInt64.lt_irrefl _)

end Guarded

/-! ## Every process has a cause -/

/-- Whether a process is a shell. -/
def Started.isShell : Started → Bool
  | .exec _ => false
  | .pty _ _ _ => true

/-- A process goes back to a dispatch that was opened.  It has its kind and its user, which
the backstop permits, and is a shell if the dispatch asks for one. -/
def Attributed (cfg : HostConfig) (openings : List Opening) (s : Start) : Prop :=
  ∃ (o : Opening) (dispatch : Dispatch), openings[s.cause]? = some o ∧
    Dispatch.decode o.plaintext = some dispatch ∧ s.kind = dispatch.kind ∧
    s.runAs = dispatch.runAs ∧
    (∀ target params, cfg.agent.backstop.permits ⟨s.kind, target, s.runAs, params⟩ = .ok ()) ∧
    (s.process.isShell = true ↔ dispatch.kind.text = shellKind)

/-- Every job task and every process has the opening that caused it, and no opening has
caused two. -/
structure Accounted (cfg : HostConfig) (h : Host) : Prop where
  traced : Traced cfg.jobs h.jobs
  synced : ∀ conn, h.process.conn = some conn →
    conn.handshaking.isSome ∨ conn.session.isSome → h.jobs.dirSynced = true
  tasks : h.causes.length = h.jobs.tasks.length
  caused : ∀ (i n : Nat) (task : JobTask), h.causes[i]? = some n →
    h.jobs.tasks[i]? = some task → ∃ o : Opening, h.openings[n]? = some o ∧
      Dispatch.decode o.plaintext = some task.dispatch ∧ task.dispatch.kind.text ≠ shellKind
  once : h.causes.Nodup
  starts : ∀ s ∈ h.starts, Attributed cfg h.openings s
  distinct : (h.starts.map Start.cause).Nodup
  executed : ∀ s ∈ h.starts, s.process.isShell = false →
    ∃ i : Nat, h.causes[i]? = some s.cause ∧ ∃ act ∈ h.jobs.actsOf i, act.isExecuted = true

section Accounted

variable {cfg : HostConfig} {h : Host} {process : Process} {jobs : Jobs} {runs : List (Nat × Nat)}
  {opened : List Opening} {effects : List AgentEffect} {s : Start} {o : Opening}
  {dispatch : Dispatch}

/-- Nothing is started at the start. -/
theorem accounted_new (cfg : HostConfig) (disk : Disk String) (pid : String) :
    Accounted cfg (Host.new disk pid) := by
  refine ⟨traced_new _ _ _, ?_, rfl, ?_, List.nodup_nil, ?_, List.nodup_nil, ?_⟩ <;>
    simp [Host.new, Process.new, Jobs.new]

/-- A permitted pair is permitted for every target. -/
theorem permits_any {allow : LocalAllowlist} {kind target runAs target' : Str}
    {params params' : Blob} (hpermits : allow.permits ⟨kind, target, runAs, params⟩ = .ok ()) :
    allow.permits ⟨kind, target', runAs, params'⟩ = .ok () :=
  LocalAllowlist.permits_eq_ok_iff.mpr (LocalAllowlist.permits_eq_ok_iff.mp hpermits)

theorem getElem?_append_of_some {A : Type} {xs ys : List A} {n : Nat} {x : A}
    (hx : xs[n]? = some x) : (xs ++ ys)[n]? = some x := by
  rw [List.getElem?_append_left (List.getElem?_eq_some_iff.mp hx).1, hx]

/-- Attributions stay. -/
theorem Attributed.append (hs : Attributed cfg h.openings s) :
    Attributed cfg (h.openings ++ opened) s := by
  obtain ⟨o, dispatch, ho, hrest⟩ := hs
  exact ⟨o, dispatch, getElem?_append_of_some ho, hrest⟩

/-- The cause was opened. -/
theorem Attributed.lt (hs : Attributed cfg h.openings s) : s.cause < h.openings.length := by
  obtain ⟨o, dispatch, ho, -⟩ := hs
  exact (List.getElem?_eq_some_iff.mp ho).1

/-- The cause of a task was opened. -/
theorem Accounted.cause_lt (hacc : Accounted cfg h) {n : Nat} (hn : n ∈ h.causes) :
    n < h.openings.length := by
  obtain ⟨i, hi, rfl⟩ := List.getElem_of_mem hn
  have htask : i < h.jobs.tasks.length := hacc.tasks ▸ hi
  obtain ⟨o, ho, -⟩ := hacc.caused i _ h.jobs.tasks[i] (List.getElem?_eq_getElem hi)
    (List.getElem?_eq_getElem htask)
  exact (List.getElem?_eq_some_iff.mp ho).1

/-- Nothing is started; the state directory may have been synced. -/
theorem Accounted.calm (hacc : Accounted cfg h)
    (hjobs : jobs = h.jobs ∨ jobs = h.jobs.next cfg.jobs .epoch)
    (hsynced : ∀ conn, process.conn = some conn →
      conn.handshaking.isSome ∨ conn.session.isSome → jobs.dirSynced = true) :
    Accounted cfg ⟨process, jobs, runs, h.causes, h.openings ++ opened, h.starts, effects⟩ := by
  have htasks : jobs.tasks = h.jobs.tasks := by rcases hjobs with rfl | rfl <;> rfl
  have hlog : jobs.log = h.jobs.log := by rcases hjobs with rfl | rfl <;> rfl
  have hacts : ∀ i, jobs.actsOf i = h.jobs.actsOf i := by
    intro i
    rw [Jobs.actsOf, Jobs.actsOf, hlog]
  refine ⟨?_, hsynced, by rw [hacc.tasks, htasks], ?_, hacc.once,
    fun s hs => (hacc.starts s hs).append, hacc.distinct, ?_⟩
  · rcases hjobs with rfl | rfl
    · exact hacc.traced
    · exact hacc.traced.next .epoch
  · intro i n task hn htask
    obtain ⟨o, ho, hrest⟩ := hacc.caused i n task hn (htasks ▸ htask)
    exact ⟨o, getElem?_append_of_some ho, hrest⟩
  · intro s hs hexec
    obtain ⟨i, hi, hact⟩ := hacc.executed s hs hexec
    exact ⟨i, hi, by rwa [hacts]⟩

/-- A dispatch opens and becomes a job task. -/
theorem Accounted.spawn (hacc : Accounted cfg h) (hdir : h.jobs.dirSynced = true)
    (hdecode : Dispatch.decode o.plaintext = some dispatch)
    (hkind : dispatch.kind.text ≠ shellKind) :
    Accounted cfg ⟨process, h.jobs.next cfg.jobs (.spawn dispatch), runs,
      h.causes ++ [h.openings.length], h.openings ++ [o], h.starts, effects⟩ := by
  have hjobs : h.jobs.next cfg.jobs (.spawn dispatch) =
      { h.jobs with tasks := h.jobs.tasks ++ [JobTask.new dispatch] } := by
    simp [Jobs.next, hdir]
  have hlast : (h.openings ++ [o])[h.openings.length]? = some o := by simp
  refine ⟨hacc.traced.next (.spawn dispatch), ?_, ?_, ?_, ?_, fun s hs => (hacc.starts s hs).append,
    hacc.distinct, ?_⟩
  · intro conn _ _
    rw [hjobs]
    exact hdir
  · rw [hjobs]
    simp [hacc.tasks]
  · intro i n task hn htask
    rw [hjobs] at htask
    rcases getElem?_concat_eq_some htask with htask | ⟨rfl, rfl⟩
    · have hi : i < h.causes.length := hacc.tasks ▸ (List.getElem?_eq_some_iff.mp htask).1
      rw [List.getElem?_append_left hi] at hn
      obtain ⟨o', ho', hrest⟩ := hacc.caused i n task hn htask
      exact ⟨o', getElem?_append_of_some ho', hrest⟩
    · rw [← hacc.tasks, List.getElem?_concat_length] at hn
      obtain rfl := Option.some.inj hn
      exact ⟨o, hlast, hdecode, hkind⟩
  · refine List.nodup_append.mpr ⟨hacc.once, List.nodup_singleton _, ?_⟩
    intro n hn m hm
    rw [List.mem_singleton.mp hm]
    exact (hacc.cause_lt hn).ne
  · intro s hs hexec
    obtain ⟨i, hi, hact⟩ := hacc.executed s hs hexec
    refine ⟨i, getElem?_append_of_some hi, ?_⟩
    rw [hjobs]
    exact hact

/-- A dispatch opens and a shell is asked for. -/
theorem Accounted.shell (hacc : Accounted cfg h)
    (hsynced : ∀ conn, process.conn = some conn →
      conn.handshaking.isSome ∨ conn.session.isSome → h.jobs.dirSynced = true)
    (hdecode : Dispatch.decode o.plaintext = some dispatch)
    (hkind : dispatch.kind.text = shellKind)
    (hpermits : cfg.agent.backstop.permits ⟨dispatch.kind, default, dispatch.runAs, default⟩ =
      .ok ()) (rows cols : UInt16) (ok : Bool) :
    Accounted cfg ⟨process, h.jobs, runs, h.causes, h.openings ++ [o],
      h.starts ++ [⟨h.openings.length, Str.lit shellKind, dispatch.runAs, .pty rows cols ok⟩],
      effects⟩ := by
  have hsame : Str.lit shellKind = dispatch.kind := Str.ext_text hkind.symm
  have hcalm : Accounted cfg
      ⟨process, h.jobs, runs, h.causes, h.openings ++ [o], h.starts, effects⟩ :=
    hacc.calm (Or.inl rfl) hsynced
  refine ⟨hcalm.traced, hcalm.synced, hcalm.tasks, hcalm.caused, hcalm.once, ?_, ?_, ?_⟩
  · intro s hs
    rcases List.mem_append.mp hs with hs | hs
    · exact hcalm.starts s hs
    · obtain rfl := List.mem_singleton.mp hs
      refine ⟨o, dispatch, by simp, hdecode, hsame, rfl, ?_, by simp [Started.isShell, hkind]⟩
      intro target params
      rw [hsame]
      exact permits_any hpermits
  · rw [List.map_append]
    refine List.nodup_append.mpr ⟨hacc.distinct, List.nodup_singleton _, ?_⟩
    intro n hn m hm
    obtain ⟨s, hs, rfl⟩ := List.mem_map.mp hn
    rw [List.mem_singleton.mp hm]
    exact (hacc.starts s hs).lt.ne
  · intro s hs hexec
    rcases List.mem_append.mp hs with hs | hs
    · exact hcalm.executed s hs hexec
    · obtain rfl := List.mem_singleton.mp hs
      cases hexec

/-- The acts of a move, as the host reads them off the log. -/
theorem acts_of_move (jobs : Jobs) (i : Nat) (sh : Shared) (task : JobTask)
    (acts : List JobAct) :
    ((jobs.move i sh task acts).log.drop jobs.log.length).map JobEntry.act = acts := by
  simp [Jobs.move, Function.comp_def]

/-- Other acts start nothing. -/
theorem execStarts_of_quiet {cause : Nat} {acts : List JobAct}
    (hquiet : ∀ act ∈ acts, act.isExecuted = false) : execStarts cause acts = [] := by
  rw [execStarts, List.filterMap_eq_nil_iff]
  intro act hact
  cases act with
  | executed => cases hquiet _ hact
  | _ => rfl

/-- A move of a job task that starts no process. -/
theorem Accounted.jobMove (hacc : Accounted cfg h) {i : Nat} {task task' : JobTask} {sh' : Shared}
    {acts : List JobAct} (htask : h.jobs.tasks[i]? = some task)
    (hmove : JobMove cfg.jobs h.jobs.pid h.jobs.shared task sh' task' acts) :
    Accounted cfg { h with jobs := h.jobs.move i sh' task' acts } := by
  refine ⟨hacc.traced.move htask hmove, hacc.synced, ?_, ?_, hacc.once, hacc.starts,
    hacc.distinct, ?_⟩
  · simp [Jobs.move, hacc.tasks]
  · intro k n taskk hn hk
    rcases getElem?_move hk with ⟨rfl, rfl⟩ | ⟨-, hold⟩
    · rw [hmove.dispatch_eq]
      exact hacc.caused k n task hn htask
    · exact hacc.caused k n taskk hn hold
  · intro s hs hexec
    obtain ⟨k, hk, act, hact, hexecuted⟩ := hacc.executed s hs hexec
    refine ⟨k, hk, act, ?_, hexecuted⟩
    by_cases hki : k = i
    · subst hki
      change act ∈ (h.jobs.move k sh' task' acts).actsOf k
      rw [actsOf_move_self]
      exact List.mem_append_left _ hact
    · change act ∈ (h.jobs.move i sh' task' acts).actsOf k
      rwa [actsOf_move_of_ne hki]

/-- No process has the cause of a job task that has not run its command. -/
theorem Accounted.cause_free (hacc : Accounted cfg h) {i n : Nat} {task : JobTask}
    (hn : h.causes[i]? = some n) (htask : h.jobs.tasks[i]? = some task)
    (hquiet : ∀ act ∈ h.jobs.actsOf i, act.isExecuted = false) :
    n ∉ h.starts.map Start.cause := by
  intro hmem
  obtain ⟨s, hs, rfl⟩ := List.mem_map.mp hmem
  cases hshell : s.process.isShell with
  | false =>
      obtain ⟨k, hk, act, hact, hexecuted⟩ := hacc.executed s hs hshell
      have hlt := (List.getElem?_eq_some_iff.mp hn).1
      obtain rfl : i = k :=
        (List.getElem?_inj hlt hacc.once).mp (hn.trans hk.symm)
      rw [hquiet act hact] at hexecuted
      cases hexecuted
  | true =>
      -- the opening of a job task does not ask for a shell
      obtain ⟨o, dispatch, ho, hdecode, -, -, -, hkind⟩ := hacc.starts s hs
      obtain ⟨o', ho', hdecode', hnot⟩ := hacc.caused i _ task hn htask
      obtain rfl := Option.some.inj (ho.symm.trans ho')
      obtain rfl := Option.some.inj (hdecode.symm.trans hdecode')
      exact hnot (hkind.mp hshell)

/-- Job steps keep the accounts. -/
theorem Accounted.job (hacc : Accounted cfg h) (i : Nat) (choice : JobChoice) :
    Accounted cfg (h.next cfg (.job i choice)) := by
  rcases next_step_cases cfg.jobs h.jobs i choice with
    heq | ⟨task, sh', task', acts, htask, hmove, heq⟩
  · simp only [Host.next, heq, List.drop_length, List.map_nil]
    simpa [execStarts] using hacc
  simp only [Host.next, heq, acts_of_move]
  have hmoved := hacc.jobMove htask hmove
  rcases hmove.executed_cases with hquiet | ⟨argv, c, hphase, -, -, hacts⟩
  · rw [execStarts_of_quiet hquiet, List.append_nil]
    exact hmoved
  have hlen : i < h.causes.length := hacc.tasks ▸ (List.getElem?_eq_some_iff.mp htask).1
  have hn : h.causes[i]? = some (h.causes.getD i 0) := by
    rw [List.getD_eq_getElem?_getD, List.getElem?_eq_getElem hlen, Option.getD_some]
  -- a task that is marking its job has not run its command
  have htrace := hacc.traced.tasks i task htask
  rw [hphase] at htrace
  have hmarking : Permitted cfg.jobs task.dispatch argv ∧
      h.jobs.actsOf i = [.claimed, .looked (.ok none)] := by
    generalize h.jobs.actsOf i = before at htrace ⊢
    generalize task.claimed = claimed at htrace
    cases htrace with
    | marking _ _ hpermitted _ => exact ⟨hpermitted, rfl⟩
  obtain ⟨hpermitted, hbefore⟩ := hmarking
  have hfree := hacc.cause_free hn htask (by simp [hbefore, JobAct.isExecuted])
  obtain ⟨o, ho, hdecode, hkind⟩ := hacc.caused i _ task hn htask
  have hstarts : execStarts (h.causes.getD i 0) acts =
      [⟨h.causes.getD i 0, task.dispatch.kind, task.dispatch.runAs, .exec argv⟩] := by
    rw [hacts]
    rfl
  rw [hstarts]
  refine ⟨hmoved.traced, hmoved.synced, hmoved.tasks, hmoved.caused, hmoved.once, ?_, ?_, ?_⟩
  · intro s hs
    rcases List.mem_append.mp hs with hs | hs
    · exact hacc.starts s hs
    · obtain rfl := List.mem_singleton.mp hs
      refine ⟨o, task.dispatch, ho, hdecode, rfl, rfl, ?_, by simp [Started.isShell, hkind]⟩
      exact fun target params => permits_any hpermitted.permits
  · rw [List.map_append]
    refine List.nodup_append.mpr ⟨hacc.distinct, List.nodup_singleton _, ?_⟩
    intro n hn' m hm heq
    rw [heq, List.mem_singleton.mp hm] at hn'
    exact hfree hn'
  · intro s hs hexec
    rcases List.mem_append.mp hs with hs | hs
    · exact hmoved.executed s hs hexec
    · obtain rfl := List.mem_singleton.mp hs
      refine ⟨i, hn, .executed task.dispatch.kind task.dispatch.runAs argv, ?_, rfl⟩
      rw [actsOf_move_self, hacts]
      simp

/-- A restart keeps the accounts. -/
theorem Accounted.restart (hacc : Accounted cfg h) (pick : String → Nat) (torn : String → Bytes)
    (dirLost : Bool) (pid : String) (stale removable : String → Bool) :
    Accounted cfg (h.next cfg (.restart pick torn dirLost pid stale removable)) := by
  refine ⟨hacc.traced.next (.restart pick torn dirLost pid stale removable), nofun, ?_, ?_,
    hacc.once, hacc.starts, hacc.distinct, hacc.executed⟩
  · simp [Host.next, Jobs.restart, hacc.tasks]
  · intro i n task hn htask
    simp only [Host.next, Jobs.restart, List.getElem?_map, Option.map_eq_some_iff] at htask
    obtain ⟨task, htask, rfl⟩ := htask
    rw [crash_dispatch]
    exact hacc.caused i n task hn htask

/-- At most an epoch event. -/
theorem syncEpoch_cases (cfg : HostConfig) (h : Host) (event : AgentEvent) :
    h.syncEpoch cfg event = h.jobs ∨ h.syncEpoch cfg event = h.jobs.next cfg.jobs .epoch := by
  unfold Host.syncEpoch
  split
  · split_ifs
    · exact Or.inr rfl
    · exact Or.inl rfl
  · exact Or.inl rfl

theorem dirSynced_syncEpoch (event : AgentEvent) (hdir : h.jobs.dirSynced = true) :
    (h.syncEpoch cfg event).dirSynced = true := by
  rcases syncEpoch_cases cfg h event with heq | heq
  · rw [heq, hdir]
  · rw [heq]
    rfl

/-- Control steps keep the accounts. -/
theorem Accounted.control (hacc : Accounted cfg h) (env : AgentEnv) (event : AgentEvent) :
    Accounted cfg (h.next cfg (.control env event)) := by
  by_cases hallows : h.allows event = true
  swap
  · rw [Host.next, if_neg hallows]
    exact hacc
  have hrunning : event ≠ .restart := by
    rintro rfl
    cases hallows
  simp only [Host.next, hallows, if_true]
  have hmove : ChannelMove cfg.agent h.process event
      (agentStep cfg.agent env h.process event).1 (agentStep cfg.agent env h.process event).2
      (openedIn cfg.agent h.process event) := agentStep_cases event hrunning
  generalize agentStep cfg.agent env h.process event = out at hmove ⊢
  generalize openedIn cfg.agent h.process event = opened at hmove ⊢
  obtain ⟨process, es⟩ := out
  have hquiet : ∀ (es : List AgentEffect) (process : Process) (opened : List Opening),
      jobsSpawned es = [] → (∀ cause, ptyStarts cause es = []) →
      (∀ conn, process.conn = some conn → conn.handshaking.isSome ∨ conn.session.isSome →
        (h.syncEpoch cfg event).dirSynced = true) →
      Accounted cfg
        { process := process
          jobs := (jobsSpawned es).foldl
            (fun jobs dispatch => jobs.next cfg.jobs (.spawn dispatch)) (h.syncEpoch cfg event)
          runs := h.runs ++ (jobsSpawned es).map fun _ => (h.process.nextTask, h.jobs.tasks.length)
          causes := h.causes ++ (jobsSpawned es).map fun _ => h.openings.length
          openings := h.openings ++ opened
          starts := h.starts ++ ptyStarts h.openings.length es
          effects := h.effects ++ es } := by
    intro es process opened hjobs hptys hsynced
    rw [hjobs, hptys]
    simp only [List.map_nil, List.append_nil, List.foldl_nil]
    exact hacc.calm (syncEpoch_cases cfg h event) hsynced
  cases hmove with
  | quiet _ _ hjobs hptys _ hconn =>
      refine hquiet es process [] hjobs hptys ?_
      intro conn' hc' hlive
      rcases hconn conn' hc' with ⟨hnone, hnone'⟩ | ⟨conn, hc, hsession, hhandshaking⟩
      · simp [hnone, hnone'] at hlive
      · refine dirSynced_syncEpoch event (hacc.synced conn hc ?_)
        rw [hsession] at hlive
        rcases hhandshaking with hnone | hsame
        · exact Or.inr (by simpa [hnone] using hlive)
        · rwa [hsame] at hlive
  | hello conn handshaking _ hevent hc hjobs hptys _ =>
      refine hquiet es _ [] hjobs hptys ?_
      obtain ⟨epoch, sid, eph, rfl⟩ := hevent
      intro _ _ _
      simp [Host.syncEpoch, hc, Jobs.next]
  | finish _ conn hs q est hc hhs _ _ _ =>
      refine hquiet [] process [] rfl (fun _ => rfl) ?_
      intro _ _ _
      exact dirSynced_syncEpoch event (hacc.synced conn hc (Or.inl (by simp [hhs])))
  | opens _ conn conn' est e plaintext _ hevent hc hsession _ _ _ _ _ hcauses =>
      have hdir : h.jobs.dirSynced = true := hacc.synced conn hc (Or.inr (by simp [hsession]))
      obtain ⟨topic, payload, rfl, -⟩ := hevent
      have hsync : h.syncEpoch cfg (.publish topic payload) = h.jobs := rfl
      cases hcauses with
      | nothing _ hjobs hptys _ =>
          exact hquiet es process _ hjobs hptys fun _ _ _ => dirSynced_syncEpoch _ hdir
      | job dispatch hdecode hkind _ =>
          have hptys : ptyStarts h.openings.length [.jobSpawned dispatch] = [] := rfl
          rw [hptys, List.append_nil, hsync]
          exact hacc.spawn hdir hdecode hkind
      | shell dispatch rows cols ok hdecode hkind hpermits =>
          rw [hsync]
          simp only [jobsSpawned, List.filterMap_cons_none, List.filterMap_nil, List.map_nil,
            List.append_nil, List.foldl_nil]
          exact hacc.shell (fun _ _ _ => hdir) hdecode hkind hpermits rows cols ok

/-- Steps keep the accounts. -/
theorem Accounted.next (hacc : Accounted cfg h) (event : HostEvent) :
    Accounted cfg (h.next cfg event) := by
  cases event with
  | control env event => exact hacc.control env event
  | job i choice => exact hacc.job i choice
  | restart pick torn dirLost pid stale removable =>
      exact hacc.restart pick torn dirLost pid stale removable

end Accounted

/-! ## The record of the processes -/

/-- The call of {lit}`exec::stream` behind a process. -/
def Start.command (s : Start) : Option (Str × Str × List Str) :=
  match s.process with
  | .exec argv => some (s.kind, s.runAs, argv)
  | .pty _ _ _ => none

/-- The PTY spawn behind a process. -/
def Start.shell (s : Start) : Option (Str × UInt16 × UInt16 × Bool) :=
  match s.process with
  | .exec _ => none
  | .pty rows cols ok => some (s.runAs, rows, cols, ok)

/-- The call of {lit}`exec::stream` in the log of the job runner. -/
def JobEntry.command (entry : JobEntry) : Option (Str × Str × List Str) :=
  match entry.act with
  | .executed kind runAs argv => some (kind, runAs, argv)
  | _ => none

/-- The PTY spawn among the effects of the control channel. -/
def AgentEffect.shell : AgentEffect → Option (Str × UInt16 × UInt16 × Bool)
  | .ptySpawned _ runAs rows cols ok => some (runAs, rows, cols, ok)
  | _ => none

/-- The record holds every command and every shell that was started, in order. -/
structure Recorded (h : Host) : Prop where
  commands : h.starts.filterMap Start.command = h.jobs.log.filterMap JobEntry.command
  shells : h.starts.filterMap Start.shell = h.effects.filterMap AgentEffect.shell

/-- A command runs after {lit}`mark_started` has returned for its job. -/
def MarkedFirst (log : List JobEntry) : Prop :=
  Justified (fun front entry => ∀ kind runAs argv, entry.act = .executed kind runAs argv →
    ⟨entry.task, entry.jobId, .marked⟩ ∈ front) log

section Recorded

variable {cfg : HostConfig} {h : Host}

/-- Commands are recorded as commands. -/
theorem execStarts_command (cause i : Nat) (jobId : Str) (acts : List JobAct) :
    (execStarts cause acts).filterMap Start.command =
      (acts.map fun act => (⟨i, jobId, act⟩ : JobEntry)).filterMap JobEntry.command ∧
    (execStarts cause acts).filterMap Start.shell = [] := by
  rw [execStarts, List.filterMap_filterMap, List.filterMap_filterMap, List.filterMap_map]
  constructor
  · congr 1
    funext act
    cases act <;> rfl
  · refine List.filterMap_eq_nil_iff.mpr fun act _ => ?_
    cases act <;> rfl

/-- Shells are recorded as shells. -/
theorem ptyStarts_shell (cause : Nat) (es : List AgentEffect) :
    (ptyStarts cause es).filterMap Start.shell = es.filterMap AgentEffect.shell ∧
    (ptyStarts cause es).filterMap Start.command = [] := by
  rw [ptyStarts, List.filterMap_filterMap, List.filterMap_filterMap]
  constructor
  · congr 1
    funext e
    cases e <;> rfl
  · refine List.filterMap_eq_nil_iff.mpr fun e _ => ?_
    cases e <;> rfl

/-- A spawn logs nothing. -/
theorem foldl_spawn_log (jobs : Jobs) (spawned : List Dispatch) :
    (spawned.foldl (fun jobs dispatch => jobs.next cfg.jobs (.spawn dispatch)) jobs).log =
      jobs.log := by
  induction spawned generalizing jobs with
  | nil => rfl
  | cons dispatch spawned ih =>
      rw [List.foldl_cons, ih]
      simp only [Jobs.next]
      split_ifs <;> rfl

/-- The control channel does not write to the log of the job runner. -/
theorem control_log (h : Host) (env : AgentEnv) (event : AgentEvent) :
    (h.next cfg (.control env event)).jobs.log = h.jobs.log := by
  simp only [Host.next]
  split_ifs
  · rw [foldl_spawn_log]
    rcases syncEpoch_cases cfg h event with heq | heq <;> rw [heq]
    rfl
  · rfl

/-- Nothing is recorded at the start. -/
theorem recorded_new (disk : Disk String) (pid : String) : Recorded (Host.new disk pid) :=
  ⟨rfl, rfl⟩

/-- Steps keep the record. -/
theorem Recorded.next (hrec : Recorded h) (event : HostEvent) : Recorded (h.next cfg event) := by
  cases event with
  | control env event =>
      by_cases hallows : h.allows event = true
      · constructor
        · rw [control_log, ← hrec.commands]
          simp only [Host.next, hallows, if_true, List.filterMap_append,
            (ptyStarts_shell _ _).2, List.append_nil]
        · simp only [Host.next, hallows, if_true, List.filterMap_append,
            (ptyStarts_shell _ _).1, hrec.shells]
      · rw [Host.next, if_neg hallows]
        exact hrec
  | job i choice =>
      rcases next_step_cases cfg.jobs h.jobs i choice with
        heq | ⟨task, sh', task', acts, -, -, heq⟩
      · simp only [Host.next, heq, List.drop_length, List.map_nil]
        exact ⟨by simpa [execStarts] using hrec.commands, by simpa [execStarts] using hrec.shells⟩
      · simp only [Host.next, heq, acts_of_move]
        obtain ⟨hcommands, hshells⟩ :=
          execStarts_command (h.causes.getD i 0) i task'.dispatch.jobId acts
        constructor
        · simp only [List.filterMap_append, hcommands, hrec.commands, Jobs.move]
        · simp only [List.filterMap_append, hshells, hrec.shells, List.append_nil]
  | restart pick torn dirLost pid stale removable => exact ⟨hrec.commands, hrec.shells⟩

/-- Steps keep the order of marks. -/
theorem MarkedFirst.next (hmarked : MarkedFirst h.jobs.log) (event : HostEvent) :
    MarkedFirst (h.next cfg event).jobs.log := by
  cases event with
  | control env event => rwa [control_log]
  | job i choice =>
      rcases next_step_cases cfg.jobs h.jobs i choice with
        heq | ⟨task, sh', task', acts, -, hmove, heq⟩
      · simpa only [Host.next, heq] using hmarked
      simp only [Host.next, heq, Jobs.move]
      rcases hmove.executed_cases with hquiet | ⟨argv, c, -, -, -, rfl⟩
      · refine hmarked.append_free ?_
        intro entry hentry front kind runAs argv hact
        obtain ⟨act, hmem, rfl⟩ := List.mem_map.mp hentry
        have hnot := hquiet act hmem
        rw [show act = .executed kind runAs argv from hact] at hnot
        cases hnot
      · have hmark := hmarked.snoc (a := ⟨i, task'.dispatch.jobId, .marked⟩) (by simp)
        have hexec := hmark.snoc (a := ⟨i, task'.dispatch.jobId,
          .executed task.dispatch.kind task.dispatch.runAs argv⟩) fun _ _ _ _ => by simp
        rw [List.append_assoc] at hexec
        exact hexec
  | restart pick torn dirLost pid stale removable => exact hmarked

end Recorded

/-! ## Whole runs -/

section Runs

variable {cfg : HostConfig} {h : Host}

/-- Steps keep the guard. -/
theorem Guarded.next (hguard : Guarded h.process h.openings h.effects) (event : HostEvent)
    (hnew : (helloEphs (h.next cfg event).effects).Nodup) :
    Guarded (h.next cfg event).process (h.next cfg event).openings (h.next cfg event).effects := by
  cases event with
  | control env event =>
      by_cases hallows : h.allows event = true
      · have hrunning : event ≠ .restart := by
          rintro rfl
          cases hallows
        simp only [Host.next, hallows, if_true] at hnew ⊢
        exact hguard.move (agentStep_cases event hrunning) hnew
      · rw [Host.next, if_neg hallows]
        exact hguard
  | job i choice => exact hguard
  | restart pick torn dirLost pid stale removable => exact hguard.restart

/-- The effects only grow. -/
theorem effects_next (h : Host) (event : HostEvent) :
    ∃ more, (h.next cfg event).effects = h.effects ++ more := by
  cases event with
  | control env event =>
      simp only [Host.next]
      split_ifs
      · exact ⟨_, rfl⟩
      · exact ⟨[], (List.append_nil _).symm⟩
  | _ => exact ⟨[], (List.append_nil _).symm⟩

/-- What holds of every run, from one step to the next. -/
structure Sound (cfg : HostConfig) (h : Host) : Prop where
  accounted : Accounted cfg h
  recorded : Recorded h
  marked : MarkedFirst h.jobs.log
  guarded : (helloEphs h.effects).Nodup → Guarded h.process h.openings h.effects

/-- Steps keep soundness. -/
theorem Sound.next (hsound : Sound cfg h) (event : HostEvent) : Sound cfg (h.next cfg event) := by
  refine ⟨hsound.accounted.next event, hsound.recorded.next event, hsound.marked.next event, ?_⟩
  intro hnew
  obtain ⟨more, hmore⟩ := effects_next h event
  have hold : (helloEphs h.effects).Nodup := by
    rw [hmore, helloEphs_append] at hnew
    exact (List.nodup_append.mp hnew).1
  exact (hsound.guarded hold).next event hnew

/-- Runs are sound. -/
theorem sound_run (cfg : HostConfig) (disk : Disk String) (pid : String)
    (events : List HostEvent) : Sound cfg ((Host.new disk pid).run cfg events) := by
  induction events using List.reverseRecOn with
  | nil =>
      exact ⟨accounted_new cfg disk pid, recorded_new disk pid, justified_nil,
        fun _ => guarded_new⟩
  | append_singleton events event ih =>
      rw [Host.run, List.foldl_concat]
      exact ih.next event

end Runs

/-! ## Dispatches that start nothing -/

/-- Why a payload on the dispatch downlink starts nothing, now or later. -/
inductive Rejected (cfg : AgentConfig) (a : Process) (conn : Connection) (payload : Payload) : Prop
  | noSession : conn.session = none → Rejected cfg a conn payload
  | malformed : payload.envelope = none → Rejected cfg a conn payload
  | forged (est : Established) (e : Envelope) : conn.session = some est →
      payload.envelope = some e → openEnvelope est.keys .coordToAgent e = none →
      Rejected cfg a conn payload
  | replayed (est : Established) (e : Envelope) : conn.session = some est →
      payload.envelope = some e → ReplayGuard.stale est.recvHigh e.seq = true →
      Rejected cfg a conn payload
  | undecodable (est : Established) (e : Envelope) (plaintext : Bytes) :
      conn.session = some est → payload.envelope = some e →
      openEnvelope est.keys .coordToAgent e = some plaintext → Dispatch.decode plaintext = none →
      Rejected cfg a conn payload
  | overCapacity (est : Established) (dispatch : Dispatch) : conn.session = some est →
      (openDispatch est payload).1 = some dispatch → dispatch.kind.text ≠ shellKind →
      maxConcurrentJobs ≤ a.jobs.size → Rejected cfg a conn payload
  | denied (est : Established) (dispatch : Dispatch) (denial : BackstopDenial) :
      conn.session = some est → (openDispatch est payload).1 = some dispatch →
      dispatch.kind.text = shellKind →
      cfg.backstop.permits ⟨dispatch.kind, default, dispatch.runAs, default⟩ = .error denial →
      Rejected cfg a conn payload
  | unfit (est : Established) (dispatch : Dispatch) : conn.session = some est →
      (openDispatch est payload).1 = some dispatch → dispatch.kind.text = shellKind →
      (dispatch.jobId.text = "" ∨ maxStreamIdLen < dispatch.jobId.bytes.length) ∨
        dispatch.jobId ∈ conn.usedStreamIds ∨ maxShellsPerSession ≤ conn.usedStreamIds.length →
      Rejected cfg a conn payload

/-- The running shell of a process. -/
def Process.runningShell (a : Process) : Option ShellStream :=
  a.conn.bind Connection.activeStream

section Rejected

variable {cfg : AgentConfig} {env : AgentEnv} {a : Process} {conn : Connection}
  {payload : Payload}

/-- What arrives on the dispatch downlink goes to the dispatch branch. -/
theorem agentStep_dispatchDown (hc : a.conn = some conn) :
    agentStep cfg env a (.publish (Topics.dispatchDown cfg.hostId.text) payload) =
      onDispatch cfg env a conn payload := by
  simp only [agentStep, hc, onPublish_dispatchDown]

/-- Unopened, stale or undecoded. -/
theorem openDispatch_eq_none {est : Established} (h : ∀ e, payload.envelope = some e →
      openEnvelope est.keys .coordToAgent e = none ∨ ReplayGuard.stale est.recvHigh e.seq = true ∨
      ∃ plaintext, openEnvelope est.keys .coordToAgent e = some plaintext ∧
        Dispatch.decode plaintext = none) : (openDispatch est payload).1 = none := by
  unfold openDispatch
  cases he : payload.envelope with
  | none => rfl
  | some e =>
      rcases openDownlink_cases est e with hclosed | ⟨plaintext, hopen, hfresh, hdownlink⟩
      · simp only [hclosed]
      · simp only [hdownlink]
        rcases h e he with hnone | hstale | ⟨plaintext', hopen', hdecode⟩
        · rw [hnone] at hopen
          cases hopen
        · rw [hstale] at hfresh
          cases hfresh
        · obtain rfl := Option.some.inj (hopen.symm.trans hopen')
          exact hdecode

/-- A payload that holds no dispatch has no effect. -/
theorem onDispatch_of_none {est : Established} (hsession : conn.session = some est)
    (hnone : (openDispatch est payload).1 = none) :
    (onDispatch cfg env a conn payload).2 = [] ∧
    (onDispatch cfg env a conn payload).1.runningShell = conn.activeStream := by
  unfold onDispatch
  rw [hsession]
  dsimp only
  split
  · exact ⟨rfl, rfl⟩
  · rename_i dispatch est' hopened
    rw [hopened] at hnone
    cases hnone

/-- A dispatch that holds a job leaves the running shell alone. -/
theorem onDispatch_of_job {est : Established} {dispatch : Dispatch}
    (hsession : conn.session = some est)
    (hopened : (openDispatch est payload).1 = some dispatch)
    (hkind : dispatch.kind.text ≠ shellKind) :
    ((onDispatch cfg env a conn payload).2 = [] ∨
      a.jobs.size < maxConcurrentJobs ∧
        (onDispatch cfg env a conn payload).2 = [.jobSpawned dispatch]) ∧
    (onDispatch cfg env a conn payload).1.runningShell = conn.activeStream := by
  unfold onDispatch
  rw [hsession]
  dsimp only
  split
  · rename_i hnone
    rw [hnone] at hopened
    cases hopened
  · rename_i dispatch' est' hsome
    rw [hsome] at hopened
    obtain rfl := Option.some.inj hopened
    rw [if_neg hkind]
    unfold handleJob
    split_ifs with hroom
    · exact ⟨Or.inr ⟨hroom, rfl⟩, rfl⟩
    · exact ⟨Or.inl rfl, rfl⟩

/-- A shell that is refused leaves the running one alone. -/
theorem onDispatch_of_shell {est : Established} {dispatch : Dispatch}
    (hsession : conn.session = some est)
    (hopened : (openDispatch est payload).1 = some dispatch)
    (hkind : dispatch.kind.text = shellKind)
    (hrefused : ((dispatch.jobId.text = "" ∨ maxStreamIdLen < dispatch.jobId.bytes.length) ∨
        dispatch.jobId ∈ conn.usedStreamIds ∨ maxShellsPerSession ≤ conn.usedStreamIds.length) ∨
      ∃ denial, cfg.backstop.permits ⟨dispatch.kind, default, dispatch.runAs, default⟩ =
        .error denial) :
    (onDispatch cfg env a conn payload).2 = [] ∧
    (onDispatch cfg env a conn payload).1.runningShell = conn.activeStream := by
  unfold onDispatch
  rw [hsession]
  dsimp only
  split
  · exact ⟨rfl, rfl⟩
  · rename_i dispatch' est' hsome
    rw [hsome] at hopened
    obtain rfl := Option.some.inj hopened
    rw [if_pos hkind]
    unfold handleShellOpen
    split_ifs with hid hused hfull
    · exact ⟨rfl, rfl⟩
    · exact ⟨rfl, rfl⟩
    · exact ⟨rfl, rfl⟩
    rcases hrefused with (hunfit | hunfit | hunfit) | ⟨denial, hdenied⟩
    · exact absurd hunfit hid
    · exact absurd hunfit hused
    · exact absurd hunfit hfull
    · rw [hdenied]
      exact ⟨rfl, rfl⟩

/-- A rejected payload has no effect. -/
theorem Rejected.effects (hrejected : Rejected cfg a conn payload) (hc : a.conn = some conn)
    (env : AgentEnv) :
    (onDispatch cfg env a conn payload).2 = [] ∧
    (onDispatch cfg env a conn payload).1.runningShell = conn.activeStream := by
  cases hrejected with
  | noSession hnone =>
      unfold onDispatch
      rw [hnone]
      exact ⟨rfl, by simp [Process.runningShell, hc]⟩
  | malformed hnone =>
      cases hsession : conn.session with
      | none =>
          unfold onDispatch
          rw [hsession]
          exact ⟨rfl, by simp [Process.runningShell, hc]⟩
      | some est =>
          exact onDispatch_of_none hsession (openDispatch_eq_none (by simp [hnone]))
  | forged est e hsession he hforged =>
      refine onDispatch_of_none hsession (openDispatch_eq_none ?_)
      intro e' he'
      obtain rfl := Option.some.inj (he.symm.trans he')
      exact Or.inl hforged
  | replayed est e hsession he hstale =>
      refine onDispatch_of_none hsession (openDispatch_eq_none ?_)
      intro e' he'
      obtain rfl := Option.some.inj (he.symm.trans he')
      exact Or.inr (Or.inl hstale)
  | undecodable est e plaintext hsession he hopen hdecode =>
      refine onDispatch_of_none hsession (openDispatch_eq_none ?_)
      intro e' he'
      obtain rfl := Option.some.inj (he.symm.trans he')
      exact Or.inr (Or.inr ⟨plaintext, hopen, hdecode⟩)
  | overCapacity est dispatch hsession hopened hkind hfull =>
      obtain ⟨hnone | ⟨hroom, -⟩, hshell⟩ := onDispatch_of_job hsession hopened hkind
      · exact ⟨hnone, hshell⟩
      · exact absurd hfull (not_le.mpr hroom)
  | denied est dispatch denial hsession hopened hkind hdenied =>
      exact onDispatch_of_shell hsession hopened hkind (Or.inr ⟨denial, hdenied⟩)
  | unfit est dispatch hsession hopened hkind hunfit =>
      exact onDispatch_of_shell hsession hopened hkind (Or.inl hunfit)

end Rejected

/-! ## The last line -/

section LastLine

variable {cfg : HostConfig} {h : Host}

/-- What is opened in a step opens under the keys of the session, past its guard. -/
theorem opened_on_session (h : Host) (event : HostEvent) :
    ∀ o ∈ (h.next cfg event).openings.drop h.openings.length,
      ∃ conn est, h.process.conn = some conn ∧ conn.session = some est ∧ o.keys = est.keys ∧
        ReplayGuard.stale est.recvHigh o.env.seq = false := by
  intro o ho
  cases event with
  | control env event =>
      by_cases hallows : h.allows event = true
      · have hrunning : event ≠ .restart := by
          rintro rfl
          cases hallows
        simp only [Host.next, hallows, if_true, List.drop_left] at ho
        have hmove : ChannelMove cfg.agent h.process event
            (agentStep cfg.agent env h.process event).1
            (agentStep cfg.agent env h.process event).2
            (openedIn cfg.agent h.process event) := agentStep_cases event hrunning
        generalize openedIn cfg.agent h.process event = opened at hmove ho
        generalize agentStep cfg.agent env h.process event = out at hmove
        obtain ⟨process, es⟩ := out
        cases hmove with
        | opens _ conn _ est e plaintext _ _ hc hsession _ hfresh _ _ _ _ =>
            rw [List.mem_singleton.mp ho]
            exact ⟨conn, est, hc, hsession, rfl, hfresh⟩
        | _ => cases ho
      · rw [Host.next, if_neg hallows, List.drop_length] at ho
        cases ho
  | job i choice =>
      simp only [Host.next, List.drop_length] at ho
      cases ho
  | restart pick torn dirLost pid stale removable =>
      simp only [Host.next, List.drop_length] at ho
      cases ho

/-- Two processes are caused by two envelopes. -/
theorem Sound.start_inj (hsound : Sound cfg h) (hfresh : (helloEphs h.effects).Nodup)
    {i j : Nat} {s s' : Start} (hi : h.starts[i]? = some s) (hj : h.starts[j]? = some s')
    {o o' : Opening} (ho : h.openings[s.cause]? = some o) (ho' : h.openings[s'.cause]? = some o')
    (henv : o.env = o'.env) : i = j := by
  have hcause : s.cause = s'.cause := (hsound.guarded hfresh).env_inj ho ho' henv
  have hlt : i < (h.starts.map Start.cause).length := by
    rw [List.length_map]
    exact (List.getElem?_eq_some_iff.mp hi).1
  refine (List.getElem?_inj hlt hsound.accounted.distinct).mp ?_
  rw [List.getElem?_map, List.getElem?_map, hi, hj, Option.map_some, Option.map_some, hcause]

/-- What a payload on the dispatch downlink does to the host. -/
theorem next_dispatchDown {conn : Connection} (hc : h.process.conn = some conn) (env : AgentEnv)
    (payload : Payload) :
    let out := onDispatch cfg.agent env h.process conn payload
    let h' := h.next cfg
      (.control env (.publish (Topics.dispatchDown cfg.agent.hostId.text) payload))
    h'.process = out.1 ∧ h'.starts = h.starts ++ ptyStarts h.openings.length out.2 ∧
      (out.2 = [] → h'.jobs = h.jobs) := by
  have hallows : h.allows (.publish (Topics.dispatchDown cfg.agent.hostId.text) payload) = true :=
    rfl
  simp only [Host.next, hallows, if_true, agentStep_dispatchDown hc, true_and]
  intro hnone
  rw [hnone]
  rfl

/-- Every command and every shell that the agent of a host starts is in the record, with a
kind and a user that the allowlist permits, and goes back to one dispatch, which opened under
the key of the session with a sequence number above every earlier one; no envelope causes
two.  A command runs after its job was marked.  A payload that is rejected starts nothing and
leaves the running shell in place, and so does a job that the allowlist refuses. -/
theorem last_line (cfg : HostConfig) (disk : Disk String) (pid : String)
    (events : List HostEvent)
    (hfresh : (helloEphs ((Host.new disk pid).run cfg events).effects).Nodup) :
    let h := (Host.new disk pid).run cfg events
    Recorded h ∧ (∀ s ∈ h.starts, Attributed cfg h.openings s) ∧
    (∀ o ∈ h.openings, openEnvelope o.keys .coordToAgent o.env = some o.plaintext) ∧
    h.openings.Pairwise (fun o o' => o.keys = o'.keys → o.env.seq < o'.env.seq) ∧
    (∀ event, ∀ o ∈ (h.next cfg event).openings.drop h.openings.length,
      ∃ conn est, h.process.conn = some conn ∧ conn.session = some est ∧ o.keys = est.keys ∧
        ReplayGuard.stale est.recvHigh o.env.seq = false) ∧
    (∀ (i j : Nat) (s s' : Start) (o o' : Opening), h.starts[i]? = some s →
      h.starts[j]? = some s' → h.openings[s.cause]? = some o → h.openings[s'.cause]? = some o' →
      o.env = o'.env → i = j) ∧
    MarkedFirst h.jobs.log ∧
    (∀ env payload conn, h.process.conn = some conn → Rejected cfg.agent h.process conn payload →
      let h' := h.next cfg
        (.control env (.publish (Topics.dispatchDown cfg.agent.hostId.text) payload))
      h'.starts = h.starts ∧ h'.jobs = h.jobs ∧
        h'.process.runningShell = h.process.runningShell) ∧
    (∀ env payload conn est dispatch, h.process.conn = some conn → conn.session = some est →
      (openDispatch est payload).1 = some dispatch → dispatch.kind.text ≠ shellKind →
      let h' := h.next cfg
        (.control env (.publish (Topics.dispatchDown cfg.agent.hostId.text) payload))
      h'.starts = h.starts ∧ h'.process.runningShell = h.process.runningShell) := by
  intro h
  have hsound : Sound cfg h := sound_run cfg disk pid events
  have hguarded := hsound.guarded hfresh
  refine ⟨hsound.recorded, hsound.accounted.starts, hguarded.opens, hguarded.order,
    opened_on_session h, ?_, hsound.marked, ?_, ?_⟩
  · exact fun i j s s' o o' hi hj ho ho' henv => hsound.start_inj hfresh hi hj ho ho' henv
  · intro env payload conn hc hrejected
    obtain ⟨hprocess, hstarts, hjobs⟩ := next_dispatchDown (h := h) hc env payload
    obtain ⟨hnone, hshell⟩ := hrejected.effects hc env
    refine ⟨?_, hjobs hnone, ?_⟩
    · rw [hstarts, hnone]
      exact List.append_nil _
    · rw [hprocess, hshell, Process.runningShell, hc, Option.bind_some]
  · intro env payload conn est dispatch hc hsession hopened hkind
    obtain ⟨hprocess, hstarts, -⟩ := next_dispatchDown (h := h) hc env payload
    obtain ⟨heffects, hshell⟩ := onDispatch_of_job (a := h.process) hsession hopened hkind
    constructor
    · rw [hstarts]
      rcases heffects with heffects | ⟨-, heffects⟩ <;> rw [heffects] <;>
        exact List.append_nil _
    · rw [hprocess, hshell, Process.runningShell, hc, Option.bind_some]

end LastLine

/-! ## A sample host -/

def sampleClientPoint : Point := .lit (List.replicate 32 9)

def sampleServerPoint : Point := .lit (List.replicate 32 16)

def sampleLineId : AgentIdentity := ⟨Str.lit "h", some ⟨1⟩, .lit [1], .ofKey ⟨0⟩⟩

/-- A host that permits commands and shells for one user. -/
def sampleLineCfg : HostConfig :=
  ⟨⟨Str.lit "h", ⟨[Str.lit "exec", Str.lit "shell"], [Str.lit "u"]⟩⟩,
    ⟨fun _ => default, fun _ => default, fun _ => default⟩⟩

def sampleLineKeys : SessionKeys :=
  SessionKeys.fromShared (diffieHellman sampleClientPoint sampleServerPoint)
    (Handshake.transcript sampleClientPoint sampleServerPoint
      (sessionBinding (Str.lit "s").asBytes.bytes sampleClientPoint sampleServerPoint [1]))

/-- A turn of the control channel in which nothing fails. -/
def sampleLineTurn (event : AgentEvent) : HostEvent :=
  .control ⟨fun _ => true, fun _ _ => true, fun _ _ _ => true, true, true⟩ event

/-- A dispatch that arrives with a sequence number. -/
def sampleLineDispatch (seq : UInt64) (kind runAs : Str) : HostEvent :=
  sampleLineTurn (.publish (Topics.dispatchDown "h") ⟨none, none, some
    (sealEnvelope sampleLineKeys .coordToAgent (Str.lit "h") (Str.lit "s") seq .control
      (Dispatch.encode ⟨Str.lit "j", kind, runAs, default⟩))⟩)

/-- A session, a shell, its dispatch again, a command, and a command for another user. -/
def sampleLine : List HostEvent :=
  ([sampleLineTurn (.connect sampleLineId),
    sampleLineTurn (.connAck (some 1) (Str.lit "s") (some sampleClientPoint)),
    sampleLineTurn (.publish (Topics.hsDown "h") ⟨none, some ⟨Str.lit "s",
      ofPoint sampleServerPoint, .signed ⟨0⟩ (serverTranscript (Str.lit "s").asBytes.bytes
        sampleClientPoint sampleServerPoint) 0⟩, none⟩),
    sampleLineDispatch 0 (Str.lit "shell") (Str.lit "u"),
    sampleLineDispatch 0 (Str.lit "shell") (Str.lit "u"),
    sampleLineDispatch 1 (Str.lit "exec") (Str.lit "u"),
    sampleLineDispatch 2 (Str.lit "exec") (Str.lit "v"), .job 0 .go] : List HostEvent) ++
  List.replicate 7 (HostEvent.job 0 (.call .answered)) ++ [HostEvent.job 1 .go, .job 1 .go]

theorem last_line_sample :
    (((Host.new ⟨fun _ => none, []⟩ "1").run sampleLineCfg sampleLine).starts.map Start.cause) =
      [0, 1] ∧
    ∀ s ∈ ((Host.new ⟨fun _ => none, []⟩ "1").run sampleLineCfg sampleLine).starts,
      Attributed sampleLineCfg
        ((Host.new ⟨fun _ => none, []⟩ "1").run sampleLineCfg sampleLine).openings s :=
  ⟨by decide +kernel,
    (last_line sampleLineCfg ⟨fun _ => none, []⟩ "1" sampleLine (by decide +kernel)).2.1⟩

end Agent
end OpenSsmAgent
