import OpenSsmAgent.Agent.JobRecords

/-!
# A job is executed at most once

Deliveries of one job, in any number and at any time, over crashes and restarts and with
failing store operations, call {lit}`exec::stream` once at most.  A delivery that finds the
record of an outcome replays it, one that finds the marker of an interrupted execution
says so, and neither runs the command.

Main results:

- Theorem {lit}`executed_at_most_once`: at most one execution, and what later deliveries
  of the job report.
-/

open Framing Sha256 RemoteCalls CrashStore

namespace OpenSsmAgent
namespace Agent

open Proto

/-- The ids of the jobs that are dispatched. -/
def dispatchedIds (events : List JobsEvent) : Set Str :=
  { jobId | ∃ dispatch, .spawn dispatch ∈ events ∧ dispatch.jobId = jobId }

/-- No restart finds the record of a job older than {lit}`RETENTION`. -/
def NotPruned (j : Str) (events : List JobsEvent) : Prop :=
  ∀ pick torn dirLost pid stale removable,
    .restart pick torn dirLost pid stale removable ∈ events → stale (recordName j) = false

/-- What a delivery reports that runs nothing: an outcome, once it has ended. -/
structure Replies (s : Jobs) (k : Nat) (outcome : FinalOutcome) : Prop where
  executed : ∀ act ∈ s.actsOf k, act.isExecuted = false
  reports : sentReports (s.actsOf k) = [] ∨ sentReports (s.actsOf k) = [.outcome outcome]
  ended : ∀ task, s.tasks[k]? = some task → task.phase = .ended →
    sentReports (s.actsOf k) = [.outcome outcome]

section Runs

variable {cfg : JobConfig} {j : Str} {s : Jobs} {outcome : FinalOutcome} {task : JobTask}

theorem retains_of_notPruned {events : List JobsEvent}
    (hcollide : CollisionFreeOn (Str.bytes '' insert j (dispatchedIds events)))
    (hkeep : NotPruned j events) : ∀ event ∈ events, Retains j event := by
  intro event hevent
  cases event with
  | spawn dispatch =>
      intro hname
      exact recordName_injOn hcollide (Set.mem_insert_of_mem _ ⟨dispatch, hevent, rfl⟩)
        (Set.mem_insert _ _) hname
  | restart pick torn dirLost pid stale removable =>
      exact hkeep pick torn dirLost pid stale removable hevent
  | _ => trivial

/-- A delivery whose lookup gives an answer replies with it. -/
theorem Traced.replies (ht : Traced cfg s) {k : Nat} {result : Except String (Option JobState)}
    (hlooked : ⟨k, j, .looked result⟩ ∈ s.log)
    (hanswer : answerOf result = some outcome) : Replies s k outcome := by
  obtain ⟨task, htask, -⟩ := ht.entries _ hlooked
  have hacts : .looked result ∈ s.actsOf k :=
    List.mem_filterMap.mpr ⟨_, hlooked, if_pos rfl⟩
  have hphase := (ht.tasks k task htask).of_looked hacts hanswer
  constructor
  · rcases hphase with ⟨heq, -⟩ | ⟨heq, -⟩ <;> simp [heq, JobAct.isExecuted]
  · rcases hphase with ⟨heq, -⟩ | ⟨heq, -⟩ <;> simp [heq, sentReports]
  · intro task' htask' hended
    rw [htask] at htask'
    cases htask'
    rcases hphase with ⟨-, hphase⟩ | ⟨heq, -⟩
    · simp [hended] at hphase
    · simp [heq, sentReports]

/-- Once an outcome is recorded, the record stays. -/
def RecordsStay (j : Str) (s : Jobs) : Prop :=
  ∀ i outcome, ⟨i, j, .recorded outcome⟩ ∈ s.log → Frozen j (SyncedFile (doneRecord outcome)) s

/-- The only move that records is the last call of {lit}`record_done`. -/
theorem JobMove.recorded_cases {pid : String} {sh sh' : Shared} {task' : JobTask}
    {acts : List JobAct} (h : JobMove cfg pid sh task sh' task' acts)
    (hrecorded : .recorded outcome ∈ acts) :
    ∃ c, task.phase = .recording outcome [c] ∧ sh' = { sh with disk := effect c sh.disk } ∧
      task' = { task with phase := .reporting outcome } ∧ acts = [.recorded outcome] := by
  cases h with
  | recorded o c hphase =>
      obtain rfl : outcome = o := by simpa using hrecorded
      exact ⟨c, hphase, rfl, rfl, rfl⟩
  | stream argv r choice _ => simpa using Running.step_acts argv r choice _ hrecorded
  | _ => simp at hrecorded

theorem RecordsStay.next (h : RecordsStay j s) (hk : Kept j s) (ht : Traced cfg s)
    {event : JobsEvent} (hevent : Retains j event) : RecordsStay j (s.next cfg event) := by
  have hold : ∀ i outcome, ⟨i, j, .recorded outcome⟩ ∈ s.log →
      Frozen j (SyncedFile (doneRecord outcome)) (s.next cfg event) :=
    fun i outcome hmem =>
      (h i outcome hmem).next hk ht (fun _ _ => SyncedFile.survives) hevent
  intro k outcome hmem
  cases event with
  | epoch => exact hold k outcome hmem
  | spawn dispatch =>
      refine hold k outcome ?_
      simp only [Jobs.next] at hmem
      split_ifs at hmem <;> exact hmem
  | restart pick torn dirLost pid stale removable => exact hold k outcome hmem
  | step i choice =>
      rcases next_step_cases cfg s i choice with heq | ⟨task, sh', task', acts, htask, hmove, heq⟩
      · rw [heq] at hmem
        exact hold k outcome hmem
      · have hlog : (s.next cfg (.step i choice)).log =
            s.log ++ acts.map fun act => ⟨i, task'.dispatch.jobId, act⟩ := by rw [heq]; rfl
        rw [hlog] at hmem
        rcases List.mem_append.mp hmem with hmem | hmem
        · exact hold k outcome hmem
        · obtain ⟨act, hact, hentry⟩ := List.mem_map.mp hmem
          simp only [JobEntry.mk.injEq] at hentry
          obtain ⟨rfl, hj, rfl⟩ := hentry
          obtain ⟨c, hphase, rfl, rfl, rfl⟩ := hmove.recorded_cases hact
          rw [heq]
          exact frozen_of_recorded hk ht htask hj hphase

theorem RecordsStay.run (h : RecordsStay j s) (hk : Kept j s) (ht : Traced cfg s)
    {events : List JobsEvent} (hevents : ∀ event ∈ events, Retains j event) :
    RecordsStay j (s.run cfg events) := by
  induction events generalizing s with
  | nil => exact h
  | cons event events ih =>
      have hevent := hevents event List.mem_cons_self
      exact ih (h.next hk ht hevent) (hk.next ht hevent) (ht.next event)
        fun e he => hevents e (List.mem_cons_of_mem _ he)

/-- After {lit}`record_done` has returned, every lookup that succeeds finds the outcome. -/
theorem lookups_after_recorded (hk : Kept j s) (ht : Traced cfg s) (hstay : RecordsStay j s)
    {i : Nat} (hrecorded : ⟨i, j, .recorded outcome⟩ ∈ s.log) {later : List JobsEvent}
    (hlater : ∀ event ∈ later, Retains j event) :
    ∃ new, (s.run cfg later).log = s.log ++ new ∧ ∀ k state,
      ⟨k, j, .looked (.ok state)⟩ ∈ new → state = some (.finished outcome) := by
  refine (hstay i outcome hrecorded).run hk ht (fun _ _ => SyncedFile.survives) ?_ hlater
  intro d hfile
  rw [lookup_eq_some hfile, parseRecord_doneRecord]

theorem StartedOr.survives {entry : Option File} {torn : Bytes} (h : StartedOr outcome entry) :
    StartedOr outcome (entry.map fun f => if f.synced then f else ⟨torn, true, f.mode⟩) :=
  Or.imp SyncedFile.survives SyncedFile.survives h

theorem lookup_of_startedOr {d : Disk String}
    (h : EveryEntry (recordName j) (StartedOr outcome) d) :
    lookup d j = some .started ∨ lookup d j = some (.finished outcome) := by
  rcases h.live with ⟨mode, hf⟩ | ⟨mode, hf⟩
  · exact Or.inl (by simp [lookup, Disk.found, hf])
  · exact Or.inr (by simp [lookup, Disk.found, hf])

/-- The log grows. -/
theorem run_log (cfg : JobConfig) (s : Jobs) (events : List JobsEvent) :
    ∃ new, (s.run cfg events).log = s.log ++ new := by
  induction events generalizing s with
  | nil => exact ⟨[], (List.append_nil _).symm⟩
  | cons event events ih =>
      obtain ⟨new, hnew, -⟩ := next_log cfg default s event
      obtain ⟨rest, hrest⟩ := ih (s.next cfg event)
      exact ⟨new ++ rest, by rw [← List.append_assoc, ← hnew]; exact hrest⟩

/-- A lookup that fails, or that finds a record of whatever contents, gives an answer. -/
theorem lookup_answers (cfg : JobConfig) {k : Nat} {fate : Fate String}
    (htask : s.tasks[k]? = some task) (hphase : task.phase = .lookingUp)
    (h : fate.error? ≠ none ∨ s.shared.disk.found (recordName task.dispatch.jobId) ≠ none) :
    ∃ result outcome, answerOf result = some outcome ∧
      ⟨k, task.dispatch.jobId, .looked result⟩ ∈ (s.next cfg (.step k (.call fate))).log := by
  have hlog : ∀ result, (lookupJob cfg s.pid s.shared task fate).2.2 = [.looked result] →
      (lookupJob cfg s.pid s.shared task fate).2.1.dispatch = task.dispatch →
      ⟨k, task.dispatch.jobId, .looked result⟩ ∈ (s.next cfg (.step k (.call fate))).log := by
    intro result hacts hdispatch
    simp [Jobs.next, htask, jobStep, hphase, Jobs.move, hacts, hdispatch]
  cases herror : fate.error? with
  | some e =>
      refine ⟨.error e, storeUnavailable, rfl, hlog _ ?_ ?_⟩ <;> simp [lookupJob, herror]
  | none =>
      have hfound : s.shared.disk.found (recordName task.dispatch.jobId) ≠ none :=
        h.resolve_left (fun hne => hne herror)
      obtain ⟨bytes, hbytes⟩ := Option.ne_none_iff_exists'.mp hfound
      have hlookup : lookup s.shared.disk task.dispatch.jobId = some (parseRecord bytes) := by
        simp [lookup, hbytes]
      have hresult : ⟨k, task.dispatch.jobId, .looked (.ok (some (parseRecord bytes)))⟩ ∈
          (s.next cfg (.step k (.call fate))).log :=
        hlog _ (by simp [lookupJob, herror, hlookup]) (by simp [lookupJob, herror])
      cases hstate : parseRecord bytes with
      | started => exact ⟨_, interrupted, rfl, hstate ▸ hresult⟩
      | finished outcome => exact ⟨_, outcome, rfl, hstate ▸ hresult⟩

/-- After a crash of a task between {lit}`mark_started` and {lit}`record_done`, every lookup
that succeeds finds the start marker, or the outcome that was being recorded. -/
theorem lookups_after_crash (hk : Kept j s) (ht : Traced cfg s) {i : Nat}
    (htask : s.tasks[i]? = some task) (hj : task.dispatch.jobId = j) (pick : String → Nat)
    (torn : String → Bytes) (dirLost : Bool) (pid : String) {stale removable : String → Bool}
    (hstale : stale (recordName j) = false) {later : List JobsEvent}
    (hlater : ∀ event ∈ later, Retains j event) :
    ∃ new, ((s.restart pick torn dirLost pid stale removable).run cfg later).log = s.log ++ new ∧
      (∀ argv r, task.phase = .running argv r →
        ∀ k state, ⟨k, j, .looked (.ok state)⟩ ∈ new → state = some .started) ∧
      (∀ outcome calls, task.phase = .recording outcome calls →
        ∀ k state, ⟨k, j, .looked (.ok state)⟩ ∈ new →
          state = some .started ∨ state = some (.finished outcome)) := by
  have htrace := ht.tasks i task htask
  -- what the record holds when the process dies, later lookups find
  have hfound : ∀ {P : Option File → Prop} {R : Option JobState → Prop} {new : List JobEntry},
      ((s.restart pick torn dirLost pid stale removable).run cfg later).log = s.log ++ new →
      0 < executions j s.log → EveryEntry (recordName j) P s.shared.disk →
      (∀ entry bytes, P entry →
        P (entry.map fun f => if f.synced then f else ⟨bytes, true, f.mode⟩)) →
      (∀ d, EveryEntry (recordName j) P d → R (lookup d j)) →
      ∀ k state, ⟨k, j, .looked (.ok state)⟩ ∈ new → R state := by
    intro P R new hnew hpos hfile hsurvives hread
    have hfrozen : Frozen j P (s.restart pick torn dirLost pid stale removable) :=
      Frozen.restart hpos hfile hk ht hsurvives pick torn dirLost pid hstale
    obtain ⟨new', hnew', hlooked⟩ := hfrozen.run
      (hk.restart ht pick torn dirLost pid hstale) (ht.next (.restart ..)) hsurvives hread hlater
    obtain rfl : new = new' := List.append_cancel_left (hnew.symm.trans hnew')
    exact hlooked
  obtain ⟨new, hnew⟩ := run_log cfg (s.restart pick torn dirLost pid stale removable) later
  refine ⟨new, hnew, ?_, ?_⟩
  · intro argv r hphase
    have hkept := hk.phase i task htask hj (htrace.holds (by rw [hphase]; rfl))
    rw [hphase] at hkept
    have hpos := ht.executions_pos htask (htrace.isExecuted (Or.inl ⟨argv, r, hphase⟩))
    refine hfound hnew (hj ▸ hpos) hkept (fun _ _ => SyncedFile.survives) ?_
    intro d hfile
    rw [lookup_eq_some hfile, parseRecord_startedRecord]
  · intro outcome calls hphase
    have hkept := hk.phase i task htask hj (htrace.holds (by rw [hphase]; rfl))
    rw [hphase] at hkept
    have hpos := ht.executions_pos htask (htrace.isExecuted (Or.inr ⟨outcome, calls, hphase⟩))
    exact hfound (R := fun state => state = some .started ∨ state = some (.finished outcome)) hnew
      (hj ▸ hpos) hkept.1 (fun _ _ => StartedOr.survives) (fun d => lookup_of_startedOr)

end Runs

/-- In every run over any directory, with crashes at any step and any store operation
failing, a job whose record is not pruned is executed once at most.  A delivery whose
lookup succeeds after {lit}`record_done` returned reports the recorded outcome.  One whose
lookup succeeds after a crash of a task between {lit}`mark_started` and {lit}`record_done`
reports the interruption, and after a crash within {lit}`record_done` that or the outcome.
A delivery whose lookup fails or finds any record runs nothing. -/
theorem executed_at_most_once (cfg : JobConfig) (disk : Disk String) (pid : String)
    (events : List JobsEvent) (j : Str)
    (hcollide : CollisionFreeOn (Str.bytes '' insert j (dispatchedIds events)))
    (hkeep : NotPruned j events) :
    let run := (Jobs.new disk pid).run cfg
    executions j (run events).log ≤ 1 ∧
    (∀ before after i outcome, events = before ++ after →
      ⟨i, j, .recorded outcome⟩ ∈ (run before).log →
      ∃ new, (run events).log = (run before).log ++ new ∧
        ∀ k state, ⟨k, j, .looked (.ok state)⟩ ∈ new → Replies (run events) k outcome) ∧
    (∀ before after pick torn dirLost pid' stale removable (i : Nat) (task : JobTask),
      events = before ++ .restart pick torn dirLost pid' stale removable :: after →
      (run before).tasks[i]? = some task → task.dispatch.jobId = j →
      ∃ new, (run events).log = (run before).log ++ new ∧
        (∀ argv r, task.phase = .running argv r →
          ∀ k state, ⟨k, j, .looked (.ok state)⟩ ∈ new → Replies (run events) k interrupted) ∧
        (∀ outcome calls, task.phase = .recording outcome calls →
          ∀ k state, ⟨k, j, .looked (.ok state)⟩ ∈ new →
            Replies (run events) k interrupted ∨ Replies (run events) k outcome)) ∧
    (∀ before after (k : Nat) fate (task : JobTask),
      events = before ++ .step k (.call fate) :: after →
      (run before).tasks[k]? = some task → task.phase = .lookingUp →
      fate.error? ≠ none ∨
        (run before).shared.disk.found (recordName task.dispatch.jobId) ≠ none →
      ∀ act ∈ (run events).actsOf k, act.isExecuted = false) := by
  intro run
  have hretains := retains_of_notPruned hcollide hkeep
  have htraced : ∀ events, Traced cfg (run events) :=
    fun events => (traced_new cfg disk pid).run events
  have hkept : ∀ events, (∀ event ∈ events, Retains j event) → Kept j (run events) :=
    fun events hevents => (kept_new j disk pid).run (traced_new cfg disk pid) hevents
  -- a later part of the log, and what its deliveries reply
  have hreplies : ∀ {front new : List JobEntry} {k : Nat} {result : Except String (Option JobState)}
      {outcome : FinalOutcome}, (run events).log = front ++ new → ⟨k, j, .looked result⟩ ∈ new →
      answerOf result = some outcome → Replies (run events) k outcome := by
    intro front new k result outcome hlog hmem hanswer
    refine (htraced events).replies (j := j) ?_ hanswer
    rw [hlog]
    exact List.mem_append_right _ hmem
  refine ⟨(hkept events hretains).once, ?_, ?_, ?_⟩
  · rintro before after i outcome rfl hrecorded
    have hbefore : ∀ event ∈ before, Retains j event :=
      fun e he => hretains e (List.mem_append_left _ he)
    have hstay : RecordsStay j (run before) :=
      RecordsStay.run (fun _ _ hmem => by cases hmem) (kept_new j disk pid)
        (traced_new cfg disk pid) hbefore
    obtain ⟨new, hlog, hlooked⟩ := lookups_after_recorded (hkept before hbefore) (htraced before)
      hstay hrecorded fun e he => hretains e (List.mem_append_right _ he)
    rw [← run_append] at hlog
    refine ⟨new, hlog, ?_⟩
    intro k state hmem
    exact hreplies hlog hmem (by rw [hlooked k state hmem]; rfl)
  · rintro before after pick torn dirLost pid' stale removable i task rfl htask hj
    have hbefore : ∀ event ∈ before, Retains j event :=
      fun e he => hretains e (List.mem_append_left _ he)
    have hafter : ∀ event ∈ after, Retains j event := fun e he => hretains e (by simp [he])
    obtain ⟨new, hlog, hrunning, hrecording⟩ := lookups_after_crash (hkept before hbefore)
      (htraced before) htask hj pick torn dirLost pid'
      (hkeep pick torn dirLost pid' stale removable (by simp)) hafter
    have hrun : run (before ++ .restart pick torn dirLost pid' stale removable :: after) =
        ((run before).restart pick torn dirLost pid' stale removable).run cfg after :=
      run_append cfg _ before _
    rw [← hrun] at hlog
    refine ⟨new, hlog, ?_, ?_⟩
    · intro argv r hphase k state hmem
      exact hreplies hlog hmem (by rw [hrunning argv r hphase k state hmem]; rfl)
    · intro outcome calls hphase k state hmem
      rcases hrecording outcome calls hphase k state hmem with rfl | rfl
      · exact Or.inl (hreplies hlog hmem rfl)
      · exact Or.inr (hreplies hlog hmem rfl)
  · rintro before after k fate task rfl htask hphase hanswer
    obtain ⟨result, outcome, hresult, hmem⟩ := lookup_answers cfg htask hphase hanswer
    obtain ⟨new, hnew⟩ := run_log cfg ((run before).next cfg (.step k (.call fate))) after
    have hrun : run (before ++ .step k (.call fate) :: after) =
        ((run before).next cfg (.step k (.call fate))).run cfg after := run_append cfg _ before _
    refine ((htraced _).replies (j := task.dispatch.jobId) ?_ hresult).executed
    rw [hrun, hnew]
    exact List.mem_append_left _ hmem

/-- A host that permits everything. -/
def permissive : JobConfig :=
  ⟨Str.lit "host-1", ⟨[Str.lit "*"], [Str.lit "*"]⟩, ⟨fun _ => default, fun _ => default,
    fun _ => default⟩⟩

/-- A dispatch of the command {lit}`true`. -/
def trueJob : Dispatch :=
  ⟨Str.lit "job-1", Str.lit "exec", Str.lit "root", .lit [10, 4, 116, 114, 117, 101]⟩

/-- A job whose process dies with the agent, and which is delivered again. -/
def redelivered : List JobsEvent :=
  ([.epoch, .spawn trueJob, .step 0 .go] : List JobsEvent) ++
    List.replicate 7 (JobsEvent.step 0 (.call .answered)) ++
    ([.step 0 .spawns,
      .restart (fun _ => 3) (fun _ => []) true "12" (fun _ => false) (fun _ => true),
      .epoch, .spawn trueJob, .step 1 .go, .step 1 (.call .answered), .step 1 .go,
      .step 1 .go] : List JobsEvent)

theorem executed_at_most_once_redelivered :
    executions trueJob.jobId
        ((Jobs.new ⟨fun _ => none, []⟩ "11").run permissive redelivered).log = 1 ∧
    executions trueJob.jobId
        ((Jobs.new ⟨fun _ => none, []⟩ "11").run permissive redelivered).log ≤ 1 ∧
    sentReports (((Jobs.new ⟨fun _ => none, []⟩ "11").run permissive redelivered).actsOf 1) =
      [.outcome interrupted] := by
  have hids : dispatchedIds redelivered ⊆ {trueJob.jobId} := by
    rintro jobId ⟨dispatch, hmem, rfl⟩
    simp only [redelivered, List.mem_append, List.mem_cons, List.mem_replicate, reduceCtorEq,
      JobsEvent.spawn.injEq, List.not_mem_nil, and_false, or_false, false_or, or_self] at hmem
    exact congrArg Dispatch.jobId hmem
  have hsub : (Str.bytes '' insert trueJob.jobId (dispatchedIds redelivered)).Subsingleton :=
    (Set.subsingleton_singleton.anti (Set.insert_subset rfl hids)).image _
  refine ⟨by decide +kernel, ?_, by decide +kernel⟩
  refine (executed_at_most_once permissive _ "11" redelivered trueJob.jobId (hsub.injOn _) ?_).1
  intro pick torn dirLost pid stale removable hmem
  simp only [redelivered, List.mem_append, List.mem_cons, List.mem_replicate, reduceCtorEq,
    JobsEvent.restart.injEq, List.not_mem_nil, and_false, or_false, false_or] at hmem
  rw [hmem.2.2.2.2.1]

end Agent
end OpenSsmAgent
