import OpenSsmAgent.Agent.AtMostOnce

/-!
# What a job reports

The results that {lit}`run_job` hands to the results channel: the chunks that
{lit}`exec::stream` delivered, in order, and then one outcome.  No task gets stuck between
the bounded channel, the drain and the store, and the outcome it reports is the one it has
recorded.

Main results:

- Theorem {lit}`ends_of_live`: every task that has not ended can be carried to its end.
- Theorem {lit}`job_reports`: chunks, then exactly one outcome.
-/

open Framing Sha256 RemoteCalls CrashStore

namespace OpenSsmAgent
namespace Agent

open Proto

/-! ## Tasks end -/

/-- Some choices carry a task to its end. -/
def Ends (cfg : JobConfig) (s : Jobs) (i : Nat) : Prop :=
  ∃ choices : List JobChoice, ∃ task, (s.run cfg (choices.map (.step i))).tasks[i]? = some task ∧
    task.phase = .ended

section Ends

variable {cfg : JobConfig} {s : Jobs} {task : JobTask} {i : Nat}

/-- What ends after a step ends. -/
theorem Ends.of_next (choice : JobChoice) (h : Ends cfg (s.next cfg (.step i choice)) i) :
    Ends cfg s i := by
  obtain ⟨choices, task, htask, hended⟩ := h
  exact ⟨choice :: choices, task, htask, hended⟩

/-- A step moves its own task. -/
theorem next_step_task (htask : s.tasks[i]? = some task) (choice : JobChoice) :
    (s.next cfg (.step i choice)).tasks[i]? =
      some (jobStep cfg s.pid s.shared task choice).2.1 := by
  have hlt := (List.getElem?_eq_some_iff.mp htask).1
  simp only [Jobs.next, htask]
  simp [Jobs.move, hlt]

/-- A task ends if a choice takes it to a phase from which every task ends. -/
theorem ends_of_step {P : JobPhase → Prop}
    (h : ∀ {s : Jobs} {task : JobTask}, s.tasks[i]? = some task → P task.phase → Ends cfg s i)
    (htask : s.tasks[i]? = some task) (choice : JobChoice)
    (hP : P (jobStep cfg s.pid s.shared task choice).2.1.phase) : Ends cfg s i :=
  Ends.of_next choice (h (next_step_task htask choice) hP)

/-- A returning task ends. -/
theorem ends_of_returning (htask : s.tasks[i]? = some task) (hphase : task.phase = .returning) :
    Ends cfg s i :=
  ⟨[.go], _, next_step_task htask .go, by simp [jobStep, hphase]⟩

/-- A task ends once it reports an outcome. -/
theorem ends_of_reporting (htask : s.tasks[i]? = some task)
    (hphase : ∃ outcome, task.phase = .reporting outcome) : Ends cfg s i := by
  obtain ⟨outcome, hphase⟩ := hphase
  exact ends_of_step (P := (· = .returning)) ends_of_returning htask .go (by simp [jobStep, hphase])

/-- A task ends once it records its outcome. -/
theorem ends_of_recording (htask : s.tasks[i]? = some task)
    (hphase : ∃ outcome calls, task.phase = .recording outcome calls ∧ calls ≠ []) :
    Ends cfg s i := by
  obtain ⟨outcome, calls, hphase, hcalls⟩ := hphase
  cases calls with
  | nil => exact absurd rfl hcalls
  | cons c rest =>
      refine ends_of_step (P := fun phase => ∃ o, phase = .reporting o) ends_of_reporting htask
        (.call (.failed "")) ⟨outcome, ?_⟩
      simp [jobStep, hphase, recordJob, Fate.error?]

/-- The drain empties the channel, chunk by chunk. -/
theorem ends_of_result (htask : s.tasks[i]? = some task)
    (hphase : ∃ argv r, task.phase = .running argv r ∧ r.result.isSome) : Ends cfg s i := by
  obtain ⟨argv, r, hphase, hresult⟩ := hphase
  obtain ⟨n, hn⟩ : ∃ n, 2 * r.queue.length + r.draining.toList.length = n := ⟨_, rfl⟩
  induction n using Nat.strong_induction_on generalizing s task r with
  | h n ih =>
      cases hdraining : r.draining with
      | some chunk =>
          refine Ends.of_next .forwards (ih (n - 1) ?_ (next_step_task htask _)
            { r with draining := none } ?_ hresult ?_)
          · simp [hdraining] at hn
            omega
          · simp [jobStep, hphase, Running.step, hdraining]
          · simp [hdraining] at hn ⊢
            omega
      | none =>
          cases hqueue : r.queue with
          | cons chunk queue =>
              refine Ends.of_next .drains (ih (n - 1) ?_ (next_step_task htask _)
                { r with queue := queue, draining := some chunk } ?_ hresult ?_)
              · simp [hdraining, hqueue] at hn
                omega
              · simp [jobStep, hphase, Running.step, hdraining, hqueue]
              · simp [hdraining, hqueue] at hn ⊢
                omega
          | nil =>
              obtain ⟨result, hresult⟩ := Option.isSome_iff_exists.mp hresult
              refine ends_of_step
                (P := fun phase => ∃ o calls, phase = .recording o calls ∧ calls ≠ [])
                ends_of_recording htask .joins
                ⟨outcomeOf result, recordDone s.pid task.dispatch.jobId (outcomeOf result), ?_, ?_⟩
              · simp [jobStep, hphase, Running.joined, hdraining, hqueue, hresult]
              · simp [recordDone, durableWrite]

/-- A running command comes to an end. -/
theorem ends_of_running (htask : s.tasks[i]? = some task)
    (hphase : ∃ argv r, task.phase = .running argv r) : Ends cfg s i := by
  obtain ⟨argv, r, hphase⟩ := hphase
  cases hresult : r.result with
  | some result => exact ends_of_result htask ⟨argv, r, hphase, by simp [hresult]⟩
  | none =>
      refine ends_of_step (P := fun phase => ∃ argv r, phase = .running argv r ∧ r.result.isSome)
        ends_of_result htask (.streamFails (.other default))
        ⟨argv, (r.step argv (.streamFails (.other default))).1, ?_, ?_⟩
      · simp [jobStep, hphase]
      · simp [Running.step, hresult]

/-- A task ends once it marks its job. -/
theorem ends_of_marking (htask : s.tasks[i]? = some task)
    (hphase : ∃ argv calls, task.phase = .marking argv calls ∧ calls ≠ []) : Ends cfg s i := by
  obtain ⟨argv, calls, hphase, hcalls⟩ := hphase
  cases calls with
  | nil => exact absurd rfl hcalls
  | cons c rest =>
      refine ends_of_step (P := fun phase => ∃ o, phase = .reporting o) ends_of_reporting htask
        (.call (.failed "")) ⟨storeUnavailable, ?_⟩
      simp [jobStep, hphase, markJob, Fate.error?]

/-- A task ends from its lookup on. -/
theorem ends_of_lookingUp (htask : s.tasks[i]? = some task) (hphase : task.phase = .lookingUp) :
    Ends cfg s i := by
  refine ends_of_step (P := fun phase => ∃ o, phase = .reporting o) ends_of_reporting htask
    (.call (.failed "")) ⟨storeUnavailable, ?_⟩
  simp [jobStep, hphase, lookupJob, Fate.error?]

/-- A task ends from its start on. -/
theorem ends_of_entered (htask : s.tasks[i]? = some task) (hphase : task.phase = .entered) :
    Ends cfg s i := by
  have hstep : jobStep cfg s.pid s.shared task .go = enterJob s.shared task := by
    simp [jobStep, hphase]
  by_cases hvalid : task.dispatch.jobId.text = "" ∨
      maxJobIdLen < task.dispatch.jobId.bytes.length
  · refine ends_of_step (P := fun phase => ∃ o, phase = .reporting o) ends_of_reporting htask .go
      ⟨failed (Str.lit "invalid job_id"), ?_⟩
    rw [hstep, enterJob, if_pos hvalid]
  · by_cases hin : task.dispatch.jobId ∈ s.shared.inflight
    · refine ⟨[.go], _, next_step_task htask .go, ?_⟩
      rw [hstep, enterJob, if_neg hvalid, if_pos hin]
    · refine ends_of_step (P := (· = .lookingUp)) ends_of_lookingUp htask .go ?_
      rw [hstep, enterJob, if_neg hvalid, if_neg hin]

/-- A store operation in progress has calls left. -/
theorem TaskTrace.calls_ne_nil {dispatch : Dispatch} {acts : List JobAct} {claimed : Bool}
    {phase : JobPhase} (h : TaskTrace cfg dispatch acts claimed phase) :
    (∀ argv calls, phase = .marking argv calls → calls ≠ []) ∧
      ∀ outcome calls, phase = .recording outcome calls → calls ≠ [] := by
  constructor
  · rintro argv calls rfl
    cases h
    assumption
  · rintro outcome calls rfl
    cases h
    assumption

/-- Every task that has not ended can be carried to its end: nothing waits for what cannot
come. -/
theorem ends_of_live (ht : Traced cfg s) (htask : s.tasks[i]? = some task)
    (hcrashed : task.phase ≠ .crashed) : Ends cfg s i := by
  have htrace := ht.tasks i task htask
  cases hphase : task.phase with
  | entered => exact ends_of_entered htask hphase
  | lookingUp => exact ends_of_lookingUp htask hphase
  | marking argv calls =>
      exact ends_of_marking htask ⟨argv, calls, hphase, htrace.calls_ne_nil.1 argv calls hphase⟩
  | running argv r => exact ends_of_running htask ⟨argv, r, hphase⟩
  | recording outcome calls =>
      exact ends_of_recording htask
        ⟨outcome, calls, hphase, htrace.calls_ne_nil.2 outcome calls hphase⟩
  | reporting outcome => exact ends_of_reporting htask ⟨outcome, hphase⟩
  | returning => exact ends_of_returning htask hphase
  | ended => exact ⟨[], task, htask, hphase⟩
  | crashed => exact absurd hphase hcrashed

end Ends

/-! ## Chunks, then one outcome -/

/-- What a task has handed to the results channel. -/
def Jobs.results (s : Jobs) (i : Nat) (jobId : Str) : List JobResult :=
  (sentReports (s.actsOf i)).map (Report.result jobId)

/-- In every run, the results of a task are chunks and then one outcome at most.  The chunks
are those {lit}`exec::stream` has delivered, in order, all of them once there is an outcome,
and none unless the command was spawned.  A task that has ended has sent an outcome, unless
it was a duplicate, which sends nothing, as does every task that enters while another has the
claim on its job; and every task can be carried to its end.  If {lit}`record_done` returned,
the outcome sent is the one recorded, and every later lookup that succeeds finds it until
the record is pruned. -/
theorem job_reports (cfg : JobConfig) (disk : Disk String) (pid : String)
    (events : List JobsEvent) (i : Nat) (task : JobTask)
    (htask : ((Jobs.new disk pid).run cfg events).tasks[i]? = some task) :
    let s := (Jobs.new disk pid).run cfg events
    let jobId := task.dispatch.jobId
    ∃ (chunks : List Chunk) (outcome : Option FinalOutcome),
      s.results i jobId = chunks.map (fun chunk => Report.result jobId (.chunk chunk)) ++
        outcome.toList.map (fun o => Report.result jobId (.outcome o)) ∧
      chunks <+: deliveredChunks (s.actsOf i) ∧
      (outcome.isSome → chunks = deliveredChunks (s.actsOf i)) ∧
      (chunks ≠ [] → .spawned ∈ s.actsOf i) ∧
      (task.phase = .ended → .duplicate ∉ s.actsOf i → outcome.isSome) ∧
      (.duplicate ∈ s.actsOf i → chunks = [] ∧ outcome = none) ∧
      (task.phase = .entered →
        ¬ (jobId.text = "" ∨ maxJobIdLen < jobId.bytes.length) →
        (∃ (k : Nat) (other : JobTask), s.tasks[k]? = some other ∧ other.dispatch.jobId = jobId ∧
          other.Holds) →
        s.next cfg (.step i .go) =
          s.move i s.shared { task with phase := .ended } [.duplicate]) ∧
      (task.phase ≠ .crashed → Ends cfg s i) ∧
      ∀ o, .recorded o ∈ s.actsOf i → (outcome = none ∨ outcome = some o) ∧
        ∀ later, CollisionFreeOn (Str.bytes '' insert jobId (dispatchedIds (events ++ later))) →
          NotPruned jobId (events ++ later) →
          ∃ new, (s.run cfg later).log = s.log ++ new ∧
            ∀ k state, ⟨k, jobId, .looked (.ok state)⟩ ∈ new → state = some (.finished o) := by
  intro s jobId
  have ht : Traced cfg s := (traced_new cfg disk pid).run events
  obtain ⟨chunks, outcome, hreported, hended, hduplicate⟩ := (ht.tasks i task htask).reported
  refine ⟨chunks, outcome, ?_, hreported.delivered, hreported.complete, ?_, hended, ?_, ?_, ?_, ?_⟩
  · simp [Jobs.results, hreported.reports, Function.comp_def]
  · intro hne
    refine hreported.spawned ?_
    intro hnil
    have hprefix := hreported.delivered
    rw [hnil] at hprefix
    exact hne (List.prefix_nil.mp hprefix)
  · intro hmem
    have hreports := hreported.reports
    rw [hduplicate hmem] at hreports
    have hnil : chunks.map Report.chunk ++ outcome.toList.map Report.outcome = [] :=
      hreports.symm
    simpa using hnil
  · rintro hphase hvalid ⟨k, other, hother, hj, hholds⟩
    exact duplicate_of_holds ((claims_new jobId disk pid).run events) htask hphase hvalid hother hj
      hholds
  · exact fun hcrashed => ends_of_live ht htask hcrashed
  · intro o hrecorded
    refine ⟨hreported.recorded o hrecorded, ?_⟩
    intro later hcollide hkeep
    have hretains := retains_of_notPruned hcollide hkeep
    have hevents : ∀ event ∈ events, Retains jobId event :=
      fun e he => hretains e (List.mem_append_left _ he)
    have hstay : RecordsStay jobId s :=
      RecordsStay.run (fun _ _ hmem => by cases hmem) (kept_new jobId disk pid)
        (traced_new cfg disk pid) hevents
    exact lookups_after_recorded ((kept_new jobId disk pid).run (traced_new cfg disk pid) hevents)
      ht hstay (ht.mem_log htask hrecorded) fun e he => hretains e (List.mem_append_right _ he)

/-- A job that prints and exits. -/
def printing : List JobsEvent :=
  let call : JobsEvent := .step 0 (.call .answered)
  let output : List JobsEvent :=
    [.step 0 .spawns, .step 0 (.delivers (.stdout (.lit [104, 105]))), .step 0 .drains,
      .step 0 (.returns ⟨some 0, none, false, false⟩), .step 0 .forwards, .step 0 .joins]
  ([.epoch, .spawn trueJob, .step 0 .go] : List JobsEvent) ++ List.replicate 7 call ++ output ++
    List.replicate 6 call ++ ([.step 0 .go, .step 0 .go] : List JobsEvent)

/-- A command that prints. -/
theorem job_reports_printing :
    ((Jobs.new ⟨fun _ => none, []⟩ "11").run permissive printing).results 0 trueJob.jobId =
      [Report.result trueJob.jobId (.chunk (.stdout (.lit [104, 105]))),
        Report.result trueJob.jobId (.outcome ⟨.exitCode 0, false, false⟩)] ∧
    ∃ task, ((Jobs.new ⟨fun _ => none, []⟩ "11").run permissive printing).tasks[0]? = some task ∧
      ∃ (chunks : List Chunk) (outcome : Option FinalOutcome),
        ((Jobs.new ⟨fun _ => none, []⟩ "11").run permissive printing).results 0
            task.dispatch.jobId =
          chunks.map (fun chunk => Report.result task.dispatch.jobId (.chunk chunk)) ++
            outcome.toList.map (fun o => Report.result task.dispatch.jobId (.outcome o)) := by
  refine ⟨by decide +kernel, ?_⟩
  obtain ⟨task, htask⟩ : ∃ task,
      ((Jobs.new ⟨fun _ => none, []⟩ "11").run permissive printing).tasks[0]? = some task :=
    Option.isSome_iff_exists.mp (by decide +kernel)
  obtain ⟨chunks, outcome, hresults, -⟩ := job_reports permissive _ "11" printing 0 task htask
  exact ⟨task, htask, chunks, outcome, hresults⟩

end Agent
end OpenSsmAgent
