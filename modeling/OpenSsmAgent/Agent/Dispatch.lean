import OpenSsmAgent.Agent.Exec
import OpenSsmAgent.Agent.JobStore
import OpenSsmAgent.Core.Allowlist

/-!
# Running dispatched jobs

The job runner of {lit}`osa-agent/src/dispatch.rs`.  A task takes a dispatch through
{lit}`run_job`: it claims the job, looks its record up, asks the backstop, marks the
job started, runs the command while a drain forwards its output, records the outcome
and reports it.  Many tasks run at once over one job store and one set of jobs in
flight, and a crash takes all of them and leaves the files.

A step of a task is one action that other tasks can see: a change of the claims, a
system call, an event of the running command, or a report.  The environment decides
which task moves, what becomes of a system call, and what the command does.

Main results:

- Theorem {lit}`afterLookup_cases`: a job that was never seen is started only if the
  backstop permits it.
- Theorem {lit}`jobStep_cases`: every step of a task is one of the moves listed in
  {lit}`JobMove`.
-/

open Framing RemoteCalls CrashStore

namespace OpenSsmAgent
namespace Agent

open Proto

/-! ## Tasks -/

/-- {lit}`MAX_JOB_ID_LEN`. -/
def maxJobIdLen : Nat := 256

/-- {lit}`exec::KIND`. -/
def execKind : String := "exec"

/-- The capacity of the channel between {lit}`exec::stream` and the drain. -/
def chunkQueue : Nat := 64

/-- {lit}`ExecError`: the missing command, or another error with its text. -/
inductive ExecError where
  | emptyArgv
  | other (display : Str)
deriving DecidableEq

/-- The text of an error. -/
def ExecError.display : ExecError → Str
  | .emptyArgv => Str.lit "no command given"
  | .other display => display

/-- A command and the drain of its output, joined through a bounded channel. -/
structure Running where
  spawned : Bool
  queue : List Chunk
  draining : Option Chunk
  result : Option (Except ExecError Exec.StreamOutcome)

/-- A command that {lit}`exec::stream` was just called for. -/
def Running.start : Running := ⟨false, [], none, none⟩

/-- Where a task is in {lit}`run_job`. -/
inductive JobPhase where
  | entered
  | lookingUp
  | marking (argv : List Str) (calls : List (FsCall String))
  | running (argv : List Str) (running : Running)
  | recording (outcome : FinalOutcome) (calls : List (FsCall String))
  | reporting (outcome : FinalOutcome)
  | returning
  | ended
  | crashed

/-- A task of the runner. -/
structure JobTask where
  dispatch : Dispatch
  claimed : Bool
  phase : JobPhase

/-- The task of a dispatch. -/
def JobTask.new (dispatch : Dispatch) : JobTask := ⟨dispatch, false, .entered⟩

/-- What tasks do. -/
inductive JobAct where
  | claimed
  | duplicate
  | looked (result : Except String (Option JobState))
  | marked
  | executed (kind runAs : Str) (argv : List Str)
  | spawned
  | delivered (chunk : Chunk)
  | recorded (outcome : FinalOutcome)
  | sent (report : Report)

/-- What all tasks share: the files and the jobs in flight. -/
structure Shared where
  disk : Disk String
  inflight : List Str

/-- The texts of errors that are formatted elsewhere. -/
structure JobTexts where
  denied : BackstopDenial → Str
  unsupported : Str → Str
  malformed : Blob → Str

/-- What is fixed for the runner. -/
structure JobConfig where
  hostId : Str
  backstop : LocalAllowlist
  texts : JobTexts

/-- What the environment lets a task do next. -/
inductive JobChoice where
  | go
  | call (fate : Fate String)
  | streamFails (error : ExecError)
  | spawns
  | delivers (chunk : Chunk)
  | returns (outcome : Exec.StreamOutcome)
  | drains
  | forwards
  | joins

/-! ## {lit}`run_job` -/

/-- The message of an interrupted job. -/
def interrupted : FinalOutcome :=
  failed (Str.lit "job was interrupted before completing; not re-executed")

/-- The message of a store that does not answer. -/
def storeUnavailable : FinalOutcome :=
  failed (Str.lit "agent job store unavailable")

/-- The part of {lit}`run_job` between the lookup of a job that was never seen and its
start marker: the backstop, the capability and the parameters. -/
def afterLookup (cfg : JobConfig) (pid : String) (dispatch : Dispatch) : JobPhase :=
  match cfg.backstop.permits ⟨dispatch.kind, cfg.hostId, dispatch.runAs, default⟩ with
  | .error denial => .reporting (failed (cfg.texts.denied denial))
  | .ok () =>
      if dispatch.kind.text ≠ execKind then
        .reporting (failed (cfg.texts.unsupported dispatch.kind))
      else
        match ExecParams.decode dispatch.params.bytes with
        | none => .reporting (failed (cfg.texts.malformed dispatch.params))
        | some params => .marking params.argv (markStarted pid dispatch.jobId)

/-- The outcome of a command. -/
def outcomeOf : Except ExecError Exec.StreamOutcome → FinalOutcome
  | .error e => failed e.display
  | .ok so =>
      let terminal := match so.exitCode, so.signal with
        | some code, _ => Terminal.exitCode code
        | none, some signal => .signal signal
        | none, none => .error (Str.lit "no terminal status")
      ⟨terminal, so.truncated, so.timedOut⟩

/-- The first step: refuse a bad id, or claim the job. -/
def enterJob (sh : Shared) (task : JobTask) : Shared × JobTask × List JobAct :=
  let jobId := task.dispatch.jobId
  if jobId.text = "" ∨ maxJobIdLen < jobId.bytes.length then
    (sh, { task with phase := .reporting (failed (Str.lit "invalid job_id")) }, [])
  else if jobId ∈ sh.inflight then (sh, { task with phase := .ended }, [.duplicate])
  else
    ({ sh with inflight := jobId :: sh.inflight },
      { task with claimed := true, phase := .lookingUp }, [.claimed])

/-- The lookup of a claimed job. -/
def lookupJob (cfg : JobConfig) (pid : String) (sh : Shared) (task : JobTask)
    (fate : Fate String) : Shared × JobTask × List JobAct :=
  match fate.error? with
  | some e => (sh, { task with phase := .reporting storeUnavailable }, [.looked (.error e)])
  | none =>
      let state := lookup sh.disk task.dispatch.jobId
      let phase := match state with
        | some (.finished outcome) => .reporting outcome
        | some .started => .reporting interrupted
        | none => afterLookup cfg pid task.dispatch
      (sh, { task with phase := phase }, [.looked (.ok state)])

/-- The disk after a call with its fate. -/
def callDisk (d : Disk String) (c : FsCall String) : Fate String → Disk String
  | .failed _ => d
  | _ => effect c d

/-- One call of {lit}`mark_started`; the command runs once the last has returned. -/
def markJob (sh : Shared) (task : JobTask) (argv : List Str) (c : FsCall String)
    (rest : List (FsCall String)) (fate : Fate String) : Shared × JobTask × List JobAct :=
  let sh := { sh with disk := callDisk sh.disk c fate }
  if fate.error?.isSome then (sh, { task with phase := .reporting storeUnavailable }, [])
  else if rest.isEmpty then
    (sh, { task with phase := .running argv Running.start },
      [.marked, .executed task.dispatch.kind task.dispatch.runAs argv])
  else (sh, { task with phase := .marking argv rest }, [])

/-- One call of {lit}`record_done`; the outcome is reported even if it fails. -/
def recordJob (sh : Shared) (task : JobTask) (outcome : FinalOutcome) (c : FsCall String)
    (rest : List (FsCall String)) (fate : Fate String) : Shared × JobTask × List JobAct :=
  let sh := { sh with disk := callDisk sh.disk c fate }
  if fate.error?.isSome then (sh, { task with phase := .reporting outcome }, [])
  else if rest.isEmpty then (sh, { task with phase := .reporting outcome }, [.recorded outcome])
  else (sh, { task with phase := .recording outcome rest }, [])

/-- The command and its drain. -/
def Running.step (argv : List Str) (r : Running) : JobChoice → Running × List JobAct
  | .streamFails e =>
      if r.result.isNone then
        ({ r with result := some (.error (if argv = [] then .emptyArgv else e)) }, [])
      else (r, [])
  | .spawns =>
      if r.spawned = false ∧ r.result.isNone ∧ argv ≠ [] then
        ({ r with spawned := true }, [.spawned])
      else (r, [])
  | .delivers chunk =>
      if r.spawned ∧ r.result.isNone ∧ r.queue.length < chunkQueue then
        ({ r with queue := r.queue ++ [chunk] }, [.delivered chunk])
      else (r, [])
  | .returns outcome =>
      if r.spawned ∧ r.result.isNone then ({ r with result := some (.ok outcome) }, []) else (r, [])
  | .drains =>
      match r.draining, r.queue with
      | none, chunk :: queue => ({ r with queue := queue, draining := some chunk }, [])
      | _, _ => (r, [])
  | .forwards =>
      match r.draining with
      | some chunk => ({ r with draining := none }, [.sent (.chunk chunk)])
      | none => (r, [])
  | _ => (r, [])

/-- The command and the drain have both ended. -/
def Running.joined (r : Running) : Option FinalOutcome :=
  if r.queue = [] ∧ r.draining = none then r.result.map outcomeOf else none

/-- One step of {lit}`run_job`. -/
def jobStep (cfg : JobConfig) (pid : String) (sh : Shared) (task : JobTask)
    (choice : JobChoice) : Shared × JobTask × List JobAct :=
  match task.phase, choice with
  | .entered, .go => enterJob sh task
  | .lookingUp, .call fate => lookupJob cfg pid sh task fate
  | .marking argv (c :: rest), .call fate => markJob sh task argv c rest fate
  | .running _ r, .joins =>
      match r.joined with
      | some outcome =>
          (sh,
            { task with phase := .recording outcome (recordDone pid task.dispatch.jobId outcome) },
            [])
      | none => (sh, task, [])
  | .running argv r, choice =>
      let next := r.step argv choice
      (sh, { task with phase := .running argv next.1 }, next.2)
  | .recording outcome (c :: rest), .call fate => recordJob sh task outcome c rest fate
  | .reporting outcome, .go =>
      (sh, { task with phase := .returning }, [.sent (.outcome outcome)])
  | .returning, .go =>
      ({ sh with inflight := if task.claimed then sh.inflight.erase task.dispatch.jobId
          else sh.inflight },
        { task with phase := .ended }, [])
  | _, _ => (sh, task, [])

/-! ## The runner -/

/-- An act of a task, with the job it is for. -/
structure JobEntry where
  task : Nat
  jobId : Str
  act : JobAct

/-- The runner and its files: the entry of the directory of records may not have
reached the disk yet. -/
structure Jobs where
  shared : Shared
  dirSynced : Bool
  pid : String
  tasks : List JobTask
  log : List JobEntry

/-- A runner over a directory, before any session. -/
def Jobs.new (disk : Disk String) (pid : String) : Jobs :=
  ⟨⟨disk, []⟩, false, pid, [], []⟩

/-- What happens to the runner. -/
inductive JobsEvent where
  | epoch
  | spawn (dispatch : Dispatch)
  | step (task : Nat) (choice : JobChoice)
  | restart (pick : String → Nat) (torn : String → Bytes) (dirLost : Bool) (pid : String)
      (stale removable : String → Bool)

/-- A crash takes every task that has not ended. -/
def JobTask.crash (task : JobTask) : JobTask :=
  match task.phase with
  | .ended => task
  | _ => { task with phase := .crashed }

/-- A crash and the start of the next process: {lit}`JobStore::new` creates the
directory if it is gone, and prunes it. -/
def Jobs.restart (s : Jobs) (pick : String → Nat) (torn : String → Bytes) (dirLost : Bool)
    (pid : String) (stale removable : String → Bool) : Jobs :=
  let lost := dirLost && !s.dirSynced
  let disk := if lost then ⟨fun _ => none, []⟩ else s.shared.disk.crash pick torn
  { s with
    shared := ⟨prune stale removable disk, []⟩
    dirSynced := !lost
    pid := pid
    tasks := s.tasks.map JobTask.crash }

/-- A step of task {lit}`i`, with what it leaves of the shared state, of the task, and its
acts. -/
def Jobs.move (s : Jobs) (i : Nat) (sh : Shared) (task : JobTask) (acts : List JobAct) : Jobs :=
  { s with
    shared := sh
    tasks := s.tasks.set i task
    log := s.log ++ acts.map fun act => ⟨i, task.dispatch.jobId, act⟩ }

/-- One step of the runner.  {lit}`next_epoch` syncs the state directory, and a dispatch
arrives in a session, which was opened with an epoch. -/
def Jobs.next (cfg : JobConfig) (s : Jobs) : JobsEvent → Jobs
  | .epoch => { s with dirSynced := true }
  | .spawn dispatch =>
      if s.dirSynced then { s with tasks := s.tasks ++ [JobTask.new dispatch] } else s
  | .step i choice =>
      match s.tasks[i]? with
      | none => s
      | some task =>
          let out := jobStep cfg s.pid s.shared task choice
          s.move i out.1 out.2.1 out.2.2
  | .restart pick torn dirLost pid stale removable =>
      s.restart pick torn dirLost pid stale removable

/-- A run of the runner. -/
def Jobs.run (cfg : JobConfig) (s : Jobs) (events : List JobsEvent) : Jobs :=
  events.foldl (Jobs.next cfg) s

/-! ## What a step can do -/

/-- The outcome of a job that its lookup ends. -/
def answerOf : Except String (Option JobState) → Option FinalOutcome
  | .error _ => some storeUnavailable
  | .ok (some (.finished outcome)) => some outcome
  | .ok (some .started) => some interrupted
  | .ok none => none

/-- The backstop permits the command of a dispatch. -/
structure Permitted (cfg : JobConfig) (dispatch : Dispatch) (argv : List Str) : Prop where
  permits : cfg.backstop.permits ⟨dispatch.kind, cfg.hostId, dispatch.runAs, default⟩ = .ok ()
  kind : dispatch.kind.text = execKind
  params : ExecParams.decode dispatch.params.bytes = some ⟨argv⟩

section Moves

variable {cfg : JobConfig} {pid : String} {sh : Shared} {task : JobTask}

/-- A job that was never seen is started only if the backstop permits it. -/
theorem afterLookup_cases (cfg : JobConfig) (pid : String) (dispatch : Dispatch) :
    (∃ outcome, afterLookup cfg pid dispatch = .reporting outcome) ∨
    ∃ argv, afterLookup cfg pid dispatch = .marking argv (markStarted pid dispatch.jobId) ∧
      Permitted cfg dispatch argv := by
  unfold afterLookup
  split
  · exact Or.inl ⟨_, rfl⟩
  · rename_i hpermits
    split_ifs with hkind
    · exact Or.inl ⟨_, rfl⟩
    · split
      · exact Or.inl ⟨_, rfl⟩
      · rename_i params hparams
        exact Or.inr ⟨params.argv, rfl, hpermits, not_not.mp hkind, hparams⟩

/-- What a step of a task can do, with what it leaves of the shared state, of the task,
and its acts. -/
inductive JobMove (cfg : JobConfig) (pid : String) (sh : Shared) (task : JobTask) :
    Shared → JobTask → List JobAct → Prop
  | idle : JobMove cfg pid sh task sh task []
  | invalid (outcome : FinalOutcome) : task.phase = .entered →
      JobMove cfg pid sh task sh { task with phase := .reporting outcome } []
  | duplicate : task.phase = .entered → task.dispatch.jobId ∈ sh.inflight →
      JobMove cfg pid sh task sh { task with phase := .ended } [.duplicate]
  | claim : task.phase = .entered → task.dispatch.jobId ∉ sh.inflight →
      JobMove cfg pid sh task { sh with inflight := task.dispatch.jobId :: sh.inflight }
        { task with claimed := true, phase := .lookingUp } [.claimed]
  | answered (result : Except String (Option JobState)) (outcome : FinalOutcome) :
      task.phase = .lookingUp →
      (∀ state, result = .ok state → state = lookup sh.disk task.dispatch.jobId) →
      answerOf result = some outcome →
      JobMove cfg pid sh task sh { task with phase := .reporting outcome } [.looked result]
  | refused (outcome : FinalOutcome) : task.phase = .lookingUp →
      lookup sh.disk task.dispatch.jobId = none →
      JobMove cfg pid sh task sh { task with phase := .reporting outcome } [.looked (.ok none)]
  | marks (argv : List Str) : task.phase = .lookingUp →
      lookup sh.disk task.dispatch.jobId = none → Permitted cfg task.dispatch argv →
      JobMove cfg pid sh task sh
        { task with phase := .marking argv (markStarted pid task.dispatch.jobId) }
        [.looked (.ok none)]
  | markFails (argv : List Str) (c : FsCall String) (rest : List (FsCall String))
      (fate : Fate String) (outcome : FinalOutcome) : task.phase = .marking argv (c :: rest) →
      JobMove cfg pid sh task { sh with disk := callDisk sh.disk c fate }
        { task with phase := .reporting outcome } []
  | markCall (argv : List Str) (c : FsCall String) (rest : List (FsCall String)) :
      task.phase = .marking argv (c :: rest) → rest ≠ [] →
      JobMove cfg pid sh task { sh with disk := effect c sh.disk }
        { task with phase := .marking argv rest } []
  | marked (argv : List Str) (c : FsCall String) : task.phase = .marking argv [c] →
      JobMove cfg pid sh task { sh with disk := effect c sh.disk }
        { task with phase := .running argv Running.start }
        [.marked, .executed task.dispatch.kind task.dispatch.runAs argv]
  | stream (argv : List Str) (r : Running) (choice : JobChoice) : task.phase = .running argv r →
      JobMove cfg pid sh task sh { task with phase := .running argv (r.step argv choice).1 }
        (r.step argv choice).2
  | joined (argv : List Str) (r : Running) (outcome : FinalOutcome) :
      task.phase = .running argv r → r.queue = [] → r.draining = none →
      JobMove cfg pid sh task sh
        { task with phase := .recording outcome (recordDone pid task.dispatch.jobId outcome) } []
  | recordFails (outcome : FinalOutcome) (c : FsCall String) (rest : List (FsCall String))
      (fate : Fate String) : task.phase = .recording outcome (c :: rest) →
      JobMove cfg pid sh task { sh with disk := callDisk sh.disk c fate }
        { task with phase := .reporting outcome } []
  | recordCall (outcome : FinalOutcome) (c : FsCall String) (rest : List (FsCall String)) :
      task.phase = .recording outcome (c :: rest) → rest ≠ [] →
      JobMove cfg pid sh task { sh with disk := effect c sh.disk }
        { task with phase := .recording outcome rest } []
  | recorded (outcome : FinalOutcome) (c : FsCall String) : task.phase = .recording outcome [c] →
      JobMove cfg pid sh task { sh with disk := effect c sh.disk }
        { task with phase := .reporting outcome } [.recorded outcome]
  | reports (outcome : FinalOutcome) : task.phase = .reporting outcome →
      JobMove cfg pid sh task sh { task with phase := .returning } [.sent (.outcome outcome)]
  | ends : task.phase = .returning →
      JobMove cfg pid sh task
        { sh with inflight := if task.claimed then sh.inflight.erase task.dispatch.jobId
            else sh.inflight }
        { task with phase := .ended } []

theorem callDisk_of_error?_eq_none {d : Disk String} {c : FsCall String} {fate : Fate String}
    (h : fate.error? = none) : callDisk d c fate = effect c d := by
  cases fate with
  | failed e => cases h
  | _ => rfl

theorem lookupJob_cases (fate : Fate String) (h : task.phase = .lookingUp) :
    JobMove cfg pid sh task (lookupJob cfg pid sh task fate).1 (lookupJob cfg pid sh task fate).2.1
      (lookupJob cfg pid sh task fate).2.2 := by
  unfold lookupJob
  split
  · rename_i e _
    exact .answered (.error e) _ h (by simp) rfl
  · cases hstate : lookup sh.disk task.dispatch.jobId with
    | none =>
        rcases afterLookup_cases cfg pid task.dispatch with ⟨outcome, heq⟩ | ⟨argv, heq, hpermitted⟩
        · simp only [heq]
          exact .refused outcome h hstate
        · simp only [heq]
          exact .marks argv h hstate hpermitted
    | some state =>
        cases state with
        | started => exact .answered (.ok (some .started)) _ h (by simp [hstate]) rfl
        | finished outcome =>
            exact .answered (.ok (some (.finished outcome))) _ h (by simp [hstate]) rfl

/-- Every step of a task is one of the moves. -/
theorem jobStep_cases (cfg : JobConfig) (pid : String) (sh : Shared) (task : JobTask)
    (choice : JobChoice) :
    JobMove cfg pid sh task (jobStep cfg pid sh task choice).1
      (jobStep cfg pid sh task choice).2.1 (jobStep cfg pid sh task choice).2.2 := by
  unfold jobStep
  split
  · rename_i hphase
    simp only [enterJob]
    split_ifs with hid hdup
    · exact .invalid _ hphase
    · exact .duplicate hphase hdup
    · exact .claim hphase hdup
  · rename_i fate hphase
    exact lookupJob_cases fate hphase
  · rename_i argv c rest fate hphase
    simp only [markJob]
    split_ifs with herror hrest
    · exact .markFails argv c rest fate _ hphase
    · rw [List.isEmpty_iff] at hrest
      subst hrest
      rw [callDisk_of_error?_eq_none (by simpa using herror)]
      exact .marked argv c hphase
    · rw [callDisk_of_error?_eq_none (by simpa using herror)]
      exact .markCall argv c rest hphase (by simpa using hrest)
  · rename_i argv r hphase
    split
    · rename_i outcome hjoined
      unfold Running.joined at hjoined
      split_ifs at hjoined with hdrained
      exact .joined argv r outcome hphase hdrained.1 hdrained.2
    · exact .idle
  · rename_i argv r hphase _
    exact .stream argv r _ hphase
  · rename_i outcome c rest fate hphase
    simp only [recordJob]
    split_ifs with herror hrest
    · exact .recordFails outcome c rest fate hphase
    · rw [List.isEmpty_iff] at hrest
      subst hrest
      rw [callDisk_of_error?_eq_none (by simpa using herror)]
      exact .recorded outcome c hphase
    · rw [callDisk_of_error?_eq_none (by simpa using herror)]
      exact .recordCall outcome c rest hphase (by simpa using hrest)
  · rename_i outcome hphase
    exact .reports outcome hphase
  · rename_i hphase
    exact .ends hphase
  · exact .idle

theorem JobMove.dispatch_eq {sh' : Shared} {task' : JobTask} {new : List JobAct}
    (h : JobMove cfg pid sh task sh' task' new) : task'.dispatch = task.dispatch := by
  cases h <;> rfl

end Moves

end Agent
end OpenSsmAgent
