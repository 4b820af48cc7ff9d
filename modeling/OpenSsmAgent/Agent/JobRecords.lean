import OpenSsmAgent.Agent.JobClaims

/-!
# Jobs and their records

What holds between the claims, the records on disk and the log of the job runner, in
every run with crashes.  A job that was executed has a record that survives every crash,
so it is never marked again; a record that nobody is writing stays as it is.

Main results:

- Theorem {lit}`Kept.run`: in every run that does not prune the record of a job, the job
  is executed at most once, and its record is there from then on.
- Theorem {lit}`Frozen.run`: the record of an executed job that no task is writing stays.
-/

open Framing RemoteCalls CrashStore

namespace OpenSsmAgent
namespace Agent

open Proto

/-! ## Calls -/

/-- The calls of a store operation that are still to be made. -/
def JobPhase.calls : JobPhase → List (FsCall String)
  | .marking _ calls => calls
  | .recording _ calls => calls
  | _ => []

/-- A call that writes to the record of a job, or to its temporary file. -/
def OwnCall (pid : String) (jobId : Str) (c : FsCall String) : Prop :=
  ∀ name ∈ c.writes, name = tmpName pid (recordName jobId) ∨ name = recordName jobId

/-- Whether an act runs the command. -/
def JobAct.isExecuted : JobAct → Bool
  | .executed _ _ _ => true
  | _ => false

section Moves

variable {cfg : JobConfig} {pid : String} {sh sh' : Shared} {task task' : JobTask}
  {acts : List JobAct}

/-- A record is written by calls on its own files. -/
theorem ownCall_durableWrite (pid : String) (jobId : Str) (bytes : Bytes) :
    ∀ c ∈ durableWrite (tmpName pid (recordName jobId)) (recordName jobId) bytes,
      OwnCall pid jobId c := by
  intro c hc
  simp only [durableWrite, List.mem_cons, List.not_mem_nil, or_false] at hc
  rcases hc with rfl | rfl | rfl | rfl | rfl | rfl <;> simp [OwnCall, FsCall.writes]

/-- The calls of a task stay on its own files. -/
theorem JobMove.ownCalls (h : JobMove cfg pid sh task sh' task' acts)
    (hown : ∀ c ∈ task.phase.calls, OwnCall pid task.dispatch.jobId c) :
    ∀ c ∈ task'.phase.calls, OwnCall pid task.dispatch.jobId c := by
  cases h with
  | idle => exact hown
  | marks argv _ _ _ => exact ownCall_durableWrite _ _ _
  | joined argv r outcome _ _ _ => exact ownCall_durableWrite _ _ _
  | markCall argv c rest hphase _ =>
      intro c' hc'
      exact hown c' (by rw [hphase]; exact List.mem_cons_of_mem _ hc')
  | recordCall outcome c rest hphase _ =>
      intro c' hc'
      exact hown c' (by rw [hphase]; exact List.mem_cons_of_mem _ hc')
  | _ => simp [JobPhase.calls]

/-- A call takes effect or not. -/
theorem callDisk_cases (d : Disk String) (c : FsCall String) (fate : Fate String) :
    callDisk d c fate = d ∨ callDisk d c fate = effect c d := by
  cases fate with
  | failed e => exact Or.inl rfl
  | _ => exact Or.inr rfl

/-- A move changes the disk by the next call of its task at most. -/
theorem JobMove.disk_cases (h : JobMove cfg pid sh task sh' task' acts) :
    sh'.disk = sh.disk ∨
      ∃ c rest, task.phase.calls = c :: rest ∧ sh'.disk = effect c sh.disk := by
  cases h with
  | markFails argv c rest fate _ hphase =>
      rcases callDisk_cases sh.disk c fate with heq | heq
      · exact Or.inl heq
      · exact Or.inr ⟨c, rest, by rw [hphase]; rfl, heq⟩
  | markCall argv c rest hphase _ => exact Or.inr ⟨c, rest, by rw [hphase]; rfl, rfl⟩
  | marked argv c hphase => exact Or.inr ⟨c, [], by rw [hphase]; rfl, rfl⟩
  | recordFails outcome c rest fate hphase =>
      rcases callDisk_cases sh.disk c fate with heq | heq
      · exact Or.inl heq
      · exact Or.inr ⟨c, rest, by rw [hphase]; rfl, heq⟩
  | recordCall outcome c rest hphase _ => exact Or.inr ⟨c, rest, by rw [hphase]; rfl, rfl⟩
  | recorded outcome c hphase => exact Or.inr ⟨c, [], by rw [hphase]; rfl, rfl⟩
  | _ => exact Or.inl rfl

/-- A task with calls is busy. -/
theorem busy_of_calls {phase : JobPhase} (h : phase.calls ≠ []) : phase.busy = true := by
  cases phase with
  | marking argv calls => rfl
  | recording outcome calls => rfl
  | _ => exact absurd rfl h

/-- A task becomes busy only if it found no record. -/
theorem JobMove.busy_cases (h : JobMove cfg pid sh task sh' task' acts)
    (hbusy : task'.phase.busy = true) :
    task.phase.busy = true ∨ lookup sh.disk task.dispatch.jobId = none := by
  cases h with
  | idle => exact Or.inl hbusy
  | marks _ _ hlookup _ => exact Or.inr hlookup
  | markCall _ _ _ hphase _ => exact Or.inl (by rw [hphase]; rfl)
  | marked _ _ hphase => exact Or.inl (by rw [hphase]; rfl)
  | stream _ _ _ hphase => exact Or.inl (by rw [hphase]; rfl)
  | joined _ _ _ hphase _ _ => exact Or.inl (by rw [hphase]; rfl)
  | recordCall _ _ _ hphase _ => exact Or.inl (by rw [hphase]; rfl)
  | _ => cases hbusy

/-- Only the last call of {lit}`mark_started` runs the command. -/
theorem JobMove.executed_cases (h : JobMove cfg pid sh task sh' task' acts) :
    (∀ act ∈ acts, act.isExecuted = false) ∨
    ∃ argv c, task.phase = .marking argv [c] ∧ sh'.disk = effect c sh.disk ∧
      task'.phase = .running argv Running.start ∧
      acts = [.marked, .executed task.dispatch.kind task.dispatch.runAs argv] := by
  cases h with
  | marked argv c hphase => exact Or.inr ⟨argv, c, hphase, rfl, rfl, rfl⟩
  | stream argv r choice _ =>
      refine Or.inl ?_
      intro act hact
      rcases Running.step_acts argv r choice act hact with rfl | ⟨chunk, rfl⟩ | ⟨chunk, rfl⟩ <;> rfl
  | _ => exact Or.inl (by simp [JobAct.isExecuted])

end Moves

/-! ## The record of a job -/

/-- How often {lit}`exec::stream` was called for a job. -/
def executions (j : Str) (log : List JobEntry) : Nat :=
  log.countP fun entry => entry.jobId = j && entry.act.isExecuted

/-- An entry with synced contents, whatever they are. -/
def Present (entry : Option File) : Prop :=
  ∃ f, entry = some f ∧ f.synced = true

/-- A start marker, or the record of an outcome. -/
def StartedOr (outcome : FinalOutcome) (entry : Option File) : Prop :=
  SyncedFile startedRecord entry ∨ SyncedFile (doneRecord outcome) entry

/-- What holds of the task that has claimed a job. -/
def PhaseKept (j : Str) (s : Jobs) : JobPhase → Prop
  | .marking _ calls => executions j s.log = 0 ∧
      Writing (tmpName s.pid (recordName j)) (recordName j) startedRecord s.shared.disk calls
  | .running _ _ => EveryEntry (recordName j) (SyncedFile startedRecord) s.shared.disk
  | .recording outcome calls =>
      EveryEntry (recordName j) (StartedOr outcome) s.shared.disk ∧
      Writing (tmpName s.pid (recordName j)) (recordName j) (doneRecord outcome) s.shared.disk calls
  | _ => True

/-- What holds of a job: its record is there if it was executed, and it was executed once
at most. -/
structure Kept (j : Str) (s : Jobs) : Prop extends Claims j s where
  names : ∀ task ∈ s.tasks, recordName task.dispatch.jobId = recordName j →
    task.dispatch.jobId = j
  calls : ∀ task ∈ s.tasks, ∀ c ∈ task.phase.calls, OwnCall s.pid task.dispatch.jobId c
  phase : ∀ (i : Nat) (task : JobTask), s.tasks[i]? = some task → task.dispatch.jobId = j →
    task.Holds → PhaseKept j s task.phase
  executed : 0 < executions j s.log → EveryEntry (recordName j) Present s.shared.disk
  once : executions j s.log ≤ 1
  dir : s.tasks ≠ [] → s.dirSynced = true

/-- An event that leaves the record of a job alone: other jobs have other records, and a
restart does not prune it. -/
def Retains (j : Str) : JobsEvent → Prop
  | .spawn dispatch => recordName dispatch.jobId = recordName j → dispatch.jobId = j
  | .restart _ _ _ _ stale _ => stale (recordName j) = false
  | _ => True

section Kept

variable {cfg : JobConfig} {j : Str} {s : Jobs} {sh : Shared} {task task' : JobTask}
  {acts : List JobAct} {i : Nat} {d : Disk String} {stale removable : String → Bool}

/-- A file survives a crash. -/
theorem Present.survives {entry : Option File} {torn : Bytes} (h : Present entry) :
    Present (entry.map fun f => if f.synced then f else ⟨torn, true, f.mode⟩) := by
  obtain ⟨f, rfl, hf⟩ := h
  exact ⟨f, by simp [hf], hf⟩

/-- A synced file is there. -/
theorem SyncedFile.present {bytes : Bytes} {entry : Option File} (h : SyncedFile bytes entry) :
    Present entry := by
  obtain ⟨mode, rfl⟩ := h
  exact ⟨_, rfl, rfl⟩

/-- A lookup finds the record. -/
theorem lookup_ne_none (h : EveryEntry (recordName j) Present d) :
    lookup d j ≠ none := by
  obtain ⟨f, hf, -⟩ := h.live
  simp [lookup, Disk.found, hf]

/-- A lookup reads the record. -/
theorem lookup_eq_some {bytes : Bytes} (h : EveryEntry (recordName j) (SyncedFile bytes) d) :
    lookup d j = some (parseRecord bytes) := by
  obtain ⟨mode, hf⟩ := h.live
  simp [lookup, Disk.found, hf]

@[simp] theorem executions_append (log log' : List JobEntry) :
    executions j (log ++ log') = executions j log + executions j log' :=
  List.countP_append

/-- Nothing was executed at the start. -/
theorem kept_new (j : Str) (disk : Disk String) (pid : String) : Kept j (Jobs.new disk pid) := by
  refine ⟨claims_new j disk pid, ?_, ?_, ?_, ?_, ?_, ?_⟩ <;> simp [Jobs.new, executions]

/-- A job that was executed is never marked. -/
theorem Kept.executions_eq_zero (h : Kept j s) (hlookup : lookup s.shared.disk j = none) :
    executions j s.log = 0 := by
  by_contra hne
  exact lookup_ne_none (h.executed (Nat.pos_of_ne_zero hne)) hlookup

/-- Calls of other jobs do not touch the files of a job. -/
theorem Kept.notMem_writes (h : Kept j s) (htask : task ∈ s.tasks) (hne : task.dispatch.jobId ≠ j)
    {c : FsCall String} (hc : c ∈ task.phase.calls) :
    tmpName s.pid (recordName j) ∉ c.writes ∧ recordName j ∉ c.writes := by
  have hown := h.calls task htask c hc
  have hname : recordName task.dispatch.jobId ≠ recordName j :=
    fun heq => hne (h.names task htask heq)
  constructor
  · intro hmem
    rcases hown _ hmem with heq | heq
    · exact hname (tmpName_injective _ heq).symm
    · exact recordName_ne_tmpName _ _ _ heq.symm
  · intro hmem
    rcases hown _ hmem with heq | heq
    · exact recordName_ne_tmpName _ _ _ heq
    · exact hname heq.symm

theorem executions_map (acts : List JobAct) (i : Nat) (jobId : Str) :
    executions j (acts.map fun act => ⟨i, jobId, act⟩) =
      if jobId = j then acts.countP JobAct.isExecuted else 0 := by
  split_ifs with hid
  · simp [executions, List.countP_map, Function.comp_def, hid]
  · simp [executions, List.countP_map, Function.comp_def, hid]

/-- A move that does not run the command of the job. -/
theorem executions_move_eq
    (h : task'.dispatch.jobId = j → ∀ act ∈ acts, act.isExecuted = false) :
    executions j (s.move i sh task' acts).log = executions j s.log := by
  simp only [Jobs.move, executions_append, executions_map]
  split_ifs with hid
  · rw [List.countP_eq_zero.mpr (by simpa using h hid), Nat.add_zero]
  · rfl

/-- What holds of the task with the claim, while others move on other files. -/
theorem PhaseKept.frame {s' : Jobs} {phase : JobPhase} (h : PhaseKept j s phase)
    (hpid : s'.pid = s.pid) (hlog : executions j s'.log = executions j s.log)
    (hdisk : s'.shared.disk = s.shared.disk ∨
      ∃ c, (tmpName s.pid (recordName j) ∉ c.writes ∧ recordName j ∉ c.writes) ∧
        s'.shared.disk = effect c s.shared.disk) : PhaseKept j s' phase := by
  rcases hdisk with hdisk | ⟨c, ⟨htmp, hname⟩, hdisk⟩
  · unfold PhaseKept at h ⊢
    rw [hpid, hlog, hdisk]
    exact h
  · cases phase with
    | marking argv calls =>
        simp only [PhaseKept, hpid, hlog, hdisk] at h ⊢
        exact ⟨h.1, h.2.frame htmp hname⟩
    | running argv r =>
        simp only [PhaseKept, hdisk] at h ⊢
        exact EveryEntry.frame h hname
    | recording outcome calls =>
        simp only [PhaseKept, hpid, hdisk] at h ⊢
        exact ⟨EveryEntry.frame h.1 hname, h.2.frame htmp hname⟩
    | _ => trivial

/-- What holds of the task with the claim after its own move. -/
theorem Kept.phase_move (h : Kept j s) (htask : s.tasks[i]? = some task)
    (hj : task.dispatch.jobId = j)
    (htrace : TaskTrace cfg task.dispatch (s.actsOf i) task.claimed task.phase)
    (hmove : JobMove cfg s.pid s.shared task sh task' acts) (hholds : task'.Holds) :
    PhaseKept j (s.move i sh task' acts) task'.phase := by
  have hne : recordName j ≠ tmpName s.pid (recordName j) := recordName_ne_tmpName _ _ _
  have hphase : task.Holds → PhaseKept j s task.phase := h.phase i task htask hj
  cases hmove with
  | idle => exact (hphase hholds).frame rfl (executions_move_eq (by simp)) (Or.inl rfl)
  | marks argv _ hlookup _ =>
      subst hj
      refine ⟨?_, .create⟩
      rw [executions_move_eq (by simp [JobAct.isExecuted])]
      exact h.executions_eq_zero hlookup
  | markCall argv c rest hmarking _ =>
      have hkept := hphase (htrace.holds (by rw [hmarking]; rfl))
      rw [hmarking] at hkept
      refine ⟨?_, hkept.2.step hne⟩
      rw [executions_move_eq (by simp)]
      exact hkept.1
  | marked argv c hmarking =>
      have hkept := hphase (htrace.holds (by rw [hmarking]; rfl))
      rw [hmarking] at hkept
      cases hkept.2.step hne with
      | written hfile => exact hfile
  | stream argv r choice hrunning =>
      have hkept := hphase (htrace.holds (by rw [hrunning]; rfl))
      rw [hrunning] at hkept
      exact hkept
  | joined argv r outcome hrunning _ _ =>
      have hkept := hphase (htrace.holds (by rw [hrunning]; rfl))
      rw [hrunning] at hkept
      subst hj
      exact ⟨fun v hv => Or.inl (hkept v hv), .create⟩
  | recordCall outcome c rest hrecording _ =>
      have hkept := hphase (htrace.holds (by rw [hrecording]; rfl))
      rw [hrecording] at hkept
      exact ⟨hkept.2.keeps hne hkept.1 fun _ => Or.inr, hkept.2.step hne⟩
  | _ => trivial

/-- An executed job keeps its record, and is not executed again. -/
theorem Kept.executed_move (h : Kept j s) (htask : s.tasks[i]? = some task)
    (hj : task.dispatch.jobId = j)
    (htrace : TaskTrace cfg task.dispatch (s.actsOf i) task.claimed task.phase)
    (hmove : JobMove cfg s.pid s.shared task sh task' acts) :
    executions j (s.move i sh task' acts).log ≤ 1 ∧
      (0 < executions j (s.move i sh task' acts).log →
        EveryEntry (recordName j) Present sh.disk) := by
  have hne : recordName j ≠ tmpName s.pid (recordName j) := recordName_ne_tmpName _ _ _
  have hphase : task.Holds → PhaseKept j s task.phase := h.phase i task htask hj
  rcases hmove.executed_cases with hnone | ⟨argv, c, hmarking, hdisk, -, rfl⟩
  · rw [executions_move_eq (fun _ => hnone)]
    refine ⟨h.once, ?_⟩
    intro hpos
    have hpresent := h.executed hpos
    rcases hmove.disk_cases with heq | ⟨c, rest, hcalls, heq⟩
    · rwa [heq]
    · rw [heq]
      cases hp : task.phase with
      | marking argv calls =>
          have hkept := hphase (htrace.holds (by rw [hp]; rfl))
          rw [hp] at hkept
          exact absurd hkept.1 hpos.ne'
      | recording outcome calls =>
          have hkept := hphase (htrace.holds (by rw [hp]; rfl))
          rw [hp] at hkept hcalls
          obtain rfl : calls = c :: rest := hcalls
          exact hkept.2.keeps hne hpresent fun _ => SyncedFile.present
      | _ => simp [hp, JobPhase.calls] at hcalls
  · have hkept := hphase (htrace.holds (by rw [hmarking]; rfl))
    rw [hmarking] at hkept
    constructor
    · simp only [Jobs.move, executions_append, executions_map, hkept.1, hmove.dispatch_eq, hj]
      simp [JobAct.isExecuted]
    · intro _
      rw [hdisk]
      cases hkept.2.step hne with
      | written hfile => exact fun v hv => SyncedFile.present (hfile v hv)

/-- Moves keep the record. -/
theorem Kept.move (h : Kept j s) (ht : Traced cfg s) (htask : s.tasks[i]? = some task)
    (hmove : JobMove cfg s.pid s.shared task sh task' acts) : Kept j (s.move i sh task' acts) := by
  have hmem : task ∈ s.tasks := List.mem_of_getElem? htask
  have htrace := ht.tasks i task htask
  have hid : task'.dispatch.jobId = task.dispatch.jobId := by rw [hmove.dispatch_eq]
  have hset : ∀ t ∈ (s.move i sh task' acts).tasks, t ∈ s.tasks ∨ t = task' :=
    fun t ht => List.mem_or_eq_of_mem_set ht
  -- what the move changes on the disk, seen from the task with the claim on the job
  have hframe : (task.dispatch.jobId = j → ¬ task.Holds) → sh.disk = s.shared.disk ∨
      ∃ c, (tmpName s.pid (recordName j) ∉ c.writes ∧ recordName j ∉ c.writes) ∧
        sh.disk = effect c s.shared.disk := by
    intro hother
    rcases hmove.disk_cases with heq | ⟨c, rest, hcalls, heq⟩
    · exact Or.inl heq
    · by_cases hj : task.dispatch.jobId = j
      · exact absurd (htrace.holds (busy_of_calls (by simp [hcalls]))) (hother hj)
      · exact Or.inr ⟨c, h.notMem_writes hmem hj (by rw [hcalls]; exact List.mem_cons_self), heq⟩
  have hlog : (task.dispatch.jobId = j → ¬ task.Holds) →
      executions j (s.move i sh task' acts).log = executions j s.log := by
    intro hother
    refine executions_move_eq ?_
    intro hj
    rcases hmove.executed_cases with hnone | ⟨argv, c, hmarking, -, -, -⟩
    · exact hnone
    · exact absurd (htrace.holds (by rw [hmarking]; rfl)) (hother (hid ▸ hj))
  refine ⟨h.toClaims.move htask hmove, ?_, ?_, ?_, ?_, ?_, ?_⟩
  · intro t ht hname
    rcases hset t ht with ht | rfl
    · exact h.names t ht hname
    · rw [hid] at hname ⊢
      exact h.names task hmem hname
  · intro t ht
    rcases hset t ht with ht | rfl
    · exact h.calls t ht
    · rw [hid]
      exact hmove.ownCalls (h.calls task hmem)
  · intro k taskk hk hkj hkholds
    rcases getElem?_move hk with ⟨rfl, rfl⟩ | ⟨hki, hk⟩
    · exact h.phase_move htask (hid ▸ hkj) htrace hmove hkholds
    · have hout := h.other htask hki hk hkj hkholds
      exact (h.phase k taskk hk hkj hkholds).frame rfl (hlog hout) (hframe hout)
  · by_cases hj : task.dispatch.jobId = j
    · exact (h.executed_move htask hj htrace hmove).2
    · intro hpos
      rw [hlog (fun heq => absurd heq hj)] at hpos
      rcases hframe (fun heq => absurd heq hj) with heq | ⟨c, ⟨-, hname⟩, heq⟩
      · exact heq ▸ h.executed hpos
      · exact heq ▸ (h.executed hpos).frame hname
  · by_cases hj : task.dispatch.jobId = j
    · exact (h.executed_move htask hj htrace hmove).1
    · rw [hlog (fun heq => absurd heq hj)]
      exact h.once
  · intro _
    exact h.dir (List.ne_nil_of_mem hmem)

/-- A fresh record is not pruned. -/
theorem everyEntry_prune {P : Option File → Prop} (h : EveryEntry (recordName j) P d)
    (hstale : stale (recordName j) = false) :
    EveryEntry (recordName j) P (prune stale removable d) := by
  refine AllVersions.enter h ?_
  change P ((prune stale removable d).live (recordName j))
  rw [live_prune hstale]
  exact EveryEntry.live h

/-- A crashed task calls nothing. -/
theorem calls_crash (task : JobTask) : task.crash.phase.calls = [] := by
  unfold JobTask.crash
  split
  · rename_i hphase
    rw [hphase]
    rfl
  · rfl

/-- Once there was a task, the directory of records survives a crash. -/
theorem restart_disk (h : s.tasks ≠ [] → s.dirSynced = true) (htasks : s.tasks ≠ [])
    (pick : String → Nat) (torn : String → Bytes) (dirLost : Bool) (pid : String)
    (stale removable : String → Bool) :
    (s.restart pick torn dirLost pid stale removable).shared.disk =
      prune stale removable (s.shared.disk.crash pick torn) := by
  simp [Jobs.restart, h htasks]

/-- What holds of the record in every version, and of synced contents, holds after a
restart that does not prune it. -/
theorem everyEntry_restart {P : Option File → Prop} (h : s.tasks ≠ [] → s.dirSynced = true)
    (htasks : s.tasks ≠ []) (hfile : EveryEntry (recordName j) P s.shared.disk)
    (hsurvives : ∀ entry bytes, P entry →
      P (entry.map fun f => if f.synced then f else ⟨bytes, true, f.mode⟩)) (pick : String → Nat)
    (torn : String → Bytes) (dirLost : Bool) (pid : String)
    (hstale : stale (recordName j) = false) :
    EveryEntry (recordName j) P
      (s.restart pick torn dirLost pid stale removable).shared.disk := by
  rw [restart_disk h htasks]
  exact everyEntry_prune (hfile.crash pick torn hsurvives) hstale

/-- A job that was executed had a task. -/
theorem Traced.tasks_ne_nil (ht : Traced cfg s) (hpos : 0 < executions j s.log) : s.tasks ≠ [] := by
  obtain ⟨entry, hentry, -⟩ := List.countP_pos_iff.mp hpos
  obtain ⟨task, htask, -⟩ := ht.entries entry hentry
  exact List.ne_nil_of_mem (List.mem_of_getElem? htask)

/-- A new task keeps the record. -/
theorem Kept.spawn (h : Kept j s) (hdir : s.dirSynced = true) {dispatch : Dispatch}
    (hnames : recordName dispatch.jobId = recordName j → dispatch.jobId = j) :
    Kept j { s with tasks := s.tasks ++ [JobTask.new dispatch] } := by
  refine ⟨h.toClaims.spawn dispatch, ?_, ?_, ?_, ?_, ?_, ?_⟩
  · intro task htask
    rcases List.mem_append.mp htask with htask | htask
    · exact h.names task htask
    · rw [List.mem_singleton.mp htask]
      exact hnames
  · intro task htask
    rcases List.mem_append.mp htask with htask | htask
    · exact h.calls task htask
    · rw [List.mem_singleton.mp htask]
      intro c hc
      cases hc
  · intro k task hk hj hholds
    exact (h.phase k task (getElem?_spawn hk hholds) hj hholds).frame rfl rfl (Or.inl rfl)
  · exact h.executed
  · exact h.once
  · intro _
    exact hdir

/-- A restart keeps the record. -/
theorem Kept.restart (h : Kept j s) (ht : Traced cfg s) (pick : String → Nat)
    (torn : String → Bytes) (dirLost : Bool) (pid : String)
    (hstale : stale (recordName j) = false) :
    Kept j (s.restart pick torn dirLost pid stale removable) := by
  have hcrash : ∀ task ∈ (s.restart pick torn dirLost pid stale removable).tasks,
      ∃ old ∈ s.tasks, task = old.crash := by
    intro task htask
    obtain ⟨old, hold, rfl⟩ := List.mem_map.mp htask
    exact ⟨old, hold, rfl⟩
  refine ⟨claims_restart j s pick torn dirLost pid stale removable, ?_, ?_, ?_, ?_, ?_, ?_⟩
  · intro task htask hname
    obtain ⟨old, hold, rfl⟩ := hcrash task htask
    rw [crash_dispatch] at hname ⊢
    exact h.names old hold hname
  · intro task htask c hc
    obtain ⟨old, -, rfl⟩ := hcrash task htask
    rw [calls_crash] at hc
    cases hc
  · intro k task hk _ hholds
    obtain ⟨old, -, rfl⟩ := hcrash task (List.mem_of_getElem? hk)
    exact absurd hholds (not_holds_crash old)
  · intro hpos
    exact everyEntry_restart h.dir (ht.tasks_ne_nil hpos) (h.executed hpos)
      (fun _ _ => Present.survives) _ _ _ _ hstale
  · exact h.once
  · intro htasks
    have hdir : s.dirSynced = true := h.dir fun hnil => htasks (by simp [Jobs.restart, hnil])
    simp [Jobs.restart, hdir]

/-- Events keep the record. -/
theorem Kept.next (h : Kept j s) (ht : Traced cfg s) {event : JobsEvent}
    (hevent : Retains j event) :
    Kept j (s.next cfg event) := by
  cases event with
  | epoch =>
      exact ⟨⟨h.claims, h.alone⟩, h.names, h.calls, h.phase, h.executed, h.once, fun _ => rfl⟩
  | spawn dispatch =>
      simp only [Jobs.next]
      split_ifs with hdir
      · exact h.spawn hdir hevent
      · exact h
  | step i choice =>
      rcases next_step_cases cfg s i choice with heq | ⟨task, sh', task', acts, htask, hmove, heq⟩
      · rwa [heq]
      · rw [heq]
        exact h.move ht htask hmove
  | restart pick torn dirLost pid stale removable => exact h.restart ht _ _ _ _ hevent

/-- In every run that does not prune its record, a job is executed once at most. -/
theorem Kept.run (h : Kept j s) (ht : Traced cfg s) {events : List JobsEvent}
    (hevents : ∀ event ∈ events, Retains j event) : Kept j (s.run cfg events) := by
  induction events generalizing s with
  | nil => exact h
  | cons event events ih =>
      exact ih (h.next ht (hevents event List.mem_cons_self)) (ht.next event)
        fun e he => hevents e (List.mem_cons_of_mem _ he)

end Kept

/-! ## Records that nobody is writing -/

/-- A job that was executed, with no task that is busy with it, and what its record holds. -/
structure Frozen (j : Str) (P : Option File → Prop) (s : Jobs) : Prop where
  executed : 0 < executions j s.log
  quiet : ∀ (i : Nat) (task : JobTask), s.tasks[i]? = some task → task.dispatch.jobId = j →
    task.phase.busy = false
  file : EveryEntry (recordName j) P s.shared.disk

section Frozen

variable {cfg : JobConfig} {j : Str} {s : Jobs} {sh : Shared} {task task' : JobTask}
  {acts : List JobAct} {i : Nat} {P : Option File → Prop}

/-- Executions are not undone. -/
theorem executions_le_move :
    executions j s.log ≤ executions j (s.move i sh task' acts).log := by
  simp [Jobs.move]

/-- A crashed task is not busy. -/
theorem busy_crash (task : JobTask) : task.crash.phase.busy = false := by
  unfold JobTask.crash
  split
  · rename_i hphase
    rw [hphase]
    rfl
  · rfl

/-- Moves leave a frozen record. -/
theorem Frozen.move (h : Frozen j P s) (hk : Kept j s) (htask : s.tasks[i]? = some task)
    (hmove : JobMove cfg s.pid s.shared task sh task' acts) :
    Frozen j P (s.move i sh task' acts) := by
  refine ⟨h.executed.trans_le executions_le_move, ?_, ?_⟩
  · intro k taskk hk' hkj
    rcases getElem?_move hk' with ⟨rfl, rfl⟩ | ⟨-, hold⟩
    · rw [hmove.dispatch_eq] at hkj
      by_contra hbusy
      rcases hmove.busy_cases (by simpa using hbusy) with hbusy | hlookup
      · rw [h.quiet k task htask hkj] at hbusy
        cases hbusy
      · rw [hkj] at hlookup
        exact lookup_ne_none (hk.executed h.executed) hlookup
    · exact h.quiet k taskk hold hkj
  · change EveryEntry (recordName j) P sh.disk
    rcases hmove.disk_cases with heq | ⟨c, rest, hcalls, heq⟩
    · rw [heq]
      exact h.file
    · rw [heq]
      by_cases hj : task.dispatch.jobId = j
      · have hbusy := h.quiet i task htask hj
        rw [busy_of_calls (by simp [hcalls])] at hbusy
        cases hbusy
      · exact h.file.frame
          (hk.notMem_writes (List.mem_of_getElem? htask) hj (by simp [hcalls])).2

/-- A restart leaves it. -/
theorem Frozen.restart (hexecuted : 0 < executions j s.log)
    (hfile : EveryEntry (recordName j) P s.shared.disk) (hk : Kept j s) (ht : Traced cfg s)
    (hsurvives : ∀ entry bytes, P entry →
      P (entry.map fun f => if f.synced then f else ⟨bytes, true, f.mode⟩))
    (pick : String → Nat) (torn : String → Bytes) (dirLost : Bool) (pid : String)
    {stale removable : String → Bool} (hstale : stale (recordName j) = false) :
    Frozen j P (s.restart pick torn dirLost pid stale removable) := by
  refine ⟨hexecuted, ?_, ?_⟩
  · intro i task htask _
    obtain ⟨old, -, rfl⟩ := List.mem_map.mp (List.mem_of_getElem? htask)
    exact busy_crash old
  · exact everyEntry_restart hk.dir (ht.tasks_ne_nil hexecuted) hfile hsurvives _ _ _ _ hstale

/-- Events leave it. -/
theorem Frozen.next (h : Frozen j P s) (hk : Kept j s) (ht : Traced cfg s)
    (hsurvives : ∀ entry bytes, P entry →
      P (entry.map fun f => if f.synced then f else ⟨bytes, true, f.mode⟩))
    {event : JobsEvent} (hevent : Retains j event) : Frozen j P (s.next cfg event) := by
  cases event with
  | epoch => exact ⟨h.executed, h.quiet, h.file⟩
  | spawn dispatch =>
      simp only [Jobs.next]
      split_ifs
      · refine ⟨h.executed, ?_, h.file⟩
        intro i task htask hj
        rcases getElem?_concat_eq_some htask with htask | ⟨-, rfl⟩
        · exact h.quiet i task htask hj
        · rfl
      · exact h
  | step i choice =>
      rcases next_step_cases cfg s i choice with heq | ⟨task, sh', task', acts, htask, hmove, heq⟩
      · rwa [heq]
      · rw [heq]
        exact h.move hk htask hmove
  | restart pick torn dirLost pid stale removable =>
      exact Frozen.restart h.executed h.file hk ht hsurvives _ _ _ _ hevent

/-- A lookup that succeeds reads the record. -/
theorem JobMove.looked_eq {pid : String} {sh sh' : Shared}
    (h : JobMove cfg pid sh task sh' task' acts) {state : Option JobState}
    (hlooked : .looked (.ok state) ∈ acts) : state = lookup sh.disk task.dispatch.jobId := by
  cases h with
  | answered result outcome _ hresult _ =>
      obtain rfl : .ok state = result := by simpa using hlooked
      exact hresult state rfl
  | refused outcome _ hlookup =>
      obtain rfl : state = none := by simpa using hlooked
      exact hlookup.symm
  | marks argv _ hlookup _ =>
      obtain rfl : state = none := by simpa using hlooked
      exact hlookup.symm
  | stream argv r choice _ => simpa using Running.step_acts argv r choice _ hlooked
  | _ => simp at hlooked

/-- The log grows, and lookups in it read the record. -/
theorem next_log (cfg : JobConfig) (j : Str) (s : Jobs) (event : JobsEvent) :
    ∃ new, (s.next cfg event).log = s.log ++ new ∧ ∀ k state,
      ⟨k, j, .looked (.ok state)⟩ ∈ new → state = lookup s.shared.disk j := by
  have hsame : ∀ {s' : Jobs}, s'.log = s.log → ∃ new, s'.log = s.log ++ new ∧ ∀ k state,
      ⟨k, j, .looked (.ok state)⟩ ∈ new → state = lookup s.shared.disk j :=
    fun heq => ⟨[], by rw [heq, List.append_nil], by simp⟩
  cases event with
  | epoch => exact hsame rfl
  | spawn dispatch =>
      simp only [Jobs.next]
      split_ifs
      · exact hsame rfl
      · exact hsame rfl
  | step i choice =>
      rcases next_step_cases cfg s i choice with heq | ⟨task, sh', task', acts, htask, hmove, heq⟩
      · exact hsame (by rw [heq])
      · rw [heq]
        refine ⟨_, rfl, ?_⟩
        intro k state hlooked
        obtain ⟨act, hact, hentry⟩ := List.mem_map.mp hlooked
        cases hentry
        rw [hmove.dispatch_eq]
        exact hmove.looked_eq hact
  | restart pick torn dirLost pid stale removable => exact hsame rfl

/-- The record of an executed job that no task is writing stays, and every later lookup
that succeeds reads it. -/
theorem Frozen.run {R : Option JobState → Prop} (h : Frozen j P s) (hk : Kept j s)
    (ht : Traced cfg s)
    (hsurvives : ∀ entry bytes, P entry →
      P (entry.map fun f => if f.synced then f else ⟨bytes, true, f.mode⟩))
    (hread : ∀ d, EveryEntry (recordName j) P d → R (lookup d j)) {events : List JobsEvent}
    (hevents : ∀ event ∈ events, Retains j event) :
    ∃ new, (s.run cfg events).log = s.log ++ new ∧ ∀ k state,
      ⟨k, j, .looked (.ok state)⟩ ∈ new → R state := by
  induction events generalizing s with
  | nil => exact ⟨[], (List.append_nil _).symm, by simp⟩
  | cons event events ih =>
      have hevent := hevents event List.mem_cons_self
      obtain ⟨new, hnew, hlooked⟩ := next_log cfg j s event
      obtain ⟨rest, hrest, hlooked'⟩ := ih (h.next hk ht hsurvives hevent) (hk.next ht hevent)
        (ht.next event) fun e he => hevents e (List.mem_cons_of_mem _ he)
      refine ⟨new ++ rest, ?_, ?_⟩
      · change ((s.next cfg event).run cfg events).log = _
        rw [hrest, hnew, List.append_assoc]
      · intro k state hmem
        rcases List.mem_append.mp hmem with hmem | hmem
        · rw [hlooked k state hmem]
          exact hread _ h.file
        · exact hlooked' k state hmem

/-- A task that ran its command shows in the log of its job. -/
theorem Traced.executions_pos (ht : Traced cfg s) (htask : s.tasks[i]? = some task)
    (h : ∃ act ∈ s.actsOf i, act.isExecuted = true) :
    0 < executions task.dispatch.jobId s.log := by
  obtain ⟨act, hact, hexecuted⟩ := h
  exact List.countP_pos_iff.mpr ⟨_, ht.mem_log htask hact, by simp [hexecuted]⟩

/-- A command that is under way, or whose outcome is being recorded, was run. -/
theorem TaskTrace.isExecuted {acts : List JobAct} {dispatch : Dispatch} {claimed : Bool}
    {phase : JobPhase} (h : TaskTrace cfg dispatch acts claimed phase)
    (hphase : (∃ argv r, phase = .running argv r) ∨ ∃ o calls, phase = .recording o calls) :
    ∃ act ∈ acts, act.isExecuted = true := by
  rcases hphase with ⟨argv, r, rfl⟩ | ⟨o, calls, rfl⟩
  · cases h with
    | running _ _ body _ _ =>
        exact ⟨.executed dispatch.kind dispatch.runAs argv, by simp [execActs], rfl⟩
  · cases h with
    | recording argv body _ _ _ _ _ =>
        exact ⟨.executed dispatch.kind dispatch.runAs argv, by simp [execActs], rfl⟩

/-- When {lit}`record_done` has returned, the record holds the outcome in every version. -/
theorem frozen_of_recorded {c : FsCall String} {outcome : FinalOutcome} (hk : Kept j s)
    (ht : Traced cfg s) (htask : s.tasks[i]? = some task) (hj : task.dispatch.jobId = j)
    (hphase : task.phase = .recording outcome [c]) :
    Frozen j (SyncedFile (doneRecord outcome))
      (s.move i { s.shared with disk := effect c s.shared.disk }
        { task with phase := .reporting outcome } [.recorded outcome]) := by
  have htrace := ht.tasks i task htask
  have hholds : task.Holds := htrace.holds (by rw [hphase]; rfl)
  have hkept := hk.phase i task htask hj hholds
  rw [hphase] at hkept
  refine ⟨?_, ?_, ?_⟩
  · refine Nat.lt_of_lt_of_le ?_ executions_le_move
    exact hj ▸ ht.executions_pos htask (htrace.isExecuted (Or.inr ⟨outcome, _, hphase⟩))
  · intro k taskk hk' hkj
    rcases getElem?_move hk' with ⟨-, rfl⟩ | ⟨hki, hold⟩
    · rfl
    · by_contra hbusy
      refine hki (hk.alone k i taskk task hold htask hkj hj ?_ hholds)
      exact (ht.tasks k taskk hold).holds (by simpa using hbusy)
  · cases hkept.2.step (recordName_ne_tmpName _ _ _) with
    | written hfile => exact hfile

end Frozen

end Agent
end OpenSsmAgent
