import OpenSsmAgent.Agent.JobTraces

/-!
# Claims on jobs

The set of jobs in flight.  A task claims its job when nobody else has it and gives it up
when it ends, so at most one task at a time has a claim on a job, whatever the others do.

Main results:

- Theorem {lit}`Claims.run`: in every run at most one task holds a claim on a job, and the
  job is in flight while one does.
- Theorem {lit}`duplicate_of_holds`: a task that enters while another holds the claim on
  its job ends as a duplicate.
-/

open Framing RemoteCalls CrashStore

namespace OpenSsmAgent
namespace Agent

open Proto

/-- A task that holds a claim. -/
structure JobTask.Holds (task : JobTask) : Prop where
  claimed : task.claimed = true
  live : task.phase ≠ .ended ∧ task.phase ≠ .crashed

/-- A store operation that writes, or the command, is under way. -/
def JobPhase.busy : JobPhase → Bool
  | .marking _ _ => true
  | .running _ _ => true
  | .recording _ _ => true
  | _ => false

section Moves

variable {cfg : JobConfig} {pid : String} {sh sh' : Shared} {task task' : JobTask}
  {acts : List JobAct}

/-- A move keeps the claims of other tasks. -/
theorem JobMove.mem_inflight (h : JobMove cfg pid sh task sh' task' acts) {j : Str}
    (hother : task.dispatch.jobId = j → ¬ task.Holds) (hj : j ∈ sh.inflight) :
    j ∈ sh'.inflight := by
  cases h with
  | claim _ _ => exact List.mem_cons_of_mem _ hj
  | ends hphase =>
      dsimp only
      split_ifs with hclaimed
      · refine (List.mem_erase_of_ne ?_).mpr hj
        intro heq
        exact hother heq.symm ⟨hclaimed, by simp [hphase]⟩
      · exact hj
  | _ => exact hj

/-- A task that holds a claim has just taken one that nobody had, or had it before. -/
theorem JobMove.holds (h : JobMove cfg pid sh task sh' task' acts) (hholds : task'.Holds) :
    (task.Holds ∧ sh'.inflight = sh.inflight) ∨
      (task.dispatch.jobId ∉ sh.inflight ∧ task.dispatch.jobId ∈ sh'.inflight) := by
  have hkept : ∀ {phase}, task.phase = phase → phase ≠ .ended ∧ phase ≠ .crashed →
      task'.claimed = task.claimed → task.Holds := by
    rintro phase rfl hlive hclaimed
    exact ⟨hclaimed ▸ hholds.claimed, hlive⟩
  cases h with
  | idle => exact Or.inl ⟨hholds, rfl⟩
  | claim _ hfree => exact Or.inr ⟨hfree, List.mem_cons_self⟩
  | duplicate _ _ => exact absurd rfl hholds.live.1
  | ends _ => exact absurd rfl hholds.live.1
  | invalid _ hphase => exact Or.inl ⟨hkept hphase (by simp) rfl, rfl⟩
  | answered _ _ hphase _ _ => exact Or.inl ⟨hkept hphase (by simp) rfl, rfl⟩
  | refused _ hphase _ => exact Or.inl ⟨hkept hphase (by simp) rfl, rfl⟩
  | marks _ hphase _ _ => exact Or.inl ⟨hkept hphase (by simp) rfl, rfl⟩
  | markFails _ _ _ _ _ hphase => exact Or.inl ⟨hkept hphase (by simp) rfl, rfl⟩
  | markCall _ _ _ hphase _ => exact Or.inl ⟨hkept hphase (by simp) rfl, rfl⟩
  | marked _ _ hphase => exact Or.inl ⟨hkept hphase (by simp) rfl, rfl⟩
  | stream _ _ _ hphase => exact Or.inl ⟨hkept hphase (by simp) rfl, rfl⟩
  | joined _ _ _ hphase _ _ => exact Or.inl ⟨hkept hphase (by simp) rfl, rfl⟩
  | recordFails _ _ _ _ hphase => exact Or.inl ⟨hkept hphase (by simp) rfl, rfl⟩
  | recordCall _ _ _ hphase _ => exact Or.inl ⟨hkept hphase (by simp) rfl, rfl⟩
  | recorded _ _ hphase => exact Or.inl ⟨hkept hphase (by simp) rfl, rfl⟩
  | reports _ hphase => exact Or.inl ⟨hkept hphase (by simp) rfl, rfl⟩

/-- A task that is busy holds a claim. -/
theorem TaskTrace.holds {acts : List JobAct}
    (h : TaskTrace cfg task.dispatch acts task.claimed task.phase)
    (hbusy : task.phase.busy = true) : task.Holds := by
  obtain ⟨dispatch, claimed, phase⟩ := task
  cases phase with
  | marking argv calls =>
      cases h
      exact ⟨rfl, by simp⟩
  | running argv r =>
      cases h
      exact ⟨rfl, by simp⟩
  | recording outcome calls =>
      cases h
      exact ⟨rfl, by simp⟩
  | _ => cases hbusy

end Moves

/-! ## One claim at most -/

/-- The claims on a job: it is in flight while a task holds one, and no two tasks do. -/
structure Claims (j : Str) (s : Jobs) : Prop where
  claims : ∀ (i : Nat) (task : JobTask), s.tasks[i]? = some task → task.dispatch.jobId = j →
    task.Holds → j ∈ s.shared.inflight
  alone : ∀ (i i' : Nat) (task task' : JobTask), s.tasks[i]? = some task →
    s.tasks[i']? = some task' → task.dispatch.jobId = j → task'.dispatch.jobId = j →
    task.Holds → task'.Holds → i = i'

section Claims

variable {cfg : JobConfig} {j : Str} {s : Jobs} {sh : Shared} {task task' : JobTask}
  {acts : List JobAct} {i : Nat}

/-- The tasks after a move. -/
theorem getElem?_move {k : Nat} {taskk : JobTask}
    (h : (s.move i sh task' acts).tasks[k]? = some taskk) :
    (k = i ∧ taskk = task') ∨ (k ≠ i ∧ s.tasks[k]? = some taskk) := by
  simp only [Jobs.move, List.getElem?_set] at h
  split_ifs at h with hik
  · exact Or.inl ⟨hik.symm, (Option.some.inj h).symm⟩
  · exact Or.inr ⟨fun heq => hik heq.symm, h⟩

/-- A crashed task holds no claim. -/
theorem not_holds_crash (task : JobTask) : ¬ task.crash.Holds := by
  intro h
  have hlive := h.live
  unfold JobTask.crash at hlive
  split at hlive
  · rename_i hphase
    exact hlive.1 hphase
  · exact hlive.2 rfl

/-- A new task holds no claim. -/
theorem getElem?_spawn {dispatch : Dispatch}
    (h : (s.tasks ++ [JobTask.new dispatch])[i]? = some task) (hholds : task.Holds) :
    s.tasks[i]? = some task := by
  rcases getElem?_concat_eq_some h with h | ⟨-, rfl⟩
  · exact h
  · cases hholds.claimed

/-- Nothing is claimed at the start. -/
theorem claims_new (j : Str) (disk : Disk String) (pid : String) :
    Claims j (Jobs.new disk pid) := by
  constructor <;> simp [Jobs.new]

/-- While a task holds the claim, no other one does. -/
theorem Claims.other (h : Claims j s) (htask : s.tasks[i]? = some task) {k : Nat}
    {taskk : JobTask} (hki : k ≠ i) (hk : s.tasks[k]? = some taskk)
    (hkj : taskk.dispatch.jobId = j) (hkholds : taskk.Holds) :
    task.dispatch.jobId = j → ¬ task.Holds := by
  intro hj hholds
  exact hki (h.alone k i taskk task hk htask hkj hj hkholds hholds)

/-- Moves keep the claims. -/
theorem Claims.move (h : Claims j s) (htask : s.tasks[i]? = some task)
    (hmove : JobMove cfg s.pid s.shared task sh task' acts) :
    Claims j (s.move i sh task' acts) := by
  have hid : task'.dispatch.jobId = task.dispatch.jobId := by rw [hmove.dispatch_eq]
  -- a task that has just claimed the job found no claim on it
  have hsole : ∀ (k : Nat) (taskk : JobTask), k ≠ i → s.tasks[k]? = some taskk →
      taskk.dispatch.jobId = j → taskk.Holds → task'.dispatch.jobId = j → ¬ task'.Holds := by
    intro k taskk hki hk hkj hkholds hj hholds
    rw [hid] at hj
    rcases hmove.holds hholds with ⟨hheld, -⟩ | ⟨hfree, -⟩
    · exact h.other htask hki hk hkj hkholds hj hheld
    · exact hfree (hj ▸ h.claims k taskk hk hkj hkholds)
  constructor
  · intro k taskk hk hkj hkholds
    rcases getElem?_move hk with ⟨rfl, rfl⟩ | ⟨hki, hold⟩
    · rw [hid] at hkj
      rcases hmove.holds hkholds with ⟨hholds, heq⟩ | ⟨-, hin⟩
      · change j ∈ sh.inflight
        rw [heq]
        exact h.claims k task htask hkj hholds
      · exact hkj ▸ hin
    · exact hmove.mem_inflight (h.other htask hki hold hkj hkholds)
        (h.claims k taskk hold hkj hkholds)
  · intro k k' taskk taskk' hk hk' hkj hkj' hkholds hkholds'
    rcases getElem?_move hk with ⟨rfl, rfl⟩ | ⟨hki, hold⟩
    · rcases getElem?_move hk' with ⟨rfl, -⟩ | ⟨hki', hold'⟩
      · rfl
      · exact absurd hkholds (hsole k' taskk' hki' hold' hkj' hkholds' hkj)
    · rcases getElem?_move hk' with ⟨rfl, rfl⟩ | ⟨hki', hold'⟩
      · exact absurd hkholds' (hsole k taskk hki hold hkj hkholds hkj')
      · exact h.alone k k' taskk taskk' hold hold' hkj hkj' hkholds hkholds'

/-- A new task keeps the claims. -/
theorem Claims.spawn (h : Claims j s) (dispatch : Dispatch) :
    Claims j { s with tasks := s.tasks ++ [JobTask.new dispatch] } := by
  constructor
  · intro k task hk hj hholds
    exact h.claims k task (getElem?_spawn hk hholds) hj hholds
  · intro k k' task task' hk hk' hj hj' hholds hholds'
    exact h.alone k k' task task' (getElem?_spawn hk hholds) (getElem?_spawn hk' hholds') hj hj'
      hholds hholds'

/-- A crash leaves no claim. -/
theorem claims_restart (j : Str) (s : Jobs) (pick : String → Nat) (torn : String → Bytes)
    (dirLost : Bool) (pid : String) (stale removable : String → Bool) :
    Claims j (s.restart pick torn dirLost pid stale removable) := by
  have hholds : ∀ {k : Nat} {task : JobTask},
      (s.restart pick torn dirLost pid stale removable).tasks[k]? = some task → ¬ task.Holds := by
    intro k task hk
    obtain ⟨old, -, rfl⟩ := List.mem_map.mp (List.mem_of_getElem? hk)
    exact not_holds_crash old
  constructor
  · exact fun k task hk _ hk' => absurd hk' (hholds hk)
  · exact fun k _ task _ hk _ _ _ hk' _ => absurd hk' (hholds hk)

/-- Events keep the claims. -/
theorem Claims.next (h : Claims j s) (event : JobsEvent) : Claims j (s.next cfg event) := by
  cases event with
  | epoch => exact ⟨h.claims, h.alone⟩
  | spawn dispatch =>
      simp only [Jobs.next]
      split_ifs
      · exact h.spawn dispatch
      · exact h
  | step i choice =>
      rcases next_step_cases cfg s i choice with heq | ⟨task, sh', task', acts, htask, hmove, heq⟩
      · rwa [heq]
      · rw [heq]
        exact h.move htask hmove
  | restart pick torn dirLost pid stale removable => exact claims_restart j s ..

/-- In every run at most one task holds a claim on a job. -/
theorem Claims.run (h : Claims j s) (events : List JobsEvent) : Claims j (s.run cfg events) := by
  induction events generalizing s with
  | nil => exact h
  | cons event events ih => exact ih (h.next event)

/-- A task that enters while another holds the claim on its job ends as a duplicate. -/
theorem duplicate_of_holds {k : Nat} {other : JobTask} (h : Claims task.dispatch.jobId s)
    (htask : s.tasks[i]? = some task) (hphase : task.phase = .entered)
    (hvalid : ¬ (task.dispatch.jobId.text = "" ∨ maxJobIdLen < task.dispatch.jobId.bytes.length))
    (hother : s.tasks[k]? = some other) (hj : other.dispatch.jobId = task.dispatch.jobId)
    (hholds : other.Holds) :
    s.next cfg (.step i .go) = s.move i s.shared { task with phase := .ended } [.duplicate] := by
  have hin := h.claims k other hother hj hholds
  simp only [Jobs.next, htask, jobStep, hphase, enterJob]
  rw [if_neg hvalid, if_pos hin]

end Claims

end Agent
end OpenSsmAgent
