import OpenSsmAgent.Agent.Dispatch

/-!
# The traces of job tasks

What a task of the job runner has done when it is in a phase of {lit}`run_job`.  The log
of the runner, cut down to one task, is one of a few traces; every move of the task
extends its trace to that of the next phase, and a crash leaves it as it is.

Main results:

- Theorem {lit}`Streamed.step`: the chunks a task has sent, the one in the drain and those
  in the channel are the chunks it was delivered, in order.
- Theorem {lit}`TaskTrace.step`: a move carries the trace of its task on.
- Theorem {lit}`Traced.run`: in every run the log tells of each task what its phase says.
-/

open Framing RemoteCalls CrashStore

namespace OpenSsmAgent
namespace Agent

open Proto

/-! ## What a task has done -/

/-- The chunks that a task was delivered. -/
def deliveredChunks (acts : List JobAct) : List Chunk :=
  acts.filterMap fun
    | .delivered chunk => some chunk
    | _ => none

/-- The reports that a task has sent. -/
def sentReports (acts : List JobAct) : List Report :=
  acts.filterMap fun
    | .sent report => some report
    | _ => none

/-- The acts of a running command: chunks were delivered if it was spawned, and those
not sent yet are on their way, in order. -/
structure Streamed (r : Running) (acts : List JobAct) : Prop where
  kinds : ∀ act ∈ acts, act = .spawned ∨ (∃ chunk, act = .delivered chunk) ∨
    ∃ chunk, act = .sent (.chunk chunk)
  spawned : JobAct.spawned ∈ acts ↔ r.spawned = true
  delivered : r.spawned = false → deliveredChunks acts = []
  order : ∃ chunks, sentReports acts = chunks.map Report.chunk ∧
    chunks ++ (r.draining.toList ++ r.queue) = deliveredChunks acts

/-- The command and the drain have ended. -/
def Drained (acts : List JobAct) : Prop :=
  ∃ r, Streamed r acts ∧ r.queue = [] ∧ r.draining = none

/-- The acts of a task up to the call of {lit}`exec::stream`. -/
def execActs (dispatch : Dispatch) (argv : List Str) : List JobAct :=
  [.claimed, .looked (.ok none), .marked, .executed dispatch.kind dispatch.runAs argv]

/-- What a task has done when it is in a phase. -/
inductive TaskTrace (cfg : JobConfig) (dispatch : Dispatch) : List JobAct → Bool → JobPhase → Prop
  | entered : TaskTrace cfg dispatch [] false .entered
  | duplicate : TaskTrace cfg dispatch [.duplicate] false .ended
  | invalid (outcome : FinalOutcome) : TaskTrace cfg dispatch [] false (.reporting outcome)
  | lookingUp : TaskTrace cfg dispatch [.claimed] true .lookingUp
  | answered (result : Except String (Option JobState)) (outcome : FinalOutcome) :
      answerOf result = some outcome →
      TaskTrace cfg dispatch [.claimed, .looked result] true (.reporting outcome)
  | refused (outcome : FinalOutcome) :
      TaskTrace cfg dispatch [.claimed, .looked (.ok none)] true (.reporting outcome)
  | marking (argv : List Str) (calls : List (FsCall String)) : Permitted cfg dispatch argv →
      calls ≠ [] →
      TaskTrace cfg dispatch [.claimed, .looked (.ok none)] true (.marking argv calls)
  | running (argv : List Str) (r : Running) (acts : List JobAct) : Permitted cfg dispatch argv →
      Streamed r acts →
      TaskTrace cfg dispatch (execActs dispatch argv ++ acts) true (.running argv r)
  | recording (argv : List Str) (acts : List JobAct) (outcome : FinalOutcome)
      (calls : List (FsCall String)) : Permitted cfg dispatch argv → Drained acts → calls ≠ [] →
      TaskTrace cfg dispatch (execActs dispatch argv ++ acts) true (.recording outcome calls)
  | unrecorded (argv : List Str) (acts : List JobAct) (outcome : FinalOutcome) :
      Permitted cfg dispatch argv → Drained acts →
      TaskTrace cfg dispatch (execActs dispatch argv ++ acts) true (.reporting outcome)
  | recorded (argv : List Str) (acts : List JobAct) (outcome : FinalOutcome) :
      Permitted cfg dispatch argv → Drained acts →
      TaskTrace cfg dispatch (execActs dispatch argv ++ acts ++ [JobAct.recorded outcome]) true
        (.reporting outcome)
  | returning (acts : List JobAct) (claimed : Bool) (outcome : FinalOutcome) :
      TaskTrace cfg dispatch acts claimed (.reporting outcome) →
      TaskTrace cfg dispatch (acts ++ [JobAct.sent (.outcome outcome)]) claimed .returning
  | ended (acts : List JobAct) (claimed : Bool) : TaskTrace cfg dispatch acts claimed .returning →
      TaskTrace cfg dispatch acts claimed .ended
  | crashed (acts : List JobAct) (claimed : Bool) (phase : JobPhase) :
      TaskTrace cfg dispatch acts claimed phase → TaskTrace cfg dispatch acts claimed .crashed

section Traces

variable {cfg : JobConfig} {pid : String} {sh : Shared} {task : JobTask} {acts : List JobAct}
  {choice : JobChoice} {r : Running} {dispatch : Dispatch} {claimed : Bool}

@[simp] theorem deliveredChunks_append (acts acts' : List JobAct) :
    deliveredChunks (acts ++ acts') = deliveredChunks acts ++ deliveredChunks acts' :=
  List.filterMap_append

@[simp] theorem sentReports_append (acts acts' : List JobAct) :
    sentReports (acts ++ acts') = sentReports acts ++ sentReports acts' :=
  List.filterMap_append

/-- Nothing was sent at the start. -/
theorem streamed_start : Streamed Running.start [] :=
  ⟨by simp, by simp [Running.start], fun _ => rfl, [], rfl, rfl⟩

/-- What a running command and its drain do. -/
theorem Running.step_acts (argv : List Str) (r : Running) (choice : JobChoice) :
    ∀ act ∈ (r.step argv choice).2, act = .spawned ∨ (∃ chunk, act = .delivered chunk) ∨
      ∃ chunk, act = .sent (.chunk chunk) := by
  intro act hact
  cases choice with
  | spawns =>
      simp only [Running.step] at hact
      split_ifs at hact
      · exact Or.inl (List.mem_singleton.mp hact)
      · cases hact
  | delivers chunk =>
      simp only [Running.step] at hact
      split_ifs at hact
      · exact Or.inr (Or.inl ⟨chunk, List.mem_singleton.mp hact⟩)
      · cases hact
  | forwards =>
      simp only [Running.step] at hact
      split at hact
      · exact Or.inr (Or.inr ⟨_, List.mem_singleton.mp hact⟩)
      · cases hact
  | drains =>
      simp only [Running.step] at hact
      split at hact <;> cases hact
  | streamFails e =>
      simp only [Running.step] at hact
      split_ifs at hact <;> cases hact
  | returns outcome =>
      simp only [Running.step] at hact
      split_ifs at hact <;> cases hact
  | _ => cases hact

/-- A step of the command or of the drain. -/
theorem Streamed.step {argv : List Str} (h : Streamed r acts) (choice : JobChoice) :
    Streamed (r.step argv choice).1 (acts ++ (r.step argv choice).2) := by
  obtain ⟨chunks, hsent, horder⟩ := h.order
  have hkinds : ∀ act ∈ acts ++ (r.step argv choice).2, act = .spawned ∨
      (∃ chunk, act = .delivered chunk) ∨ ∃ chunk, act = .sent (.chunk chunk) := by
    intro act hact
    rcases List.mem_append.mp hact with hact | hact
    · exact h.kinds act hact
    · exact Running.step_acts argv r choice act hact
  have hsame : ∀ r', r'.spawned = r.spawned → r'.draining = r.draining → r'.queue = r.queue →
      Streamed r' (acts ++ []) := by
    intro r' hspawned hdraining hqueue
    rw [List.append_nil]
    exact ⟨h.kinds, by rw [h.spawned, hspawned], by rw [hspawned]; exact h.delivered, chunks, hsent,
      by rw [hdraining, hqueue]; exact horder⟩
  cases choice with
  | go => exact hsame r rfl rfl rfl
  | call fate => exact hsame r rfl rfl rfl
  | joins => exact hsame r rfl rfl rfl
  | streamFails e =>
      simp only [Running.step]
      split_ifs
      · exact hsame { r with result := some (.error .emptyArgv) } rfl rfl rfl
      · exact hsame { r with result := some (.error e) } rfl rfl rfl
      · exact hsame r rfl rfl rfl
  | returns outcome =>
      simp only [Running.step]
      split_ifs
      · exact hsame _ rfl rfl rfl
      · exact hsame r rfl rfl rfl
  | spawns =>
      simp only [Running.step] at hkinds ⊢
      split_ifs at hkinds ⊢ with hcan
      · refine ⟨hkinds, by simp, by simp, chunks, by simpa [sentReports] using hsent, ?_⟩
        · simpa [deliveredChunks] using horder
      · exact hsame r rfl rfl rfl
  | delivers chunk =>
      simp only [Running.step] at hkinds ⊢
      split_ifs at hkinds ⊢ with hcan
      · refine ⟨hkinds, ?_, ?_, chunks, by simpa [sentReports] using hsent, ?_⟩
        · simp [h.spawned]
        · intro hspawned
          rw [hcan.1] at hspawned
          cases hspawned
        · simp only [deliveredChunks_append, ← horder]
          simp [deliveredChunks]
      · exact hsame r rfl rfl rfl
  | drains =>
      simp only [Running.step]
      split
      · rename_i chunk queue hdraining hqueue
        rw [List.append_nil]
        refine ⟨h.kinds, h.spawned, h.delivered, chunks, hsent, ?_⟩
        rw [← horder, hdraining, hqueue]
        rfl
      · exact hsame r rfl rfl rfl
  | forwards =>
      cases hdraining : r.draining with
      | none =>
          simp only [Running.step, hdraining]
          exact hsame r rfl rfl rfl
      | some chunk =>
          simp only [Running.step, hdraining] at hkinds ⊢
          refine ⟨hkinds, ?_, ?_, chunks ++ [chunk], ?_, ?_⟩
          · simp [h.spawned]
          · intro hspawned
            simpa [deliveredChunks] using h.delivered hspawned
          · simp only [sentReports_append, hsent]
            simp [sentReports]
          · simp only [deliveredChunks_append, ← horder, hdraining]
            simp [deliveredChunks]

/-- A move carries the trace of its task on. -/
theorem TaskTrace.step {sh' : Shared} {task' : JobTask} {new : List JobAct}
    (h : TaskTrace cfg task.dispatch acts task.claimed task.phase)
    (hmove : JobMove cfg pid sh task sh' task' new) :
    TaskTrace cfg task.dispatch (acts ++ new) task'.claimed task'.phase := by
  obtain ⟨dispatch, claimed, phase⟩ := task
  cases hmove with
  | idle => simpa using h
  | invalid outcome hphase =>
      subst hphase
      cases h
      exact .invalid outcome
  | duplicate hphase _ =>
      subst hphase
      cases h
      exact .duplicate
  | claim hphase _ =>
      subst hphase
      cases h
      exact .lookingUp
  | answered result outcome hphase _ hanswer =>
      subst hphase
      cases h
      exact .answered result outcome hanswer
  | refused outcome hphase _ =>
      subst hphase
      cases h
      exact .refused outcome
  | marks argv hphase _ hpermitted =>
      subst hphase
      cases h
      exact .marking argv _ hpermitted (by simp [markStarted, durableWrite])
  | markFails argv c rest fate outcome hphase =>
      subst hphase
      cases h
      exact .refused outcome
  | markCall argv c rest hphase hrest =>
      subst hphase
      cases h with
      | marking _ _ hpermitted _ => exact .marking argv rest hpermitted hrest
  | marked argv c hphase =>
      subst hphase
      cases h with
      | marking _ _ hpermitted _ => exact .running argv _ [] hpermitted streamed_start
  | stream argv r choice hphase =>
      subst hphase
      cases h with
      | running _ _ body hpermitted hbody =>
          rw [List.append_assoc]
          exact .running argv _ _ hpermitted (hbody.step choice)
  | joined argv r outcome hphase hqueue hdraining =>
      subst hphase
      cases h with
      | running _ _ body hpermitted hbody =>
          rw [List.append_nil]
          exact .recording argv body outcome _ hpermitted ⟨r, hbody, hqueue, hdraining⟩
            (by simp [recordDone, durableWrite])
  | recordFails outcome c rest fate hphase =>
      subst hphase
      cases h with
      | recording argv body _ _ hpermitted hbody _ =>
          rw [List.append_nil]
          exact .unrecorded argv body outcome hpermitted hbody
  | recordCall outcome c rest hphase hrest =>
      subst hphase
      cases h with
      | recording argv body _ _ hpermitted hbody _ =>
          rw [List.append_nil]
          exact .recording argv body outcome rest hpermitted hbody hrest
  | recorded outcome c hphase =>
      subst hphase
      cases h with
      | recording argv body _ _ hpermitted hbody _ =>
          exact .recorded argv body outcome hpermitted hbody
  | reports outcome hphase =>
      subst hphase
      exact .returning acts claimed outcome h
  | ends hphase =>
      subst hphase
      rw [List.append_nil]
      exact .ended acts claimed h

/-! ## What a trace reports -/

/-- What a task has reported: chunks it was delivered, in order, and then at most one
outcome, which is the one it has recorded. -/
structure Reported (acts : List JobAct) (chunks : List Chunk) (outcome : Option FinalOutcome) :
    Prop where
  reports : sentReports acts = chunks.map Report.chunk ++ outcome.toList.map Report.outcome
  delivered : chunks <+: deliveredChunks acts
  complete : outcome.isSome → chunks = deliveredChunks acts
  spawned : deliveredChunks acts ≠ [] → .spawned ∈ acts
  recorded : ∀ o, .recorded o ∈ acts → outcome = none ∨ outcome = some o

theorem sentReports_execActs (dispatch : Dispatch) (argv : List Str) :
    sentReports (execActs dispatch argv) = [] := rfl

theorem deliveredChunks_execActs (dispatch : Dispatch) (argv : List Str) :
    deliveredChunks (execActs dispatch argv) = [] := rfl

/-- The acts of a command with no other act. -/
theorem Streamed.notMem (h : Streamed r acts) {act : JobAct} (hspawned : act ≠ .spawned)
    (hdelivered : ∀ chunk, act ≠ .delivered chunk)
    (hsent : ∀ chunk, act ≠ .sent (.chunk chunk)) : act ∉ acts := by
  intro hact
  rcases h.kinds act hact with rfl | ⟨chunk, rfl⟩ | ⟨chunk, rfl⟩
  · exact hspawned rfl
  · exact hdelivered chunk rfl
  · exact hsent chunk rfl

/-- Output comes from a spawned command. -/
theorem Streamed.spawned_of_delivered (h : Streamed r acts)
    (hdelivered : deliveredChunks acts ≠ []) : .spawned ∈ acts := by
  rw [h.spawned]
  by_contra hspawned
  exact hdelivered (h.delivered (by simpa using hspawned))

/-- The reports of a command that is under way. -/
theorem Streamed.reported (h : Streamed r acts) (dispatch : Dispatch)
    (argv : List Str) : ∃ chunks, Reported (execActs dispatch argv ++ acts) chunks none := by
  obtain ⟨chunks, hsent, horder⟩ := h.order
  refine ⟨chunks, ?_, ?_, by simp, ?_, fun _ _ => Or.inl rfl⟩
  · simp [sentReports_execActs, hsent]
  · rw [deliveredChunks_append, deliveredChunks_execActs, List.nil_append, ← horder]
    exact List.prefix_append _ _
  · rw [deliveredChunks_append, deliveredChunks_execActs, List.nil_append]
    intro hdelivered
    exact List.mem_append_right _ (h.spawned_of_delivered hdelivered)

/-- What was delivered was reported. -/
theorem Drained.reported (h : Drained acts) (dispatch : Dispatch) (argv : List Str) :
    Reported (execActs dispatch argv ++ acts) (deliveredChunks acts) none := by
  obtain ⟨r, hr, hqueue, hdraining⟩ := h
  obtain ⟨chunks, hsent, horder⟩ := hr.order
  rw [hqueue, hdraining] at horder
  obtain rfl : chunks = deliveredChunks acts := by simpa using horder
  refine ⟨?_, ?_, by simp, ?_, fun _ _ => Or.inl rfl⟩
  · simp [sentReports_execActs, hsent]
  · simp [deliveredChunks_execActs]
  · rw [deliveredChunks_append, deliveredChunks_execActs, List.nil_append]
    intro hdelivered
    exact List.mem_append_right _ (hr.spawned_of_delivered hdelivered)

/-- Before its outcome a task has sent all that it was delivered, and recorded no other
outcome. -/
theorem TaskTrace.reported_of_reporting {outcome : FinalOutcome}
    (h : TaskTrace cfg dispatch acts claimed (.reporting outcome)) :
    Reported acts (deliveredChunks acts) none ∧ (∀ o, .recorded o ∈ acts → o = outcome) ∧
      .duplicate ∉ acts := by
  have hbody : ∀ (argv : List Str) {body : List JobAct} (last : List JobAct), Drained body →
      (∀ o, .recorded o ∈ last → o = outcome) → .duplicate ∉ last → deliveredChunks last = [] →
      sentReports last = [] →
      Reported (execActs dispatch argv ++ body ++ last)
        (deliveredChunks (execActs dispatch argv ++ body ++ last)) none ∧
      (∀ o, .recorded o ∈ execActs dispatch argv ++ body ++ last → o = outcome) ∧
      .duplicate ∉ execActs dispatch argv ++ body ++ last := by
    intro argv body last hdrained hrecorded hduplicate hdelivered hsent
    have hreported := hdrained.reported dispatch argv
    obtain ⟨r, hr, -, -⟩ := hdrained
    have hchunks : deliveredChunks (execActs dispatch argv ++ body ++ last) =
        deliveredChunks body := by
      simp [hdelivered, deliveredChunks_execActs]
    refine ⟨⟨?_, ?_, by simp, ?_, fun _ _ => Or.inl rfl⟩, ?_, ?_⟩
    · rw [sentReports_append, hsent, hchunks, List.append_nil]
      exact hreported.reports
    · exact List.prefix_rfl
    · rw [hchunks]
      intro hne
      exact List.mem_append_left _ (List.mem_append_right _ (hr.spawned_of_delivered hne))
    · intro o ho
      rcases List.mem_append.mp ho with ho | ho
      · rcases List.mem_append.mp ho with ho | ho
        · simp [execActs] at ho
        · exact absurd ho (hr.notMem (by simp) (by simp) (by simp))
      · exact hrecorded o ho
    · intro hmem
      rcases List.mem_append.mp hmem with hmem | hmem
      · rcases List.mem_append.mp hmem with hmem | hmem
        · simp [execActs] at hmem
        · exact hr.notMem (by simp) (by simp) (by simp) hmem
      · exact hduplicate hmem
  have hnone : ∀ {acts : List JobAct}, deliveredChunks acts = [] → sentReports acts = [] →
      (∀ o, .recorded o ∉ acts) → .duplicate ∉ acts →
      Reported acts (deliveredChunks acts) none ∧ (∀ o, .recorded o ∈ acts → o = outcome) ∧
        .duplicate ∉ acts := by
    intro acts hdelivered hsent hrecorded hduplicate
    exact ⟨⟨by simp [hdelivered, hsent], by simp, by simp, fun hne => absurd hdelivered hne,
      fun _ _ => Or.inl rfl⟩, fun o ho => absurd ho (hrecorded o), hduplicate⟩
  cases h with
  | invalid => exact hnone rfl rfl (by simp) (by simp)
  | answered result _ _ => exact hnone rfl rfl (by simp) (by simp)
  | refused => exact hnone rfl rfl (by simp) (by simp)
  | unrecorded argv body _ _ hdrained =>
      simpa using hbody argv [] hdrained (by simp) (by simp) rfl rfl
  | recorded argv body _ _ hdrained =>
      exact hbody argv [.recorded outcome] hdrained (by simp) (by simp) rfl rfl

/-- A returning task has sent an outcome. -/
theorem TaskTrace.reported_of_returning (h : TaskTrace cfg dispatch acts claimed .returning) :
    ∃ outcome, Reported acts (deliveredChunks acts) (some outcome) ∧ .duplicate ∉ acts := by
  cases h with
  | returning acts _ outcome hreporting =>
      obtain ⟨hreported, hrecorded, hduplicate⟩ := hreporting.reported_of_reporting
      have hchunks : deliveredChunks (acts ++ [JobAct.sent (.outcome outcome)]) =
          deliveredChunks acts := by
        simp [deliveredChunks]
      refine ⟨outcome, ⟨?_, List.prefix_rfl, fun _ => rfl, ?_, ?_⟩, by simp [hduplicate]⟩
      · rw [sentReports_append, hreported.reports, hchunks]
        simp [sentReports]
      · rw [hchunks]
        exact fun hne => List.mem_append_left _ (hreported.spawned hne)
      · intro o ho
        rcases List.mem_append.mp ho with ho | ho
        · exact Or.inr (by rw [hrecorded o ho])
        · simp at ho

/-- What a task has reported, whatever its phase. -/
theorem TaskTrace.reported {phase : JobPhase} (h : TaskTrace cfg dispatch acts claimed phase) :
    ∃ chunks outcome, Reported acts chunks outcome ∧
      (phase = .ended → .duplicate ∉ acts → outcome.isSome) ∧
      (.duplicate ∈ acts → acts = [.duplicate]) := by
  have hnone : ∀ {acts : List JobAct}, deliveredChunks acts = [] → sentReports acts = [] →
      Reported acts [] none := by
    intro acts hdelivered hsent
    exact ⟨by simp [hsent], by simp, by simp, fun hne => absurd hdelivered hne,
      fun _ _ => Or.inl rfl⟩
  have hreporting : ∀ {acts : List JobAct} {claimed : Bool} {o : FinalOutcome},
      TaskTrace cfg dispatch acts claimed (.reporting o) →
      ∃ chunks outcome, Reported acts chunks outcome ∧
        (JobPhase.reporting o = .ended → .duplicate ∉ acts → outcome.isSome) ∧
        (.duplicate ∈ acts → acts = [.duplicate]) := by
    intro acts claimed o h
    obtain ⟨hreported, -, hduplicate⟩ := h.reported_of_reporting
    exact ⟨_, none, hreported, by simp, fun hmem => absurd hmem hduplicate⟩
  induction h with
  | entered => exact ⟨[], none, hnone rfl rfl, by simp, by simp⟩
  | invalid outcome => exact hreporting (.invalid outcome)
  | answered result outcome hanswer => exact hreporting (.answered result outcome hanswer)
  | refused outcome => exact hreporting (.refused outcome)
  | unrecorded argv body outcome hpermitted hdrained =>
      exact hreporting (.unrecorded argv body outcome hpermitted hdrained)
  | recorded argv body outcome hpermitted hdrained =>
      exact hreporting (.recorded argv body outcome hpermitted hdrained)
  | duplicate => exact ⟨[], none, hnone rfl rfl, by simp, fun _ => rfl⟩
  | lookingUp => exact ⟨[], none, hnone rfl rfl, by simp, by simp⟩
  | marking argv calls _ _ => exact ⟨[], none, hnone rfl rfl, by simp, by simp⟩
  | running argv r body _ hstreamed =>
      obtain ⟨chunks, hreported⟩ := hstreamed.reported dispatch argv
      refine ⟨chunks, none, hreported, by simp, ?_⟩
      intro hmem
      rcases List.mem_append.mp hmem with hmem | hmem
      · simp [execActs] at hmem
      · exact absurd hmem (hstreamed.notMem (by simp) (by simp) (by simp))
  | recording argv body outcome calls _ hdrained _ =>
      refine ⟨_, none, hdrained.reported dispatch argv, by simp, ?_⟩
      obtain ⟨r, hr, -, -⟩ := hdrained
      intro hmem
      rcases List.mem_append.mp hmem with hmem | hmem
      · simp [execActs] at hmem
      · exact absurd hmem (hr.notMem (by simp) (by simp) (by simp))
  | returning acts claimed outcome h _ =>
      obtain ⟨o, hreported, hduplicate⟩ :=
        TaskTrace.reported_of_returning (.returning acts claimed outcome h)
      exact ⟨_, some o, hreported, fun _ _ => rfl, fun hmem => absurd hmem hduplicate⟩
  | ended acts claimed hreturning _ =>
      obtain ⟨o, hreported, hduplicate⟩ := hreturning.reported_of_returning
      exact ⟨_, some o, hreported, fun _ _ => rfl, fun hmem => absurd hmem hduplicate⟩
  | crashed acts claimed phase _ ih =>
      obtain ⟨chunks, outcome, hreported, -, hduplicate⟩ := ih
      exact ⟨chunks, outcome, hreported, by simp, hduplicate⟩

/-- A task whose lookup gives an answer runs nothing and reports the answer. -/
theorem TaskTrace.of_looked {phase : JobPhase} {result : Except String (Option JobState)}
    {outcome : FinalOutcome} (h : TaskTrace cfg dispatch acts claimed phase)
    (hlooked : .looked result ∈ acts) (hanswer : answerOf result = some outcome) :
    (acts = [.claimed, .looked result] ∧ (phase = .reporting outcome ∨ phase = .crashed)) ∨
    (acts = [.claimed, .looked result, .sent (.outcome outcome)] ∧
      (phase = .returning ∨ phase = .ended ∨ phase = .crashed)) := by
  have hbody : ∀ (argv : List Str) {body : List JobAct} (last : List JobAct) {r : Running},
      Streamed r body → .looked result ∉ last →
      .looked result ∉ execActs dispatch argv ++ body ++ last := by
    intro argv body last r hr hlast hmem
    rcases List.mem_append.mp hmem with hmem | hmem
    · rcases List.mem_append.mp hmem with hmem | hmem
      · obtain rfl : result = .ok none := by simpa [execActs] using hmem
        cases hanswer
      · exact hr.notMem (by simp) (by simp) (by simp) hmem
    · exact hlast hmem
  induction h with
  | answered result' outcome' hanswer' =>
      obtain rfl : result = result' := by simpa using hlooked
      rw [hanswer'] at hanswer
      cases hanswer
      exact Or.inl ⟨rfl, Or.inl rfl⟩
  | refused outcome' =>
      obtain rfl : result = .ok none := by simpa using hlooked
      cases hanswer
  | marking argv calls _ _ =>
      obtain rfl : result = .ok none := by simpa using hlooked
      cases hanswer
  | running argv r body _ hstreamed =>
      exact absurd (by simpa using hlooked) (hbody argv [] hstreamed (by simp))
  | recording argv body outcome' calls _ hdrained _ =>
      obtain ⟨r, hr, -, -⟩ := hdrained
      exact absurd (by simpa using hlooked) (hbody argv [] hr (by simp))
  | unrecorded argv body outcome' _ hdrained =>
      obtain ⟨r, hr, -, -⟩ := hdrained
      exact absurd (by simpa using hlooked) (hbody argv [] hr (by simp))
  | recorded argv body outcome' _ hdrained =>
      obtain ⟨r, hr, -, -⟩ := hdrained
      exact absurd hlooked (hbody argv [.recorded outcome'] hr (by simp))
  | returning acts claimed outcome' _ ih =>
      rcases ih (by simpa using hlooked) with ⟨rfl, hphase⟩ | ⟨-, hphase⟩
      · simp only [JobPhase.reporting.injEq, reduceCtorEq, or_false] at hphase
        subst hphase
        exact Or.inr ⟨rfl, Or.inl rfl⟩
      · simp at hphase
  | ended acts claimed _ ih =>
      rcases ih hlooked with ⟨-, hphase⟩ | ⟨hacts, -⟩
      · simp at hphase
      · exact Or.inr ⟨hacts, Or.inr (Or.inl rfl)⟩
  | crashed acts claimed phase _ ih =>
      rcases ih hlooked with ⟨hacts, -⟩ | ⟨hacts, -⟩
      · exact Or.inl ⟨hacts, Or.inr rfl⟩
      · exact Or.inr ⟨hacts, Or.inr (Or.inr rfl)⟩
  | _ => simp at hlooked

end Traces

/-! ## What every run does -/

/-- The acts of a task. -/
def Jobs.actsOf (s : Jobs) (i : Nat) : List JobAct :=
  s.log.filterMap fun entry => if entry.task = i then some entry.act else none

section Runs

variable {cfg : JobConfig} {s : Jobs} {sh : Shared} {task : JobTask} {acts : List JobAct} {i : Nat}

/-- A move adds to the acts of its task. -/
@[simp] theorem actsOf_move_self : (s.move i sh task acts).actsOf i = s.actsOf i ++ acts := by
  simp [Jobs.actsOf, Jobs.move, List.filterMap_append, List.filterMap_map]

/-- The acts of other tasks stay. -/
theorem actsOf_move_of_ne {k : Nat} (h : k ≠ i) :
    (s.move i sh task acts).actsOf k = s.actsOf k := by
  have hne : ¬ i = k := fun heq => h heq.symm
  simp [Jobs.actsOf, Jobs.move, List.filterMap_append, List.filterMap_map, hne]

/-- A task is old or the new one. -/
theorem getElem?_concat_eq_some {new : JobTask} {tasks : List JobTask}
    (h : (tasks ++ [new])[i]? = some task) :
    tasks[i]? = some task ∨ i = tasks.length ∧ task = new := by
  rw [List.getElem?_append] at h
  split_ifs at h with hlt
  · exact Or.inl h
  · have hzero : i - tasks.length = 0 := by
      have hin := (List.getElem?_eq_some_iff.mp h).1
      simp only [List.length_cons, List.length_nil] at hin
      omega
    rw [hzero] at h
    cases h
    exact Or.inr ⟨by omega, rfl⟩

/-- The old tasks stay. -/
theorem getElem?_concat_of_eq_some {new : JobTask} {tasks : List JobTask}
    (h : tasks[i]? = some task) : (tasks ++ [new])[i]? = some task := by
  rw [List.getElem?_append_left (List.getElem?_eq_some_iff.mp h).1]
  exact h

/-- A step of the runner on a task is a move of that task. -/
theorem next_step_cases (cfg : JobConfig) (s : Jobs) (i : Nat) (choice : JobChoice) :
    s.next cfg (.step i choice) = s ∨
    ∃ task sh' task' acts, s.tasks[i]? = some task ∧
      JobMove cfg s.pid s.shared task sh' task' acts ∧
      s.next cfg (.step i choice) = s.move i sh' task' acts := by
  cases htask : s.tasks[i]? with
  | none => exact Or.inl (by simp [Jobs.next, htask])
  | some task =>
      exact Or.inr ⟨task, _, _, _, rfl, jobStep_cases cfg s.pid s.shared task choice,
        by simp only [Jobs.next, htask]⟩

/-- A run in two parts. -/
theorem run_append (cfg : JobConfig) (s : Jobs) (events events' : List JobsEvent) :
    s.run cfg (events ++ events') = (s.run cfg events).run cfg events' :=
  List.foldl_append

/-- The log tells of each task what its phase says. -/
structure Traced (cfg : JobConfig) (s : Jobs) : Prop where
  tasks : ∀ i task, s.tasks[i]? = some task →
    TaskTrace cfg task.dispatch (s.actsOf i) task.claimed task.phase
  entries : ∀ entry ∈ s.log, ∃ task, s.tasks[entry.task]? = some task ∧
    task.dispatch.jobId = entry.jobId

/-- A task that was not spawned has done nothing. -/
theorem Traced.actsOf_eq_nil (h : Traced cfg s) (hlen : s.tasks.length ≤ i) : s.actsOf i = [] := by
  simp only [Jobs.actsOf, List.filterMap_eq_nil_iff]
  intro entry hentry
  obtain ⟨task, htask, -⟩ := h.entries entry hentry
  have hlt := (List.getElem?_eq_some_iff.mp htask).1
  rw [if_neg (by omega)]

/-- The acts of a task stand in the log with its job. -/
theorem Traced.mem_log (h : Traced cfg s) (htask : s.tasks[i]? = some task) {act : JobAct}
    (hact : act ∈ s.actsOf i) : ⟨i, task.dispatch.jobId, act⟩ ∈ s.log := by
  obtain ⟨⟨k, jobId, act'⟩, hentry, heq⟩ := List.mem_filterMap.mp hact
  split_ifs at heq with hi
  obtain ⟨taske, htaske, hid⟩ := h.entries _ hentry
  dsimp only at hi htaske hid
  rw [hi, htask] at htaske
  cases htaske
  cases heq
  rw [hid, ← hi]
  exact hentry

/-- There is no task at the start. -/
theorem traced_new (cfg : JobConfig) (disk : Disk String) (pid : String) :
    Traced cfg (Jobs.new disk pid) :=
  ⟨by simp [Jobs.new], by simp [Jobs.new]⟩

/-- A crash keeps the trace of a task. -/
theorem TaskTrace.crash (h : TaskTrace cfg task.dispatch acts task.claimed task.phase) :
    TaskTrace cfg task.crash.dispatch acts task.crash.claimed task.crash.phase := by
  unfold JobTask.crash
  split
  · exact h
  · exact .crashed _ _ _ h

/-- A crash keeps the dispatch. -/
theorem crash_dispatch (task : JobTask) : task.crash.dispatch = task.dispatch := by
  unfold JobTask.crash
  split <;> rfl

/-- Moves keep the traces. -/
theorem Traced.move {task' : JobTask} (h : Traced cfg s) (htask : s.tasks[i]? = some task)
    (hmove : JobMove cfg s.pid s.shared task sh task' acts) :
    Traced cfg (s.move i sh task' acts) := by
  have hlen : i < s.tasks.length := (List.getElem?_eq_some_iff.mp htask).1
  have hset : ∀ k, (s.tasks.set i task')[k]? = if i = k then some task' else s.tasks[k]? := by
    intro k
    rw [List.getElem?_set]
    split_ifs <;> simp_all
  constructor
  · intro k taskk hk
    simp only [Jobs.move, hset] at hk
    split_ifs at hk with hik
    · cases hik
      cases hk
      rw [actsOf_move_self, hmove.dispatch_eq]
      exact (h.tasks i task htask).step hmove
    · rw [actsOf_move_of_ne (fun heq => hik heq.symm)]
      exact h.tasks k taskk hk
  · intro entry hentry
    simp only [Jobs.move, List.mem_append, List.mem_map] at hentry
    simp only [Jobs.move, hset]
    rcases hentry with hentry | ⟨act, -, rfl⟩
    · obtain ⟨taske, htaske, hid⟩ := h.entries entry hentry
      by_cases hik : i = entry.task
      · rw [if_pos hik]
        rw [← hik, htask] at htaske
        cases htaske
        exact ⟨task', rfl, by rw [hmove.dispatch_eq, hid]⟩
      · rw [if_neg hik]
        exact ⟨taske, htaske, hid⟩
    · exact ⟨task', if_pos rfl, rfl⟩

/-- Events keep the traces. -/
theorem Traced.next (h : Traced cfg s) (event : JobsEvent) : Traced cfg (s.next cfg event) := by
  cases event with
  | epoch => exact ⟨h.tasks, h.entries⟩
  | spawn dispatch =>
      simp only [Jobs.next]
      split_ifs
      · constructor
        · intro i task htask
          rcases getElem?_concat_eq_some htask with htask | ⟨rfl, rfl⟩
          · exact h.tasks i task htask
          · have hacts : s.actsOf s.tasks.length = [] := h.actsOf_eq_nil le_rfl
            change TaskTrace cfg dispatch (s.actsOf s.tasks.length) false .entered
            rw [hacts]
            exact .entered
        · intro entry hentry
          obtain ⟨task, htask, hid⟩ := h.entries entry hentry
          exact ⟨task, getElem?_concat_of_eq_some htask, hid⟩
      · exact h
  | step i choice =>
      rcases next_step_cases cfg s i choice with heq | ⟨task, sh', task', acts, htask, hmove, heq⟩
      · rwa [heq]
      · rw [heq]
        exact h.move htask hmove
  | restart pick torn dirLost pid stale removable =>
      constructor
      · intro i task htask
        simp only [Jobs.next, Jobs.restart, List.getElem?_map, Option.map_eq_some_iff] at htask
        obtain ⟨task, htask, rfl⟩ := htask
        exact (h.tasks i task htask).crash
      · intro entry hentry
        obtain ⟨task, htask, hid⟩ := h.entries entry hentry
        refine ⟨task.crash, ?_, by rw [crash_dispatch, hid]⟩
        simp [Jobs.next, Jobs.restart, htask]

/-- Runs keep the traces. -/
theorem Traced.run (h : Traced cfg s) (events : List JobsEvent) :
    Traced cfg (s.run cfg events) := by
  induction events generalizing s with
  | nil => exact h
  | cons event events ih => exact ih (h.next event)

end Runs

end Agent
end OpenSsmAgent
