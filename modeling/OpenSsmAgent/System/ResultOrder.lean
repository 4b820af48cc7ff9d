import OpenSsmAgent.Agent.Report
import OpenSsmAgent.Lib.TicketQueue
import OpenSsmAgent.System.Fleet
import OpenSsmAgent.System.SealedChannels

/-!
# Results of concurrent jobs

A job task sends in two halves: it takes a sequence number and seals, and later
hands the sealed bytes to the results channel.  The coordinator accepts only
increasing sequence numbers, so a result that was sealed first and queued second
is lost.

Main results:

- Theorem {lit}`no_lost_result_iff`: when all sends are through, no result is lost
  exactly if no task queued its result while another still held an older one.
- Theorem {lit}`overtaken_result_lost`: two jobs of which one loses its outcome.
-/

open Framing SymbolicCrypto

namespace OpenSsmAgent
namespace System

open Seal Wire Domain Proto Coordinator Agent

/-! ## Sends of job tasks -/

/-- No job task is in the middle of a send. -/
def Idle (a : Process) : Prop :=
  a.sending.entries = []
deriving Decidable

theorem Idle.lookup {a : Process} (h : Idle a) (task : Nat) : a.sending.lookup task = none := by
  refine Option.eq_none_iff_forall_ne_some.mpr ?_
  intro e he
  have hmem := Table.mem_entries_iff.mpr he
  rw [show a.sending.entries = [] from h] at hmem
  cases hmem

/-- One half of a send by a job task. -/
inductive SendStep where
  | seals (task : Nat) (result : JobResult)
  | enqueues (task : Nat)

namespace SendStep

def task : SendStep → Nat
  | seals task _ => task
  | enqueues task => task

def event : SendStep → AgentEvent
  | seals task result => .jobSeals task result
  | enqueues task => .jobEnqueues task

/-- A task seals when its last send is through, and queues what it sealed. -/
def Enabled (a : Process) : SendStep → Prop
  | seals task _ => a.sending.lookup task = none
  | enqueues task => a.sending.lookup task ≠ none

/-- A task that queues its result holds the oldest one. -/
def InTurn (a : Process) : SendStep → Prop
  | seals _ _ => True
  | enqueues task => ∀ e, a.sending.lookup task = some e →
      ∀ other e', a.sending.lookup other = some e' → e.seq ≤ e'.seq

instance (a : Process) : (step : SendStep) → Decidable (step.Enabled a)
  | seals task _ => inferInstanceAs (Decidable (a.sending.lookup task = none))
  | enqueues task => inferInstanceAs (Decidable (a.sending.lookup task ≠ none))

/-- Only what is being sent can be older. -/
theorem inTurn_enqueues_iff {a : Process} {task : Nat} :
    (enqueues task).InTurn a ↔ ∀ x ∈ a.sending.entries, ∀ y ∈ a.sending.entries,
      x.1 = task → x.2.seq ≤ y.2.seq := by
  constructor
  · rintro h ⟨_, e⟩ hx ⟨other, e'⟩ hy rfl
    exact h e (Table.mem_entries_iff.mp hx) other e' (Table.mem_entries_iff.mp hy)
  · intro h e he other e' he'
    exact h ⟨task, e⟩ (Table.mem_entries_iff.mpr he) ⟨other, e'⟩ (Table.mem_entries_iff.mpr he') rfl

instance (a : Process) : (step : SendStep) → Decidable (step.InTurn a)
  | seals _ _ => inferInstanceAs (Decidable True)
  | enqueues _ => decidable_of_iff' _ inTurn_enqueues_iff

def op : SendStep → TicketQueue.Op Nat JobResult
  | seals task result => .take task result
  | enqueues task => .give task

end SendStep

/-- The results sealed in some steps, in order. -/
def produced (steps : List SendStep) : List JobResult :=
  steps.filterMap (fun
    | .seals _ result => some result
    | .enqueues _ => none)

section Runs

variable (cfg : AgentConfig) (env : AgentEnv)

/-- The steps as turns of the agent process. -/
def sendTurns (steps : List SendStep) : List (AgentEnv × AgentEvent) :=
  steps.map (fun step => (env, step.event))

/-- An interleaving of sends, from a state to one in which all sends are
through. -/
def Interleaving (a : Process) : List SendStep → Prop
  | [] => Idle a
  | step :: steps => step.Enabled a ∧ Interleaving (agentStep cfg env a step.event).1 steps

/-- Every step is in turn. -/
def AllInTurn (a : Process) : List SendStep → Prop
  | [] => True
  | step :: steps => step.InTurn a ∧ AllInTurn (agentStep cfg env a step.event).1 steps

def decideInterleaving : (a : Process) → (steps : List SendStep) →
    Decidable (Interleaving cfg env a steps)
  | a, [] => inferInstanceAs (Decidable (Idle a))
  | a, step :: steps =>
      have := decideInterleaving (agentStep cfg env a step.event).1 steps
      inferInstanceAs (Decidable (step.Enabled a ∧ _))

instance (a : Process) (steps : List SendStep) : Decidable (Interleaving cfg env a steps) :=
  decideInterleaving cfg env a steps

def decideAllInTurn : (a : Process) → (steps : List SendStep) →
    Decidable (AllInTurn cfg env a steps)
  | _, [] => inferInstanceAs (Decidable True)
  | a, step :: steps =>
      have := decideAllInTurn (agentStep cfg env a step.event).1 steps
      inferInstanceAs (Decidable (step.InTurn a ∧ _))

instance (a : Process) (steps : List SendStep) : Decidable (AllInTurn cfg env a steps) :=
  decideAllInTurn cfg env a steps

end Runs

/-- What was handed to the publishers, with its topic. -/
def queued (es : List AgentEffect) : List (String × Envelope) :=
  es.filterMap (fun
    | .queued topic e => some (topic, e)
    | _ => none)

/-- The turns of the coordinator when the broker delivers a queue, in order. -/
def deliveries (env : StepEnv) (queue : List (String × Envelope)) :
    List (StepEnv × BridgeEvent) :=
  queue.map (fun m => (env, .message m.1 (envelopePayload m.2)))

/-- The results offered to the operator of a job. -/
def offered (host : HostId) (jobId : Str) (events : Channel) (es : List Effect) :
    List JobResult :=
  es.filterMap (fun
    | .event ch h result _ =>
        if ch = events ∧ h = host ∧ result.jobId = jobId then some result else none
    | _ => none)

/-! ## Sends as tickets -/

/-- The envelope of a result with its sequence number. -/
def sentEnvelope (ch : JobChannel) (x : Nat × JobResult) : Envelope :=
  (sealUplink ch.keys x.1 ch.hostId ch.sid x.2.encode).1

/-- The tasks of a session hold the tickets of a queue. -/
structure Tracks (ch : JobChannel) (a : Process) (s : TicketQueue.State Nat JobResult) : Prop where
  cell : ch.cell < a.cells.length
  count : a.count ch.cell = s.next
  sending : ∀ task, a.sending.lookup task = (s.held task).map (sentEnvelope ch)

section Tracking

variable {cfg : AgentConfig} {env : AgentEnv} {ch : JobChannel} {a : Process}
  {s : TicketQueue.State Nat JobResult}

theorem Tracks.held_eq_none (h : Tracks ch a s) {task : Nat} :
    s.held task = none ↔ a.sending.lookup task = none := by
  rw [h.sending, Option.map_eq_none_iff]

theorem agentStep_jobs (step : SendStep) :
    (agentStep cfg env a step.event).1.jobs = a.jobs := by
  cases step with
  | seals task result =>
      simp only [SendStep.event, agentStep, jobSeals]
      split <;> rfl
  | enqueues task =>
      simp only [SendStep.event, agentStep, jobEnqueues]
      split <;> rfl

/-- Sealing takes a ticket. -/
theorem Tracks.seals (h : Tracks ch a s) {task : Nat} (hjob : a.jobs.lookup task = some ch)
    (hidle : a.sending.lookup task = none) (result : JobResult) :
    Tracks ch (jobSeals a task result).1 (TicketQueue.step s (.take task result)) ∧
    queued (jobSeals a task result).2 = [] ∧
    (TicketQueue.step s (.take task result)).out = s.out ∧
    (TicketQueue.step s (.take task result)).issued = s.issued ++ [(s.next, result)] := by
  have hheld : s.held task = none := h.held_eq_none.mpr hidle
  simp only [jobSeals, hjob, hidle, TicketQueue.step, hheld]
  refine ⟨⟨?_, ?_, ?_⟩, rfl, trivial, trivial⟩
  · simpa [Process.setCount] using h.cell
  · simp [Process.count, Process.setCount, sealUplink, h.cell, ← h.count]
  · intro other
    rcases eq_or_ne other task with rfl | hne
    · simp [sentEnvelope, h.count]
    · simp [Table.lookup_put_ne _ _ hne, hne, h.sending]

/-- Queueing hands the ticket in. -/
theorem Tracks.enqueues (cfg : AgentConfig) (h : Tracks ch a s) (hopen : env.resultsOpen = true)
    {task : Nat} {x : Nat × JobResult} (hheld : s.held task = some x) :
    Tracks ch (jobEnqueues cfg env a task).1 (TicketQueue.step s (.give task)) ∧
    queued (jobEnqueues cfg env a task).2 =
      [(Topics.resultUp cfg.hostId.text, sentEnvelope ch x)] ∧
    (TicketQueue.step s (.give task)).out = s.out ++ [x] ∧
    (TicketQueue.step s (.give task)).issued = s.issued := by
  have hsending : a.sending.lookup task = some (sentEnvelope ch x) := by
    rw [h.sending, hheld, Option.map_some]
  simp only [jobEnqueues, hsending, TicketQueue.step, hheld, hopen]
  refine ⟨⟨h.cell, h.count, ?_⟩, rfl, trivial, trivial⟩
  intro other
  rcases eq_or_ne other task with rfl | hne
  · simp [Table.lookup_drop]
  · simp [Table.lookup_drop, hne, h.sending]

/-- One half of a send as a ticket operation. -/
theorem Tracks.step (cfg : AgentConfig) (h : Tracks ch a s) (hopen : env.resultsOpen = true)
    {step : SendStep} (hjob : a.jobs.lookup step.task = some ch) (henabled : step.Enabled a) :
    Tracks ch (agentStep cfg env a step.event).1 (TicketQueue.step s step.op) ∧
    (TicketQueue.step s step.op).issued.map Prod.snd =
      s.issued.map Prod.snd ++ produced [step] ∧
    ∃ xs, (TicketQueue.step s step.op).out = s.out ++ xs ∧
      queued (agentStep cfg env a step.event).2 =
        xs.map (fun x => (Topics.resultUp cfg.hostId.text, sentEnvelope ch x)) := by
  cases step with
  | seals task result =>
      have htask : a.jobs.lookup task = some ch := hjob
      obtain ⟨htracks, hquiet, hout, hissued⟩ := h.seals htask henabled result
      refine ⟨htracks, ?_, [], ?_, hquiet⟩
      · simp [SendStep.op, hissued, produced]
      · simp [SendStep.op, hout]
  | enqueues task =>
      cases hheld : s.held task with
      | none => exact absurd (h.held_eq_none.mp hheld) henabled
      | some x =>
          obtain ⟨htracks, hqueued, hout, hissued⟩ := h.enqueues cfg hopen hheld
          refine ⟨htracks, ?_, [x], hout, hqueued⟩
          simp [SendStep.op, hissued, produced]

theorem tasks_step {step : SendStep} {steps : List SendStep}
    (htasks : ∀ step' ∈ step :: steps, a.jobs.lookup step'.task = some ch) :
    ∀ step' ∈ steps, (agentStep cfg env a step.event).1.jobs.lookup step'.task = some ch := by
  intro step' hstep'
  rw [agentStep_jobs]
  exact htasks step' (List.mem_cons_of_mem _ hstep')

/-- What an interleaving leaves behind: all tickets are in the queue, in the order
in which the envelopes were queued. -/
theorem Tracks.run (h : Tracks ch a s) (hopen : env.resultsOpen = true) {steps : List SendStep}
    (htasks : ∀ step ∈ steps, a.jobs.lookup step.task = some ch)
    (hrun : Interleaving cfg env a steps) :
    (TicketQueue.run s (steps.map SendStep.op)).Idle ∧
    (TicketQueue.run s (steps.map SendStep.op)).issued.map Prod.snd =
      s.issued.map Prod.snd ++ produced steps ∧
    ∃ xs, (TicketQueue.run s (steps.map SendStep.op)).out = s.out ++ xs ∧
      queued (agentRun cfg a (sendTurns env steps)).2 =
        xs.map (fun x => (Topics.resultUp cfg.hostId.text, sentEnvelope ch x)) := by
  induction steps generalizing a s with
  | nil =>
      refine ⟨fun task => h.held_eq_none.mpr (Idle.lookup hrun task), ?_, [], ?_, rfl⟩
      · simp [produced, TicketQueue.run]
      · simp [TicketQueue.run]
  | cons step steps ih =>
      obtain ⟨henabled, hrest⟩ := hrun
      obtain ⟨htracks, hissued, xs, hout, hqueued⟩ :=
        h.step cfg hopen (htasks step List.mem_cons_self) henabled
      obtain ⟨hidle, hissued', ys, hout', hqueued'⟩ := ih htracks (tasks_step htasks) hrest
      refine ⟨hidle, ?_, xs ++ ys, ?_, ?_⟩
      · rw [List.map_cons, TicketQueue.run, hissued', hissued, List.append_assoc]
        congr 1
        exact List.filterMap_append.symm
      · rw [List.map_cons, TicketQueue.run, hout', hout, List.append_assoc]
      · rw [List.map_append, ← hqueued, ← hqueued']
        exact List.filterMap_append

/-- Envelopes are in the order of their numbers. -/
theorem sentEnvelope_seq_le_iff (ch : JobChannel) {x y : Nat × JobResult} (hx : x.1 < 2 ^ 64)
    (hy : y.1 < 2 ^ 64) :
    (sentEnvelope ch x).seq ≤ (sentEnvelope ch y).seq ↔ x.1 ≤ y.1 := by
  change wireSeq x.1 ≤ wireSeq y.1 ↔ _
  rw [UInt64.le_iff_toNat_le, toNat_wireSeq hx, toNat_wireSeq hy]

/-- A step is in turn exactly if its ticket operation is. -/
theorem Tracks.inTurn_iff (h : Tracks ch a s) (hinv : TicketQueue.Inv s) (hroom : s.next ≤ 2 ^ 64)
    (step : SendStep) : step.InTurn a ↔ TicketQueue.InTurn s step.op := by
  have hbound : ∀ {task x}, s.held task = some x → x.1 < 2 ^ 64 := by
    intro task x hx
    exact Nat.lt_of_lt_of_le (hinv.bound x (hinv.held_mem hx)) hroom
  cases step with
  | seals task result => exact Iff.rfl
  | enqueues task =>
      constructor
      · intro hturn x hx other y hy
        refine (sentEnvelope_seq_le_iff ch (hbound hx) (hbound hy)).mp ?_
        refine hturn _ ?_ other _ ?_
        · rw [h.sending, hx, Option.map_some]
        · rw [h.sending, hy, Option.map_some]
      · intro hturn e he other e' he'
        rw [h.sending] at he he'
        obtain ⟨x, hx, rfl⟩ := Option.map_eq_some_iff.mp he
        obtain ⟨y, hy, rfl⟩ := Option.map_eq_some_iff.mp he'
        exact (sentEnvelope_seq_le_iff ch (hbound hx) (hbound hy)).mpr (hturn x hx other y hy)

/-- An interleaving is in turn exactly if its ticket operations are. -/
theorem Tracks.allInTurn_iff (h : Tracks ch a s) (hinv : TicketQueue.Inv s)
    (hopen : env.resultsOpen = true) {steps : List SendStep}
    (hroom : s.next + (produced steps).length ≤ 2 ^ 64)
    (htasks : ∀ step ∈ steps, a.jobs.lookup step.task = some ch)
    (hrun : Interleaving cfg env a steps) :
    AllInTurn cfg env a steps ↔ TicketQueue.AllInTurn s (steps.map SendStep.op) := by
  induction steps generalizing a s with
  | nil => exact Iff.rfl
  | cons step steps ih =>
      obtain ⟨henabled, hrest⟩ := hrun
      obtain ⟨htracks, -⟩ := h.step cfg hopen (htasks step List.mem_cons_self) henabled
      have hnext : (TicketQueue.step s step.op).next + (produced steps).length ≤ 2 ^ 64 := by
        cases step with
        | seals task result =>
            simp only [SendStep.op, TicketQueue.step]
            simp only [produced, List.filterMap_cons, List.length_cons] at hroom ⊢
            split
            · change s.next + 1 + _ ≤ _
              omega
            · omega
        | enqueues task =>
            simp only [SendStep.op, TicketQueue.step]
            split <;> exact hroom
      refine and_congr (h.inTurn_iff hinv (by omega) step) ?_
      exact ih htracks (hinv.step step.op) hnext (tasks_step htasks) hrest

end Tracking

/-! ## The coordinator -/

section Coordinator

variable {fromDer : FromDer} {cfg : BridgeConfig fromDer} {env : StepEnv} {b : Bridge}
  {host : HostId} {s : Session} {ch : JobChannel}

/-- The turn in which the coordinator receives a result. -/
def resultTurn (env : StepEnv) (host : HostId) (ch : JobChannel) (x : Nat × JobResult) :
    StepEnv × BridgeEvent :=
  (env, .message (Topics.resultUp host.toStr.text) (envelopePayload (sentEnvelope ch x)))

/-- A number above the mark is not stale. -/
theorem not_stale {recvHigh : Option UInt64} {xs : List (Nat × JobResult)}
    (hmark : ∀ h, recvHigh = some h → ∀ x ∈ xs, h.toNat < x.1) (hroom : ∀ x ∈ xs, x.1 < 2 ^ 64)
    {x : Nat × JobResult} (hx : x ∈ xs) :
    ReplayGuard.stale recvHigh (wireSeq x.1) = false := by
  cases recvHigh with
  | none => rfl
  | some h =>
      have hlt := hmark h rfl x hx
      simp only [ReplayGuard.stale_some, decide_eq_false_iff_not, UInt64.le_iff_toNat_le,
        toNat_wireSeq (hroom x hx)]
      omega

theorem openUplink_sentEnvelope {x : Nat × JobResult} (hkeys : s.keys = ch.keys)
    (hnew : ReplayGuard.stale s.recvHigh (wireSeq x.1) = false) :
    s.openUplink (sentEnvelope ch x) =
      (some x.2.encode, { s with recvHigh := some (wireSeq x.1) }) := by
  have hauth : openEnvelope s.keys .agentToCoord (sentEnvelope ch x) = some x.2.encode := by
    rw [hkeys]
    exact openEnvelope_sealEnvelope _ _ _ _ _ _ _
  have hseq : (sentEnvelope ch x).seq = wireSeq x.1 := rfl
  simp only [Session.openUplink, openGuarded, ReplayGuard.guardedOpen, hauth, hseq, hnew]
  simp

/-- The result handler on a fresh genuine result: an operator that still waits is
offered the result, and stops waiting at the outcome. -/
theorem step_resultTurn {x : Nat × JobResult} (hget : b.sessions.get host = some s)
    (hkeys : s.keys = ch.keys) (hnew : ReplayGuard.stale s.recvHigh (wireSeq x.1) = false)
    (hsize : x.2.encode.length < 2 ^ 64) (hsend : ∀ c h r, env.sendEvent c h r = .ok) :
    let b' := b.setSession host { s with recvHigh := some (wireSeq x.1) }
    step cfg (resultTurn env host ch x).1 b (resultTurn env host ch x).2 =
      match b.pending.lookup (host, x.2.jobId) with
      | none => (b', [])
      | some job =>
          (if JobResult.isTerminal x.2 then b'.dropPending (host, x.2.jobId) else b',
            [.event job.events host x.2 .ok]) := by
  have htopic : ∀ tail, Topics.tenantForTail (Topics.resultUp host.toStr.text) tail =
      if "osa/v1/up/result" = tail then some (Topics.tenant host.toStr.text) else none :=
    Topics.tenantForTail_topic host "/up/result"
  simp only [resultTurn, step, onMessage, Topics.tenantFromHeartbeat, Topics.tenantFromHsUp,
    Topics.tenantFromCtrlUp, Topics.tenantFromResultUp, htopic]
  simp only [String.reduceEq, if_false, if_true, handleResult, Topics.parse_tenant,
    envelopePayload, hget, openUplink_sentEnvelope hkeys hnew, Option.bind_some,
    JobResult.decode_encode hsize, hsend, StepEnv.eventTo]
  have hpending : ∀ s', (b.setSession host s').pending = b.pending := fun _ => rfl
  simp only [hpending]
  cases b.pending.lookup (host, x.2.jobId) with
  | none => rfl
  | some job =>
      dsimp only
      split <;> rfl

theorem offered_append (host : HostId) (jobId : Str) (events : Channel) (es es' : List Effect) :
    offered host jobId events (es ++ es') =
      offered host jobId events es ++ offered host jobId events es' :=
  List.filterMap_append

/-- Genuine results in sequence order, all newer than the mark, reach their
operators. -/
theorem offered_of_increasing {xs : List (Nat × JobResult)}
    (hget : b.sessions.get host = some s) (hkeys : s.keys = ch.keys)
    (hmark : ∀ h, s.recvHigh = some h → ∀ x ∈ xs, h.toNat < x.1)
    (hinc : xs.Pairwise (fun x y => x.1 < y.1)) (hroom : ∀ x ∈ xs, x.1 < 2 ^ 64)
    (hsize : ∀ x ∈ xs, x.2.encode.length < 2 ^ 64)
    (hlast : xs.Pairwise (fun x y => JobResult.isTerminal x.2 = true → y.2.jobId ≠ x.2.jobId))
    (hsend : ∀ c h r, env.sendEvent c h r = .ok) {jobId : Str} {job : PendingJob}
    (hjob : b.pending.lookup (host, jobId) = some job ∨ ∀ x ∈ xs, x.2.jobId ≠ jobId) :
    offered host jobId job.events (run cfg b (xs.map (resultTurn env host ch))).2 =
      (xs.map Prod.snd).filter (fun r => r.jobId = jobId) := by
  induction xs generalizing b s with
  | nil => rfl
  | cons x xs ih =>
      obtain ⟨hfirst, hinc⟩ := List.pairwise_cons.mp hinc
      obtain ⟨hend, hlast⟩ := List.pairwise_cons.mp hlast
      have hx : x.1 < 2 ^ 64 := hroom x List.mem_cons_self
      have hnew := not_stale hmark hroom List.mem_cons_self
      have htail : ∀ b' : Bridge,
          b'.sessions.get host = some { s with recvHigh := some (wireSeq x.1) } →
          (b'.pending.lookup (host, jobId) = some job ∨ ∀ y ∈ xs, y.2.jobId ≠ jobId) →
          offered host jobId job.events (run cfg b' (xs.map (resultTurn env host ch))).2 =
            (xs.map Prod.snd).filter (fun r => r.jobId = jobId) := by
        intro b' hget' hjob'
        refine ih hget' hkeys ?_ hinc (fun y hy => hroom y (List.mem_cons_of_mem _ hy))
          (fun y hy => hsize y (List.mem_cons_of_mem _ hy)) hlast hjob'
        intro h hh y hy
        rw [← Option.some.inj hh, toNat_wireSeq hx]
        exact hfirst y hy
      have hlater : ∀ b' : Bridge,
          b'.pending.lookup (host, jobId) = b.pending.lookup (host, jobId) →
          b'.pending.lookup (host, jobId) = some job ∨ ∀ y ∈ xs, y.2.jobId ≠ jobId := by
        intro b' hsame
        rw [hsame]
        exact hjob.imp_right (fun hnone y hy => hnone y (List.mem_cons_of_mem _ hy))
      rw [List.map_cons, run, offered_append, List.map_cons,
        step_resultTurn hget hkeys hnew (hsize x List.mem_cons_self) hsend]
      by_cases hid : x.2.jobId = jobId
      · -- The operator still waits, since no result of its job comes after the outcome.
        have hwaits : b.pending.lookup (host, x.2.jobId) = some job := by
          rw [hid]
          exact hjob.resolve_right (fun hnone => hnone x List.mem_cons_self hid)
        rw [hwaits]
        dsimp only
        rw [htail _ ?_ ?_]
        · simp [offered, hid]
        · split <;> simp [Bridge.setSession, Bridge.dropPending]
        · split
          · rename_i hterminal
            exact Or.inr (fun y hy => hid ▸ hend y hy hterminal)
          · exact hlater _ rfl
      · have hkept : (b.pending.drop (host, x.2.jobId)).lookup (host, jobId) =
            b.pending.lookup (host, jobId) := by
          simp [Table.lookup_drop, Ne.symm hid]
        rw [List.filter_cons_of_neg (by simpa using hid)]
        cases b.pending.lookup (host, x.2.jobId) with
        | none => exact htail _ (by simp [Bridge.setSession]) (hlater _ rfl)
        | some job' =>
            dsimp only
            rw [htail _ ?_ ?_]
            · simp [offered, hid]
            · split <;> simp [Bridge.setSession, Bridge.dropPending]
            · split
              · exact hlater _ hkept
              · exact hlater _ rfl

end Coordinator

/-! ## No lost result -/

/-- What the sends of a session owe the coordinator and its operators: every sealed
result is accepted, and every waiting operator is offered exactly the results of
its job, in the order in which they were sealed. -/
structure NoLostResult {fromDer : FromDer} (cfg : BridgeConfig fromDer) (env : StepEnv)
    (host : HostId) (b : Bridge) (s : Session) (results : List JobResult)
    (queue : List (String × Envelope)) : Prop where
  accepted : ((receive Session.openUplink s (queue.map Prod.snd)).1.map Prod.snd).Perm
    (results.map JobResult.encode)
  offered : ∀ jobId job, b.pending.lookup (host, jobId) = some job →
    offered host jobId job.events (run cfg b (deliveries env queue)).2 =
      results.filter (fun r => r.jobId = jobId)

/-- A session with its job tasks on the agent and its entry at the coordinator:
no send is under way, nothing sent so far is newer than the allocator, and a job's
outcome is the last thing sent for it. -/
structure SessionSetting (ch : JobChannel) (host : HostId) (a : Process) (b : Bridge)
    (s : Session) (steps : List SendStep) : Prop where
  cell : ch.cell < a.cells.length
  idle : Idle a
  tasks : ∀ step ∈ steps, a.jobs.lookup step.task = some ch
  room : a.count ch.cell + (produced steps).length ≤ 2 ^ 64
  session : b.sessions.get host = some s
  keys : s.keys = ch.keys
  mark : ∀ h, s.recvHigh = some h → h.toNat < a.count ch.cell
  outcomeLast : (produced steps).Pairwise
    (fun r r' => JobResult.isTerminal r = true → r'.jobId ≠ r.jobId)
  size : ∀ r ∈ produced steps, r.encode.length < 2 ^ 64

section Main

variable {fromDer : FromDer} {ch : JobChannel} {host : HostId} {a : Process} {b : Bridge}
  {s : Session} {steps : List SendStep}

/-- What a session accepts, as guarded delivery. -/
theorem receive_openUplink (s : Session) (envs : List Envelope) :
    (receive Session.openUplink s envs).1 =
      (ReplayGuard.deliver (openEnvelope s.keys .agentToCoord) Envelope.seq s.recvHigh envs).1 := by
  rw [← sessionUplink_read, receive_read]
  exact List.filterMap_some

theorem openEnvelope_sentEnvelope (ch : JobChannel) (x : Nat × JobResult) :
    openEnvelope ch.keys .agentToCoord (sentEnvelope ch x) = some x.2.encode :=
  openEnvelope_sealEnvelope _ _ _ _ _ _ _

/-- Within the sequence space, envelopes increase as their numbers do. -/
theorem sentEnvelopes_increasing_iff (ch : JobChannel) {xs : List (Nat × JobResult)}
    (hroom : ∀ x ∈ xs, x.1 < 2 ^ 64) :
    (xs.map (sentEnvelope ch)).Pairwise (fun e e' => e.seq < e'.seq) ↔
      xs.Pairwise (fun x y => x.1 < y.1) := by
  rw [List.pairwise_map]
  refine List.Pairwise.iff_of_mem ?_
  intro x y hx hy
  change wireSeq x.1 < wireSeq y.1 ↔ _
  rw [UInt64.lt_iff_toNat_lt, toNat_wireSeq (hroom x hx), toNat_wireSeq (hroom y hy)]

/-- If as many envelopes are accepted as are delivered, they came in sequence
order. -/
theorem increasing_of_accepted (s : Session) {envs : List Envelope}
    (hall : (receive Session.openUplink s envs).1.length = envs.length) :
    envs.Pairwise (fun e e' => e.seq < e'.seq) := by
  rw [receive_openUplink] at hall
  have hsub : ((ReplayGuard.deliver (openEnvelope s.keys .agentToCoord) Envelope.seq s.recvHigh
      envs).1.map Prod.fst).Sublist envs :=
    ReplayGuard.accepted_sublist _ _
  rw [← hsub.eq_of_length (by rw [List.length_map, hall]), List.pairwise_map]
  exact ReplayGuard.accepted_pairwise _ _

/-- Results in sequence order, all newer than the mark, are all accepted. -/
theorem accepted_of_increasing (hkeys : s.keys = ch.keys) {xs : List (Nat × JobResult)}
    (hroom : ∀ x ∈ xs, x.1 < 2 ^ 64) (hmark : ∀ h, s.recvHigh = some h → ∀ x ∈ xs, h.toNat < x.1)
    (hinc : xs.Pairwise (fun x y => x.1 < y.1)) :
    (receive Session.openUplink s (xs.map (sentEnvelope ch))).1.map Prod.snd =
      xs.map (fun x => x.2.encode) := by
  have hauth : ∀ e ∈ xs.map (sentEnvelope ch), openEnvelope s.keys .agentToCoord e =
      some ((openEnvelope s.keys .agentToCoord e).getD []) := by
    intro e he
    obtain ⟨x, -, rfl⟩ := List.mem_map.mp he
    simp [hkeys, openEnvelope_sentEnvelope]
  have hnew : ∀ e ∈ xs.map (sentEnvelope ch), ReplayGuard.stale s.recvHigh e.seq = false := by
    intro e he
    obtain ⟨x, hx, rfl⟩ := List.mem_map.mp he
    exact not_stale hmark hroom hx
  rw [receive_openUplink, ReplayGuard.deliver_of_increasing hauth hnew
    ((sentEnvelopes_increasing_iff ch hroom).mpr hinc)]
  simp [hkeys, openEnvelope_sentEnvelope]

theorem SessionSetting.tracks (h : SessionSetting ch host a b s steps) :
    Tracks ch a (TicketQueue.start (a.count ch.cell)) :=
  ⟨h.cell, rfl, fun task => by simp [TicketQueue.start, h.idle.lookup task]⟩

/-- In every interleaving of the sends of a session's job tasks, delivered in the
order in which they were queued, no result is lost exactly if no task queued its
result while another task still held an older one. -/
theorem no_lost_result_iff (cfg : BridgeConfig fromDer) (agentCfg : AgentConfig)
    (agentEnv : AgentEnv) (env : StepEnv) (ch : JobChannel) (host : HostId) (a : Process)
    (b : Bridge) (s : Session) (steps : List SendStep)
    (hset : SessionSetting ch host a b s steps)
    (hrun : Interleaving agentCfg agentEnv a steps) (hopen : agentEnv.resultsOpen = true)
    (hsend : ∀ c h r, env.sendEvent c h r = .ok) (hhost : agentCfg.hostId = host.toStr) :
    NoLostResult cfg env host b s (produced steps)
        (queued (agentRun agentCfg a (sendTurns agentEnv steps)).2) ↔
      AllInTurn agentCfg agentEnv a steps := by
  obtain ⟨hidle, hissued, xs, hout, hqueued⟩ := hset.tracks.run hopen hset.tasks hrun
  have hinv := TicketQueue.run_inv (TicketQueue.inv_start (a.count ch.cell))
    (steps.map SendStep.op)
  rw [hset.tracks.allInTurn_iff (TicketQueue.inv_start _) hopen hset.room hset.tasks hrun,
    ← TicketQueue.increasing_iff_allInTurn (TicketQueue.inv_start _) List.prefix_rfl hidle]
  generalize hfinal : TicketQueue.run (TicketQueue.start (a.count ch.cell))
    (steps.map SendStep.op) = t at hidle hissued hout hinv ⊢
  simp only [TicketQueue.start, List.nil_append, List.map_nil] at hissued hout
  subst hout
  have hlen : t.issued.length = (produced steps).length := by
    rw [← hissued, List.length_map]
  have hbounds : ∀ x ∈ t.out, a.count ch.cell ≤ x.1 ∧ x.1 < 2 ^ 64 := by
    obtain ⟨new, hnew, hnext, hnum⟩ := TicketQueue.run_issued
      (TicketQueue.start (a.count ch.cell)) (steps.map SendStep.op)
    rw [hfinal] at hnew hnext hnum
    simp only [TicketQueue.start, List.nil_append] at hnew hnext hnum
    rw [← hnew, hlen] at hnext
    intro x hx
    have hroom := hset.room
    have hxnew := hnum x (hnew ▸ (hinv.cover x).mpr (Or.inl hx))
    omega
  have hroom : ∀ x ∈ t.out, x.1 < 2 ^ 64 := fun x hx => (hbounds x hx).2
  have hmark : ∀ h, s.recvHigh = some h → ∀ x ∈ t.out, h.toNat < x.1 := fun h hh x hx =>
    Nat.lt_of_lt_of_le (hset.mark h hh) (hbounds x hx).1
  have hqueue : (queued (agentRun agentCfg a (sendTurns agentEnv steps)).2).map Prod.snd =
      t.out.map (sentEnvelope ch) := by
    rw [hqueued, List.map_map]
    rfl
  constructor
  · intro hno
    refine (sentEnvelopes_increasing_iff ch hroom).mp (increasing_of_accepted s ?_)
    have haccepted := hno.accepted.length_eq
    rw [hqueue] at haccepted
    simpa [hlen, (hinv.perm hidle).length_eq] using haccepted
  · intro hinc
    have hsame : t.out = t.issued := hinv.eq_issued_of_increasing hidle hinc
    refine ⟨?_, ?_⟩
    · rw [hqueue, accepted_of_increasing hset.keys hroom hmark hinc, ← hissued, ← hsame,
        List.map_map]
      exact List.Perm.refl _
    · intro jobId job hjob
      have hturns : deliveries env (queued (agentRun agentCfg a (sendTurns agentEnv steps)).2) =
          t.out.map (resultTurn env host ch) := by
        rw [hqueued, deliveries, List.map_map, hhost]
        rfl
      have hlast := hset.outcomeLast
      have hsize := hset.size
      rw [hturns, ← hissued, ← hsame]
      rw [← hissued, ← hsame] at hlast hsize
      exact offered_of_increasing hset.session hset.keys hmark hinc hroom
        (fun x hx => hsize x.2 (List.mem_map_of_mem hx)) (List.pairwise_map.mp hlast) hsend
        (Or.inl hjob)

end Main

/-! ## Two jobs of one session -/

def sampleDispatch (jobId : Str) : Dispatch := ⟨jobId, Str.lit "exec", default, default⟩

/-- The sample session with two jobs dispatched and their tasks running. -/
def sampleJobs : Fleet :=
  let host := sampleHost.toStr.text
  let a := sampleDispatch (Str.lit "a")
  let b := sampleDispatch (Str.lit "b")
  (fleetRun sampleCfg (fun _ => sampleAgentCfg) Fleet.new (sampleHandshake ++
    [smoothTurn (.command (.dispatch sampleHost a 0)),
      smoothTurn (.command (.dispatch sampleHost b 1)),
      smoothAgentTurn
        (.publish (Topics.dispatchDown host) (envelopePayload (sampleDownlink 1 a.encode))),
      smoothAgentTurn
        (.publish (Topics.dispatchDown host) (envelopePayload (sampleDownlink 2 b.encode)))])).1

def sampleChannel : JobChannel := ⟨sampleKeys, 0, sampleHost.toStr, sampleSid⟩

def sampleJobSession : Session := ⟨sampleSid, sampleKeys, 3, none⟩

def sampleResult (jobId : Str) : JobResult :=
  Report.result jobId (.outcome ⟨.exitCode 0, false, false⟩)

/-- Both jobs seal, and the second is first to queue. -/
def sampleOvertaking : List SendStep :=
  [.seals 0 (sampleResult (Str.lit "a")), .seals 1 (sampleResult (Str.lit "b")),
    .enqueues 1, .enqueues 0]

/-- One job after the other. -/
def sampleOneByOne : List SendStep :=
  [.seals 0 (sampleResult (Str.lit "a")), .enqueues 0,
    .seals 1 (sampleResult (Str.lit "b")), .enqueues 1]

theorem sampleJobs_state :
    sampleChannel.cell < (sampleJobs.agents 0).cells.length ∧ Idle (sampleJobs.agents 0) ∧
      (sampleJobs.agents 0).count sampleChannel.cell = 1 ∧
      sampleJobs.bridge.sessions.get sampleHost = some sampleJobSession ∧
      ∀ task ∈ [0, 1], (sampleJobs.agents 0).jobs.lookup task = some sampleChannel := by
  decide +kernel

theorem sessionSetting_sample {steps : List SendStep}
    (htasks : ∀ step ∈ steps, step.task ∈ [0, 1])
    (hroom : (produced steps).length < 10)
    (hlast : (produced steps).Pairwise
      (fun r r' => JobResult.isTerminal r = true → r'.jobId ≠ r.jobId))
    (hsize : ∀ r ∈ produced steps, r.encode.length < 2 ^ 64) :
    SessionSetting sampleChannel sampleHost (sampleJobs.agents 0) sampleJobs.bridge sampleJobSession
      steps where
  cell := sampleJobs_state.1
  idle := sampleJobs_state.2.1
  tasks step hstep := sampleJobs_state.2.2.2.2 _ (htasks step hstep)
  room := by
    have hcount := sampleJobs_state.2.2.1
    omega
  session := sampleJobs_state.2.2.2.1
  keys := rfl
  mark := nofun
  outcomeLast := hlast
  size := hsize

/-- Both sends are whole and everything queued is delivered in order, yet the first
job's outcome is not accepted and its operator is offered nothing. -/
theorem overtaken_result_lost :
    let a := sampleJobs.agents 0
    let queue := queued (agentRun sampleAgentCfg a (sendTurns sampleAgentEnv sampleOvertaking)).2
    SessionSetting sampleChannel sampleHost a sampleJobs.bridge sampleJobSession sampleOvertaking ∧
    Interleaving sampleAgentCfg sampleAgentEnv a sampleOvertaking ∧
    (sampleJobs.bridge.pending.lookup (sampleHost, Str.lit "a")).map (·.events) = some 0 ∧
    offered sampleHost (Str.lit "a") 0
      (run sampleCfg sampleJobs.bridge (deliveries sampleEnv queue)).2 = [] ∧
    ¬ NoLostResult sampleCfg sampleEnv sampleHost sampleJobs.bridge sampleJobSession
      (produced sampleOvertaking) queue := by
  intro a queue
  have hruns : Interleaving sampleAgentCfg sampleAgentEnv a sampleOvertaking ∧
      (sampleJobs.bridge.pending.lookup (sampleHost, Str.lit "a")).map (·.events) = some 0 ∧
      offered sampleHost (Str.lit "a") 0
        (run sampleCfg sampleJobs.bridge (deliveries sampleEnv queue)).2 = [] := by
    decide +kernel
  refine ⟨sessionSetting_sample (by decide) (by decide) (by decide +kernel)
    (by decide +kernel), hruns.1, hruns.2.1, hruns.2.2, ?_⟩
  intro hno
  exact absurd hno.accepted.length_eq (by decide +kernel)

/-- One after the other, both outcomes arrive. -/
theorem no_lost_result_one_by_one :
    NoLostResult sampleCfg sampleEnv sampleHost sampleJobs.bridge sampleJobSession
      [sampleResult (Str.lit "a"), sampleResult (Str.lit "b")]
      (queued (agentRun sampleAgentCfg (sampleJobs.agents 0)
        (sendTurns sampleAgentEnv sampleOneByOne)).2) :=
  (no_lost_result_iff sampleCfg sampleAgentCfg sampleAgentEnv sampleEnv sampleChannel sampleHost
    (sampleJobs.agents 0) sampleJobs.bridge sampleJobSession sampleOneByOne
    (sessionSetting_sample (by decide) (by decide) (by decide +kernel) (by decide +kernel))
    (by decide +kernel) rfl (fun _ _ _ => rfl) rfl).mpr (by decide +kernel)

end System
end OpenSsmAgent
