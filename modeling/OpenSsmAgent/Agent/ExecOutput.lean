import OpenSsmAgent.Agent.Exec
import OpenSsmAgent.Lib.Channels

/-!
# The output of streamed commands

What {lit}`stream` of {lit}`osa-agent/src/exec.rs` hands to its consumer, compared with
what the child wrote, and what {lit}`run` makes of it.

A run of a stream is a list of moments in any order: the child acts, the pump reads a
pipe, a read fails, a chunk is taken or refused, the timer is looked at, the child is
waited for.  The streams that run in ticks are among these.  A failed read ends its pipe
for the pump although output may still be in it.

Main results:

- Theorem {lit}`streamAt_eq_streamRun`: a stream in ticks is a run of moments.
- Theorem {lit}`faithful_run`: in every run the output handed over is an initial part of
  what was written, within its bound.
- Theorem {lit}`output_faithful`: what is handed over, what the flag says of it, and what
  {lit}`run` returns.
-/

open Framing

namespace OpenSsmAgent
namespace Agent
namespace Exec

/-! ## The output of a pipe -/

/-- The pipe a chunk was read from. -/
def chunkPipe : Chunk → Pipe
  | .stdout _ => .stdout
  | .stderr _ => .stderr

/-- What some chunks carry of a pipe's output. -/
def outputOf (p : Pipe) (chunks : List Chunk) : Bytes :=
  chunks.flatMap (fun chunk => if chunkPipe chunk = p then chunkData chunk else [])

/-- The bytes some chunks carry. -/
def handedOver (chunks : List Chunk) : Nat :=
  (outputOf .stdout chunks).length + (outputOf .stderr chunks).length

@[simp] theorem outputOf_nil (p : Pipe) : outputOf p [] = [] :=
  rfl

@[simp] theorem outputOf_append (p : Pipe) (chunks chunks' : List Chunk) :
    outputOf p (chunks ++ chunks') = outputOf p chunks ++ outputOf p chunks' :=
  List.flatMap_append

theorem outputOf_singleton (p : Pipe) (chunk : Chunk) :
    outputOf p [chunk] = if chunkPipe chunk = p then chunkData chunk else [] := by
  simp [outputOf]

@[simp] theorem chunkPipe_takeChunk (p : Pipe) (unread : Bytes) (n : Nat) :
    chunkPipe (takeChunk p unread n) = p := by
  cases p <;> rfl

theorem length_takeChunk_le (p : Pipe) (unread : Bytes) (n : Nat) :
    (chunkData (takeChunk p unread n)).length ≤ readChunk := by
  rw [chunkData_takeChunk, List.length_take, readChunk]
  omega

theorem handedOver_concat (chunks : List Chunk) (chunk : Chunk) :
    handedOver (chunks ++ [chunk]) = handedOver chunks + (chunkData chunk).length := by
  cases chunk <;>
    simp [handedOver, outputOf_singleton, chunkPipe, chunkData] <;> omega

/-! ## Moments -/

/-- What can happen next to a running stream. -/
inductive StreamEvent where
  | child (e : ChildEvent)
  | pump (step : PumpStep)
  | readError (p : Pipe)
  | timer
  | wait

namespace Stream

/-- A pipe has ended for the pump. -/
def endPipe (s : Stream) (now : Nat) (pump : Pump) (p : Pipe) : Stream :=
  let done := Function.update pump.done p true
  if done .stdout && done .stderr then s.stop now false false false
  else { s with phase := .pumping { pump with done := done } }

/-- A read of a pipe fails, which ends it for the pump. -/
def readError (s : Stream) (now : Nat) (p : Pipe) : Stream :=
  match s.phase with
  | .pumping pump =>
      if pump.sending.isSome || pump.done p then s else s.endPipe now pump p
  | _ => s

/-- One moment of a stream. -/
def moment (limits : ExecLimits) (latency : Nat) (s : Stream) : Nat × StreamEvent → Stream
  | (_, .child e) => { s with child := s.child.event e }
  | (now, .pump step) => s.pumpStep limits now step
  | (now, .readError p) => s.readError now p
  | (now, .timer) => s.deadline limits now
  | (now, .wait) => s.wait latency now

end Stream

/-- A run of {lit}`stream`: its moments, each with its time. -/
def streamRun (limits : ExecLimits) (latency : Nat) (moments : List (Nat × StreamEvent)) :
    Stream :=
  moments.foldl (Stream.moment limits latency) Stream.start

/-- What a moment is for the child by itself. -/
def childMoment (a : Child) : Nat × StreamEvent → Child
  | (_, .child e) => a.event e
  | _ => a

/-- The child of a run by itself, when nothing is read and it is not killed. -/
def aloneIn (moments : List (Nat × StreamEvent)) : Child :=
  moments.foldl childMoment Child.spawned

/-- What the child wrote to a pipe in a run. -/
def written (moments : List (Nat × StreamEvent)) (p : Pipe) : Bytes :=
  ((aloneIn moments).pipes p).unread

/-- A read of a pipe fails in a run. -/
def ReadFails (moments : List (Nat × StreamEvent)) (p : Pipe) : Prop :=
  ∃ now, (now, .readError p) ∈ moments

/-! ### Streams in ticks -/

/-- The moments of a tick. -/
def tickMoments (now : Nat) (events : List ChildEvent) (steps : List PumpStep) :
    List (Nat × StreamEvent) :=
  events.map (fun e => (now, StreamEvent.child e)) ++
    steps.map (fun step => (now, StreamEvent.pump step)) ++
    [(now, StreamEvent.timer), (now, StreamEvent.wait)]

/-- The moments of the ticks before a tick. -/
def momentsBefore (behaviour : Nat → List ChildEvent) (schedule : Nat → List PumpStep) :
    Nat → List (Nat × StreamEvent)
  | 0 => []
  | t + 1 => momentsBefore behaviour schedule t ++ tickMoments t (behaviour t) (schedule t)

theorem foldl_moment_child (limits : ExecLimits) (latency now : Nat) (events : List ChildEvent)
    (s : Stream) :
    (events.map (fun e => (now, StreamEvent.child e))).foldl (Stream.moment limits latency) s =
      { s with child := events.foldl Child.event s.child } := by
  induction events generalizing s with
  | nil => rfl
  | cons e events ih =>
      rw [List.map_cons, List.foldl_cons, ih]
      rfl

theorem foldl_moment_pump (limits : ExecLimits) (latency now : Nat) (steps : List PumpStep)
    (s : Stream) :
    (steps.map (fun step => (now, StreamEvent.pump step))).foldl (Stream.moment limits latency) s =
      steps.foldl (Stream.pumpStep limits now) s := by
  rw [List.foldl_map]
  rfl

/-- A stream in ticks is a run of moments. -/
theorem streamAt_eq_streamRun (limits : ExecLimits) (latency : Nat)
    (behaviour : Nat → List ChildEvent) (schedule : Nat → List PumpStep) (t : Nat) :
    streamAt limits latency behaviour schedule t =
      streamRun limits latency (momentsBefore behaviour schedule t) := by
  induction t with
  | zero => rfl
  | succ t ih =>
      unfold streamRun at ih ⊢
      rw [momentsBefore, tickMoments, List.foldl_append, ← ih, List.foldl_append,
        List.foldl_append, foldl_moment_child, foldl_moment_pump]
      rfl

/-! ## One pipe -/

/-- What an event of the child does to a pipe. -/
def PipeEnd.event (pipe : PipeEnd) (p : Pipe) : ChildEvent → PipeEnd
  | .write q data =>
      if q = p ∧ pipe.closed = false then { pipe with unread := pipe.unread ++ data } else pipe
  | .close q => if q = p then { pipe with closed := true } else pipe
  | .exit _ => pipe

theorem Child.pipes_event (c : Child) (e : ChildEvent) (p : Pipe) :
    (c.event e).pipes p = (c.pipes p).event p e := by
  cases e with
  | write q data =>
      by_cases hq : q = p
      · subst hq
        cases hclosed : (c.pipes q).closed <;> simp [Child.event, PipeEnd.event, hclosed]
      · cases hclosed : (c.pipes q).closed <;>
          simp [Child.event, PipeEnd.event, hclosed, hq, Ne.symm hq]
  | close q =>
      by_cases hq : q = p
      · subst hq
        simp [Child.event, PipeEnd.event]
      · simp [Child.event, PipeEnd.event, hq, Ne.symm hq]
  | exit status => rfl

/-- What was read from a pipe and what is left in it make up what was written to it. -/
structure Behind (out : Bytes) (pipe whole : PipeEnd) : Prop where
  closed : pipe.closed = whole.closed
  bytes : out ++ pipe.unread = whole.unread

section Pipes

variable {out : Bytes} {pipe whole : PipeEnd} {p : Pipe} {e : ChildEvent}

theorem Behind.event (h : Behind out pipe whole) :
    Behind out (pipe.event p e) (whole.event p e) := by
  cases e with
  | write q data =>
      simp only [PipeEnd.event, ← h.closed]
      split_ifs
      · exact ⟨rfl, by rw [← List.append_assoc, h.bytes]⟩
      · exact h
  | close q =>
      simp only [PipeEnd.event]
      split_ifs
      · exact ⟨rfl, h.bytes⟩
      · exact h
  | exit status => exact h

/-- Nothing happens to a closed pipe. -/
theorem PipeEnd.event_of_closed (h : pipe.closed = true) : pipe.event p e = pipe := by
  obtain ⟨unread, closed⟩ := pipe
  cases e <;> simp_all [PipeEnd.event]

/-- What is written later comes after what was written. -/
theorem PipeEnd.unread_isPrefix_event : pipe.unread <+: (pipe.event p e).unread := by
  cases e with
  | write q data =>
      simp only [PipeEnd.event]
      split_ifs
      · exact List.prefix_append _ _
      · exact List.prefix_rfl
  | close q =>
      simp only [PipeEnd.event]
      split_ifs <;> exact List.prefix_rfl
  | exit status => exact List.prefix_rfl

end Pipes

/-! ## The output of a run -/

/-- A pump at work: the chunks sent and the one being sent are what was read, the sent
ones are counted, and a pipe that has ended without an error is read to its end. -/
structure Pumps (limits : ExecLimits) (failed : Pipe → Prop) (a c : Child) (pump : Pump)
    (delivered : List Chunk) : Prop where
  behind : ∀ p, Behind (outputOf p (delivered ++ pump.sending.toList)) (c.pipes p) (a.pipes p)
  total : pump.total = handedOver delivered
  within : pump.total ≤ limits.maxOutputBytes
  slice : ∀ chunk, pump.sending = some chunk → (chunkData chunk).length ≤ readChunk
  ended : ∀ p, pump.done p = true → ¬ failed p →
    (c.pipes p).closed = true ∧ (c.pipes p).unread = []
  running : (pump.done .stdout && pump.done .stderr) = false

/-- A pump that is over, with its flags. -/
structure Pumped (limits : ExecLimits) (failed : Pipe → Prop) (a : Child)
    (delivered : List Chunk) (truncated timedOut sinkClosed : Bool) : Prop where
  front : ∀ p, outputOf p delivered <+: (a.pipes p).unread
  bounded : handedOver delivered ≤ limits.maxOutputBytes + readChunk
  exceeds : truncated = true ↔ limits.maxOutputBytes < handedOver delivered
  complete : truncated = false → timedOut = false → sinkClosed = false → ∀ p, ¬ failed p →
    (a.pipes p).closed = true ∧ outputOf p delivered = (a.pipes p).unread

/-- What holds of a stream whose child would by itself be as given. -/
inductive Faithful (limits : ExecLimits) (failed : Pipe → Prop) (a : Child) (s : Stream) : Prop
  | pumping (pump : Pump) (hphase : s.phase = .pumping pump)
      (h : Pumps limits failed a s.child pump s.delivered)
  | ended (truncated timedOut sinkClosed : Bool) (hflags : Flags truncated timedOut sinkClosed s)
      (h : Pumped limits failed a s.delivered truncated timedOut sinkClosed)

section Steps

variable {limits : ExecLimits} {failed failed' : Pipe → Prop} {latency now : Nat} {a c : Child}
  {s : Stream} {pump : Pump} {delivered : List Chunk} {p : Pipe} {e : ChildEvent}
  {truncated timedOut sinkClosed : Bool}

theorem faithful_start : Faithful limits failed Child.spawned Stream.start :=
  .pumping _ rfl ⟨fun _ => ⟨rfl, rfl⟩, rfl, Nat.zero_le _, nofun, nofun, rfl⟩

theorem Faithful.mono (h : Faithful limits failed a s) (hsub : ∀ p, failed p → failed' p) :
    Faithful limits failed' a s := by
  cases h with
  | pumping pump hphase h =>
      refine .pumping pump hphase { h with ended := ?_ }
      intro p hdone hp
      exact h.ended p hdone fun hfailed => hp (hsub p hfailed)
  | ended truncated timedOut sinkClosed hflags h =>
      refine .ended truncated timedOut sinkClosed hflags { h with complete := ?_ }
      intro htruncated htimedOut hclosed p hp
      exact h.complete htruncated htimedOut hclosed p fun hfailed => hp (hsub p hfailed)

/-- The sent chunks are an initial part of what was written. -/
theorem Pumps.front (h : Pumps limits failed a c pump delivered) (p : Pipe) :
    outputOf p delivered <+: (a.pipes p).unread := by
  rw [← (h.behind p).bytes, outputOf_append, List.append_assoc]
  exact List.prefix_append _ _

/-- A pump that is stopped for another reason than its bound has kept to it. -/
theorem Pumps.stopped (h : Pumps limits failed a c pump delivered)
    (hcomplete : timedOut = false → sinkClosed = false → ∀ p, ¬ failed p →
      (a.pipes p).closed = true ∧ outputOf p delivered = (a.pipes p).unread) :
    Pumped limits failed a delivered false timedOut sinkClosed := by
  have hwithin := h.within
  rw [h.total] at hwithin
  refine ⟨h.front, by omega, ?_, fun _ => hcomplete⟩
  simp only [Bool.false_eq_true, false_iff]
  omega

/-- A pipe ends for the pump by an error, or because it is read to its end. -/
theorem Pumps.endPipe (h : Pumps limits failed a s.child pump s.delivered)
    (hsending : pump.sending = none)
    (hp : ¬ failed p → (s.child.pipes p).closed = true ∧ (s.child.pipes p).unread = []) :
    Faithful limits failed a (s.endPipe now pump p) := by
  have hended : ∀ q, Function.update pump.done p true q = true → ¬ failed q →
      (s.child.pipes q).closed = true ∧ (s.child.pipes q).unread = [] := by
    intro q hq hfailed
    by_cases heq : q = p
    · subst heq
      exact hp hfailed
    · rw [Function.update_of_ne heq] at hq
      exact h.ended q hq hfailed
  unfold Stream.endPipe
  dsimp only
  split
  · rename_i hboth
    rw [Bool.and_eq_true] at hboth
    have hdone : ∀ q, Function.update pump.done p true q = true := by
      intro q
      cases q
      · exact hboth.1
      · exact hboth.2
    refine .ended false false false (Or.inl rfl) (h.stopped ?_)
    intro _ _ q hfailed
    obtain ⟨hclosed, hunread⟩ := hended q (hdone q) hfailed
    have hbehind := h.behind q
    rw [hsending, Option.toList_none, List.append_nil] at hbehind
    refine ⟨hbehind.closed ▸ hclosed, ?_⟩
    rw [← hbehind.bytes, hunread, List.append_nil]
  · rename_i hrunning
    exact .pumping _ rfl
      { h with ended := hended, running := Bool.eq_false_iff.mpr hrunning }

/-- What is left in a pipe after a read follows what was read. -/
theorem Pumps.slice_of_read (h : Pumps limits failed a s.child pump s.delivered)
    (hsending : pump.sending = none) (hdone : pump.done p = false) (n : Nat) :
    Pumps limits failed a
      (s.child.setPipe p
        { s.child.pipes p with
          unread := (s.child.pipes p).unread.drop (max 1 (min n readChunk)) })
      { pump with sending := some (takeChunk p (s.child.pipes p).unread n) } s.delivered where
  behind := by
    intro q
    have hbehind := h.behind q
    rw [hsending, Option.toList_none, List.append_nil] at hbehind
    rw [Child.pipes_setPipe, Option.toList_some, outputOf_append, outputOf_singleton,
      chunkPipe_takeChunk]
    by_cases hq : q = p
    · subst hq
      rw [if_pos rfl, if_pos rfl, chunkData_takeChunk]
      refine ⟨hbehind.closed, ?_⟩
      rw [List.append_assoc, List.take_append_drop]
      exact hbehind.bytes
    · rw [if_neg hq, if_neg (Ne.symm hq), List.append_nil]
      exact hbehind
  total := h.total
  within := h.within
  slice := by
    intro chunk hchunk
    obtain rfl := Option.some.inj hchunk
    exact length_takeChunk_le _ _ _
  ended := by
    intro q hq hfailed
    have hne : q ≠ p := by
      rintro rfl
      rw [hdone] at hq
      cases hq
    rw [Child.pipes_setPipe, if_neg hne]
    exact h.ended q hq hfailed
  running := h.running

theorem Pumps.read (h : Pumps limits failed a s.child pump s.delivered)
    (hphase : s.phase = .pumping pump) (hsending : pump.sending = none)
    (hdone : pump.done p = false) (n : Nat) : Faithful limits failed a (s.read now pump p n) := by
  unfold Stream.read
  dsimp only
  split
  · rename_i hunread
    split
    · rename_i hclosed
      exact h.endPipe hsending fun _ => ⟨hclosed, hunread⟩
    · exact .pumping pump hphase h
  · exact .pumping _ rfl (h.slice_of_read hsending hdone n)

/-- A sent chunk counts, and may be the one that exceeds the bound. -/
theorem Pumps.sent (h : Pumps limits failed a s.child pump s.delivered) {chunk : Chunk}
    (hsending : pump.sending = some chunk) :
    Faithful limits failed a (({ s with phase := .pumping pump } : Stream).pumpStep limits now
      .sent) := by
  have htotal : pump.total + (chunkData chunk).length = handedOver (s.delivered ++ [chunk]) := by
    rw [handedOver_concat, h.total]
  have hbehind : ∀ p, Behind (outputOf p (s.delivered ++ [chunk])) (s.child.pipes p)
      (a.pipes p) := by
    intro p
    have hp := h.behind p
    rwa [hsending] at hp
  have hfront : ∀ p, outputOf p (s.delivered ++ [chunk]) <+: (a.pipes p).unread := by
    intro p
    rw [← (hbehind p).bytes]
    exact List.prefix_append _ _
  simp only [Stream.pumpStep, hsending]
  split
  · rename_i hexceeds
    refine .ended true false false (Or.inl rfl) ⟨hfront, ?_, ?_, (by simp)⟩
    · have hslice := h.slice chunk hsending
      have hwithin := h.within
      change handedOver (s.delivered ++ [chunk]) ≤ _
      omega
    · change true = true ↔ _ < handedOver (s.delivered ++ [chunk])
      simp only [true_iff]
      omega
  · rename_i hwithin
    refine .pumping _ rfl ⟨?_, htotal, Nat.le_of_not_lt hwithin, (by simp), h.ended, h.running⟩
    intro p
    rw [Option.toList_none, List.append_nil]
    exact hbehind p

/-- One step of the pump. -/
theorem Faithful.pumpStep (h : Faithful limits failed a s) (step : PumpStep) :
    Faithful limits failed a (s.pumpStep limits now step) := by
  cases h with
  | pumping pump hphase h =>
      have hsame : Faithful limits failed a s := .pumping pump hphase h
      cases step with
      | read p n =>
          cases hsending : pump.sending with
          | some chunk => simpa [Stream.pumpStep, hphase, hsending] using hsame
          | none =>
              cases hdone : pump.done p with
              | true => simpa [Stream.pumpStep, hphase, hsending, hdone] using hsame
              | false =>
                  simpa [Stream.pumpStep, hphase, hsending, hdone] using
                    h.read hphase hsending hdone n
      | sent =>
          cases hsending : pump.sending with
          | none => simpa [Stream.pumpStep, hphase, hsending] using hsame
          | some chunk =>
              have hsent : Faithful limits failed a
                  (({ s with phase := .pumping pump } : Stream).pumpStep limits now .sent) :=
                h.sent hsending
              rwa [← hphase] at hsent
      | refused =>
          cases hsending : pump.sending with
          | none => simpa [Stream.pumpStep, hphase, hsending] using hsame
          | some chunk =>
              have hstopped : Faithful limits failed a (s.stop now false false true) :=
                .ended false false true (Or.inl rfl) (h.stopped (by simp))
              simpa [Stream.pumpStep, hphase, hsending] using hstopped
  | ended truncated timedOut sinkClosed hflags h =>
      have hsame : s.pumpStep limits now step = s := by
        rcases hflags with hphase | ⟨o, hphase, -⟩ <;> simp [Stream.pumpStep, hphase]
      rw [hsame]
      exact .ended truncated timedOut sinkClosed hflags h

theorem Child.pipes_reap (c : Child) (latency now : Nat) :
    (c.reap latency now).pipes = c.pipes := by
  unfold Child.reap
  split
  · rfl
  · split <;> rfl

/-- The child acts. -/
theorem Faithful.child (h : Faithful limits failed a s) (e : ChildEvent) :
    Faithful limits failed (a.event e) { s with child := s.child.event e } := by
  cases h with
  | pumping pump hphase h =>
      refine .pumping pump hphase { h with behind := ?_, ended := ?_ }
      · intro p
        rw [Child.pipes_event, Child.pipes_event]
        exact (h.behind p).event
      · intro p hdone hfailed
        obtain ⟨hclosed, hunread⟩ := h.ended p hdone hfailed
        rw [Child.pipes_event, PipeEnd.event_of_closed hclosed]
        exact ⟨hclosed, hunread⟩
  | ended truncated timedOut sinkClosed hflags h =>
      refine .ended truncated timedOut sinkClosed hflags { h with front := ?_, complete := ?_ }
      · intro p
        rw [Child.pipes_event]
        exact (h.front p).trans PipeEnd.unread_isPrefix_event
      · intro htruncated htimedOut hclosed p hfailed
        obtain ⟨hended, hall⟩ := h.complete htruncated htimedOut hclosed p hfailed
        rw [Child.pipes_event, PipeEnd.event_of_closed hended]
        exact ⟨hended, hall⟩

/-- A read fails. -/
theorem Faithful.readError (h : Faithful limits failed a s) (hp : failed p) :
    Faithful limits failed a (s.readError now p) := by
  cases h with
  | pumping pump hphase h =>
      simp only [Stream.readError, hphase]
      split
      · exact .pumping pump hphase h
      · rename_i hidle
        simp only [Bool.or_eq_true, not_or, Option.not_isSome_iff_eq_none] at hidle
        exact h.endPipe hidle.1 (absurd hp)
  | ended truncated timedOut sinkClosed hflags h =>
      have hsame : s.readError now p = s := by
        rcases hflags with hphase | ⟨o, hphase, -⟩ <;> simp [Stream.readError, hphase]
      rw [hsame]
      exact .ended truncated timedOut sinkClosed hflags h

/-- The timer is looked at.  A chunk that is being sent is lost. -/
theorem Faithful.deadline (h : Faithful limits failed a s) :
    Faithful limits failed a (s.deadline limits now) := by
  unfold Stream.deadline
  split
  · rename_i pump d hphase _
    split
    · cases h with
      | pumping pump' hphase' h =>
          exact .ended false true false (Or.inl rfl) (h.stopped nofun)
      | ended _ _ _ hflags _ =>
          rcases hflags with hphase' | ⟨o, hphase', -⟩ <;> rw [hphase] at hphase' <;> cases hphase'
    · exact h
  · exact h

/-- The child is waited for. -/
theorem Faithful.wait (h : Faithful limits failed a s) :
    Faithful limits failed a (s.wait latency now) := by
  cases h with
  | pumping pump hphase h =>
      have hwait : s.wait latency now = { s with child := s.child.reap latency now } := by
        simp [Stream.wait, hphase]
      rw [hwait]
      refine .pumping pump hphase { h with behind := ?_, ended := ?_ }
      · simpa only [Child.pipes_reap] using h.behind
      · simpa only [Child.pipes_reap] using h.ended
  | ended truncated timedOut sinkClosed hflags h =>
      have hdelivered : (s.wait latency now).delivered = s.delivered := by
        unfold Stream.wait
        dsimp only
        split <;> rfl
      refine .ended truncated timedOut sinkClosed ?_ (hdelivered ▸ h)
      unfold Stream.wait
      dsimp only
      split
      · rename_i hphase hstatus
        rcases hflags with hphase' | ⟨o, hphase', -⟩ <;> rw [hphase] at hphase' <;> cases hphase'
        exact Or.inr ⟨_, rfl, outcome_flags _ _ _⟩
      · exact hflags

/-- One moment of a run. -/
theorem Faithful.moment (h : Faithful limits failed a s) (m : Nat × StreamEvent)
    (hfailed : ∀ p, m.2 = .readError p → failed p) :
    Faithful limits failed (childMoment a m) (s.moment limits latency m) := by
  obtain ⟨now, ev⟩ := m
  cases ev with
  | child e => exact h.child e
  | pump step => exact h.pumpStep step
  | readError p => exact h.readError (hfailed p rfl)
  | timer => exact h.deadline
  | wait => exact h.wait

end Steps

/-- In every run the output handed over is an initial part of what the child wrote, within
its bound, and complete if the pump came to the end of the pipes without an error. -/
theorem faithful_run (limits : ExecLimits) (latency : Nat) (moments : List (Nat × StreamEvent)) :
    Faithful limits (ReadFails moments) (aloneIn moments) (streamRun limits latency moments) := by
  induction moments using List.reverseRecOn with
  | nil => exact faithful_start
  | append_singleton moments m ih =>
      unfold streamRun aloneIn at ih ⊢
      rw [List.foldl_append, List.foldl_append]
      refine Faithful.moment (ih.mono ?_) m ?_
      · rintro p ⟨now, hmem⟩
        exact ⟨now, List.mem_append_left _ hmem⟩
      · intro p hm
        refine ⟨m.1, List.mem_append_right _ ?_⟩
        rw [← hm]
        exact List.mem_singleton_self m

/-! ## Buffered commands -/

/-- {lit}`ExecLimits::unbounded`. -/
def ExecLimits.unbounded : ExecLimits :=
  ⟨2 ^ 64 - 1, none⟩

/-- The capacity of the channel in {lit}`run`. -/
def channelCap : Nat := 64

/-- {lit}`ExecOutcome`. -/
structure ExecOutcome where
  exitCode : Option Int32
  signal : Option Int32
  stdout : Bytes
  stderr : Bytes
deriving DecidableEq

/-- A running {lit}`run`: the stream, its channel, and what {lit}`collect` has so far. -/
structure BufferedRun where
  stream : Stream
  channel : Mailbox Chunk
  stdout : Bytes
  stderr : Bytes
  collected : Bool

/-- What can happen next: the stream advances, or {lit}`collect` receives. -/
inductive RunEvent where
  | stream (now : Nat) (ev : StreamEvent)
  | collect

/-- The chunk that an event hands to the channel. -/
def Stream.sends (s : Stream) : StreamEvent → Option Chunk
  | .pump .sent =>
      match s.phase with
      | .pumping pump => pump.sending
      | _ => none
  | _ => none

/-- Whether {lit}`stream` has returned, which drops its end of the channel. -/
def Stream.isReturned (s : Stream) : Bool :=
  match s.phase with
  | .returned _ _ => true
  | _ => false

namespace BufferedRun

/-- A buffered command whose child was just spawned. -/
def start : BufferedRun :=
  ⟨Stream.start, Mailbox.new, [], [], false⟩

/-- The loop body of {lit}`collect`. -/
def extend (r : BufferedRun) : Chunk → BufferedRun
  | .stdout data => { r with stdout := r.stdout ++ data.bytes }
  | .stderr data => { r with stderr := r.stderr ++ data.bytes }

/-- {lit}`rx.recv()`: the next chunk, or the end of the channel. -/
def collect (r : BufferedRun) : BufferedRun :=
  match r.channel.buffer with
  | chunk :: _ => { r with channel := r.channel.take }.extend chunk
  | [] => if r.stream.isReturned then { r with collected := true } else r

/-- Whether the stream cannot advance so: the receiver lives as long as {lit}`run`, so no
chunk is refused, and a chunk waits for room in the channel. -/
def blocks (r : BufferedRun) : StreamEvent → Bool
  | .pump .refused => true
  | ev => (r.stream.sends ev).isSome && !decide (r.channel.HasRoom channelCap)

/-- One step. -/
def step (latency : Nat) (r : BufferedRun) : RunEvent → BufferedRun
  | .stream now ev =>
      if r.blocks ev then r
      else
        { r with
          stream := r.stream.moment .unbounded latency (now, ev)
          channel := (r.stream.sends ev).elim r.channel r.channel.post }
  | .collect => r.collect

/-- What {lit}`run` returns once both its futures are done. -/
def result (r : BufferedRun) : Option ExecOutcome :=
  match r.stream.phase with
  | .returned outcome _ =>
      if r.collected then some ⟨outcome.exitCode, outcome.signal, r.stdout, r.stderr⟩ else none
  | _ => none

end BufferedRun

/-- A run of {lit}`run`. -/
def execRun (latency : Nat) (events : List RunEvent) : BufferedRun :=
  events.foldl (BufferedRun.step latency) BufferedRun.start

/-- The moments of the stream among some events. -/
def momentsIn (latency : Nat) (r : BufferedRun) : List RunEvent → List (Nat × StreamEvent)
  | [] => []
  | .collect :: events => momentsIn latency r.collect events
  | .stream now ev :: events =>
      if r.blocks ev then momentsIn latency r events
      else (now, ev) :: momentsIn latency (r.step latency (.stream now ev)) events

section Buffered

variable {limits : ExecLimits} {latency now : Nat} {s : Stream} {r : BufferedRun}

theorem Stream.delivered_endPipe (s : Stream) (now : Nat) (pump : Pump) (p : Pipe) :
    (s.endPipe now pump p).delivered = s.delivered := by
  unfold Stream.endPipe
  dsimp only
  split <;> rfl

theorem Stream.delivered_read (s : Stream) (now : Nat) (pump : Pump) (p : Pipe) (n : Nat) :
    (s.read now pump p n).delivered = s.delivered := by
  unfold Stream.read
  dsimp only
  split
  · split
    · exact s.delivered_endPipe now pump p
    · rfl
  · rfl

/-- A moment hands over at most the chunk that is being sent. -/
theorem Stream.delivered_moment (limits : ExecLimits) (latency now : Nat) (s : Stream)
    (ev : StreamEvent) :
    (s.moment limits latency (now, ev)).delivered = s.delivered ++ (s.sends ev).toList := by
  cases ev with
  | child e => exact (List.append_nil _).symm
  | pump step =>
      simp only [Stream.moment, Stream.pumpStep]
      cases hphase : s.phase with
      | pumping pump =>
          cases step with
          | read p n =>
              cases hsending : pump.sending with
              | none =>
                  simp only [hsending, Stream.sends, Option.toList_none, List.append_nil]
                  split
                  · rfl
                  · exact s.delivered_read now pump p n
              | some chunk => simp [hsending, Stream.sends]
          | sent =>
              cases hsending : pump.sending with
              | none => simp [Stream.sends, hphase, hsending]
              | some chunk =>
                  simp only [Stream.sends, hphase, hsending, Option.toList_some]
                  split <;> rfl
          | refused =>
              cases hsending : pump.sending <;> simp [hsending, Stream.sends, Stream.stop]
      | waiting => cases step <;> simp [Stream.sends, hphase]
      | returned => cases step <;> simp [Stream.sends, hphase]
  | readError p =>
      simp only [Stream.moment, Stream.readError, Stream.sends, Option.toList_none,
        List.append_nil]
      split
      · split
        · rfl
        · exact s.delivered_endPipe now _ p
      · rfl
  | timer =>
      simp only [Stream.moment, Stream.deadline, Stream.sends, Option.toList_none,
        List.append_nil]
      split
      · split <;> rfl
      · rfl
  | wait =>
      simp only [Stream.moment, Stream.wait, Stream.sends, Option.toList_none, List.append_nil]
      split <;> rfl

/-- A stream that has returned stays so, and hands over nothing. -/
theorem Stream.isReturned_moment (limits : ExecLimits) (latency now : Nat) {s : Stream}
    (h : s.isReturned = true) (ev : StreamEvent) :
    (s.moment limits latency (now, ev)).isReturned = true ∧ s.sends ev = none := by
  cases hphase : s.phase with
  | pumping pump => simp [Stream.isReturned, hphase] at h
  | waiting => simp [Stream.isReturned, hphase] at h
  | returned outcome sinkClosed =>
      cases ev with
      | child e => exact ⟨h, rfl⟩
      | pump step =>
          refine ⟨by simpa [Stream.moment, Stream.pumpStep, hphase] using h, ?_⟩
          cases step <;> simp [Stream.sends, hphase]
      | readError p => exact ⟨by simpa [Stream.moment, Stream.readError, hphase] using h, rfl⟩
      | timer => exact ⟨by simpa [Stream.moment, Stream.deadline, hphase] using h, rfl⟩
      | wait => exact ⟨by simp [Stream.moment, Stream.wait, hphase, Stream.isReturned], rfl⟩

theorem BufferedRun.stdout_extend (r : BufferedRun) (chunk : Chunk) :
    (r.extend chunk).stdout = r.stdout ++ outputOf .stdout [chunk] := by
  cases chunk <;> simp [BufferedRun.extend, outputOf_singleton, chunkPipe, chunkData]

theorem BufferedRun.stderr_extend (r : BufferedRun) (chunk : Chunk) :
    (r.extend chunk).stderr = r.stderr ++ outputOf .stderr [chunk] := by
  cases chunk <;> simp [BufferedRun.extend, outputOf_singleton, chunkPipe, chunkData]

@[simp] theorem BufferedRun.stream_extend (r : BufferedRun) (chunk : Chunk) :
    (r.extend chunk).stream = r.stream := by
  cases chunk <;> rfl

@[simp] theorem BufferedRun.channel_extend (r : BufferedRun) (chunk : Chunk) :
    (r.extend chunk).channel = r.channel := by
  cases chunk <;> rfl

@[simp] theorem BufferedRun.collected_extend (r : BufferedRun) (chunk : Chunk) :
    (r.extend chunk).collected = r.collected := by
  cases chunk <;> rfl

@[simp] theorem BufferedRun.stream_collect (r : BufferedRun) : r.collect.stream = r.stream := by
  unfold BufferedRun.collect
  split
  · exact BufferedRun.stream_extend _ _
  · split <;> rfl

theorem stream_foldl_step (latency : Nat) (r : BufferedRun) (events : List RunEvent) :
    (events.foldl (BufferedRun.step latency) r).stream =
      (momentsIn latency r events).foldl (Stream.moment .unbounded latency) r.stream := by
  induction events generalizing r with
  | nil => rfl
  | cons event events ih =>
      rw [List.foldl_cons, ih]
      cases event with
      | collect => simp only [BufferedRun.step, momentsIn, BufferedRun.stream_collect]
      | stream now ev =>
          by_cases hblocks : r.blocks ev = true
          · simp only [BufferedRun.step, momentsIn, if_pos hblocks]
          · simp only [BufferedRun.step, momentsIn, if_neg hblocks, List.foldl_cons]

/-- {lit}`collect` has what it took from the channel, and the channel has carried what was
handed over. -/
structure Collects (r : BufferedRun) : Prop where
  carried : r.channel.stream = r.stream.delivered
  stdout : r.stdout = outputOf .stdout r.channel.taken
  stderr : r.stderr = outputOf .stderr r.channel.taken
  finished : r.collected = true → r.channel.buffer = [] ∧ r.stream.isReturned = true

theorem collects_start : Collects BufferedRun.start :=
  ⟨rfl, rfl, rfl, nofun⟩

/-- {lit}`collect` receives. -/
theorem Collects.collect (h : Collects r) : Collects r.collect := by
  unfold BufferedRun.collect
  split
  · rename_i chunk rest hbuffer
    have hopen : r.collected ≠ true := by
      intro hcollected
      rw [(h.finished hcollected).1] at hbuffer
      cases hbuffer
    have htake : r.channel.take.taken = r.channel.taken ++ [chunk] := by
      simp [Mailbox.take, hbuffer]
    have hcarried : r.channel.take.stream = r.stream.delivered := by
      rw [Mailbox.stream_take, h.carried]
    refine ⟨?_, ?_, ?_, ?_⟩
    · rw [BufferedRun.channel_extend, BufferedRun.stream_extend]
      exact hcarried
    · rw [BufferedRun.stdout_extend, BufferedRun.channel_extend, htake, outputOf_append, h.stdout]
    · rw [BufferedRun.stderr_extend, BufferedRun.channel_extend, htake, outputOf_append, h.stderr]
    · rw [BufferedRun.collected_extend]
      exact fun hcollected => absurd hcollected hopen
  · rename_i hbuffer
    split
    · rename_i hreturned
      exact ⟨h.carried, h.stdout, h.stderr, fun _ => ⟨hbuffer, hreturned⟩⟩
    · exact h

/-- The stream advances. -/
theorem Collects.advance (h : Collects r) (now : Nat) (ev : StreamEvent) :
    Collects (r.step latency (.stream now ev)) := by
  simp only [BufferedRun.step]
  split
  · exact h
  · have hdelivered := Stream.delivered_moment .unbounded latency now r.stream ev
    cases hsends : r.stream.sends ev with
    | none =>
        rw [hsends, Option.toList_none, List.append_nil] at hdelivered
        refine ⟨h.carried.trans hdelivered.symm, h.stdout, h.stderr, ?_⟩
        intro hcollected
        obtain ⟨hbuffer, hreturned⟩ := h.finished hcollected
        exact ⟨hbuffer, (Stream.isReturned_moment _ _ _ hreturned ev).1⟩
    | some chunk =>
        rw [hsends, Option.toList_some] at hdelivered
        refine ⟨?_, h.stdout, h.stderr, ?_⟩
        · change (r.channel.post chunk).stream = _
          rw [Mailbox.stream_post, h.carried]
          exact hdelivered.symm
        · intro hcollected
          have hnone := (Stream.isReturned_moment .unbounded latency now
            (h.finished hcollected).2 ev).2
          rw [hsends] at hnone
          cases hnone

theorem collects_run (latency : Nat) (events : List RunEvent) :
    Collects (execRun latency events) := by
  induction events using List.reverseRecOn with
  | nil => exact collects_start
  | append_singleton events event ih =>
      unfold execRun at ih ⊢
      rw [List.foldl_append]
      cases event with
      | collect => exact ih.collect
      | stream now ev => exact ih.advance now ev

/-- {lit}`run` returns what was handed over by each pipe. -/
theorem Collects.result (h : Collects r) {outcome : ExecOutcome}
    (hresult : r.result = some outcome) :
    outcome.stdout = outputOf .stdout r.stream.delivered ∧
      outcome.stderr = outputOf .stderr r.stream.delivered := by
  unfold BufferedRun.result at hresult
  split at hresult
  · split at hresult
    · rename_i hcollected
      obtain rfl := Option.some.inj hresult
      have htaken : r.channel.taken = r.stream.delivered := by
        rw [← h.carried, Mailbox.stream, (h.finished hcollected).1, List.append_nil]
      rw [← htaken]
      exact ⟨h.stdout, h.stderr⟩
    · cases hresult
  · cases hresult

/-! ### Progress -/

/-- The child has ended: its pipes and itself. -/
def Child.Finished (c : Child) : Prop :=
  c.closed ∧ c.status ≠ none

/-- What is left to do for the pump. -/
def Stream.rank (s : Stream) : Nat :=
  match s.phase with
  | .pumping pump =>
      3 * s.child.unread + (if pump.sending.isSome then 2 else 0) + pump.open + 2
  | .waiting _ _ _ => 1
  | .returned _ _ => 0

/-- What is left to do until {lit}`run` returns. -/
def BufferedRun.rank (r : BufferedRun) : Nat :=
  r.stream.rank + r.channel.buffer.length + if r.collected then 0 else 1

/-- The pump is not done while it is at work. -/
theorem running_of_run {moments : List (Nat × StreamEvent)} {pump : Pump}
    (hphase : (streamRun limits latency moments).phase = .pumping pump) :
    (pump.done .stdout && pump.done .stderr) = false := by
  cases faithful_run limits latency moments with
  | pumping pump' hphase' h =>
      obtain rfl : pump' = pump := by simpa using hphase'.symm.trans hphase
      exact h.running
  | ended _ _ _ hflags _ =>
      rcases hflags with hphase' | ⟨o, hphase', -⟩ <;> rw [hphase] at hphase' <;> cases hphase'

theorem Child.Finished.startKill {c : Child} (h : c.Finished) (now : Nat) :
    (c.startKill now) = c := by
  unfold Child.startKill
  rw [if_pos (Option.isSome_iff_ne_none.mpr h.2)]

/-- A finished child's pipe that the pump has not ended: reading it gets on. -/
theorem Stream.rank_read (limits : ExecLimits) {pump : Pump} {p : Pipe}
    (hfinished : s.child.Finished) (hphase : s.phase = .pumping pump)
    (hsending : pump.sending = none) (hdone : pump.done p = false) (now : Nat) :
    (s.pumpStep limits now (.read p 1)).rank < s.rank ∧
      (s.pumpStep limits now (.read p 1)).child.Finished := by
  have hrank : s.rank = 3 * s.child.unread + pump.open + 2 := by
    simp [Stream.rank, hphase, hsending]
  have hstep : s.pumpStep limits now (.read p 1) = s.read now pump p 1 := by
    simp [Stream.pumpStep, hphase, hsending, hdone]
  have hclosed := hfinished.1 p
  rw [hstep]
  cases hunread : (s.child.pipes p).unread with
  | nil =>
      have hread : s.read now pump p 1 = s.endPipe now pump p := by
        simp [Stream.read, hunread, hclosed, Stream.endPipe]
      have hopen : ({ pump with done := Function.update pump.done p true } : Pump).open <
          pump.open := by
        cases p <;> simp [Pump.open, hdone]
      rw [hread, hrank]
      unfold Stream.endPipe
      dsimp only
      split
      · exact ⟨by simp only [Stream.stop, Stream.rank]; omega, hfinished⟩
      · refine ⟨?_, hfinished⟩
        simp only [Stream.rank, hsending, Option.isSome_none, Bool.false_eq_true, if_false,
          Pump.open] at hopen ⊢
        omega
  | cons byte rest =>
      have hread : s.read now pump p 1 =
          { s with
            child := s.child.setPipe p { s.child.pipes p with unread := rest }
            phase := .pumping { pump with sending := some (takeChunk p (byte :: rest) 1) } } := by
        simp [Stream.read, hunread, readChunk]
      have hset := s.child.unread_setPipe p { s.child.pipes p with unread := rest }
      rw [hunread, List.length_cons] at hset
      rw [hread, hrank]
      refine ⟨?_, ?_, hfinished.2⟩
      · simp only [Stream.rank, Option.isSome_some, if_true, Pump.open] at hset ⊢
        omega
      · intro q
        rw [Child.pipes_setPipe]
        split
        · exact hclosed
        · exact hfinished.1 q

/-- Sending the chunk that was read gets on, even by one more in the channel. -/
theorem Stream.rank_sent (limits : ExecLimits) {pump : Pump} {chunk : Chunk}
    (hfinished : s.child.Finished) (hphase : s.phase = .pumping pump)
    (hsending : pump.sending = some chunk) (now : Nat) :
    (s.pumpStep limits now .sent).rank + 1 < s.rank ∧
      (s.pumpStep limits now .sent).child.Finished := by
  have hrank : s.rank = 3 * s.child.unread + 2 + pump.open + 2 := by
    simp [Stream.rank, hphase, hsending]
  rw [hrank]
  simp only [Stream.pumpStep, hphase, hsending]
  split
  · simp only [Stream.stop, Bool.true_or, if_true, hfinished.startKill, Stream.rank]
    exact ⟨by omega, hfinished⟩
  · refine ⟨?_, hfinished⟩
    simp only [Stream.rank, Option.isSome_none, Bool.false_eq_true, if_false, Pump.open]
    omega

/-- Waiting for a finished child returns. -/
theorem Stream.rank_wait {truncated timedOut sinkClosed : Bool} (hfinished : s.child.Finished)
    (hphase : s.phase = .waiting truncated timedOut sinkClosed) (latency now : Nat) :
    (s.wait latency now).rank < s.rank ∧ (s.wait latency now).child.Finished := by
  obtain ⟨status, hstatus⟩ := Option.ne_none_iff_exists'.mp hfinished.2
  have hreap : (s.child.reap latency now).status = some status := by
    unfold Child.reap
    split
    · exact hstatus
    · split
      · simp [hstatus]
      · exact hstatus
  have hwait : s.wait latency now =
      { s with
        child := s.child.reap latency now
        phase := .returned (Stream.outcome status truncated timedOut) sinkClosed } := by
    simp [Stream.wait, hphase, hreap]
  rw [hwait]
  refine ⟨by simp [Stream.rank, hphase], ?_, by simp [hreap]⟩
  intro p
  change ((s.child.reap latency now).pipes p).closed = true
  rw [Child.pipes_reap]
  exact hfinished.1 p

/-- Receiving a chunk gets on. -/
theorem BufferedRun.rank_collect {chunk : Chunk} {rest : List Chunk}
    (hbuffer : r.channel.buffer = chunk :: rest) : r.collect.rank < r.rank := by
  have htake : r.channel.take.buffer = rest := by simp [Mailbox.take, hbuffer]
  simp [BufferedRun.collect, BufferedRun.rank, hbuffer, htake]

/-- A moment that sends nothing and gets on. -/
theorem BufferedRun.rank_quiet {ev : StreamEvent} (hblocks : r.blocks ev = false)
    (hsends : r.stream.sends ev = none)
    (hless : (r.stream.moment .unbounded latency (now, ev)).rank < r.stream.rank) :
    (r.step latency (.stream now ev)).rank < r.rank := by
  simp only [BufferedRun.step, hblocks, Bool.false_eq_true, if_false, hsends, Option.elim_none,
    BufferedRun.rank]
  omega

/-- As long as {lit}`run` has not returned after its child has ended, some step gets on. -/
theorem BufferedRun.progress {events : List RunEvent}
    (hfinished : (execRun latency events).stream.child.Finished)
    (hresult : (execRun latency events).result = none) :
    ∃ event, ((execRun latency events).step latency event).rank < (execRun latency events).rank ∧
      ((execRun latency events).step latency event).stream.child.Finished := by
  have hrun : (execRun latency events).stream =
      streamRun .unbounded latency (momentsIn latency BufferedRun.start events) :=
    stream_foldl_step latency BufferedRun.start events
  generalize hr : execRun latency events = r at hfinished hresult hrun ⊢
  cases hphase : r.stream.phase with
  | pumping pump =>
      cases hsending : pump.sending with
      | none =>
          have hrunning := running_of_run (hrun ▸ hphase)
          obtain ⟨p, hp⟩ : ∃ p, pump.done p = false := by
            rcases Bool.and_eq_false_iff.mp hrunning with hp | hp
            · exact ⟨.stdout, hp⟩
            · exact ⟨.stderr, hp⟩
          obtain ⟨hless, hchild⟩ :=
            Stream.rank_read .unbounded hfinished hphase hsending hp 0
          refine ⟨.stream 0 (.pump (.read p 1)), BufferedRun.rank_quiet rfl rfl hless, hchild⟩
      | some chunk =>
          by_cases hroom : r.channel.HasRoom channelCap
          · obtain ⟨hless, hchild⟩ :=
              Stream.rank_sent .unbounded hfinished hphase hsending 0
            have hsends : r.stream.sends (.pump .sent) = some chunk := by
              simp [Stream.sends, hphase, hsending]
            have hstep : r.step latency (.stream 0 (.pump .sent)) =
                { r with
                  stream := r.stream.pumpStep .unbounded 0 .sent
                  channel := r.channel.post chunk } := by
              simp [BufferedRun.step, BufferedRun.blocks, hsends, hroom, Stream.moment]
            refine ⟨.stream 0 (.pump .sent), ?_, ?_⟩
            · rw [hstep]
              simp only [BufferedRun.rank, Mailbox.post, List.length_append, List.length_singleton]
              omega
            · rw [hstep]
              exact hchild
          · cases hbuffer : r.channel.buffer with
            | nil => simp [Mailbox.HasRoom, hbuffer, channelCap] at hroom
            | cons chunk' rest =>
                refine ⟨.collect, BufferedRun.rank_collect hbuffer, ?_⟩
                simpa only [BufferedRun.step, BufferedRun.stream_collect] using hfinished
  | waiting truncated timedOut sinkClosed =>
      obtain ⟨hless, hchild⟩ := Stream.rank_wait hfinished hphase latency 0
      exact ⟨.stream 0 .wait, BufferedRun.rank_quiet rfl rfl hless, hchild⟩
  | returned outcome sinkClosed =>
      have hopen : r.collected = false := by
        simpa [BufferedRun.result, hphase] using hresult
      have hchild : (r.step latency .collect).stream.child.Finished := by
        simpa only [BufferedRun.step, BufferedRun.stream_collect] using hfinished
      refine ⟨.collect, ?_, hchild⟩
      cases hbuffer : r.channel.buffer with
      | nil =>
          simp [BufferedRun.step, BufferedRun.collect, BufferedRun.rank, hbuffer,
            Stream.isReturned, hphase, hopen]
      | cons chunk rest => exact BufferedRun.rank_collect hbuffer

/-- Once the child has ended, {lit}`run` can always go on to return. -/
theorem run_returns {events : List RunEvent}
    (hfinished : (execRun latency events).stream.child.Finished) :
    ∃ more, (execRun latency (events ++ more)).result.isSome = true := by
  generalize hn : (execRun latency events).rank = n
  induction n using Nat.strong_induction_on generalizing events with
  | _ n ih =>
      cases hresult : (execRun latency events).result with
      | some outcome => exact ⟨[], by simp [hresult]⟩
      | none =>
          obtain ⟨event, hless, hchild⟩ := BufferedRun.progress hfinished hresult
          have hstep : (execRun latency events).step latency event =
              execRun latency (events ++ [event]) := by
            simp [execRun]
          rw [hstep] at hless hchild
          obtain ⟨more, hmore⟩ := ih _ (hn ▸ hless) hchild rfl
          exact ⟨event :: more, by simpa using hmore⟩

end Buffered

/-! ## The output is faithful and bounded -/

/-- What a run of {lit}`stream` has handed over. -/
structure HandsOver (limits : ExecLimits) (moments : List (Nat × StreamEvent)) (s : Stream) :
    Prop where
  /-- The chunks of each pipe are an initial part of what the child wrote to it. -/
  front : ∀ p, outputOf p s.delivered <+: written moments p
  /-- Together they exceed the bound by one read at most. -/
  bounded : handedOver s.delivered ≤ limits.maxOutputBytes + readChunk
  /-- The flag says whether they do. -/
  exceeds : ∀ truncated timedOut sinkClosed, Flags truncated timedOut sinkClosed s →
    (truncated = true ↔ limits.maxOutputBytes < handedOver s.delivered)
  /-- If the pump came to the end of both pipes, every pipe without a read error is
  complete. -/
  complete : Flags false false false s → ∀ p, ¬ ReadFails moments p →
    outputOf p s.delivered = written moments p

/-- The flags of a pump that is over are determined. -/
theorem Flags.unique {s : Stream} {truncated timedOut sinkClosed truncated' timedOut'
    sinkClosed' : Bool} (h : Flags truncated timedOut sinkClosed s)
    (h' : Flags truncated' timedOut' sinkClosed' s) :
    truncated = truncated' ∧ timedOut = timedOut' ∧ sinkClosed = sinkClosed' := by
  rcases h with hphase | ⟨o, hphase, rfl, rfl⟩
  · rcases h' with hphase' | ⟨o', hphase', -⟩ <;> rw [hphase] at hphase' <;> cases hphase'
    exact ⟨rfl, rfl, rfl⟩
  · rcases h' with hphase' | ⟨o', hphase', rfl, rfl⟩ <;> rw [hphase] at hphase' <;> cases hphase'
    exact ⟨rfl, rfl, rfl⟩

theorem Faithful.handsOver {limits : ExecLimits} {moments : List (Nat × StreamEvent)} {s : Stream}
    (h : Faithful limits (ReadFails moments) (aloneIn moments) s) : HandsOver limits moments s := by
  cases h with
  | pumping pump hphase h =>
      have hover : ∀ {truncated timedOut sinkClosed : Bool},
          ¬ Flags truncated timedOut sinkClosed s := by
        rintro truncated timedOut sinkClosed (hphase' | ⟨o, hphase', -⟩) <;>
          rw [hphase] at hphase' <;> cases hphase'
      have hwithin := h.within
      rw [h.total] at hwithin
      exact ⟨h.front, by omega, fun _ _ _ hflags => absurd hflags hover,
        fun hflags => absurd hflags hover⟩
  | ended truncated timedOut sinkClosed hflags h =>
      refine ⟨h.front, h.bounded, ?_, ?_⟩
      · intro truncated' timedOut' sinkClosed' hflags'
        obtain ⟨rfl, -, -⟩ := hflags.unique hflags'
        exact h.exceeds
      · intro hflags' p hfailed
        obtain ⟨htruncated, htimedOut, hclosed⟩ := hflags.unique hflags'
        exact (h.complete htruncated htimedOut hclosed p hfailed).2

/-- Whatever the child writes, however the two pipes are read, and whenever the timer fires
or the consumer goes away, {lit}`stream` hands over an initial part of each pipe's output
within the bound, and {lit}`run` returns what was handed over. -/
theorem output_faithful (latency : Nat) :
    (∀ limits moments, HandsOver limits moments (streamRun limits latency moments)) ∧
    ∀ events,
      (execRun latency events).stream =
        streamRun .unbounded latency (momentsIn latency BufferedRun.start events) ∧
      (∀ outcome, (execRun latency events).result = some outcome →
        outcome.stdout = outputOf .stdout (execRun latency events).stream.delivered ∧
        outcome.stderr = outputOf .stderr (execRun latency events).stream.delivered) ∧
      ((execRun latency events).stream.child.Finished →
        ∃ more, (execRun latency (events ++ more)).result.isSome = true) := by
  refine ⟨fun limits moments => (faithful_run limits latency moments).handsOver, ?_⟩
  intro events
  exact ⟨stream_foldl_step latency BufferedRun.start events,
    fun _ hresult => (collects_run latency events).result hresult, run_returns⟩

/-- The child writes five bytes, of which four are read in two chunks; the timer fires
while the second is being sent. -/
def sampleLate : List (Nat × StreamEvent) :=
  [(0, .child (.write .stdout [1, 2, 3, 4, 5])), (0, .pump (.read .stdout 2)), (0, .pump .sent),
    (1, .pump (.read .stdout 2)), (9, .timer)]

/-- The child writes to both pipes and ends, and all of it is read. -/
def sampleWhole : List StreamEvent :=
  [.child (.write .stderr [7]), .child (.write .stdout [1, 2]), .child (.close .stdout),
    .child (.close .stderr), .child (.exit (.code 0)), .pump (.read .stdout 9), .pump .sent,
    .pump (.read .stderr 9), .pump .sent, .pump (.read .stdout 9), .pump (.read .stderr 9), .wait]

/-- A chunk that was read and not sent is missing at the end only; with a bound of one byte
the first chunk sets the flag; without either, {lit}`run` returns all the output. -/
theorem output_faithful_sample :
    (outputOf .stdout (streamRun ⟨8, some 5⟩ 0 sampleLate).delivered = [1, 2] ∧
      outputOf .stdout (streamRun ⟨8, some 5⟩ 0 sampleLate).delivered <+:
        written sampleLate .stdout) ∧
    (Flags true false false (streamRun ⟨1, some 5⟩ 0 sampleLate) ∧
      1 < handedOver (streamRun ⟨1, some 5⟩ 0 sampleLate).delivered) ∧
    ∃ outcome,
      (execRun 0 (sampleWhole.map (.stream 0 ·) ++ [RunEvent.collect, .collect, .collect])).result =
        some outcome ∧ outcome.stdout = [1, 2] ∧ outcome.stderr = [7] := by
  have hexceeds : Flags true false false (streamRun ⟨1, some 5⟩ 0 sampleLate) := Or.inl rfl
  have hresult : (execRun 0 (sampleWhole.map (.stream 0 ·) ++
      [.collect, .collect, .collect])).result = some ⟨some 0, none, [1, 2], [7]⟩ := by
    decide +kernel
  refine ⟨⟨by decide +kernel, ((output_faithful 0).1 _ _).front _⟩, ⟨hexceeds, ?_⟩, _, hresult,
    rfl, rfl⟩
  exact (((output_faithful 0).1 _ _).exceeds _ _ _ hexceeds).mp rfl

end Exec
end Agent
end OpenSsmAgent
