import OpenSsmAgent.Agent.Report

/-!
# Streamed commands

A command runs as a child with two pipes.  The pump forwards what it reads to the
consumer until both pipes have ended, the output exceeds its bound, the consumer is
gone, or the deadline passes; then the child is killed unless the pipes have ended, and
waited for.  Time is counted in ticks.  What the child does in each tick, and what the
pump and the consumer get done in it, is arbitrary.

The deadline covers the pump only.  Once both pipes have ended the child is waited for
without a bound.

Main results:

- Theorem {lit}`reached_at`: the phases of a stream before and after the deadline.
- Theorem {lit}`deadline_ends_child_iff`: the children that the deadline ends under
  every schedule.
- Theorem {lit}`closed_pipes_outlive_deadline`: a child that it does not end.
-/

open Framing

namespace OpenSsmAgent
namespace Agent
namespace Exec

/-- {lit}`READ_CHUNK`. -/
def readChunk : Nat := 16 * 1024

/-- The output pipes of a child. -/
inductive Pipe where
  | stdout
  | stderr
deriving DecidableEq

/-- The bytes of a chunk. -/
def chunkData : Chunk → Bytes
  | .stdout data => data.bytes
  | .stderr data => data.bytes

/-- The chunk of a read that gets up to so many bytes. -/
def takeChunk (p : Pipe) (unread : Bytes) (n : Nat) : Chunk :=
  let data : Blob := ⟨unread.take (max 1 (min n readChunk)), by
    simp only [List.length_take, readChunk]
    omega⟩
  match p with
  | .stdout => .stdout data
  | .stderr => .stderr data

@[simp] theorem chunkData_takeChunk (p : Pipe) (unread : Bytes) (n : Nat) :
    chunkData (takeChunk p unread n) = unread.take (max 1 (min n readChunk)) := by
  cases p <;> rfl

/-- {lit}`ExecLimits`, with the timeout in ticks. -/
structure ExecLimits where
  maxOutputBytes : Nat
  timeout : Option Nat

/-- How a process ended. -/
inductive ExitStatus where
  | code (code : Int32)
  | signal (signal : Int32)
deriving DecidableEq

/-- {lit}`StreamOutcome`. -/
structure StreamOutcome where
  exitCode : Option Int32
  signal : Option Int32
  truncated : Bool
  timedOut : Bool
deriving DecidableEq

/-! ## The child -/

/-- A pipe: what was written and not read, and whether it has ended. -/
structure PipeEnd where
  unread : Bytes
  closed : Bool
deriving DecidableEq

/-- A child: its pipes, its exit status, and when it was sent SIGKILL. -/
structure Child where
  pipes : Pipe → PipeEnd
  status : Option ExitStatus
  killedAt : Option Nat

/-- What a child, or a process that inherited its pipes, does.  A read error ends a
pipe like a close. -/
inductive ChildEvent where
  | write (p : Pipe) (data : Bytes)
  | close (p : Pipe)
  | exit (status : ExitStatus)

namespace Child

/-- A child that was just spawned. -/
def spawned : Child :=
  ⟨fun _ => ⟨[], false⟩, none, none⟩

/-- Change a pipe. -/
def setPipe (c : Child) (p : Pipe) (pipe : PipeEnd) : Child :=
  { c with pipes := Function.update c.pipes p pipe }

/-- One event. -/
def event (c : Child) : ChildEvent → Child
  | .write p data =>
      if (c.pipes p).closed then c
      else c.setPipe p { c.pipes p with unread := (c.pipes p).unread ++ data }
  | .close p => c.setPipe p { c.pipes p with closed := true }
  | .exit status => { c with status := c.status.or (some status) }

/-- SIGKILL, unless the child has exited. -/
def startKill (c : Child) (now : Nat) : Child :=
  if c.status.isSome then c else { c with killedAt := some now }

/-- A killed child ends after a latency. -/
def reap (c : Child) (latency now : Nat) : Child :=
  match c.killedAt with
  | none => c
  | some k => if k + latency ≤ now then { c with status := c.status.or (some (.signal 9)) } else c

/-- The output that waits in the pipes. -/
def unread (c : Child) : Nat :=
  (c.pipes .stdout).unread.length + (c.pipes .stderr).unread.length

/-- Both pipes have ended. -/
def closed (c : Child) : Prop :=
  ∀ p, (c.pipes p).closed = true

end Child

/-- The child by itself, before a tick, when nothing is read and it is not killed. -/
def alone (behaviour : Nat → List ChildEvent) : Nat → Child
  | 0 => Child.spawned
  | t + 1 => (behaviour t).foldl Child.event (alone behaviour t)

/-! ## The stream -/

/-- The pump: the pipes that have ended, the bytes sent, and the chunk being sent. -/
structure Pump where
  done : Pipe → Bool
  total : Nat
  sending : Option Chunk

/-- Where a stream is. -/
inductive Phase where
  | pumping (pump : Pump)
  | waiting (truncated timedOut sinkClosed : Bool)
  | returned (outcome : StreamOutcome) (sinkClosed : Bool)

/-- A running {lit}`stream`, with what its consumer has received. -/
structure Stream where
  child : Child
  phase : Phase
  delivered : List Chunk

/-- A step of the pump: a read that gets up to so many bytes, or the answer of the
consumer to the chunk being sent. -/
inductive PumpStep where
  | read (p : Pipe) (n : Nat)
  | sent
  | refused

namespace Stream

/-- A stream whose pump is about to start. -/
def start : Stream :=
  ⟨Child.spawned, .pumping ⟨fun _ => false, 0, none⟩, []⟩

/-- The pump is over: kill the child if it stopped early, and wait. -/
def stop (s : Stream) (now : Nat) (truncated timedOut sinkClosed : Bool) : Stream :=
  { s with
    child := if truncated || timedOut || sinkClosed then s.child.startKill now else s.child
    phase := .waiting truncated timedOut sinkClosed }

/-- A read of a pipe that has not ended in the pump. -/
def read (s : Stream) (now : Nat) (pump : Pump) (p : Pipe) (n : Nat) : Stream :=
  let pipe := s.child.pipes p
  if pipe.unread = [] then
    if pipe.closed then
      let done := Function.update pump.done p true
      if done .stdout && done .stderr then s.stop now false false false
      else { s with phase := .pumping { pump with done := done } }
    else s
  else
    { s with
      child := s.child.setPipe p
        { pipe with unread := pipe.unread.drop (max 1 (min n readChunk)) }
      phase := .pumping { pump with sending := some (takeChunk p pipe.unread n) } }

/-- One step of the pump. -/
def pumpStep (limits : ExecLimits) (now : Nat) (s : Stream) (step : PumpStep) : Stream :=
  match s.phase with
  | .pumping pump =>
      match step, pump.sending with
      | .read p n, none => if pump.done p then s else s.read now pump p n
      | .sent, some chunk =>
          let total := pump.total + (chunkData chunk).length
          let s := { s with delivered := s.delivered ++ [chunk] }
          if limits.maxOutputBytes < total then s.stop now true false false
          else { s with phase := .pumping { pump with total := total, sending := none } }
      | .refused, some _ => s.stop now false false true
      | _, _ => s
  | _ => s

/-- The timer around the pump. -/
def deadline (limits : ExecLimits) (now : Nat) (s : Stream) : Stream :=
  match s.phase, limits.timeout with
  | .pumping _, some d => if d ≤ now then s.stop now false true false else s
  | _, _ => s

/-- The outcome of a child with its flags. -/
def outcome (status : ExitStatus) (truncated timedOut : Bool) : StreamOutcome :=
  match status with
  | .code code => ⟨some code, none, truncated, timedOut⟩
  | .signal signal => ⟨none, some signal, truncated, timedOut⟩

/-- Return once the child has exited. -/
def wait (latency now : Nat) (s : Stream) : Stream :=
  let child := s.child.reap latency now
  match s.phase, child.status with
  | .waiting truncated timedOut sinkClosed, some status =>
      { s with child := child, phase := .returned (outcome status truncated timedOut) sinkClosed }
  | _, _ => { s with child := child }

/-- One tick: the child acts, the pump and the consumer get some steps done, the timer
is looked at, and so is the child. -/
def tick (limits : ExecLimits) (latency now : Nat) (events : List ChildEvent)
    (steps : List PumpStep) (s : Stream) : Stream :=
  let s := { s with child := events.foldl Child.event s.child }
  ((steps.foldl (pumpStep limits now) s).deadline limits now).wait latency now

end Stream

/-- {lit}`stream` before a tick, with the timer started in the first one. -/
def streamAt (limits : ExecLimits) (latency : Nat) (behaviour : Nat → List ChildEvent)
    (schedule : Nat → List PumpStep) : Nat → Stream
  | 0 => Stream.start
  | t + 1 => (streamAt limits latency behaviour schedule t).tick limits latency t (behaviour t)
      (schedule t)

/-! ## The child under the pump -/

/-- The pump has taken from the pipes what it has sent, and otherwise the child is as
it would be alone. -/
structure Pumping (limits : ExecLimits) (a c : Child) (pump : Pump) : Prop where
  closed : ∀ p, (c.pipes p).closed = (a.pipes p).closed
  status : c.status = a.status
  alive : c.killedAt = none
  count : pump.total + ((pump.sending.map chunkData).getD []).length + c.unread = a.unread
  ended : ∀ p, pump.done p = true → (c.pipes p).closed = true ∧ (c.pipes p).unread = []
  within : pump.total ≤ limits.maxOutputBytes
  running : (pump.done .stdout && pump.done .stderr) = false

/-- The output of the child alone fits the bound, and both its pipes have ended. -/
structure Drained (limits : ExecLimits) (a : Child) : Prop where
  closed : a.closed
  fits : a.unread ≤ limits.maxOutputBytes

section Children

variable {limits : ExecLimits} {a c : Child} {pump : Pump} {e : ChildEvent}

theorem Child.unread_setPipe (c : Child) (p : Pipe) (pipe : PipeEnd) :
    (c.setPipe p pipe).unread + (c.pipes p).unread.length = c.unread + pipe.unread.length := by
  cases p <;> simp [Child.unread, Child.setPipe] <;> omega

@[simp] theorem Child.pipes_setPipe (c : Child) (p q : Pipe) (pipe : PipeEnd) :
    (c.setPipe p pipe).pipes q = if q = p then pipe else c.pipes q := by
  simp [Child.setPipe, Function.update_apply]

theorem Child.unread_close (c : Child) (p : Pipe) : (c.event (.close p)).unread = c.unread := by
  cases p <;> simp [Child.unread, Child.event, Child.setPipe]

theorem Child.killedAt_event (c : Child) (e : ChildEvent) : (c.event e).killedAt = c.killedAt := by
  cases e with
  | write p data => simp only [Child.event]; split_ifs <;> rfl
  | close p => rfl
  | exit status => rfl

/-- What the child does is the same to the pump as alone. -/
theorem Pumping.event (h : Pumping limits a c pump) :
    Pumping limits (a.event e) (c.event e) pump := by
  cases e with
  | write p data =>
      have hsame := h.closed p
      simp only [Child.event]
      by_cases hclosed : (c.pipes p).closed = true
      · rw [if_pos hclosed, if_pos (hsame ▸ hclosed)]
        exact h
      · rw [if_neg hclosed, if_neg (hsame ▸ hclosed)]
        refine ⟨?_, h.status, h.alive, ?_, ?_, h.within, h.running⟩
        · intro q
          by_cases hq : q = p
          · subst hq
            simpa using hsame
          · simpa [hq] using h.closed q
        · have hc := c.unread_setPipe p { c.pipes p with unread := (c.pipes p).unread ++ data }
          have ha := a.unread_setPipe p { a.pipes p with unread := (a.pipes p).unread ++ data }
          have hcount := h.count
          simp only [List.length_append] at hc ha
          omega
        · intro q hq
          have hne : q ≠ p := by
            rintro rfl
            exact hclosed (h.ended _ hq).1
          simpa [hne] using h.ended q hq
  | close p =>
      refine ⟨?_, h.status, h.alive, ?_, ?_, h.within, h.running⟩
      · intro q
        by_cases hq : q = p
        · simp [Child.event, hq]
        · simpa [Child.event, hq] using h.closed q
      · rw [c.unread_close, a.unread_close]
        exact h.count
      · intro q hq
        have hended := h.ended q hq
        by_cases hp : q = p
        · subst hp
          simpa [Child.event] using hended.2
        · simpa [Child.event, hp] using hended
  | exit status =>
      exact ⟨h.closed, by simp [Child.event, h.status], h.alive, h.count, h.ended, h.within,
        h.running⟩

/-- Ended pipes stay as they are. -/
theorem Drained.event (h : Drained limits a) : Drained limits (a.event e) := by
  cases e with
  | write p data =>
      simp only [Child.event]
      rw [if_pos (h.closed p)]
      exact h
  | close p =>
      refine ⟨?_, ?_⟩
      · intro q
        by_cases hq : q = p
        · simp [Child.event, hq]
        · simpa [Child.event, hq] using h.closed q
      · rw [a.unread_close]
        exact h.fits
  | exit status => exact ⟨h.closed, h.fits⟩

theorem status_event_congr (h : c.status = a.status) : (c.event e).status = (a.event e).status := by
  cases e with
  | write p data => simp only [Child.event]; split_ifs <;> exact h
  | close p => exact h
  | exit status => simp [Child.event, h]

theorem status_event_of_some (h : a.status ≠ none) : (a.event e).status ≠ none := by
  cases e with
  | write p data => simp only [Child.event]; split_ifs <;> exact h
  | close p => exact h
  | exit status =>
      cases hstatus : a.status with
      | none => exact absurd hstatus h
      | some st => simp [Child.event, hstatus]

end Children

/-! ## The phases of a stream -/

/-- What a stream can be after the ticks before {lit}`t`, where {lit}`a` is the child
alone and {lit}`d` the deadline. -/
inductive Reached (limits : ExecLimits) (latency d t : Nat) (a : Child) (s : Stream) : Prop
  | pumping (pump : Pump) : s.phase = .pumping pump → Pumping limits a s.child pump → t ≤ d →
      Reached limits latency d t a s
  | drained : s.phase = .waiting false false false → Drained limits a →
      s.child.status = a.status → s.child.killedAt = none → a.status = none →
      Reached limits latency d t a s
  | killed (truncated timedOut sinkClosed : Bool) (k : Nat) :
      s.phase = .waiting truncated timedOut sinkClosed →
      (timedOut = true ∨ truncated = true ∨ sinkClosed = true) → s.child.status = none →
      s.child.killedAt = some k → k ≤ d → t ≤ k + latency → Reached limits latency d t a s
  | returned (o : StreamOutcome) (sinkClosed : Bool) : s.phase = .returned o sinkClosed →
      (a.status ≠ none ∨ s.child.killedAt ≠ none ∧
        (o.timedOut = true ∨ o.truncated = true ∨ sinkClosed = true)) →
      Reached limits latency d t a s

/-- What a stream can be inside a tick, after the child has acted. -/
inductive Within (limits : ExecLimits) (latency d now : Nat) (a : Child) (s : Stream) : Prop
  | pumping (pump : Pump) : s.phase = .pumping pump → Pumping limits a s.child pump → now ≤ d →
      Within limits latency d now a s
  | drained : s.phase = .waiting false false false → Drained limits a →
      s.child.status = a.status → s.child.killedAt = none → Within limits latency d now a s
  | stopped (truncated timedOut sinkClosed : Bool) :
      s.phase = .waiting truncated timedOut sinkClosed →
      (timedOut = true ∨ truncated = true ∨ sinkClosed = true) →
      (a.status ≠ none ∧ s.child.status ≠ none ∨
        ∃ k, s.child.killedAt = some k ∧ k ≤ d ∧ now ≤ k + latency) →
      Within limits latency d now a s
  | returned (o : StreamOutcome) (sinkClosed : Bool) : s.phase = .returned o sinkClosed →
      (a.status ≠ none ∨ s.child.killedAt ≠ none ∧
        (o.timedOut = true ∨ o.truncated = true ∨ sinkClosed = true)) →
      Within limits latency d now a s

section Phases

variable {limits : ExecLimits} {latency d t now : Nat} {a : Child} {s : Stream}

theorem foldl_event_induction {P : Child → Child → Prop} {c : Child} (events : List ChildEvent)
    (h : P a c) (hstep : ∀ a c e, P a c → P (a.event e) (c.event e)) :
    P (events.foldl Child.event a) (events.foldl Child.event c) := by
  induction events generalizing a c with
  | nil => exact h
  | cons e events ih => exact ih (hstep a c e h)

/-- The child acts at the start of a tick. -/
theorem Reached.events (h : Reached limits latency d t a s) (events : List ChildEvent) :
    Within limits latency d t (events.foldl Child.event a)
      { s with child := events.foldl Child.event s.child } := by
  have hkilled : (events.foldl Child.event s.child).killedAt = s.child.killedAt :=
    foldl_event_induction (P := fun _ c => c.killedAt = s.child.killedAt) (a := s.child) events rfl
      fun _ c e hc => (c.killedAt_event e).trans hc
  have hexited : a.status ≠ none → (events.foldl Child.event a).status ≠ none := fun hstatus =>
    foldl_event_induction (P := fun a _ => a.status ≠ none) (c := a) events hstatus
      fun _ _ _ => status_event_of_some
  cases h with
  | pumping pump hphase hpump hle =>
      exact .pumping pump hphase (foldl_event_induction (P := fun a c => Pumping limits a c pump)
        events hpump fun _ _ _ h => h.event) hle
  | drained hphase hdrained hstatus halive _ =>
      refine .drained hphase ?_ ?_ (hkilled.trans halive)
      · exact foldl_event_induction (P := fun a _ => Drained limits a) (c := a) events hdrained
          fun _ _ _ h => h.event
      · exact foldl_event_induction (P := fun a c => c.status = a.status) events hstatus
          fun _ _ _ => status_event_congr
  | killed tr tm sc k hphase hflag hstatus hk hkd htk =>
      exact .stopped tr tm sc hphase hflag (Or.inr ⟨k, hkilled.trans hk, hkd, htk⟩)
  | returned o sc hphase hflag =>
      refine .returned o sc hphase ?_
      rcases hflag with hstatus | ⟨hk, hflag⟩
      · exact Or.inl (hexited hstatus)
      · exact Or.inr ⟨by rwa [hkilled], hflag⟩

/-- The pump stops early: the child is killed unless it has exited. -/
theorem within_stop {pump : Pump} {truncated timedOut sinkClosed : Bool}
    (hpump : Pumping limits a s.child pump) (hnow : now ≤ d)
    (hflag : timedOut = true ∨ truncated = true ∨ sinkClosed = true) :
    Within limits latency d now a (s.stop now truncated timedOut sinkClosed) := by
  have hany : (truncated || timedOut || sinkClosed) = true := by
    rcases hflag with h | h | h <;> simp [h]
  refine .stopped truncated timedOut sinkClosed rfl hflag ?_
  simp only [Stream.stop, hany, if_true, Child.startKill]
  cases hstatus : s.child.status with
  | some status =>
      refine Or.inl ⟨?_, by simp [hstatus]⟩
      rw [← hpump.status, hstatus]
      simp
  | none => exact Or.inr ⟨now, by simp, hnow, by omega⟩

/-- A read takes from a pipe, or finds its end. -/
theorem within_read {pump : Pump} (p : Pipe) (n : Nat) (hphase : s.phase = .pumping pump)
    (hpump : Pumping limits a s.child pump) (hnow : now ≤ d) (hsending : pump.sending = none) :
    Within limits latency d now a (s.read now pump p n) := by
  unfold Stream.read
  dsimp only
  split_ifs with hempty hclosed hboth
  · -- both pipes have ended, so everything was sent
    have hended : ∀ q, (s.child.pipes q).closed = true ∧ (s.child.pipes q).unread = [] := by
      intro q
      by_cases hq : q = p
      · exact hq ▸ ⟨hclosed, hempty⟩
      · refine hpump.ended q ?_
        cases p <;> cases q <;> simp_all
    have hcount := hpump.count
    simp only [hsending, Child.unread, (hended .stdout).2, (hended .stderr).2] at hcount
    refine .drained rfl ⟨fun q => (hpump.closed q).symm.trans (hended q).1, ?_⟩ hpump.status
      hpump.alive
    have hwithin := hpump.within
    simp only [Child.unread]
    simp at hcount
    omega
  · refine .pumping _ rfl ⟨hpump.closed, hpump.status, hpump.alive, hpump.count, ?_, hpump.within,
      by simpa using hboth⟩ hnow
    intro q hq
    rcases eq_or_ne q p with rfl | hqp
    · exact ⟨hclosed, hempty⟩
    · exact hpump.ended q (by simpa [hqp] using hq)
  · exact .pumping pump hphase hpump hnow
  · refine .pumping _ rfl ⟨?_, hpump.status, hpump.alive, ?_, ?_, hpump.within, hpump.running⟩ hnow
    · intro q
      by_cases hq : q = p
      · subst hq
        simpa using hpump.closed q
      · simpa [hq] using hpump.closed q
    · have hcount := hpump.count
      have hset := s.child.unread_setPipe p { s.child.pipes p with
        unread := (s.child.pipes p).unread.drop (max 1 (min n readChunk)) }
      simp only [hsending, List.length_drop] at hcount hset
      simp only [Option.map_some, Option.getD_some, chunkData_takeChunk, List.length_take]
      simp at hcount
      omega
    · intro q hq
      have hended := hpump.ended q hq
      have hne : q ≠ p := by
        rintro rfl
        exact hempty hended.2
      simpa [hne] using hended

/-- The steps of the pump in a tick. -/
theorem Within.pumpStep (h : Within limits latency d now a s) (step : PumpStep) :
    Within limits latency d now a (s.pumpStep limits now step) := by
  cases h with
  | pumping pump hphase hpump hnow =>
      simp only [Stream.pumpStep, hphase]
      split
      · rename_i p n hsending
        split_ifs
        · exact .pumping pump hphase hpump hnow
        · exact within_read p n hphase hpump hnow hsending
      · rename_i chunk hsending
        split_ifs with hover
        · exact within_stop hpump hnow (by simp)
        · refine .pumping _ rfl ⟨hpump.closed, hpump.status, hpump.alive, ?_, hpump.ended,
            not_lt.mp hover, hpump.running⟩ hnow
          have hcount := hpump.count
          simp only [hsending, Option.map_some, Option.getD_some] at hcount
          simpa using hcount
      · exact within_stop hpump hnow (by simp)
      · exact .pumping pump hphase hpump hnow
  | drained hphase hdrained hstatus halive =>
      simp only [Stream.pumpStep, hphase]
      exact .drained hphase hdrained hstatus halive
  | stopped tr tm sc hphase hflag hkill =>
      simp only [Stream.pumpStep, hphase]
      exact .stopped tr tm sc hphase hflag hkill
  | returned o sc hphase hflag =>
      simp only [Stream.pumpStep, hphase]
      exact .returned o sc hphase hflag

theorem Within.pumpSteps (h : Within limits latency d now a s) (steps : List PumpStep) :
    Within limits latency d now a (steps.foldl (Stream.pumpStep limits now) s) := by
  induction steps generalizing s with
  | nil => exact h
  | cons step steps ih => exact ih (h.pumpStep step)

/-- The timer ends the pump in the tick of the deadline. -/
theorem Within.deadline (h : Within limits latency d now a s) (hd : limits.timeout = some d) :
    Within limits latency d now a (s.deadline limits now) ∧
      ∀ pump, (s.deadline limits now).phase = .pumping pump → now < d := by
  cases h with
  | pumping pump hphase hpump hnow =>
      simp only [Stream.deadline, hphase, hd]
      split_ifs with hpassed
      · refine ⟨within_stop hpump hnow (by simp), ?_⟩
        intro pump' hpump'
        cases hpump'
      · exact ⟨.pumping pump hphase hpump hnow, fun _ _ => not_le.mp hpassed⟩
  | drained hphase hdrained hstatus halive =>
      simp only [Stream.deadline, hphase]
      exact ⟨.drained hphase hdrained hstatus halive, by simp⟩
  | stopped tr tm sc hphase hflag hkill =>
      simp only [Stream.deadline, hphase]
      exact ⟨.stopped tr tm sc hphase hflag hkill, by simp⟩
  | returned o sc hphase hflag =>
      simp only [Stream.deadline, hphase]
      exact ⟨.returned o sc hphase hflag, by simp⟩

theorem Child.killedAt_reap (c : Child) (latency now : Nat) :
    (c.reap latency now).killedAt = c.killedAt := by
  unfold Child.reap
  split
  · rfl
  · split_ifs <;> rfl

theorem Child.reap_of_alive {c : Child} (h : c.killedAt = none) : c.reap latency now = c := by
  simp [Child.reap, h]

theorem outcome_flags (status : ExitStatus) (truncated timedOut : Bool) :
    (Stream.outcome status truncated timedOut).truncated = truncated ∧
    (Stream.outcome status truncated timedOut).timedOut = timedOut := by
  cases status <;> exact ⟨rfl, rfl⟩

/-- The end of a tick: a stream whose child has exited returns. -/
theorem Within.wait (h : Within limits latency d now a s)
    (hpumping : ∀ pump, s.phase = .pumping pump → now < d) :
    Reached limits latency d (now + 1) a (s.wait latency now) := by
  cases h with
  | pumping pump hphase hpump _ =>
      simp only [Stream.wait, hphase, Child.reap_of_alive hpump.alive]
      exact .pumping pump rfl hpump (hpumping pump hphase)
  | drained hphase hdrained hstatus halive =>
      simp only [Stream.wait, hphase, Child.reap_of_alive halive]
      cases hexit : s.child.status with
      | none => exact .drained rfl hdrained hstatus halive (hstatus.symm.trans hexit)
      | some status =>
          refine .returned _ _ rfl (Or.inl ?_)
          rw [← hstatus, hexit]
          simp
  | stopped tr tm sc hphase hflag hkill =>
      have hkept := s.child.killedAt_reap latency now
      simp only [Stream.wait, hphase]
      cases hexit : (s.child.reap latency now).status with
      | some status =>
          refine .returned _ _ rfl ?_
          obtain ⟨htr, htm⟩ := outcome_flags status tr tm
          rcases hkill with ⟨hstatus, -⟩ | ⟨k, hk, -⟩
          · exact Or.inl hstatus
          · refine Or.inr ⟨?_, by rwa [htr, htm]⟩
            rw [hkept, hk]
            simp
      | none =>
          rcases hkill with ⟨-, hstatus⟩ | ⟨k, hk, hkd, -⟩
          · -- an exited child stays so
            exfalso
            unfold Child.reap at hexit
            split at hexit
            · exact hstatus hexit
            · split_ifs at hexit <;> simp_all
          · have hlate : ¬ k + latency ≤ now := by
              intro hle
              simp [Child.reap, hk, hle] at hexit
            exact .killed tr tm sc k rfl hflag hexit (hkept.trans hk) hkd (by omega)
  | returned o sc hphase hflag =>
      simp only [Stream.wait, hphase]
      refine .returned o sc rfl ?_
      rcases hflag with hstatus | ⟨hk, hflag⟩
      · exact Or.inl hstatus
      · refine Or.inr ⟨?_, hflag⟩
        rwa [Child.killedAt_reap]

/-- The phases of a stream with a deadline, before each tick. -/
theorem reached_at (limits : ExecLimits) (latency : Nat) (behaviour : Nat → List ChildEvent)
    (schedule : Nat → List PumpStep) (hd : limits.timeout = some d) (t : Nat) :
    Reached limits latency d t (alone behaviour t)
      (streamAt limits latency behaviour schedule t) := by
  induction t with
  | zero =>
      refine .pumping _ rfl ⟨fun _ => rfl, rfl, rfl, rfl, by simp, Nat.zero_le _, rfl⟩
        (Nat.zero_le _)
  | succ t ih =>
      have hdeadline := ((ih.events (behaviour t)).pumpSteps (schedule t)).deadline hd
      exact hdeadline.1.wait hdeadline.2

end Phases

/-! ## The deadline -/

/-- The pump is over with these flags. -/
def Flags (truncated timedOut sinkClosed : Bool) (s : Stream) : Prop :=
  s.phase = .waiting truncated timedOut sinkClosed ∨
  ∃ o, s.phase = .returned o sinkClosed ∧ o.truncated = truncated ∧ o.timedOut = timedOut

section Deadlines

variable {limits : ExecLimits} {latency d now : Nat} {a c : Child} {s : Stream}
  {truncated timedOut sinkClosed : Bool}

/-- The flags of a pump that is over stay. -/
theorem Flags.tick (limits : ExecLimits) (latency now : Nat)
    (h : Flags truncated timedOut sinkClosed s) (events : List ChildEvent)
    (steps : List PumpStep) :
    Flags truncated timedOut sinkClosed (s.tick limits latency now events steps) ∧
    (s.tick limits latency now events steps).child.killedAt = s.child.killedAt := by
  have hkilled : (events.foldl Child.event s.child).killedAt = s.child.killedAt :=
    foldl_event_induction (P := fun _ c => c.killedAt = s.child.killedAt) (a := s.child) events rfl
      fun _ c e hc => (c.killedAt_event e).trans hc
  have hidle : ∀ (s' : Stream), (∀ pump, s'.phase ≠ .pumping pump) →
      (steps.foldl (Stream.pumpStep limits now) s').deadline limits now = s' := by
    intro s' hphase
    have hstep : ∀ step, s'.pumpStep limits now step = s' := by
      intro step
      unfold Stream.pumpStep
      split
      · rename_i pump hpump
        exact absurd hpump (hphase pump)
      · rfl
    have hsteps : steps.foldl (Stream.pumpStep limits now) s' = s' := by
      induction steps with
      | nil => rfl
      | cons step steps ih => rw [List.foldl_cons, hstep, ih]
    rw [hsteps]
    unfold Stream.deadline
    split
    · rename_i pump _ hpump _
      exact absurd hpump (hphase pump)
    · rfl
  unfold Stream.tick
  dsimp only
  rcases h with hphase | ⟨o, hphase, htr, htm⟩
  · rw [hidle _ (by simp [hphase])]
    simp only [Stream.wait, hphase]
    split
    · rename_i hwaiting hexit
      cases hwaiting
      obtain ⟨htr, htm⟩ := outcome_flags _ truncated timedOut
      exact ⟨Or.inr ⟨_, rfl, htr, htm⟩, (Child.killedAt_reap _ _ _).trans hkilled⟩
    · exact ⟨Or.inl rfl, (Child.killedAt_reap _ _ _).trans hkilled⟩
  · rw [hidle _ (by simp [hphase])]
    simp only [Stream.wait, hphase]
    exact ⟨Or.inr ⟨o, rfl, htr, htm⟩, (Child.killedAt_reap _ _ _).trans hkilled⟩

theorem Flags.later {behaviour : Nat → List ChildEvent} {schedule : Nat → List PumpStep} {t : Nat}
    (h : Flags truncated timedOut sinkClosed (streamAt limits latency behaviour schedule t))
    (n : Nat) :
    Flags truncated timedOut sinkClosed (streamAt limits latency behaviour schedule (t + n)) ∧
    (streamAt limits latency behaviour schedule (t + n)).child.killedAt =
      (streamAt limits latency behaviour schedule t).child.killedAt := by
  induction n with
  | zero => exact ⟨h, rfl⟩
  | succ n ih =>
      have htick := Flags.tick limits latency (t + n) ih.1 (behaviour (t + n)) (schedule (t + n))
      exact ⟨htick.1, htick.2.trans ih.2⟩

/-- The deadline has ended the stream: it returned in time, and a child that had not
exited was killed, with a flag set. -/
def EndedBy (limits : ExecLimits) (latency d : Nat) (behaviour : Nat → List ChildEvent)
    (schedule : Nat → List PumpStep) : Prop :=
  ∃ t ≤ d + latency, ∃ o sinkClosed,
    (streamAt limits latency behaviour schedule (t + 1)).phase = .returned o sinkClosed ∧
    ((alone behaviour (d + 1)).status = none →
      (streamAt limits latency behaviour schedule (t + 1)).child.killedAt ≠ none ∧
      (o.timedOut = true ∨ o.truncated = true ∨ sinkClosed = true))

/-- A child that keeps a pipe open, exits, or exceeds the bound by the deadline is
ended by it. -/
theorem endedBy_of_not_drained (latency : Nat) (behaviour : Nat → List ChildEvent)
    (schedule : Nat → List PumpStep) (hd : limits.timeout = some d)
    (h : ¬ (Drained limits (alone behaviour (d + 1)) ∧ (alone behaviour (d + 1)).status = none)) :
    EndedBy limits latency d behaviour schedule := by
  cases reached_at limits latency behaviour schedule hd (d + 1) with
  | pumping pump _ _ hle => omega
  | drained _ hdrained _ _ hstatus => exact absurd ⟨hdrained, hstatus⟩ h
  | returned o sc hphase hflag =>
      refine ⟨d, by omega, o, sc, hphase, fun hstatus => ?_⟩
      exact hflag.resolve_left (not_not.mpr hstatus)
  | killed tr tm sc k hphase hflag _ hk hkd _ =>
      have hflags : Flags tr tm sc (streamAt limits latency behaviour schedule (d + 1)) :=
        Or.inl hphase
      have hlater := hflags.later latency
      have hkilled := hlater.2.trans hk
      have hat : d + 1 + latency = d + latency + 1 := by omega
      rw [hat] at hlater hkilled
      rcases hlater.1 with hwaiting | ⟨o, hreturned, htr, htm⟩
      · -- the latency has passed
        exfalso
        cases reached_at limits latency behaviour schedule hd (d + latency + 1) with
        | pumping pump hpump _ _ => rw [hwaiting] at hpump; cases hpump
        | drained _ _ _ halive _ => rw [hkilled] at halive; cases halive
        | returned o sc' hreturned _ => rw [hwaiting] at hreturned; cases hreturned
        | killed _ _ _ k' _ _ _ _ hkd' hle => omega
      · exact ⟨d + latency, le_rfl, o, sc, hreturned, fun _ =>
          ⟨by rw [hkilled]; simp, by rwa [htr, htm]⟩⟩

theorem Within.pumping_of_phase {pump : Pump} (h : Within limits latency d now a s)
    (hphase : s.phase = .pumping pump) : Pumping limits a s.child pump := by
  cases h with
  | pumping pump' hphase' hpump _ =>
      obtain rfl : pump' = pump := by simpa using hphase'.symm.trans hphase
      exact hpump
  | drained hphase' => rw [hphase] at hphase'; cases hphase'
  | stopped _ _ _ hphase' => rw [hphase] at hphase'; cases hphase'
  | returned _ _ hphase' => rw [hphase] at hphase'; cases hphase'

/-- The steps of a pump that is still at work keep what holds of it. -/
theorem Pumping.steps {pump pump' : Pump} {delivered delivered' : List Chunk} {c' : Child}
    {steps : List PumpStep} (h : Pumping limits a c pump)
    (hsteps : steps.foldl (Stream.pumpStep limits now) ⟨c, .pumping pump, delivered⟩ =
      ⟨c', .pumping pump', delivered'⟩) : Pumping limits a c' pump' := by
  have hwithin : Within limits 0 now now a ⟨c, .pumping pump, delivered⟩ :=
    .pumping pump rfl h le_rfl
  have hafter := hwithin.pumpSteps steps
  rw [hsteps] at hafter
  exact hafter.pumping_of_phase rfl

/-- The pipes that have not ended in the pump. -/
def Pump.open (pump : Pump) : Nat :=
  (if pump.done .stdout then 0 else 1) + (if pump.done .stderr then 0 else 1)

/-- Some steps take the pump to the end of both pipes. -/
def Drains (limits : ExecLimits) (now : Nat) (a : Child) (s : Stream) : Prop :=
  ∃ steps : List PumpStep, ∃ c' delivered', steps.foldl (Stream.pumpStep limits now) s =
    ⟨c', .waiting false false false, delivered'⟩ ∧ c'.status = a.status ∧ c'.killedAt = none

theorem Drains.of_steps {s' : Stream} (steps : List PumpStep)
    (hsteps : steps.foldl (Stream.pumpStep limits now) s = s') (h : Drains limits now a s') :
    Drains limits now a s := by
  obtain ⟨rest, c', delivered', hrest, hchild⟩ := h
  exact ⟨steps ++ rest, c', delivered', by rw [List.foldl_append, hsteps, hrest], hchild⟩

/-- A pump with a prompt consumer gets to the end of ended pipes whose output fits. -/
theorem Pumping.drains (now : Nat) {pump : Pump} {delivered : List Chunk}
    (hpump : Pumping limits a c pump) (hdrained : Drained limits a)
    (hsending : pump.sending = none) : Drains limits now a ⟨c, .pumping pump, delivered⟩ := by
  -- every round takes a byte from a pipe or marks its end
  generalize hn : c.unread + pump.open = n
  induction n using Nat.strong_induction_on generalizing c pump delivered with
  | _ n ih =>
      obtain ⟨p, hp⟩ : ∃ p, pump.done p = false := by
        by_contra hall
        have hrunning := hpump.running
        simp only [not_exists, Bool.not_eq_false] at hall
        simp [hall] at hrunning
      have hclosed : (c.pipes p).closed = true := (hpump.closed p).trans (hdrained.closed p)
      cases hunread : (c.pipes p).unread with
      | nil =>
          have hread : [PumpStep.read p 1].foldl (Stream.pumpStep limits now)
              ⟨c, .pumping pump, delivered⟩ =
              if Function.update pump.done p true .stdout &&
                  Function.update pump.done p true .stderr then
                ⟨c, .waiting false false false, delivered⟩
              else
                ⟨c, .pumping { pump with done := Function.update pump.done p true },
                  delivered⟩ := by
            simp [Stream.pumpStep, hsending, hp, Stream.read, hunread, hclosed, Stream.stop]
          by_cases hboth : (Function.update pump.done p true .stdout &&
              Function.update pump.done p true .stderr) = true
          · rw [if_pos hboth] at hread
            exact ⟨[.read p 1], c, delivered, hread, hpump.status, hpump.alive⟩
          · rw [if_neg hboth] at hread
            have hless : c.unread +
                ({ pump with done := Function.update pump.done p true } : Pump).open < n := by
              cases p <;> simp [Pump.open, hp] at hn ⊢ <;> omega
            exact Drains.of_steps _ hread (ih _ hless (hpump.steps hread) hsending rfl)
      | cons byte rest =>
          have hcount := hpump.count
          have hset := c.unread_setPipe p { c.pipes p with unread := rest }
          simp only [hunread, hsending, List.length_cons] at hcount hset
          simp at hcount
          have hfits := hdrained.fits
          have hsteps : [PumpStep.read p 1, .sent].foldl (Stream.pumpStep limits now)
              ⟨c, .pumping pump, delivered⟩ =
              ⟨c.setPipe p { c.pipes p with unread := rest },
                .pumping { pump with total := pump.total + 1, sending := none },
                delivered ++ [takeChunk p (byte :: rest) 1]⟩ := by
            have hbound : ¬ limits.maxOutputBytes < pump.total + 1 := by omega
            simp [Stream.pumpStep, hsending, hp, Stream.read, hunread, readChunk, hbound]
          have hless : (c.setPipe p { c.pipes p with unread := rest }).unread +
              ({ pump with total := pump.total + 1, sending := none } : Pump).open < n := by
            simp only [Pump.open] at hn ⊢
            omega
          exact Drains.of_steps _ hsteps (ih _ hless (hpump.steps hsteps) rfl rfl)

theorem alone_killedAt (behaviour : Nat → List ChildEvent) (t : Nat) :
    (alone behaviour t).killedAt = none := by
  induction t with
  | zero => rfl
  | succ t ih =>
      exact foldl_event_induction (P := fun _ c => c.killedAt = none) (a := Child.spawned)
        (behaviour t) ih fun _ c e hc => (c.killedAt_event e).trans hc

/-- A pump that gets nothing done leaves the child alone until the deadline. -/
theorem streamAt_idle {behaviour : Nat → List ChildEvent} {schedule : Nat → List PumpStep}
    (latency : Nat) (hd : limits.timeout = some d) (hidle : ∀ t < d, schedule t = []) {t : Nat}
    (ht : t ≤ d) : streamAt limits latency behaviour schedule t =
      ⟨alone behaviour t, .pumping ⟨fun _ => false, 0, none⟩, []⟩ := by
  induction t with
  | zero => rfl
  | succ t ih =>
      have hearly : ¬ d ≤ t := by omega
      rw [streamAt, ih (by omega), Stream.tick, hidle t (by omega)]
      simp only [List.foldl_nil, Stream.deadline, hd, hearly, if_false, Stream.wait]
      change (⟨(alone behaviour (t + 1)).reap latency t, _, _⟩ : Stream) = _
      rw [Child.reap_of_alive (alone_killedAt behaviour (t + 1))]

/-- A child that has ended its pipes can be left waiting without a flag. -/
theorem exists_schedule_waiting (latency : Nat) {behaviour : Nat → List ChildEvent}
    (hd : limits.timeout = some d) (hdrained : Drained limits (alone behaviour (d + 1)))
    (hstatus : (alone behaviour (d + 1)).status = none) :
    ∃ schedule, (∀ t < d, schedule t = []) ∧
      Flags false false false (streamAt limits latency behaviour schedule (d + 1)) := by
  have hpump : Pumping limits (alone behaviour (d + 1)) (alone behaviour (d + 1))
      ⟨fun _ => false, 0, none⟩ :=
    ⟨fun _ => rfl, rfl, alone_killedAt behaviour (d + 1), by simp, by simp, Nat.zero_le _, rfl⟩
  -- everything is read and sent in the tick of the deadline
  have hdrains : Drains limits d (alone behaviour (d + 1))
      ⟨alone behaviour (d + 1), .pumping ⟨fun _ => false, 0, none⟩, []⟩ :=
    hpump.drains d hdrained rfl
  obtain ⟨steps, c', delivered', hsteps, hstatus', halive⟩ := hdrains
  have hidle : ∀ t < d, (fun t => if t = d then steps else []) t = [] := by
    intro t ht
    simp [ht.ne]
  refine ⟨fun t => if t = d then steps else [], hidle, Or.inl ?_⟩
  have htick : (steps.foldl (Stream.pumpStep limits d)
      ⟨(behaviour d).foldl Child.event (alone behaviour d),
        .pumping ⟨fun _ => false, 0, none⟩, []⟩) = ⟨c', .waiting false false false, delivered'⟩ :=
    hsteps
  rw [streamAt, streamAt_idle latency hd hidle le_rfl, Stream.tick]
  simp only [if_true, htick, Stream.deadline, Stream.wait, Child.reap_of_alive halive,
    hstatus'.trans hstatus]

/-- The deadline ends a child under every schedule iff the child has not, by then, ended
both pipes within the output bound without exiting. -/
theorem deadline_ends_child_iff (limits : ExecLimits) (latency d : Nat)
    (behaviour : Nat → List ChildEvent) (hd : limits.timeout = some d) :
    (∀ schedule, EndedBy limits latency d behaviour schedule) ↔
      ¬ ((alone behaviour (d + 1)).closed ∧
        (alone behaviour (d + 1)).unread ≤ limits.maxOutputBytes ∧
        (alone behaviour (d + 1)).status = none) := by
  constructor
  · rintro hall ⟨hclosed, hfits, hstatus⟩
    obtain ⟨schedule, hidle, hflags⟩ :=
      exists_schedule_waiting latency hd ⟨hclosed, hfits⟩ hstatus
    obtain ⟨t, -, o, sinkClosed, hreturned, hkilled⟩ := hall schedule
    rcases Nat.lt_or_ge t d with hearly | hlate
    · rw [streamAt_idle latency hd hidle hearly] at hreturned
      cases hreturned
    · have hlater := (hflags.later (t - d)).1
      have hat : d + 1 + (t - d) = t + 1 := by omega
      rw [hat] at hlater
      rcases hlater with hwaiting | ⟨o', hreturned', htr, htm⟩
      · rw [hreturned] at hwaiting
        cases hwaiting
      · rw [hreturned] at hreturned'
        cases hreturned'
        simpa [htr, htm] using (hkilled hstatus).2
  · intro h schedule
    refine endedBy_of_not_drained latency behaviour schedule hd ?_
    rintro ⟨hdrained, hstatus⟩
    exact h ⟨hdrained.closed, hdrained.fits, hstatus⟩

end Deadlines

/-- The limits of a dispatched job, in ticks of a second. -/
def sampleLimits : ExecLimits := ⟨8 * 1024 * 1024, some 300⟩

/-- A child that writes and then neither closes its pipes nor exits. -/
def sampleHanging (t : Nat) : List ChildEvent :=
  if t = 0 then [.write .stdout [104, 105]] else []

/-- A child that closes both pipes at once and never exits. -/
def sampleDetached (t : Nat) : List ChildEvent :=
  if t = 0 then [.close .stdout, .close .stderr] else []

/-- After its first tick a child that does nothing more stays as it is. -/
theorem alone_of_quiet {behaviour : Nat → List ChildEvent} (h : ∀ t, 0 < t → behaviour t = [])
    (t : Nat) : alone behaviour (t + 1) = alone behaviour 1 := by
  induction t with
  | zero => rfl
  | succ t ih =>
      rw [alone, h (t + 1) (Nat.succ_pos t)]
      exact ih

theorem deadline_ends_hanging_child :
    sampleLimits.timeout = some 300 ∧
    ∀ schedule, EndedBy sampleLimits 1 300 sampleHanging schedule := by
  refine ⟨rfl, (deadline_ends_child_iff sampleLimits 1 300 sampleHanging rfl).mpr ?_⟩
  rintro ⟨hclosed, -⟩
  rw [alone_of_quiet (fun t ht => by simp [sampleHanging, ht.ne'])] at hclosed
  exact absurd (hclosed .stdout) (by decide)

/-- Both ends of file are read in the first tick, and the child is waited for ever
after: the stream returns at no time, and nothing kills the child. -/
theorem closed_pipes_outlive_deadline :
    let schedule : Nat → List PumpStep := fun t =>
      if t = 0 then [.read .stdout 1, .read .stderr 1] else []
    ∀ t, let s := streamAt sampleLimits 1 sampleDetached schedule (t + 1)
      s.phase = .waiting false false false ∧ s.child.status = none ∧ s.child.killedAt = none := by
  intro schedule t
  dsimp only
  induction t with
  | zero => exact ⟨rfl, rfl, rfl⟩
  | succ t ih =>
      obtain ⟨hphase, hstatus, halive⟩ := ih
      rw [streamAt]
      have hevents : sampleDetached (t + 1) = [] := by simp [sampleDetached]
      have hsteps : schedule (t + 1) = [] := by simp [schedule]
      simp only [Stream.tick, hevents, hsteps, List.foldl_nil, Stream.deadline, hphase, Stream.wait,
        Child.reap_of_alive halive, hstatus, halive, and_self]

end Exec
end Agent
end OpenSsmAgent
