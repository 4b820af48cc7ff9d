import Mathlib

/-!
# Tickets and a queue

Several users share a counter and a queue.  A user takes the next number together
with something to hand in, and later hands both in at the end of the queue; in
between other users may do the same.

Main results:

- Theorem {lit}`run_inv`: what was issued is in the queue or held by one user.
- Theorem {lit}`run_front`: while nobody overtakes, the queue is a front part of
  what was issued.
- Theorem {lit}`increasing_iff_allInTurn`: when nobody holds a ticket any more, the
  queue is in increasing order exactly if nobody overtook.
-/

namespace TicketQueue

variable {ι P : Type*}

/-- What a user does. -/
inductive Op (ι P : Type*) where
  | take (user : ι) (item : P)
  | give (user : ι)

/-- The counter, the tickets in the users' hands, the queue, and all tickets issued
so far. -/
structure State (ι P : Type*) where
  next : Nat
  held : ι → Option (Nat × P)
  out : List (Nat × P)
  issued : List (Nat × P)

/-- Nobody holds a ticket. -/
def State.Idle (s : State ι P) : Prop :=
  ∀ i, s.held i = none

/-- A counter from which nothing was issued yet. -/
def start (next : Nat) : State ι P :=
  ⟨next, fun _ => none, [], []⟩

/-- Handing in is in turn if nobody holds an older ticket. -/
def InTurn (s : State ι P) : Op ι P → Prop
  | .take _ _ => True
  | .give i => ∀ x, s.held i = some x → ∀ j y, s.held j = some y → x.1 ≤ y.1

section Runs

variable [DecidableEq ι]

/-- One operation.  A user holds at most one ticket. -/
def step (s : State ι P) : Op ι P → State ι P
  | .take i p =>
      match s.held i with
      | none =>
          { s with
            next := s.next + 1
            held := Function.update s.held i (some (s.next, p))
            issued := s.issued ++ [(s.next, p)] }
      | some _ => s
  | .give i =>
      match s.held i with
      | none => s
      | some x => { s with held := Function.update s.held i none, out := s.out ++ [x] }

/-- Operations one after the other. -/
def run (s : State ι P) : List (Op ι P) → State ι P
  | [] => s
  | op :: ops => run (step s op) ops

/-- Every operation of a run is in turn. -/
def AllInTurn (s : State ι P) : List (Op ι P) → Prop
  | [] => True
  | op :: ops => InTurn s op ∧ AllInTurn (step s op) ops

/-! ## Where tickets are -/

/-- Tickets are issued in increasing order, and each is held by one user or queued. -/
structure Inv (s : State ι P) : Prop where
  increasing : s.issued.Pairwise (fun x y => x.1 < y.1)
  bound : ∀ x ∈ s.issued, x.1 < s.next
  cover : ∀ x, x ∈ s.issued ↔ x ∈ s.out ∨ ∃ i, s.held i = some x
  single : ∀ i j x, s.held i = some x → s.held j = some x → i = j
  apart : ∀ i x, s.held i = some x → x ∉ s.out
  nodup : s.out.Nodup

variable {s : State ι P}

omit [DecidableEq ι] in
theorem inv_start (next : Nat) : Inv (start next : State ι P) :=
  ⟨List.Pairwise.nil, nofun, by simp [start], nofun, nofun, List.nodup_nil⟩

omit [DecidableEq ι] in
theorem Inv.held_mem (h : Inv s) {i : ι} {x : Nat × P} (hx : s.held i = some x) :
    x ∈ s.issued :=
  (h.cover x).mpr (Or.inr ⟨i, hx⟩)

theorem Inv.take (h : Inv s) {i : ι} (p : P) (hi : s.held i = none) :
    Inv (step s (.take i p)) := by
  have hnew : ∀ x ∈ s.issued, x ≠ (s.next, p) := by
    rintro x hx rfl
    exact Nat.lt_irrefl _ (h.bound _ hx)
  have hheld : ∀ j y, Function.update s.held i (some (s.next, p)) j = some y ↔
      (j = i ∧ y = (s.next, p)) ∨ s.held j = some y := by
    intro j y
    rcases eq_or_ne j i with rfl | hji
    · simp [hi, eq_comm]
    · simp [hji]
  simp only [step, hi]
  refine ⟨?_, ?_, ?_, ?_, ?_, h.nodup⟩
  · refine List.pairwise_append.mpr ⟨h.increasing, List.pairwise_singleton _ _, ?_⟩
    intro x hx y hy
    rw [List.mem_singleton.mp hy]
    exact h.bound x hx
  · intro x hx
    rcases List.mem_append.mp hx with hx | hx
    · exact Nat.lt_succ_of_lt (h.bound x hx)
    · rw [List.mem_singleton.mp hx]
      exact Nat.lt_succ_self _
  · intro x
    rw [List.mem_append, List.mem_singleton, h.cover x]
    constructor
    · rintro ((hout | ⟨j, hj⟩) | rfl)
      · exact Or.inl hout
      · exact Or.inr ⟨j, (hheld j x).mpr (Or.inr hj)⟩
      · exact Or.inr ⟨i, (hheld i _).mpr (Or.inl ⟨rfl, rfl⟩)⟩
    · rintro (hout | ⟨j, hj⟩)
      · exact Or.inl (Or.inl hout)
      · rcases (hheld j x).mp hj with ⟨-, rfl⟩ | hj
        · exact Or.inr rfl
        · exact Or.inl (Or.inr ⟨j, hj⟩)
  · intro j k x hj hk
    rcases (hheld j x).mp hj with ⟨rfl, rfl⟩ | hold <;>
      rcases (hheld k _).mp hk with ⟨rfl, hx⟩ | hold'
    · rfl
    · exact absurd rfl (hnew _ (h.held_mem hold'))
    · exact absurd hx (hnew x (h.held_mem hold))
    · exact h.single j k x hold hold'
  · intro j x hj hout
    rcases (hheld j x).mp hj with ⟨rfl, rfl⟩ | hj
    · exact hnew _ ((h.cover _).mpr (Or.inl hout)) rfl
    · exact h.apart j x hj hout

theorem Inv.give (h : Inv s) {i : ι} {x : Nat × P} (hi : s.held i = some x) :
    Inv (step s (.give i)) := by
  have hheld : ∀ j y, Function.update s.held i none j = some y ↔
      j ≠ i ∧ s.held j = some y := by
    intro j y
    rcases eq_or_ne j i with rfl | hji
    · simp
    · simp [hji]
  simp only [step, hi]
  refine ⟨h.increasing, h.bound, ?_, ?_, ?_, ?_⟩
  · intro y
    rw [h.cover y, List.mem_append, List.mem_singleton]
    constructor
    · rintro (hout | ⟨j, hj⟩)
      · exact Or.inl (Or.inl hout)
      · rcases eq_or_ne j i with rfl | hji
        · exact Or.inl (Or.inr (Option.some.inj (hj.symm.trans hi)))
        · exact Or.inr ⟨j, (hheld j y).mpr ⟨hji, hj⟩⟩
    · rintro ((hout | rfl) | ⟨j, hj⟩)
      · exact Or.inl hout
      · exact Or.inr ⟨i, hi⟩
      · exact Or.inr ⟨j, ((hheld j y).mp hj).2⟩
  · intro j k y hj hk
    exact h.single j k y ((hheld j y).mp hj).2 ((hheld k y).mp hk).2
  · intro j y hj hout
    obtain ⟨hji, hj⟩ := (hheld j y).mp hj
    rcases List.mem_append.mp hout with hout | hout
    · exact h.apart j y hj hout
    · rw [List.mem_singleton.mp hout] at hj
      exact hji (h.single j i x hj hi)
  · refine List.nodup_append.mpr ⟨h.nodup, List.nodup_singleton x, ?_⟩
    intro y hy z hz
    rw [List.mem_singleton.mp hz]
    rintro rfl
    exact h.apart i y hi hy

theorem Inv.step (h : Inv s) (op : Op ι P) : Inv (step s op) := by
  cases op with
  | take i p =>
      cases hi : s.held i with
      | none => exact h.take p hi
      | some x => simpa only [TicketQueue.step, hi] using h
  | give i =>
      cases hi : s.held i with
      | none => simpa only [TicketQueue.step, hi] using h
      | some x => exact h.give hi

/-- In every run, what was issued is queued or held by one user. -/
theorem run_inv (h : Inv s) (ops : List (Op ι P)) : Inv (run s ops) := by
  induction ops generalizing s with
  | nil => exact h
  | cons op ops ih => exact ih (h.step op)

/-! ## Runs in turn -/

/-- Handing in without overtaking keeps the queue a front part of what was
issued. -/
theorem step_front (h : Inv s) (hfront : s.out <+: s.issued) {op : Op ι P}
    (hturn : InTurn s op) : (step s op).out <+: (step s op).issued := by
  cases op with
  | take i p =>
      simp only [step]
      split
      · exact hfront.trans (List.prefix_append _ _)
      · exact hfront
  | give i =>
      simp only [step]
      split
      · exact hfront
      · rename_i x hi
        obtain ⟨rest, hrest⟩ := hfront
        have hinc := h.increasing
        rw [← hrest, List.pairwise_append] at hinc
        obtain ⟨-, hincRest, hlt⟩ := hinc
        have hx : x ∈ rest := by
          have hmem := h.held_mem hi
          rw [← hrest] at hmem
          exact (List.mem_append.mp hmem).resolve_left (h.apart i x hi)
        cases rest with
        | nil => cases hx
        | cons y ys =>
            -- The oldest ticket outside the queue is held, so it is this one.
            have hy : y ∉ s.out := fun hout => Nat.lt_irrefl _ (hlt y hout y List.mem_cons_self)
            have hheld : ∃ j, s.held j = some y := by
              refine ((h.cover y).mp ?_).resolve_left hy
              rw [← hrest]
              exact List.mem_append_right _ List.mem_cons_self
            obtain ⟨j, hj⟩ := hheld
            have hle := hturn x hi j y hj
            rcases List.mem_cons.mp hx with rfl | hys
            · exact ⟨ys, by simpa using hrest⟩
            · have hgt := (List.pairwise_cons.mp hincRest).1 x hys
              omega

/-- While nobody overtakes, the queue is a front part of what was issued. -/
theorem run_front (h : Inv s) (hfront : s.out <+: s.issued) {ops : List (Op ι P)}
    (hturn : AllInTurn s ops) : (run s ops).out <+: (run s ops).issued := by
  induction ops generalizing s with
  | nil => exact hfront
  | cons op ops ih => exact ih (h.step op) (step_front h hfront hturn.1) hturn.2

/-! ## Runs that end with empty hands -/

omit [DecidableEq ι] in
/-- With empty hands, everything issued is in the queue. -/
theorem Inv.perm (h : Inv s) (hidle : s.Idle) : s.out.Perm s.issued := by
  have hissued : s.issued.Nodup := by
    refine h.increasing.imp ?_
    rintro x y hlt rfl
    exact Nat.lt_irrefl _ hlt
  refine (List.perm_ext_iff_of_nodup h.nodup hissued).mpr ?_
  intro x
  rw [h.cover x]
  constructor
  · exact Or.inl
  · rintro (hout | ⟨i, hi⟩)
    · exact hout
    · rw [hidle i] at hi
      cases hi

omit [DecidableEq ι] in
/-- With empty hands, a queue in increasing order is what was issued. -/
theorem Inv.eq_issued_of_increasing (h : Inv s) (hidle : s.Idle)
    (hout : s.out.Pairwise (fun x y => x.1 < y.1)) : s.out = s.issued := by
  refine (h.perm hidle).eq_of_pairwise ?_ hout h.increasing
  intro x y _ _ hxy hyx
  exact absurd hxy (Nat.lt_asymm hyx)

theorem out_front_run (s : State ι P) (ops : List (Op ι P)) : s.out <+: (run s ops).out := by
  induction ops generalizing s with
  | nil => exact List.prefix_rfl
  | cons op ops ih =>
      refine List.IsPrefix.trans ?_ (ih (step s op))
      cases op <;> simp only [step] <;> split <;> simp

theorem step_issued (s : State ι P) (op : Op ι P) :
    ∃ new, (step s op).issued = s.issued ++ new ∧ (step s op).next = s.next + new.length ∧
      ∀ x ∈ new, x.1 = s.next := by
  cases op with
  | take i p =>
      simp only [step]
      split
      · exact ⟨[(s.next, p)], rfl, rfl, by simp⟩
      · exact ⟨[], by simp⟩
  | give i =>
      simp only [step]
      split <;> exact ⟨[], by simp⟩

/-- A run issues the numbers between its counters. -/
theorem run_issued (s : State ι P) (ops : List (Op ι P)) :
    ∃ new, (run s ops).issued = s.issued ++ new ∧ (run s ops).next = s.next + new.length ∧
      ∀ x ∈ new, s.next ≤ x.1 ∧ x.1 < (run s ops).next := by
  induction ops generalizing s with
  | nil => exact ⟨[], by simp [run]⟩
  | cons op ops ih =>
      obtain ⟨here, hissued, hnext, hhere⟩ := step_issued s op
      obtain ⟨later, hissued', hnext', hlater⟩ := ih (step s op)
      refine ⟨here ++ later, ?_, ?_, ?_⟩
      · rw [run, hissued', hissued, List.append_assoc]
      · rw [run, hnext', hnext, List.length_append, Nat.add_assoc]
      · intro x hx
        simp only [run]
        rcases List.mem_append.mp hx with hx | hx
        · have hlen := List.length_pos_of_mem hx
          have hnum := hhere x hx
          omega
        · have hnum := hlater x hx
          omega

/-- If the queue ends up in increasing order, nobody overtook. -/
theorem allInTurn_of_increasing (h : Inv s) {ops : List (Op ι P)} (hidle : (run s ops).Idle)
    (hout : (run s ops).out.Pairwise (fun x y => x.1 < y.1)) : AllInTurn s ops := by
  induction ops generalizing s with
  | nil => trivial
  | cons op ops ih =>
      refine ⟨?_, ih (h.step op) hidle hout⟩
      cases op with
      | take i p => trivial
      | give i =>
          intro x hx j y hy
          by_contra hlt
          -- The older ticket is still to come, behind the newer one.
          have hlater : y ∈ (run s (.give i :: ops)).out := by
            refine ((run_inv h (.give i :: ops)).cover y).mp ?_ |>.resolve_right ?_
            · obtain ⟨new, hissued, -⟩ := run_issued s (.give i :: ops)
              rw [hissued]
              exact List.mem_append_left _ (h.held_mem hy)
            · rintro ⟨k, hk⟩
              rw [hidle k] at hk
              cases hk
          obtain ⟨later, hsplit⟩ := out_front_run (step s (.give i)) ops
          have hgiven : (step s (.give i)).out = s.out ++ [x] := by simp only [step, hx]
          rw [hgiven] at hsplit
          simp only [run] at hlater hout
          rw [← hsplit] at hlater hout
          have hmem : y ∈ later := by
            refine (List.mem_append.mp hlater).resolve_left ?_
            intro hfront
            rcases List.mem_append.mp hfront with hfront | hfront
            · exact h.apart j y hy hfront
            · rw [List.mem_singleton.mp hfront] at hlt
              exact hlt (Nat.le_refl _)
          have hxy := (List.pairwise_append.mp hout).2.2 x (by simp) y hmem
          omega

/-- When nobody holds a ticket any more, the queue is in increasing order exactly
if nobody overtook. -/
theorem increasing_iff_allInTurn (h : Inv s) (hfront : s.out <+: s.issued)
    {ops : List (Op ι P)} (hidle : (run s ops).Idle) :
    (run s ops).out.Pairwise (fun x y => x.1 < y.1) ↔ AllInTurn s ops := by
  constructor
  · exact allInTurn_of_increasing h hidle
  · intro hturn
    exact (run_inv h ops).increasing.sublist (run_front h hfront hturn).sublist

end Runs

end TicketQueue
