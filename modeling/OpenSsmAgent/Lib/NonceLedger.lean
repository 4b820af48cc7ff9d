import Mathlib

/-!
# Counting allocators over a growing set of keys

A party holds a changing collection of allocators.  Each allocator belongs to a
key and hands out the numbers 0, 1, 2, … under it; allocators are opened, used
and closed in any order, and what was handed out is logged.  No pair of key and
number is handed out twice as long as an allocator is opened only on a key that
was never seen before.

Main results:

- Theorems {lit}`Ledger.take`, {lit}`Ledger.start`, {lit}`Ledger.close` and
  {lit}`Ledger.closeAll`: the moves keep the ledger sound.
- Theorems {lit}`seen_take`, {lit}`seen_start` and {lit}`seen_close`: only opening
  an allocator makes a key seen.
-/

namespace NonceLedger

variable {ι K : Type*}

/-- The open allocators by name: the key and the next number. -/
abbrev Allocators (ι K : Type*) := ι → Option (K × Nat)

/-- A key that some logged call used or some allocator holds. -/
def Seen (live : Allocators ι K) (log : List (K × Nat)) (k : K) : Prop :=
  (∃ m, (k, m) ∈ log) ∨ ∃ a n, live a = some (k, n)

/-- The log repeats nothing, every allocator is ahead of the log under its key,
and no two allocators share a key. -/
structure Ledger (live : Allocators ι K) (log : List (K × Nat)) : Prop where
  nodup : log.Nodup
  ahead : ∀ {a k n m}, live a = some (k, n) → (k, m) ∈ log → m < n
  distinct : ∀ {a b k n m}, live a = some (k, n) → live b = some (k, m) → a = b

/-- Nothing is live, nothing logged. -/
theorem Ledger.empty : Ledger (fun _ => none : Allocators ι K) [] where
  nodup := List.nodup_nil
  ahead := nofun
  distinct := nofun

/-- Closing all allocators at once. -/
theorem Ledger.closeAll {live : Allocators ι K} {log : List (K × Nat)} (h : Ledger live log) :
    Ledger (fun _ => none : Allocators ι K) log where
  nodup := h.nodup
  ahead := nofun
  distinct := nofun

variable [DecidableEq ι] {live : Allocators ι K} {log : List (K × Nat)} {a : ι} {k : K} {n : Nat}

/-- An allocator after an update is the updated one or an old one. -/
theorem eq_some_of_update {v : Option (K × Nat)} {b : ι} {c : K × Nat}
    (h : Function.update live a v b = some c) : b = a ∧ v = some c ∨ b ≠ a ∧ live b = some c := by
  by_cases hba : b = a
  · subst hba
    exact Or.inl ⟨rfl, by simpa using h⟩
  · rw [Function.update_of_ne hba] at h
    exact Or.inr ⟨hba, h⟩

/-- Handing out the next number of an allocator. -/
theorem Ledger.take (h : Ledger live log) (ha : live a = some (k, n)) :
    Ledger (Function.update live a (some (k, n + 1))) (log ++ [(k, n)]) where
  nodup := by
    refine List.nodup_append.mpr ⟨h.nodup, List.nodup_singleton _, ?_⟩
    rintro x hx y hy rfl
    obtain rfl := List.mem_singleton.mp hy
    exact lt_irrefl n (h.ahead ha hx)
  ahead := by
    intro b k' n' m hb hm
    rcases eq_some_of_update hb with ⟨rfl, heq⟩ | ⟨hba, hb⟩ <;>
      rcases List.mem_append.mp hm with hm | hm
    · cases heq
      exact Nat.lt_succ_of_lt (h.ahead ha hm)
    · cases heq
      cases List.mem_singleton.mp hm
      exact Nat.lt_succ_self _
    · exact h.ahead hb hm
    · cases List.mem_singleton.mp hm
      exact absurd (h.distinct hb ha) hba
  distinct := by
    intro b c k' n' m hb hc
    rcases eq_some_of_update hb with ⟨hba, heq⟩ | ⟨-, hold⟩ <;>
      rcases eq_some_of_update hc with ⟨hca, heq'⟩ | ⟨-, hold'⟩
    · rw [hba, hca]
    · cases heq
      exact hba.trans (h.distinct ha hold')
    · cases heq'
      exact (h.distinct hold ha).trans hca.symm
    · exact h.distinct hold hold'

/-- Closing an allocator. -/
theorem Ledger.close (h : Ledger live log) (a : ι) :
    Ledger (Function.update live a none) log where
  nodup := h.nodup
  ahead := by
    intro b k' n' m hb hm
    rcases eq_some_of_update hb with ⟨-, heq⟩ | ⟨-, hb⟩
    · cases heq
    · exact h.ahead hb hm
  distinct := by
    intro b c k' n' m hb hc
    rcases eq_some_of_update hb with ⟨-, heq⟩ | ⟨-, hb⟩
    · cases heq
    rcases eq_some_of_update hc with ⟨-, heq⟩ | ⟨-, hc⟩
    · cases heq
    exact h.distinct hb hc

/-- Opening an allocator on a key that was never seen. -/
theorem Ledger.start (h : Ledger live log) (a : ι) (hk : ¬ Seen live log k) :
    Ledger (Function.update live a (some (k, 0))) log where
  nodup := h.nodup
  ahead := by
    intro b k' n' m hb hm
    rcases eq_some_of_update hb with ⟨-, heq⟩ | ⟨-, hb⟩
    · cases heq
      exact absurd (Or.inl ⟨m, hm⟩) hk
    · exact h.ahead hb hm
  distinct := by
    intro b c k' n' m hb hc
    rcases eq_some_of_update hb with ⟨hba, heq⟩ | ⟨-, hold⟩ <;>
      rcases eq_some_of_update hc with ⟨hca, heq'⟩ | ⟨-, hold'⟩
    · rw [hba, hca]
    · cases heq
      exact absurd (Or.inr ⟨c, m, hold'⟩) hk
    · cases heq'
      exact absurd (Or.inr ⟨b, n', hold⟩) hk
    · exact h.distinct hold hold'

/-! ## Which keys were seen -/

/-- A take shows no new key. -/
theorem seen_take {k' : K} (ha : live a = some (k, n))
    (h : Seen (Function.update live a (some (k, n + 1))) (log ++ [(k, n)]) k') :
    Seen live log k' := by
  rcases h with ⟨m, hm⟩ | ⟨b, m, hb⟩
  · rcases List.mem_append.mp hm with hm | hm
    · exact Or.inl ⟨m, hm⟩
    · cases List.mem_singleton.mp hm
      exact Or.inr ⟨a, n, ha⟩
  · rcases eq_some_of_update hb with ⟨-, heq⟩ | ⟨-, hb⟩
    · cases heq
      exact Or.inr ⟨a, n, ha⟩
    · exact Or.inr ⟨b, m, hb⟩

/-- Nor does a close. -/
theorem seen_close {k' : K} (h : Seen (Function.update live a none) log k') :
    Seen live log k' := by
  rcases h with hlog | ⟨b, m, hb⟩
  · exact Or.inl hlog
  · rcases eq_some_of_update hb with ⟨-, heq⟩ | ⟨-, hb⟩
    · cases heq
    · exact Or.inr ⟨b, m, hb⟩

omit [DecidableEq ι] in
/-- Nor does closing all. -/
theorem seen_closeAll {k' : K} (h : Seen (fun _ => none : Allocators ι K) log k') :
    Seen live log k' := by
  rcases h with hlog | ⟨b, m, hb⟩
  · exact Or.inl hlog
  · cases hb

theorem seen_start {k' : K} (h : Seen (Function.update live a (some (k, 0))) log k') :
    k' = k ∨ Seen live log k' := by
  rcases h with hlog | ⟨b, m, hb⟩
  · exact Or.inr (Or.inl hlog)
  · rcases eq_some_of_update hb with ⟨-, heq⟩ | ⟨-, hb⟩
    · cases heq
      exact Or.inl rfl
    · exact Or.inr (Or.inr ⟨b, m, hb⟩)

end NonceLedger
