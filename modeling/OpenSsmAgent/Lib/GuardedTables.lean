import OpenSsmAgent.Lib.Table

/-!
# Guarded tables

Tables that let a value in only once.

A store of high-water marks keeps one mark per key and admits a value only above it,
making it the new mark in the same step.

The entries of a one-time table are issued once and claimed at most once: an entry is
issued under a new key, may be dropped at any time, and is marked used when it is
claimed.  What was issued and what was claimed is kept beside the table.

Main results:

- Theorems {lit}`HighWater.raise_of_above` and {lit}`HighWater.raise_of_not_above`: a
  value above the mark becomes the mark, and any other leaves the store alone.
- Theorems {lit}`OneTime.Sound.issue`, {lit}`OneTime.Sound.retain`,
  {lit}`OneTime.Sound.burn` and {lit}`OneTime.Sound.claim`: the operations keep the table
  sound.
-/

instance HighWater.linearOrderUInt64 : LinearOrder UInt64 where
  le_refl := UInt64.le_refl
  le_trans _ _ _ := UInt64.le_trans
  le_antisymm _ _ := UInt64.le_antisymm
  le_total := UInt64.le_total
  lt_iff_le_not_ge a b := by
    rw [UInt64.lt_iff_toNat_lt, UInt64.le_iff_toNat_le, UInt64.le_iff_toNat_le]
    omega
  toDecidableLE := inferInstance
  toDecidableEq := inferInstance
  toDecidableLT := inferInstance

namespace HighWater

variable {K E : Type} [DecidableEq K] [LinearOrder E]

/-- A value lies above the mark of its key. -/
def Above (m : Table K E) (k : K) (e : E) : Prop :=
  ∀ high, m.lookup k = some high → high < e

/-- Admit a value above the mark of its key and make it the mark. -/
def raise (m : Table K E) (k : K) (e : E) : Bool × Table K E :=
  match m.lookup k with
  | some high => if e ≤ high then (false, m) else (true, m.put k e)
  | none => (true, m.put k e)

variable {m : Table K E} {k : K} {e : E}

theorem raise_of_above (h : Above m k e) : raise m k e = (true, m.put k e) := by
  unfold raise
  split
  · rename_i high hget
    rw [if_neg (not_le.mpr (h high hget))]
  · rfl

theorem raise_of_not_above (h : ¬ Above m k e) : raise m k e = (false, m) := by
  unfold raise
  split
  · rename_i high hget
    rw [if_pos]
    by_contra hlt
    refine h fun other hother => ?_
    obtain rfl : high = other := Option.some.inj (hget.symm.trans hother)
    exact not_le.mp hlt
  · rename_i hget
    exact absurd (fun _ hother => by rw [hget] at hother; cases hother) h

end HighWater

namespace OneTime

variable {K E T : Type} [DecidableEq K]

/-- Every entry was issued with its expiry; an unused one was not claimed; no key was
claimed twice, nor without having been issued. -/
structure Sound (used : E → Bool) (expiry : E → T) (issued : List (K × T)) (claimed : List K)
    (m : Table K E) : Prop where
  known : ∀ k e, m.lookup k = some e → (k, expiry e) ∈ issued
  unused : ∀ k e, m.lookup k = some e → used e = false → k ∉ claimed
  once : claimed.Nodup
  backed : ∀ k ∈ claimed, k ∈ issued.map Prod.fst

variable {used : E → Bool} {expiry : E → T} {issued : List (K × T)} {claimed : List K}
  {m : Table K E} {k : K} {e e' : E}

theorem sound_empty : Sound used expiry [] [] (∅ : Table K E) where
  known k e h := by
    rw [Table.lookup_empty] at h
    cases h
  unused k e h := by
    rw [Table.lookup_empty] at h
    cases h
  once := List.nodup_nil
  backed k h := by cases h

/-- Dropping entries. -/
theorem Sound.retain (h : Sound used expiry issued claimed m) (keep : K → E → Bool) :
    Sound used expiry issued claimed (m.retain keep) := by
  have hsub : ∀ k e, (m.retain keep).lookup k = some e → m.lookup k = some e := by
    intro k e hlookup
    rw [Table.lookup_retain] at hlookup
    exact (Option.filter_eq_some_iff.mp hlookup).1
  exact ⟨fun k e hlookup => h.known k e (hsub k e hlookup),
    fun k e hlookup => h.unused k e (hsub k e hlookup), h.once, h.backed⟩

variable [DecidableEq E]

/-- Issuing an entry under a new key. -/
theorem Sound.issue (h : Sound used expiry issued claimed m) (hnew : k ∉ issued.map Prod.fst)
    (e : E) :
    Sound used expiry (issued ++ [(k, expiry e)]) claimed (m.put k e) where
  known k' e' hlookup := by
    rw [Table.lookup_put] at hlookup
    split at hlookup
    · rename_i heq
      cases hlookup
      rw [heq]
      exact List.mem_append_right _ (List.mem_singleton_self _)
    · exact List.mem_append_left _ (h.known k' e' hlookup)
  unused k' e' hlookup hunused := by
    rw [Table.lookup_put] at hlookup
    split at hlookup
    · rename_i heq
      rw [heq]
      exact fun hclaimed => hnew (h.backed k hclaimed)
    · exact h.unused k' e' hlookup hunused
  once := h.once
  backed k' hclaimed := by
    rw [List.map_append]
    exact List.mem_append_left _ (h.backed k' hclaimed)

/-- Marking an entry used. -/
theorem Sound.burn (h : Sound used expiry issued claimed m) (hentry : m.lookup k = some e)
    (hexpiry : expiry e' = expiry e) (hused : used e' = true) :
    Sound used expiry issued claimed (m.put k e') where
  known k' e'' hlookup := by
    rw [Table.lookup_put] at hlookup
    split at hlookup
    · rename_i heq
      cases hlookup
      rw [heq, hexpiry]
      exact h.known k e hentry
    · exact h.known k' e'' hlookup
  unused k' e'' hlookup hunused := by
    rw [Table.lookup_put] at hlookup
    split at hlookup
    · cases hlookup
      rw [hused] at hunused
      cases hunused
    · exact h.unused k' e'' hlookup hunused
  once := h.once
  backed := h.backed

/-- Claiming an entry: it is marked used, and its key had not been claimed. -/
theorem Sound.claim (h : Sound used expiry issued claimed m) (hentry : m.lookup k = some e)
    (hunused : used e = false) (hexpiry : expiry e' = expiry e) (hused : used e' = true) :
    Sound used expiry issued (claimed ++ [k]) (m.put k e') := by
  have hburnt := h.burn hentry hexpiry hused
  refine ⟨hburnt.known, ?_, ?_, ?_⟩
  · intro k' e'' hlookup hunused' hclaimed
    rcases List.mem_append.mp hclaimed with hclaimed | hclaimed
    · exact hburnt.unused k' e'' hlookup hunused' hclaimed
    · obtain rfl := List.mem_singleton.mp hclaimed
      rw [Table.lookup_put_self] at hlookup
      cases hlookup
      rw [hused] at hunused'
      cases hunused'
  · exact (List.nodup_middle.mpr (List.nodup_cons.mpr
      ⟨by simpa using h.unused k e hentry hunused, by simpa using h.once⟩))
  · intro k' hclaimed
    rcases List.mem_append.mp hclaimed with hclaimed | hclaimed
    · exact h.backed k' hclaimed
    · obtain rfl := List.mem_singleton.mp hclaimed
      exact List.mem_map_of_mem (h.known k' e hentry)

end OneTime
