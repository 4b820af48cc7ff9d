import OpenSsmAgent.Lib.Table

/-!
# Tables that mirror each other

Two tables that hold corresponding values under corresponding keys: the second is
keyed by an image of the first's keys, injective on the keys in play.

Main results:

- Theorems {lit}`Mirrors.retain` and {lit}`Mirrors.put`: corresponding operations keep
  the correspondence.
- Theorem {lit}`Mirrors.size_eq`: the tables have as many entries.
-/

namespace Table

variable {K L V W : Type} [DecidableEq K] [DecidableEq L]

/-- Under the image of each key in play stands the value that corresponds to the key's, and
nothing else is in either table. -/
structure Mirrors (f : K → L) (keys : Set K) (rel : V → W → Prop) (m : Table K V)
    (m' : Table L W) : Prop where
  known : ∀ k v, m.lookup k = some v → k ∈ keys
  image : ∀ l w, m'.lookup l = some w → ∃ k ∈ keys, f k = l
  values : ∀ k ∈ keys, Option.Rel rel (m.lookup k) (m'.lookup (f k))

namespace Mirrors

variable {f : K → L} {keys : Set K} {rel : V → W → Prop} {m : Table K V} {m' : Table L W}

theorem empty : Mirrors f keys rel (∅ : Table K V) (∅ : Table L W) where
  known k v h := by simp at h
  image l w h := by simp at h
  values k _ := by simp

/-- A key in play is in neither table, or in both with corresponding values. -/
theorem lookup_cases (h : Mirrors f keys rel m m') {k : K} (hk : k ∈ keys) :
    (m.lookup k = none ∧ m'.lookup (f k) = none) ∨
    ∃ v w, m.lookup k = some v ∧ m'.lookup (f k) = some w ∧ rel v w := by
  have hvalue := h.values k hk
  generalize m.lookup k = found at hvalue ⊢
  generalize m'.lookup (f k) = found' at hvalue ⊢
  cases hvalue with
  | none => exact .inl ⟨rfl, rfl⟩
  | some hvw => exact .inr ⟨_, _, rfl, rfl, hvw⟩

/-- Sweeps that agree on corresponding values. -/
theorem retain (h : Mirrors f keys rel m m') {keep : K → V → Bool} {keep' : L → W → Bool}
    (hkeep : ∀ k v w, rel v w → keep k v = keep' (f k) w) :
    Mirrors f keys rel (m.retain keep) (m'.retain keep') where
  known k v hv := by
    rw [lookup_retain, Option.filter_eq_some_iff] at hv
    exact h.known k v hv.1
  image l w hw := by
    rw [lookup_retain, Option.filter_eq_some_iff] at hw
    exact h.image l w hw.1
  values k hk := by
    rw [lookup_retain, lookup_retain]
    rcases h.lookup_cases hk with ⟨hv, hw⟩ | ⟨v, w, hv, hw, hvw⟩
    · simp [hv, hw]
    · rw [hv, hw, Option.filter_some, Option.filter_some, hkeep k v w hvw]
      split
      · exact Option.Rel.some hvw
      · exact Option.Rel.none

/-- Corresponding values written under corresponding keys. -/
theorem put [DecidableEq V] [DecidableEq W] (h : Mirrors f keys rel m m')
    (hf : Set.InjOn f keys) {k : K} {v : V} {w : W} (hk : k ∈ keys) (hvw : rel v w) :
    Mirrors f keys rel (m.put k v) (m'.put (f k) w) where
  known k' v' hv' := by
    by_cases hsame : k' = k
    · exact hsame ▸ hk
    · exact h.known k' v' (lookup_put_ne m v hsame ▸ hv')
  image l w' hw' := by
    by_cases hsame : l = f k
    · exact ⟨k, hk, hsame.symm⟩
    · exact h.image l w' (lookup_put_ne m' w hsame ▸ hw')
  values k' hk' := by
    by_cases hsame : k' = k
    · subst hsame
      simpa using Option.Rel.some hvw
    · rw [lookup_put_ne m v hsame, lookup_put_ne m' w (fun heq => hsame (hf hk' hk heq))]
      exact h.values k' hk'

/-- The keys of the second table are the images of the keys of the first. -/
theorem size_eq (h : Mirrors f keys rel m m') (hf : Set.InjOn f keys) : m.size = m'.size := by
  have hmem : ∀ k ∈ m.keys, k ∈ keys := by
    intro k hk
    obtain ⟨v, hv⟩ := mem_keys_iff.mp hk
    exact h.known k v hv
  have hperm : (m.keys.map f).Perm m'.keys := by
    refine (List.perm_ext_iff_of_nodup ?_ m'.keys_nodup).mpr fun l => ?_
    · exact m.keys_nodup.map_on fun k hk k' hk' heq => hf (hmem k hk) (hmem k' hk') heq
    rw [List.mem_map, mem_keys_iff]
    constructor
    · rintro ⟨k, hk, rfl⟩
      obtain ⟨v, hv⟩ := mem_keys_iff.mp hk
      rcases h.lookup_cases (hmem k hk) with ⟨hnone, -⟩ | ⟨-, w, -, hw, -⟩
      · simp [hv] at hnone
      · exact ⟨w, hw⟩
    · rintro ⟨w, hw⟩
      obtain ⟨k, hk, rfl⟩ := h.image l w hw
      rcases h.lookup_cases hk with ⟨-, hnone⟩ | ⟨v, -, hv, -⟩
      · simp [hw] at hnone
      · exact ⟨k, mem_keys_iff.mpr ⟨v, hv⟩, rfl⟩
  have hlength := hperm.length_eq
  rwa [List.length_map] at hlength

end Mirrors

end Table
