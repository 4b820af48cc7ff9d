import Mathlib

/-!
# Finite tables

Hash maps as association lists without duplicate keys.  Writing the value that is
already there leaves the table as it is, so that an in-place update that changes
nothing is the identity.

Main results:

- Theorems {lit}`lookup_put`, {lit}`lookup_drop` and {lit}`lookup_retain`: what
  each operation leaves under a key.
- Theorem {lit}`put_of_lookup`: writing the current value back changes nothing.
- Theorem {lit}`countP_drop`: forgetting a key forgets exactly its entry.
- Theorem {lit}`size_put`: a write adds an entry only under a new key.
-/

/-- A finite table. -/
abbrev Table (K V : Type) := AList (fun _ : K => V)

namespace Table

variable {K V : Type} [DecidableEq K]

/-- The value under a key. -/
def lookup (m : Table K V) (k : K) : Option V :=
  AList.lookup k m

/-- Write a value under a key. -/
def put [DecidableEq V] (m : Table K V) (k : K) (v : V) : Table K V :=
  if m.lookup k = some v then m else AList.insert k v m

/-- Forget a key. -/
def drop (m : Table K V) (k : K) : Table K V :=
  AList.erase k m

/-- Keep the entries that pass a test. -/
def retain (m : Table K V) (keep : K → V → Bool) : Table K V :=
  ⟨m.entries.filter (fun e => keep e.1 e.2), m.nodupKeys.sublist List.filter_sublist⟩

/-- The number of entries. -/
def size (m : Table K V) : Nat :=
  m.keys.length

@[simp] theorem lookup_empty (k : K) : lookup (∅ : Table K V) k = none :=
  AList.lookup_empty k

/-- What is found after a put. -/
theorem lookup_put [DecidableEq V] (m : Table K V) (k k' : K) (v : V) :
    (m.put k v).lookup k' = if k' = k then some v else m.lookup k' := by
  unfold put
  split_ifs with hsame heq heq
  · rw [heq, hsame]
  · rfl
  · rw [heq]
    exact AList.lookup_insert m
  · exact AList.lookup_insert_ne heq

@[simp] theorem lookup_put_self [DecidableEq V] (m : Table K V) (k : K) (v : V) :
    (m.put k v).lookup k = some v := by
  simp [lookup_put]

theorem lookup_put_ne [DecidableEq V] (m : Table K V) {k k' : K} (v : V) (h : k' ≠ k) :
    (m.put k v).lookup k' = m.lookup k' := by
  simp [lookup_put, h]

/-- Writing the current value back changes nothing. -/
theorem put_of_lookup [DecidableEq V] {m : Table K V} {k : K} {v : V}
    (h : m.lookup k = some v) : m.put k v = m := by
  simp [put, h]

/-- What is found after a drop. -/
theorem lookup_drop (m : Table K V) (k k' : K) :
    (m.drop k).lookup k' = if k' = k then none else m.lookup k' := by
  unfold drop lookup
  split_ifs with h
  · rw [h, AList.lookup_erase]
  · exact AList.lookup_erase_ne h

/-- Forgetting a key takes its entry out of every count. -/
theorem countP_drop {m : Table K V} {k : K} {v : V} (p : (Sigma fun _ : K => V) → Bool)
    (h : m.lookup k = some v) :
    m.entries.countP p = (m.drop k).entries.countP p + if p ⟨k, v⟩ then 1 else 0 := by
  have hmem : (⟨k, v⟩ : Sigma fun _ : K => V) ∈ m.entries :=
    List.of_mem_dlookup (Option.mem_def.mpr h)
  obtain ⟨w, l₁, l₂, -, hsplit, herase⟩ :=
    List.exists_of_kerase (List.mem_keys_of_mem hmem)
  have hw : w = v := by
    have hnodup := m.nodupKeys
    have hw : w ∈ List.dlookup k m.entries :=
      List.mem_dlookup hnodup (hsplit ▸ List.mem_append_right _ List.mem_cons_self)
    exact Option.some_injective _ (hw.symm.trans h)
  subst hw
  have hdrop : (m.drop k).entries = l₁ ++ l₂ := herase
  rw [hdrop, hsplit]
  simp only [List.countP_append, List.countP_cons]
  omega

/-- Writing a key before forgetting it makes no difference. -/
theorem drop_put [DecidableEq V] (m : Table K V) (k : K) (v : V) :
    (m.put k v).drop k = m.drop k := by
  unfold put drop
  split_ifs
  · rfl
  · apply AList.ext
    exact List.kerase_cons_eq (s := (⟨k, v⟩ : Sigma fun _ : K => V)) rfl

/-- A write under a new key adds its entry to every count. -/
theorem countP_put [DecidableEq V] {m : Table K V} {k : K}
    (p : (Sigma fun _ : K => V) → Bool) (v : V) (h : m.lookup k = none) :
    (m.put k v).entries.countP p = m.entries.countP p + if p ⟨k, v⟩ then 1 else 0 := by
  have hdrop : m.drop k = m := AList.ext (List.kerase_of_notMem_keys (AList.lookup_eq_none.mp h))
  rw [countP_drop p (lookup_put_self m k v), drop_put, hdrop]

/-- The entries are what is found. -/
theorem mem_entries_iff {m : Table K V} {k : K} {v : V} :
    (⟨k, v⟩ : Sigma fun _ : K => V) ∈ m.entries ↔ m.lookup k = some v := by
  rw [lookup, ← AList.mem_lookup_iff, Option.mem_def]

/-- What is found after a retain. -/
theorem lookup_retain (m : Table K V) (keep : K → V → Bool) (k : K) :
    (m.retain keep).lookup k = (m.lookup k).filter (keep k) := by
  apply Option.ext
  intro v
  rw [← mem_entries_iff, Option.filter_eq_some_iff, ← mem_entries_iff]
  simp [retain]

/-- Collecting from the entries of one key collects at most once. -/
theorem filterMap_entries {B : Type} (m : Table K V) (k : K) (f : V → Option B) :
    m.entries.filterMap (fun e => if e.1 = k then f e.2 else none) =
      ((m.lookup k).bind f).toList := by
  suffices h : ∀ l : List (Sigma fun _ : K => V), l.NodupKeys →
      l.filterMap (fun e => if e.1 = k then f e.2 else none) =
        ((List.dlookup k l).bind f).toList from h m.entries m.nodupKeys
  intro l hnodup
  induction l with
  | nil => rfl
  | cons e l ih =>
      obtain ⟨k', v⟩ := e
      obtain ⟨hnotMem, hrest⟩ := List.nodupKeys_cons.mp hnodup
      by_cases hk : k' = k
      · subst hk
        have hnone : List.dlookup k' l = none := List.dlookup_eq_none.mpr hnotMem
        have hrest := ih hrest
        rw [hnone] at hrest
        cases hf : f v <;> simp [hf, hrest]
      · simp [hk, ih hrest, List.dlookup_cons_ne l ⟨k', v⟩ (Ne.symm hk)]

/-- The keys are those found. -/
theorem mem_keys_iff {m : Table K V} {k : K} : k ∈ m.keys ↔ ∃ v, m.lookup k = some v := by
  rw [← AList.mem_keys, ← AList.lookup_isSome, Option.isSome_iff_exists]
  rfl

/-- Writing under a new key adds an entry, and under a known key none. -/
theorem size_put [DecidableEq V] (m : Table K V) (k : K) (v : V) :
    (m.put k v).size = if (m.lookup k).isSome then m.size else m.size + 1 := by
  have hmem : k ∈ m.keys ↔ (m.lookup k).isSome := by
    rw [mem_keys_iff, Option.isSome_iff_exists]
  unfold put
  split_ifs with hsame hknown hknown
  · rfl
  · simp [hsame] at hknown
  · have hpos := List.length_pos_of_mem (hmem.mpr hknown)
    rw [size, AList.keys_insert, List.length_cons, List.length_erase_of_mem (hmem.mpr hknown),
      size]
    omega
  · rw [size, AList.keys_insert, List.length_cons,
      List.erase_of_not_mem (fun hk => hknown (hmem.mp hk)), size]

omit [DecidableEq K] in
/-- The size counts entries. -/
theorem size_eq_length (m : Table K V) : m.size = m.entries.length := by
  rw [size, AList.keys, List.keys, List.length_map]

omit [DecidableEq K] in
/-- A retain does not grow the table. -/
theorem size_retain_le (m : Table K V) (keep : K → V → Bool) : (m.retain keep).size ≤ m.size := by
  rw [size_eq_length, size_eq_length]
  exact List.length_filter_le _ _

/-- A sweep that drops an entry leaves fewer. -/
theorem size_retain_lt {m : Table K V} {keep : K → V → Bool} {k : K} {v : V}
    (h : m.lookup k = some v) (hdrop : keep k v = false) : (m.retain keep).size < m.size := by
  rw [size_eq_length, size_eq_length]
  refine List.length_filter_lt_length_iff_exists.mpr ⟨⟨k, v⟩, mem_entries_iff.mpr h, ?_⟩
  simp [hdrop]

/-- Nor does a drop. -/
theorem size_drop_le (m : Table K V) (k : K) : (m.drop k).size ≤ m.size := by
  rw [size, drop, AList.keys_erase]
  exact List.length_erase_le

end Table
