import Mathlib

/-!
# Tables that number their rows

A table of a remote store: every row has a number that the store assigned, numbers
are not assigned twice, and rows are inserted, changed in place and deleted by
number.  The listing order is the order of insertion; everything else is said
through {lit}`get`.

Main results:

- Theorem {lit}`mem_rows_iff`: the listed rows are the rows under the numbers.
- Theorems {lit}`get_insert`, {lit}`get_update` and {lit}`get_deleteWhere`: what each
  operation leaves under a number.
- Theorems {lit}`mem_column` and {lit}`nodup_column`: the columns of a table.
-/

/-- A table with assigned row numbers. -/
structure RowTable (R : Type) where
  rows : List (Nat × R)
  next : Nat
  nodup : (rows.map Prod.fst).Nodup
  fresh : ∀ row ∈ rows, row.1 < next
deriving DecidableEq

namespace RowTable

variable {R : Type}

/-- The row under a number. -/
def get (t : RowTable R) (id : Nat) : Option R :=
  (t.rows.find? (fun row => row.1 = id)).map Prod.snd

/-- Insert a row: its number and the table after it. -/
def insert (t : RowTable R) (r : R) : Nat × RowTable R :=
  (t.next,
    { rows := t.rows ++ [(t.next, r)]
      next := t.next + 1
      nodup := by
        rw [List.map_append, List.nodup_append]
        refine ⟨t.nodup, by simp, ?_⟩
        intro a ha b hb
        obtain ⟨row, hrow, rfl⟩ := List.mem_map.mp ha
        have hlt := t.fresh row hrow
        simp only [List.map_cons, List.map_nil, List.mem_singleton] at hb
        omega
      fresh := by
        intro row hrow
        rcases List.mem_append.mp hrow with hrow | hrow
        · exact Nat.lt_succ_of_lt (t.fresh row hrow)
        · simp_all })

/-- Change the row under a number in place. -/
def update (t : RowTable R) (id : Nat) (f : R → R) : RowTable R where
  rows := t.rows.map (fun row => if row.1 = id then (row.1, f row.2) else row)
  next := t.next
  nodup := by
    have hids :
        (t.rows.map (fun row => if row.1 = id then (row.1, f row.2) else row)).map Prod.fst =
        t.rows.map Prod.fst := by
      rw [List.map_map]
      refine List.map_congr_left (fun row _ => ?_)
      simp only [Function.comp_apply]
      split <;> rfl
    rw [hids]
    exact t.nodup
  fresh := by
    intro row hrow
    obtain ⟨old, hold, rfl⟩ := List.mem_map.mp hrow
    have hlt := t.fresh old hold
    split <;> exact hlt

/-- Delete the rows that pass a test. -/
def deleteWhere (t : RowTable R) (p : Nat → R → Bool) : RowTable R where
  rows := t.rows.filter (fun row => !p row.1 row.2)
  next := t.next
  nodup := t.nodup.sublist (List.filter_sublist.map _)
  fresh := fun row hrow => t.fresh row (List.mem_of_mem_filter hrow)

section Rows

variable {t : RowTable R} {id id' : Nat} {r : R}

/-- A number has one row. -/
theorem eq_of_mem_rows {r r' : R} (h : (id, r) ∈ t.rows) (h' : (id, r') ∈ t.rows) : r = r' := by
  have hpair := List.inj_on_of_nodup_map t.nodup h h' rfl
  exact congrArg Prod.snd hpair

/-- The listed rows are the rows under the numbers. -/
theorem mem_rows_iff : (id, r) ∈ t.rows ↔ t.get id = some r := by
  unfold get
  constructor
  · intro h
    cases hfind : t.rows.find? (fun row => row.1 = id) with
    | none => simpa using List.find?_eq_none.mp hfind (id, r) h
    | some row =>
        have hid : row.1 = id := by simpa using List.find?_some hfind
        subst hid
        simp [eq_of_mem_rows (List.mem_of_find?_eq_some hfind) h]
  · intro h
    obtain ⟨row, hfind, rfl⟩ := Option.map_eq_some_iff.mp h
    have hid : row.1 = id := by simpa using List.find?_some hfind
    subst hid
    exact List.mem_of_find?_eq_some hfind

/-- Rows have numbers below the next. -/
theorem lt_of_get (h : t.get id = some r) : id < t.next :=
  t.fresh _ (mem_rows_iff.mpr h)

/-- The next number is free. -/
@[simp] theorem get_next (t : RowTable R) : t.get t.next = none := by
  cases h : t.get t.next with
  | none => rfl
  | some r => exact absurd (lt_of_get h) (lt_irrefl _)

@[simp] theorem insert_fst (t : RowTable R) (r : R) : (t.insert r).1 = t.next :=
  rfl

@[simp] theorem insert_next (t : RowTable R) (r : R) : (t.insert r).2.next = t.next + 1 :=
  rfl

@[simp] theorem update_next (t : RowTable R) (id : Nat) (f : R → R) :
    (t.update id f).next = t.next :=
  rfl

@[simp] theorem deleteWhere_next (t : RowTable R) (p : Nat → R → Bool) :
    (t.deleteWhere p).next = t.next :=
  rfl

/-- A row is stored under its number. -/
theorem get_insert (t : RowTable R) (r : R) (id : Nat) :
    (t.insert r).2.get id = if id = t.next then some r else t.get id := by
  apply Option.ext
  intro r'
  rw [← mem_rows_iff]
  have hrows : (t.insert r).2.rows = t.rows ++ [(t.next, r)] := rfl
  rw [hrows, List.mem_append, List.mem_singleton, mem_rows_iff]
  split_ifs with hid
  · subst hid
    simp [eq_comm]
  · simp [hid]

/-- One row is rewritten. -/
theorem get_update (t : RowTable R) (id : Nat) (f : R → R) (id' : Nat) :
    (t.update id f).get id' = if id' = id then (t.get id').map f else t.get id' := by
  apply Option.ext
  intro r'
  rw [← mem_rows_iff]
  have hrows : (t.update id f).rows =
      t.rows.map (fun row => if row.1 = id then (row.1, f row.2) else row) := rfl
  rw [hrows, List.mem_map]
  constructor
  · rintro ⟨⟨i, r⟩, hrow, heq⟩
    have hget := mem_rows_iff.mp hrow
    split_ifs at heq with hi
    · obtain ⟨rfl, rfl⟩ := Prod.mk.inj heq
      rw [if_pos hi, hget]
      rfl
    · obtain ⟨rfl, rfl⟩ := Prod.mk.inj heq
      simpa [hi] using hget
  · intro h
    split_ifs at h with hid
    · obtain ⟨r, hr, rfl⟩ := Option.map_eq_some_iff.mp h
      exact ⟨(id', r), mem_rows_iff.mpr hr, by simp [hid]⟩
    · exact ⟨(id', r'), mem_rows_iff.mpr h, by simp [hid]⟩

/-- The matching rows are gone. -/
theorem get_deleteWhere (t : RowTable R) (p : Nat → R → Bool) (id : Nat) :
    (t.deleteWhere p).get id = (t.get id).filter (fun r => !p id r) := by
  apply Option.ext
  intro r
  rw [← mem_rows_iff, Option.filter_eq_some_iff, ← mem_rows_iff]
  have hrows : (t.deleteWhere p).rows = t.rows.filter (fun row => !p row.1 row.2) := rfl
  rw [hrows, List.mem_filter]

/-! ## Columns -/

variable {B : Type}

/-- A column of the rows that pass a test. -/
def column (t : RowTable R) (p : R → Bool) (f : R → B) : List B :=
  (t.rows.filter (fun row => p row.2)).map (fun row => f row.2)

/-- What a column holds. -/
theorem mem_column {p : R → Bool} {f : R → B} {b : B} :
    b ∈ t.column p f ↔ ∃ id r, t.get id = some r ∧ p r = true ∧ f r = b := by
  unfold column
  rw [List.mem_map]
  constructor
  · rintro ⟨⟨id, r⟩, hrow, rfl⟩
    obtain ⟨hmem, hp⟩ := List.mem_filter.mp hrow
    exact ⟨id, r, mem_rows_iff.mp hmem, hp, rfl⟩
  · rintro ⟨id, r, hget, hp, rfl⟩
    exact ⟨(id, r), List.mem_filter.mpr ⟨mem_rows_iff.mpr hget, hp⟩, rfl⟩

/-- A column has no duplicates if the rows that pass differ in it. -/
theorem nodup_column {p : R → Bool} {f : R → B}
    (h : ∀ id id' r r', t.get id = some r → t.get id' = some r' → p r = true → p r' = true →
      f r = f r' → id = id') : (t.column p f).Nodup := by
  refine List.Nodup.map_on ?_ ((List.Nodup.of_map _ t.nodup).filter _)
  rintro ⟨id, r⟩ hrow ⟨id', r'⟩ hrow' heq
  obtain ⟨hmem, hp⟩ := List.mem_filter.mp hrow
  obtain ⟨hmem', hp'⟩ := List.mem_filter.mp hrow'
  have hid := h id id' r r' (mem_rows_iff.mp hmem) (mem_rows_iff.mp hmem') hp hp' heq
  subst hid
  rw [eq_of_mem_rows hmem hmem']

/-- In a column without duplicates a value is in one row only. -/
theorem eq_of_nodup_column {p : R → Bool} {f : R → B} (h : (t.column p f).Nodup) {r r' : R}
    (hget : t.get id = some r) (hget' : t.get id' = some r') (hp : p r = true) (hp' : p r' = true)
    (heq : f r = f r') : id = id' := by
  have hmem : (id, r) ∈ t.rows.filter (fun row => p row.2) :=
    List.mem_filter.mpr ⟨mem_rows_iff.mpr hget, hp⟩
  have hmem' : (id', r') ∈ t.rows.filter (fun row => p row.2) :=
    List.mem_filter.mpr ⟨mem_rows_iff.mpr hget', hp'⟩
  exact congrArg Prod.fst (List.inj_on_of_nodup_map h hmem hmem' heq)

end Rows

end RowTable
