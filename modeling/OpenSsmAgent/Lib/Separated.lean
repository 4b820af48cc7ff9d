import OpenSsmAgent.Lib.Framing

/-!
# Fields behind separators

Byte strings in which every field stands behind a separator that no field contains.
Such a string determines its fields.  In UTF-8 texts the byte {lit}`0xff` never
occurs and the byte zero only where the text has a zero character, so both can
separate texts.

Main results:

- Theorems {lit}`append_behind_inj` and {lit}`append_behind_inj_of_length`: the fields and
  what stands before them are determined, by the separators or by the lengths.
- Theorem {lit}`eq_of_marked`: a field in front of a mark and a fixed middle part is
  determined too, even if the middle part contains marks and separators.
- Theorems {lit}`ff_notMem_utf8` and {lit}`zero_notMem_utf8`: bytes that a text does
  not have.
-/

open Framing

namespace Separated

variable {α : Type} {sep mark : α} {a b r r' : List α}

/-- Each item behind a separator. -/
def behind (sep : α) (items : List (List α)) : List α :=
  items.flatMap fun item => sep :: item

/-- The first separator ends the first item. -/
theorem append_cons_inj (ha : sep ∉ a) (hb : sep ∉ b) (h : a ++ sep :: r = b ++ sep :: r') :
    a = b ∧ r = r' := by
  induction a generalizing b with
  | nil =>
      cases b with
      | nil => exact ⟨rfl, by simpa using h⟩
      | cons y b =>
          have hy : sep = y := by simpa using congrArg List.head? h
          exact absurd (hy ▸ List.mem_cons_self) hb
  | cons x a ih =>
      cases b with
      | nil =>
          have hx : x = sep := by simpa using congrArg List.head? h
          exact absurd (hx ▸ List.mem_cons_self) ha
      | cons y b =>
          obtain ⟨rfl, htail⟩ := List.cons.inj h
          obtain ⟨rfl, hr⟩ := ih (fun hmem => ha (List.mem_cons_of_mem _ hmem))
            (fun hmem => hb (List.mem_cons_of_mem _ hmem)) htail
          exact ⟨rfl, hr⟩

/-- Items without separators are determined, and so is what stands before them. -/
theorem append_behind_inj {xs ys : List (List α)} (ha : sep ∉ a) (hb : sep ∉ b)
    (hxs : ∀ x ∈ xs, sep ∉ x) (hys : ∀ y ∈ ys, sep ∉ y)
    (h : a ++ behind sep xs = b ++ behind sep ys) : a = b ∧ xs = ys := by
  have hcons : ∀ (z : List α) zs, behind sep (z :: zs) = sep :: (z ++ behind sep zs) :=
    fun z zs => rfl
  induction xs generalizing a b ys with
  | nil =>
      cases ys with
      | nil => exact ⟨by simpa [behind] using h, rfl⟩
      | cons y ys =>
          have hmem : sep ∈ a := by
            have hb' : sep ∈ b ++ behind sep (y :: ys) := by simp [hcons]
            rw [← h] at hb'
            simpa [behind] using hb'
          exact absurd hmem ha
  | cons x xs ih =>
      cases ys with
      | nil =>
          have hmem : sep ∈ b := by
            have ha' : sep ∈ a ++ behind sep (x :: xs) := by simp [hcons]
            rw [h] at ha'
            simpa [behind] using ha'
          exact absurd hmem hb
      | cons y ys =>
          rw [hcons, hcons] at h
          obtain ⟨rfl, hrest⟩ := append_cons_inj ha hb h
          obtain ⟨rfl, rfl⟩ := ih (hxs x List.mem_cons_self) (hys y List.mem_cons_self)
            (fun z hz => hxs z (List.mem_cons_of_mem _ hz))
            (fun z hz => hys z (List.mem_cons_of_mem _ hz)) hrest
          exact ⟨rfl, rfl⟩

/-- Items without the separator are recovered. -/
theorem behind_inj {xs ys : List (List α)} (hxs : ∀ x ∈ xs, sep ∉ x) (hys : ∀ y ∈ ys, sep ∉ y)
    (h : behind sep xs = behind sep ys) : xs = ys :=
  (append_behind_inj (a := []) (b := []) (by simp) (by simp) hxs hys h).2

/-- The longer of two candidates for the front field would have to contain a separator:
the first separator behind the middle part, or the same one seen through the middle
part, once or several times. -/
theorem length_le_of_marked {u v h xs ys : List α} (hne : mark ≠ sep) (hv : sep ∉ v)
    (hxs : xs = [] ∨ xs.head? = some sep)
    (heq : u ++ mark :: (h ++ xs) = v ++ mark :: (h ++ ys)) : v.length ≤ u.length := by
  by_contra hlt
  rw [not_le] at hlt
  -- position by position: behind the first mark no separator can stand inside the middle part
  have hnone : ∀ j, j ≤ h.length → (h ++ xs)[j]? ≠ some sep := by
    intro j
    induction j using Nat.strong_induction_on with
    | _ j ih =>
        intro hj hsep
        have hpos : (u ++ mark :: (h ++ xs))[u.length + 1 + j]? = some sep := by
          rw [List.getElem?_append_right (by omega)]
          have hindex : u.length + 1 + j - u.length = j + 1 := by omega
          rw [hindex, List.getElem?_cons_succ]
          exact hsep
        rw [heq] at hpos
        rcases lt_trichotomy (u.length + 1 + j) v.length with hin | hat | hout
        · rw [List.getElem?_append_left hin] at hpos
          exact hv (List.mem_of_getElem? hpos)
        · rw [List.getElem?_append_right (by omega), hat] at hpos
          simp [hne] at hpos
        · rw [List.getElem?_append_right (by omega)] at hpos
          have hindex : u.length + 1 + j - v.length = (u.length + j - v.length) + 1 := by omega
          rw [hindex, List.getElem?_cons_succ] at hpos
          have hin : u.length + j - v.length < h.length := by omega
          rw [List.getElem?_append_left hin] at hpos
          refine ih (u.length + j - v.length) (by omega) (by omega) ?_
          rw [List.getElem?_append_left hin]
          exact hpos
  have hlength : xs.length = ys.length + (v.length - u.length) := by
    have hlen := congrArg List.length heq
    simp only [List.length_append, List.length_cons] at hlen
    omega
  rcases hxs with rfl | hhead
  · simp only [List.length_nil] at hlength
    omega
  · refine hnone h.length le_rfl ?_
    rw [List.getElem?_append_right le_rfl, Nat.sub_self]
    cases xs with
    | nil => cases hhead
    | cons x xs => simpa using hhead

/-- A front field without separators is determined. -/
theorem eq_of_marked {u v h xs ys : List α} (hne : mark ≠ sep) (hu : sep ∉ u) (hv : sep ∉ v)
    (hxs : xs = [] ∨ xs.head? = some sep) (hys : ys = [] ∨ ys.head? = some sep)
    (heq : u ++ mark :: (h ++ xs) = v ++ mark :: (h ++ ys)) : u = v ∧ xs = ys := by
  have hlength : u.length = v.length :=
    le_antisymm (length_le_of_marked hne hu hys heq.symm) (length_le_of_marked hne hv hxs heq)
  obtain ⟨rfl, hrest⟩ := List.append_inj heq hlength
  refine ⟨rfl, ?_⟩
  simpa using hrest

/-- So are items of known lengths. -/
theorem behind_inj_of_length {xs ys : List (List α)}
    (hlengths : xs.map List.length = ys.map List.length) (h : behind sep xs = behind sep ys) :
    xs = ys := by
  induction xs generalizing ys with
  | nil =>
      cases ys with
      | nil => rfl
      | cons y ys => simp at hlengths
  | cons x xs ih =>
      cases ys with
      | nil => simp at hlengths
      | cons y ys =>
          simp only [List.map_cons, List.cons.injEq] at hlengths
          simp only [behind, List.flatMap_cons, List.cons_append, List.cons.injEq, true_and] at h
          obtain ⟨rfl, hrest⟩ := List.append_inj h hlengths.1
          rw [ih hlengths.2 hrest]

/-- Items of known lengths are determined, even if they contain separators. -/
theorem append_behind_inj_of_length {xs ys : List (List α)} (hlength : a.length = b.length)
    (hlengths : xs.map List.length = ys.map List.length)
    (h : a ++ behind sep xs = b ++ behind sep ys) : a = b ∧ xs = ys := by
  obtain ⟨rfl, hrest⟩ := List.append_inj h hlength
  exact ⟨rfl, behind_inj_of_length hlengths hrest⟩

/-- A nonempty list starts with the separator. -/
theorem behind_head (items : List (List α)) :
    behind sep items = [] ∨ (behind sep items).head? = some sep := by
  cases items with
  | nil => exact Or.inl rfl
  | cons item items => exact Or.inr rfl

/-! ## Bytes of texts -/

/-- The bytes of a text are those of its characters. -/
theorem utf8_eq_flatMap (s : String) : utf8 s = s.toList.flatMap String.utf8EncodeChar := by
  unfold utf8
  rw [← String.utf8Encode_toList, List.utf8Encode]
  simp

/-- The bytes of a text. -/
theorem mem_utf8 {s : String} {byte : UInt8} :
    byte ∈ utf8 s ↔ ∃ c ∈ s.toList, byte ∈ String.utf8EncodeChar c := by
  rw [utf8_eq_flatMap, List.mem_flatMap]

/-- The bytes of a character stay below {lit}`0xf8`, and zero stands for itself. -/
theorem lt_of_mem_utf8EncodeChar {c : Char} {byte : UInt8} (h : byte ∈ String.utf8EncodeChar c) :
    byte.toNat < 0xf8 ∧ (byte.toNat = 0 → c.val.toNat = 0) := by
  have hbyte : ∀ n, byte = UInt8.ofNat n → n < 0xf8 → (n = 0 → c.val.toNat = 0) →
      byte.toNat < 0xf8 ∧ (byte.toNat = 0 → c.val.toNat = 0) := by
    rintro n rfl hlt hzero
    have hn : (UInt8.ofNat n).toNat = n := by
      rw [UInt8.toNat_ofNat']
      omega
    rw [hn]
    exact ⟨hlt, hzero⟩
  unfold String.utf8EncodeChar at h
  dsimp only at h
  split_ifs at h with h1 h2 h3
  · exact hbyte _ (List.mem_singleton.mp h) (by omega) (by omega)
  · simp only [List.mem_cons, List.not_mem_nil, or_false] at h
    rcases h with h | h <;> exact hbyte _ h (by omega) (by omega)
  · simp only [List.mem_cons, List.not_mem_nil, or_false] at h
    rcases h with h | h | h <;> exact hbyte _ h (by omega) (by omega)
  · simp only [List.mem_cons, List.not_mem_nil, or_false] at h
    rcases h with h | h | h | h <;> exact hbyte _ h (by omega) (by omega)

/-- UTF-8 has no {lit}`0xff`. -/
theorem ff_notMem_utf8 (s : String) : 0xff ∉ utf8 s := by
  rw [mem_utf8]
  rintro ⟨c, -, hc⟩
  exact absurd (lt_of_mem_utf8EncodeChar hc).1 (by decide)

/-- Only NUL has a zero byte. -/
theorem zero_notMem_utf8 {s : String} (h : Char.ofNat 0 ∉ s.toList) : 0 ∉ utf8 s := by
  rw [mem_utf8]
  rintro ⟨c, hc, hmem⟩
  have hval : c.val.toNat = 0 := (lt_of_mem_utf8EncodeChar hmem).2 rfl
  have hchar : c = Char.ofNat 0 := Char.ext (UInt32.toNat_inj.mp hval)
  exact h (hchar ▸ hc)

end Separated
