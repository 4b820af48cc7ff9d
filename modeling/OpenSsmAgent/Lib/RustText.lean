import Mathlib

/-!
# Texts by bytes

What the string type of Rust does with a text whose characters are encoded in UTF-8:
its length and its slices count bytes, and a slice that would cut a character is no
slice at all.

Main results:

- Theorem {lit}`splitAtByte_eq_some_iff`: where a text can be cut.
- Theorem {lit}`slice_of_split`: a slice is read from the text behind its start.
-/

namespace RustText

/-- {lit}`len`: the length in bytes. -/
def byteLen (cs : List Char) : Nat :=
  (cs.map Char.utf8Size).sum

@[simp] theorem byteLen_nil : byteLen [] = 0 := rfl

@[simp] theorem byteLen_cons (c : Char) (cs : List Char) :
    byteLen (c :: cs) = c.utf8Size + byteLen cs := by
  simp [byteLen]

/-- Lengths add up. -/
@[simp] theorem byteLen_append (cs ds : List Char) :
    byteLen (cs ++ ds) = byteLen cs + byteLen ds := by
  simp [byteLen]

/-- Cut a text after a number of bytes, unless that is inside a character or beyond the
end. -/
def splitAtByte : Nat → List Char → Option (List Char × List Char)
  | 0, cs => some ([], cs)
  | _ + 1, [] => none
  | n + 1, c :: cs =>
      if c.utf8Size ≤ n + 1 then
        (splitAtByte (n + 1 - c.utf8Size) cs).map fun parts => (c :: parts.1, parts.2)
      else none

/-- {lit}`&s[start..end]`; there is none where Rust panics. -/
def slice (cs : List Char) (start stop : Nat) : Option (List Char) :=
  (splitAtByte start cs).bind fun parts => (splitAtByte (stop - start) parts.2).map Prod.fst

/-- A text is split behind its front. -/
theorem splitAtByte_append (front rest : List Char) :
    splitAtByte (byteLen front) (front ++ rest) = some (front, rest) := by
  induction front with
  | nil => simp [splitAtByte]
  | cons c front ih =>
      obtain ⟨n, hn⟩ : ∃ n, byteLen (c :: front) = n + 1 := by
        have hpos := c.utf8Size_pos
        exact ⟨byteLen (c :: front) - 1, by simp only [byteLen_cons]; omega⟩
      have hrest : n + 1 - c.utf8Size = byteLen front := by
        rw [← hn, byteLen_cons]
        omega
      have hfits : c.utf8Size ≤ n + 1 := by
        rw [← hn, byteLen_cons]
        omega
      rw [hn, List.cons_append, splitAtByte, if_pos hfits, hrest, ih]
      rfl

/-- A text can be cut exactly between two of its characters. -/
theorem splitAtByte_eq_some_iff {n : Nat} {cs front rest : List Char} :
    splitAtByte n cs = some (front, rest) ↔ cs = front ++ rest ∧ byteLen front = n := by
  constructor
  · intro h
    induction cs generalizing n front with
    | nil =>
        cases n with
        | zero =>
            cases h
            exact ⟨rfl, rfl⟩
        | succ n => cases h
    | cons c cs ih =>
        cases n with
        | zero =>
            cases h
            exact ⟨rfl, rfl⟩
        | succ n =>
            rw [splitAtByte] at h
            split_ifs at h with hfits
            obtain ⟨⟨front', rest'⟩, hcut, heq⟩ := Option.map_eq_some_iff.mp h
            cases heq
            obtain ⟨rfl, hlen⟩ := ih hcut
            refine ⟨rfl, ?_⟩
            rw [byteLen_cons, hlen]
            omega
  · rintro ⟨rfl, rfl⟩
    exact splitAtByte_append front rest

/-- A slice is read from the text behind its start. -/
theorem slice_of_split {front rest : List Char} (n : Nat) :
    slice (front ++ rest) (byteLen front) (byteLen front + n) =
      (splitAtByte n rest).map Prod.fst := by
  rw [slice, splitAtByte_append, Option.bind_some, Nat.add_sub_cancel_left]

end RustText
