import OpenSsmAgent.Lib.Framing

/-!
# Host identities

The host identity of {lit}`osa-core/src/domain.rs`: a UUID, with its texts and
the parser that accepts every spelling of one: the plain and the hyphenated text,
the hyphenated text in braces and as a URN, with hexadecimal digits of either
case.

Main results:

- Theorems {lit}`Uuid.parse_hyphenated` and {lit}`Uuid.parse_simple`: both texts
  of an identity parse back to it.
-/

open Framing

namespace OpenSsmAgent
namespace Domain

/-! ## Hexadecimal digits -/

/-- The lower-case digit of a value. -/
def hexChar (n : Fin 16) : Char :=
  ['0', '1', '2', '3', '4', '5', '6', '7', '8', '9', 'a', 'b', 'c', 'd', 'e', 'f'].get n

instance neZeroSixteen : NeZero 16 := ⟨by decide⟩

/-- The value of a digit of either case. -/
def hexValue : Char → Option (Fin 16)
  | '0' => some 0
  | '1' => some 1
  | '2' => some 2
  | '3' => some 3
  | '4' => some 4
  | '5' => some 5
  | '6' => some 6
  | '7' => some 7
  | '8' => some 8
  | '9' => some 9
  | 'a' | 'A' => some 10
  | 'b' | 'B' => some 11
  | 'c' | 'C' => some 12
  | 'd' | 'D' => some 13
  | 'e' | 'E' => some 14
  | 'f' | 'F' => some 15
  | _ => none

@[simp] theorem hexValue_hexChar (n : Fin 16) : hexValue (hexChar n) = some n := by
  revert n
  decide

theorem hexChar_ne (n : Fin 16) {c : Char} (hc : hexValue c = none) : hexChar n ≠ c := by
  rintro rfl
  simp at hc

theorem mapM_hexValue_map_hexChar (ns : List (Fin 16)) :
    (ns.map hexChar).mapM hexValue = some ns := by
  induction ns with
  | nil => rfl
  | cons n ns ih => simp [List.mapM_cons, ih]

/-- {lit}`hex`: the lower-case hexadecimal text of a byte string. -/
def hexChars (bs : Bytes) : List Char :=
  bs.flatMap fun b => [hexChar (Fin.ofNat 16 (b.toNat / 16)), hexChar (Fin.ofNat 16 b.toNat)]

theorem length_hexChars (bs : Bytes) : (hexChars bs).length = 2 * bs.length := by
  simp [hexChars, List.length_flatMap, mul_comm]

theorem hexChar_injective : Function.Injective hexChar := by
  intro m n h
  have hvalue : hexValue (hexChar m) = hexValue (hexChar n) := by rw [h]
  simpa using hvalue

/-- A byte string is determined by its hexadecimal text. -/
theorem hexChars_injective : Function.Injective hexChars := by
  intro xs
  induction xs with
  | nil =>
      intro ys h
      cases ys with
      | nil => rfl
      | cons y ys => simp [hexChars] at h
  | cons x xs ih =>
      intro ys h
      cases ys with
      | nil => simp [hexChars] at h
      | cons y ys =>
          obtain ⟨hhigh, hlow, hrest⟩ : hexChar (Fin.ofNat 16 (x.toNat / 16)) =
              hexChar (Fin.ofNat 16 (y.toNat / 16)) ∧
              hexChar (Fin.ofNat 16 x.toNat) = hexChar (Fin.ofNat 16 y.toNat) ∧
              hexChars xs = hexChars ys := by
            simpa [hexChars] using h
          have hhigh := congrArg Fin.val (hexChar_injective hhigh)
          have hlow := congrArg Fin.val (hexChar_injective hlow)
          simp only [Fin.val_ofNat] at hhigh hlow
          have hx := x.toNat_lt
          have hy := y.toNat_lt
          have hxy : x = y := UInt8.toNat_inj.mp (by omega)
          rw [hxy, ih hrest]

/-! ## UUIDs -/

/-- A UUID as its thirty-two hexadecimal digits. -/
structure Uuid where
  digits : List (Fin 16)
  length_eq : digits.length = 32
deriving DecidableEq

namespace Uuid

/-- A literal UUID. -/
def lit (digits : List (Fin 16))
    (h : decide (digits.length = 32) = true := by exact Eq.refl true) : Uuid :=
  ⟨digits, of_decide_eq_true h⟩

/-- Read digits two by two as bytes. -/
def pairBytes : List (Fin 16) → Bytes
  | a :: b :: rest => UInt8.ofNat (16 * a + b) :: pairBytes rest
  | _ => []

/-- {lit}`Uuid::as_bytes`. -/
def asBytes (u : Uuid) : Bytes :=
  pairBytes u.digits

/-- The text without hyphens. -/
def simpleChars (u : Uuid) : List Char :=
  u.digits.map hexChar

/-- Write a text of thirty-two characters in groups of 8, 4, 4, 4 and 12. -/
def hyphenate (cs : List Char) : List Char :=
  cs.take 8 ++ '-' :: ((cs.drop 8).take 4 ++ '-' :: ((cs.drop 12).take 4 ++
    '-' :: ((cs.drop 16).take 4 ++ '-' :: cs.drop 20)))

/-- The hyphenated text. -/
def hyphenatedChars (u : Uuid) : List Char :=
  hyphenate u.simpleChars

/-- Read thirty-two digits. -/
def parseSimple (cs : List Char) : Option Uuid :=
  match cs.mapM hexValue with
  | none => none
  | some ns => if h : ns.length = 32 then some ⟨ns, h⟩ else none

/-- Read the hyphenated text: hyphens at 8, 13, 18 and 23, digits elsewhere. -/
def parseHyphenated (cs : List Char) : Option Uuid :=
  if cs.length = 36 ∧ cs[8]? = some '-' ∧ cs[13]? = some '-' ∧ cs[18]? = some '-' ∧
      cs[23]? = some '-' then
    parseSimple (cs.take 8 ++ ((cs.drop 9).take 4 ++ ((cs.drop 14).take 4 ++
      ((cs.drop 19).take 4 ++ cs.drop 24))))
  else none

/-- {lit}`Uuid::parse_str`. -/
def parseStr (text : String) : Option Uuid :=
  let cs := text.toList
  if cs.length = 32 then parseSimple cs
  else if cs.length = 36 then parseHyphenated cs
  else if cs.length = 38 ∧ cs.head? = some '{' ∧ cs.getLast? = some '}' then
    parseHyphenated (cs.drop 1).dropLast
  else if cs.length = 45 then (cs.dropPrefix? "urn:uuid:".toList).bind parseHyphenated
  else none

@[simp] theorem length_simpleChars (u : Uuid) : u.simpleChars.length = 32 := by
  simp [simpleChars, u.length_eq]

theorem length_hyphenate {cs : List Char} (h : cs.length = 32) :
    (hyphenate cs).length = 36 := by
  simp [hyphenate, h]

theorem parseSimple_simpleChars (u : Uuid) : parseSimple u.simpleChars = some u := by
  rw [parseSimple, simpleChars, mapM_hexValue_map_hexChar]
  exact dif_pos u.length_eq

/-- Removing the hyphens gives back the plain text. -/
theorem filter_hyphenate {cs : List Char} (h : ∀ c ∈ cs, c ≠ '-') :
    (hyphenate cs).filter (· ≠ '-') = cs := by
  have hkeep : ∀ ds : List Char, (∀ c ∈ ds, c ∈ cs) → ds.filter (· ≠ '-') = ds := by
    intro ds hds
    exact List.filter_eq_self.mpr (fun c hc => by simpa using h c (hds c hc))
  have htake : ∀ n m, ∀ c ∈ (cs.drop n).take m, c ∈ cs := fun n m c hc =>
    List.mem_of_mem_drop (List.mem_of_mem_take hc)
  have hsplit : cs.take 8 ++ ((cs.drop 8).take 4 ++ ((cs.drop 12).take 4 ++
      ((cs.drop 16).take 4 ++ cs.drop 20))) = cs := by
    have h1 : (cs.drop 16).take 4 ++ cs.drop 20 = cs.drop 16 := by
      simpa using List.take_append_drop 4 (cs.drop 16)
    have h2 : (cs.drop 12).take 4 ++ cs.drop 16 = cs.drop 12 := by
      simpa using List.take_append_drop 4 (cs.drop 12)
    have h3 : (cs.drop 8).take 4 ++ cs.drop 12 = cs.drop 8 := by
      simpa using List.take_append_drop 4 (cs.drop 8)
    rw [h1, h2, h3, List.take_append_drop]
  simp only [hyphenate, List.filter_append, List.filter_cons, ne_eq, not_true_eq_false,
    decide_false, Bool.false_eq_true, if_false]
  rw [hkeep _ (fun c hc => List.mem_of_mem_take hc), hkeep _ (htake 8 4), hkeep _ (htake 12 4),
    hkeep _ (htake 16 4), hkeep _ (fun c hc => List.mem_of_mem_drop hc), hsplit]

/-- Reading a hyphenated text reads the text without its hyphens. -/
theorem parseHyphenated_hyphenate {cs : List Char} (h : cs.length = 32) :
    parseHyphenated (hyphenate cs) = parseSimple cs := by
  obtain ⟨a, b, c, d, e, ha, hb, hc, hd, rfl⟩ : ∃ a b c d e : List Char, a.length = 8 ∧
      b.length = 4 ∧ c.length = 4 ∧ d.length = 4 ∧ cs = a ++ (b ++ (c ++ (d ++ e))) := by
    refine ⟨cs.take 8, (cs.drop 8).take 4, ((cs.drop 8).drop 4).take 4,
      (((cs.drop 8).drop 4).drop 4).take 4, (((cs.drop 8).drop 4).drop 4).drop 4, ?_⟩
    simp only [List.take_append_drop, List.length_take, List.length_drop, h]
    decide
  have hyph : hyphenate (a ++ (b ++ (c ++ (d ++ e)))) =
      a ++ '-' :: (b ++ '-' :: (c ++ '-' :: (d ++ '-' :: e))) := by
    simp (disch := omega) [hyphenate, List.drop_append, ha, hb, hc, List.drop_eq_nil_of_le]
  have hlen := length_hyphenate h
  rw [parseHyphenated, if_pos]
  · rw [hyph]
    simp (disch := omega) [List.drop_append, ha, hb, hc, hd, List.drop_eq_nil_of_le]
  · refine ⟨hlen, ?_⟩
    rw [hyph]
    simp [List.getElem?_append, ha, hb, hc, hd]

/-- The plain text of an identity parses back to it. -/
theorem parse_simple (u : Uuid) : parseStr (String.ofList u.simpleChars) = some u := by
  simp only [parseStr, String.toList_ofList, length_simpleChars, if_true]
  exact u.parseSimple_simpleChars

/-- The hyphenated text of an identity parses back to it. -/
theorem parse_hyphenated (u : Uuid) : parseStr (String.ofList u.hyphenatedChars) = some u := by
  have hlen : u.hyphenatedChars.length = 36 := length_hyphenate u.length_simpleChars
  simp only [parseStr, String.toList_ofList, hlen]
  simp only [Nat.reduceEqDiff, if_false, if_true]
  rw [hyphenatedChars, parseHyphenated_hyphenate u.length_simpleChars, parseSimple_simpleChars]

theorem simpleChars_ne (u : Uuid) {c : Char} (hc : hexValue c = none) :
    ∀ d ∈ u.simpleChars, d ≠ c := by
  intro d hd
  obtain ⟨n, -, rfl⟩ := List.mem_map.mp hd
  exact hexChar_ne n hc

end Uuid

/-! ## Hosts -/

/-- Coordinator-assigned host identity. -/
structure HostId where
  uuid : Uuid
deriving DecidableEq

/-- A text of few characters is a short string. -/
theorem utf8ByteSize_ofList_le (cs : List Char) :
    (String.ofList cs).utf8ByteSize ≤ 4 * cs.length := by
  induction cs with
  | nil => simp
  | cons c cs ih =>
      have hsplit : String.ofList (c :: cs) = String.singleton c ++ String.ofList cs := by
        rw [← String.toList_inj]
        simp
      rw [hsplit, String.utf8ByteSize_append, String.utf8ByteSize_singleton]
      have hsize := c.utf8Size_le_four
      simp only [List.length_cons]
      omega

/-- {lit}`host_id.0.to_string()`: the hyphenated text. -/
def HostId.toStr (h : HostId) : Str where
  text := String.ofList h.uuid.hyphenatedChars
  size_lt := by
    have hsize := utf8ByteSize_ofList_le h.uuid.hyphenatedChars
    have hlen : h.uuid.hyphenatedChars.length = 36 :=
      Uuid.length_hyphenate h.uuid.length_simpleChars
    omega

/-- Parse a text as a host identity. -/
def HostId.parse (text : String) : Option HostId :=
  (Uuid.parseStr text).map HostId.mk

@[simp] theorem HostId.parse_toStr (h : HostId) : HostId.parse h.toStr.text = some h := by
  simp [HostId.parse, HostId.toStr, Uuid.parse_hyphenated]

/-- A host for examples. -/
def sampleHost : HostId := ⟨.lit (List.replicate 32 7)⟩

example : HostId.parse "77777777-7777-7777-7777-777777777777" = some sampleHost := by
  decide +kernel

end Domain
end OpenSsmAgent
