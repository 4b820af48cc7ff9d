import Mathlib

/-!
# Texts of internet addresses

The reader of internet addresses of the Rust standard library: four decimal octets,
or groups of hexadecimal digits with at most one elision and an optional embedded
address of four octets at the end.  A reader takes characters from the front of a
text and leaves the rest.

Main results:

- Theorem {lit}`notMem_of_parse`: an address consists of digits, dots and colons.
-/

namespace IpText

/-- An address by its octets or its groups. -/
inductive IpAddr where
  | v4 (octets : List Nat)
  | v6 (groups : List Nat)
deriving DecidableEq

def IpAddr.isIpv4 : IpAddr → Bool
  | .v4 _ => true
  | .v6 _ => false

/-! ## The reader -/

/-- Reads something from the front of a text. -/
abbrev Reader (A : Type) := List Char → Option (A × List Char)

/-- {lit}`read_given_char`. -/
def readGivenChar (c : Char) : Reader Unit
  | d :: rest => if d = c then some ((), rest) else none
  | [] => none

/-- {lit}`char::to_digit`, for the bases ten and sixteen. -/
def toDigit (radix : Nat) (c : Char) : Option Nat :=
  let value :=
    if '0' ≤ c ∧ c ≤ '9' then some (c.toNat - '0'.toNat)
    else if 'a' ≤ c ∧ c ≤ 'f' then some (c.toNat - 'a'.toNat + 10)
    else if 'A' ≤ c ∧ c ≤ 'F' then some (c.toNat - 'A'.toNat + 10)
    else none
  value.filter (· < radix)

/-- {lit}`read_number`: all digits that follow, if they are neither too many nor none,
have no superfluous zero in front where that is not allowed, and stay below a bound. -/
def readNumber (radix maxDigits bound : Nat) (allowZeroFront : Bool) : Reader Nat := fun cs =>
  let digits := cs.takeWhile (fun c => (toDigit radix c).isSome)
  let value := digits.foldl (fun n c => n * radix + (toDigit radix c).getD 0) 0
  if maxDigits < digits.length ∨ digits = [] ∨
      (allowZeroFront = false ∧ digits.head? = some '0' ∧ 1 < digits.length) ∨ bound ≤ value then
    none
  else some (value, cs.dropWhile (fun c => (toDigit radix c).isSome))

/-- {lit}`read_separator`: the separator stands before every item but the first. -/
def readSeparator {A : Type} (sep : Char) (index : Nat) (inner : Reader A) : Reader A := fun cs =>
  if index = 0 then inner cs
  else (readGivenChar sep cs).bind (fun r => inner r.2)

/-- One octet. -/
def readOctet (index : Nat) : Reader Nat :=
  readSeparator '.' index (readNumber 10 3 256 false)

/-- {lit}`read_ipv4_addr`. -/
def readIpv4Addr : Reader (List Nat) := fun cs =>
  (readOctet 0 cs).bind fun a =>
    (readOctet 1 a.2).bind fun b =>
      (readOctet 2 b.2).bind fun c =>
        (readOctet 3 c.2).map fun d => ([a.1, b.1, c.1, d.1], d.2)

/-- The two groups of an embedded address. -/
def embeddedGroups : List Nat → List Nat
  | [a, b, c, d] => [a * 256 + b, c * 256 + d]
  | _ => []

/-- {lit}`read_groups` from a group on, with the number of groups left: the groups,
whether they end with an embedded address, and the rest. -/
def readGroups (index : Nat) : Nat → List Char → (List Nat × Bool) × List Char
  | 0, cs => (([], false), cs)
  | left + 1, cs =>
      match (if 0 < left then readSeparator ':' index readIpv4Addr cs else none) with
      | some (octets, rest) => ((embeddedGroups octets, true), rest)
      | none =>
          match readSeparator ':' index (readNumber 16 4 65536 true) cs with
          | some (group, rest) =>
              let more := readGroups (index + 1) left rest
              ((group :: more.1.1, more.1.2), more.2)
          | none => (([], false), cs)

/-- {lit}`read_ipv6_addr`. -/
def readIpv6Addr : Reader (List Nat) := fun cs =>
  let head := readGroups 0 8 cs
  if head.1.1.length = 8 then some (head.1.1, head.2)
  else if head.1.2 then none
  else
    (readGivenChar ':' head.2).bind fun r =>
      (readGivenChar ':' r.2).map fun r =>
        let tail := readGroups 0 (8 - (head.1.1.length + 1)) r.2
        (head.1.1 ++ List.replicate (8 - (head.1.1.length + tail.1.1.length)) 0 ++ tail.1.1, tail.2)

/-- {lit}`read_ip_addr`. -/
def readIpAddr : Reader IpAddr := fun cs =>
  match readIpv4Addr cs with
  | some (octets, rest) => some (.v4 octets, rest)
  | none => (readIpv6Addr cs).map fun r => (.v6 r.1, r.2)

/-- {lit}`str::parse::<IpAddr>`: the whole text is an address. -/
def parse (text : String) : Option IpAddr :=
  match readIpAddr text.toList with
  | some (addr, []) => some addr
  | _ => none

example : parse "192.0.2.5" = some (.v4 [192, 0, 2, 5]) := by
  decide +kernel

example : parse "fe80::1" = some (.v6 [0xfe80, 0, 0, 0, 0, 0, 0, 1]) := by
  decide +kernel

example : parse "::ffff:192.0.2.5" = some (.v6 [0, 0, 0, 0, 0, 0xffff, 0xc000, 0x0205]) := by
  decide +kernel

example :
    (["", "1.2.3", "1.2.3.256", "01.2.3.4", "1.2.3.4.5", "1::2::3", "fe80::1%eth0"].map parse) =
    List.replicate 7 none := by
  decide +kernel

/-! ## The characters of an address -/

/-- Digits of either base, dots and colons. -/
def IsAddressChar (c : Char) : Prop :=
  (toDigit 16 c).isSome = true ∨ c = '.' ∨ c = ':'

instance : DecidablePred IsAddressChar := fun c =>
  inferInstanceAs (Decidable ((toDigit 16 c).isSome = true ∨ c = '.' ∨ c = ':'))

/-- A rest of a text was reached by taking address characters off its front. -/
def Took (cs rest : List Char) : Prop :=
  ∃ front, cs = front ++ rest ∧ ∀ c ∈ front, IsAddressChar c

theorem Took.refl (cs : List Char) : Took cs cs :=
  ⟨[], rfl, by simp⟩

theorem Took.trans {cs ds es : List Char} (h : Took cs ds) (h' : Took ds es) : Took cs es := by
  obtain ⟨front, rfl, hfront⟩ := h
  obtain ⟨back, rfl, hback⟩ := h'
  refine ⟨front ++ back, by simp, ?_⟩
  intro c hc
  rcases List.mem_append.mp hc with hc | hc
  · exact hfront c hc
  · exact hback c hc

/-- A reader takes address characters only. -/
def Takes {A : Type} (r : Reader A) : Prop :=
  ∀ cs a rest, r cs = some (a, rest) → Took cs rest

theorem takes_readGivenChar {c : Char} (hc : c = '.' ∨ c = ':') : Takes (readGivenChar c) := by
  intro cs a rest h
  cases cs with
  | nil => cases h
  | cons d cs =>
      simp only [readGivenChar] at h
      split at h
      · rename_i hd
        cases h
        exact ⟨[d], rfl, by simpa [hd, IsAddressChar] using Or.inr hc⟩
      · cases h

theorem isAddressChar_of_toDigit {radix : Nat} {c : Char} (hradix : radix ≤ 16)
    (h : (toDigit radix c).isSome = true) : IsAddressChar c := by
  left
  obtain ⟨v, hv⟩ := Option.isSome_iff_exists.mp h
  obtain ⟨hvalue, hlt⟩ := Option.filter_eq_some_iff.mp hv
  refine Option.isSome_iff_exists.mpr ⟨v, Option.filter_eq_some_iff.mpr ⟨hvalue, ?_⟩⟩
  simp only [decide_eq_true_eq] at hlt ⊢
  omega

theorem takes_readNumber {radix maxDigits bound : Nat} {allow : Bool} (hradix : radix ≤ 16) :
    Takes (readNumber radix maxDigits bound allow) := by
  intro cs a rest h
  simp only [readNumber] at h
  split at h
  · cases h
  · cases h
    refine ⟨_, (List.takeWhile_append_dropWhile).symm, ?_⟩
    intro c hc
    have hdigit := List.mem_takeWhile_imp (p := fun c => (toDigit radix c).isSome) hc
    exact isAddressChar_of_toDigit hradix hdigit

theorem takes_readSeparator {A : Type} {sep : Char} {index : Nat} {inner : Reader A}
    (hsep : sep = '.' ∨ sep = ':') (hinner : Takes inner) :
    Takes (readSeparator sep index inner) := by
  intro cs a rest h
  simp only [readSeparator] at h
  split at h
  · exact hinner cs a rest h
  · obtain ⟨r, hr, hrest⟩ := Option.bind_eq_some_iff.mp h
    exact (takes_readGivenChar hsep cs r.1 r.2 hr).trans (hinner r.2 a rest hrest)

theorem takes_readOctet (index : Nat) : Takes (readOctet index) :=
  takes_readSeparator (Or.inl rfl) (takes_readNumber (by decide))

theorem takes_readIpv4Addr : Takes readIpv4Addr := by
  intro cs octets rest h
  obtain ⟨a, ha, h⟩ := Option.bind_eq_some_iff.mp h
  obtain ⟨b, hb, h⟩ := Option.bind_eq_some_iff.mp h
  obtain ⟨c, hc, h⟩ := Option.bind_eq_some_iff.mp h
  obtain ⟨d, hd, h⟩ := Option.map_eq_some_iff.mp h
  cases h
  exact ((takes_readOctet 0 _ _ _ ha).trans (takes_readOctet 1 _ _ _ hb)).trans
    ((takes_readOctet 2 _ _ _ hc).trans (takes_readOctet 3 _ _ _ hd))

theorem took_readGroups (index left : Nat) (cs : List Char) :
    Took cs (readGroups index left cs).2 := by
  induction left generalizing index cs with
  | zero => exact Took.refl cs
  | succ left ih =>
      unfold readGroups
      split
      · rename_i octets rest hread
        split_ifs at hread
        exact takes_readSeparator (Or.inr rfl) takes_readIpv4Addr _ _ _ hread
      · split
        · rename_i group rest hread
          have hgroup := takes_readSeparator (Or.inr rfl) (takes_readNumber (by decide)) _ _ _ hread
          exact hgroup.trans (ih (index + 1) rest)
        · exact Took.refl cs

theorem takes_readIpv6Addr : Takes readIpv6Addr := by
  intro cs groups rest h
  have hhead := took_readGroups 0 8 cs
  simp only [readIpv6Addr] at h
  split_ifs at h
  · cases h
    exact hhead
  · obtain ⟨r, hr, h⟩ := Option.bind_eq_some_iff.mp h
    obtain ⟨r', hr', h⟩ := Option.map_eq_some_iff.mp h
    cases h
    have hcolons := (takes_readGivenChar (Or.inr rfl) _ _ _ hr).trans
      (takes_readGivenChar (Or.inr rfl) _ _ _ hr')
    exact hhead.trans (hcolons.trans (took_readGroups 0 _ r'.2))

/-- An address consists of digits, dots and colons. -/
theorem notMem_of_parse {text : String} {addr : IpAddr} (h : parse text = some addr) {c : Char}
    (hc : ¬ IsAddressChar c) : c ∉ text.toList := by
  have htook : Took text.toList [] := by
    unfold parse at h
    split at h
    · rename_i addr' hread
      unfold readIpAddr at hread
      split at hread
      · rename_i hv4
        cases hread
        exact takes_readIpv4Addr _ _ _ hv4
      · obtain ⟨⟨groups, rest⟩, hv6, hr⟩ := Option.map_eq_some_iff.mp hread
        cases hr
        exact takes_readIpv6Addr _ _ _ hv6
    · cases h
  obtain ⟨front, hfront, hall⟩ := htook
  rw [List.append_nil] at hfront
  intro hmem
  exact hc (hall c (hfront ▸ hmem))

end IpText
