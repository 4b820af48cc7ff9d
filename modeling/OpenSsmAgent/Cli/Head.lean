import OpenSsmAgent.Coordinator.Service
import OpenSsmAgent.Lib.RustText

/-!
# The anchored chain head

The command line's reader of an anchored audit head, {lit}`parse_head` of
{lit}`osa-cli/src/main.rs`: sixty-four bytes of trimmed text, taken two by two, each pair
read as a number in base sixteen.

The length is checked in bytes and the pairs are slices at byte offsets, so a character
of several bytes can lie across the end of a pair; and the number reader of the standard
library takes a plus sign.

Main results:

- Theorem {lit}`parseHead_of_digits`: a text of digits is read as the bytes it spells.
- Theorem {lit}`reads_hex_iff_not_misread`: exactly the texts of sixty-four bytes with such
  a character or sign are misread.
-/

open Framing

namespace OpenSsmAgent
namespace Cli

open Audit Domain RustText
open Coordinator (isWhitespace trim)

variable {n : Nat} {x y : Fin 16} {c : Char} {cs rest : List Char} {s : String}

/-! ## The reader -/

/-- How {lit}`parse_head` ends without a head. -/
inductive HeadFailure where
  | panic
  | error (text : String)
deriving DecidableEq

/-- The digits of a number in base sixteen, below 256. -/
def u8Digits (cs : List Char) : Option Nat :=
  cs.foldlM (fun n c =>
    (hexValue c).bind fun d => if n * 16 + d < 256 then some (n * 16 + d) else none) 0

/-- {lit}`u8::from_str_radix(_, 16)`: a plus sign may stand in front. -/
def u8FromStrRadix16 (cs : List Char) : Option UInt8 :=
  match cs with
  | [] => none
  | ['+'] => none
  | '+' :: digits => (u8Digits digits).map UInt8.ofNat
  | digits => (u8Digits digits).map UInt8.ofNat

/-- One round of the loop: the byte at an index. -/
def parseByte (t : List Char) (i : Nat) : Except HeadFailure UInt8 :=
  match slice t (2 * i) (2 * i + 2) with
  | none => .error .panic
  | some pair =>
      match u8FromStrRadix16 pair with
      | none => .error (.error "--expect-head is not valid hex")
      | some byte => .ok byte

/-- The loop, from an index on. -/
def parseBytes (t : List Char) : (n i : Nat) → Except HeadFailure (Fixed n)
  | 0, _ => .ok ⟨[], rfl⟩
  | n + 1, i =>
      match parseByte t i with
      | .error e => .error e
      | .ok byte =>
          match parseBytes t n (i + 1) with
          | .error e => .error e
          | .ok rest => .ok ⟨byte :: rest.bytes, by simp [rest.length_eq]⟩

/-- {lit}`parse_head`. -/
def parseHead (s : String) : Except HeadFailure Hash :=
  let t := trim s.toList
  if byteLen t = 64 then parseBytes t 32 0
  else .error (.error "--expect-head must be 64 hex chars (32 bytes)")

/-- {lit}`to_hex`. -/
def toHex (bytes : Bytes) : String :=
  String.ofList (hexChars bytes)

/-! ## One pair -/

/-- A digit is one byte. -/
theorem utf8Size_of_hexValue {d : Fin 16} (h : hexValue c = some d) :
    c.utf8Size = 1 := by
  unfold hexValue at h
  split at h <;> first | rfl | cases h

/-- A digit is no blank. -/
theorem isWhitespace_of_hexValue {d : Fin 16} (h : hexValue c = some d) :
    isWhitespace c = false := by
  unfold hexValue at h
  split at h <;> first | decide | cases h

/-- A digit is written in lower case. -/
theorem hexChar_of_hexValue {d : Fin 16} (h : hexValue c = some d) :
    hexChar d = c.toLower := by
  unfold hexValue at h
  split at h <;> first | (cases h; decide) | cases h

/-- What may stand first in a pair: a digit, or the sign, which adds nothing. -/
def leadValue (c : Char) : Option (Fin 16) :=
  if c = '+' then some 0 else hexValue c

/-- One digit. -/
theorem u8Digits_one (d : Char) : u8Digits [d] = (hexValue d).map Fin.val := by
  cases hd : hexValue d with
  | none => simp [u8Digits, hd]
  | some y =>
      have hlt : y.val < 256 := by omega
      simp [u8Digits, hd, hlt]

/-- Two digits. -/
theorem u8Digits_two (c d : Char) :
    u8Digits [c, d] = (hexValue c).bind fun x => (hexValue d).map fun y => 16 * x.val + y.val := by
  cases hc : hexValue c with
  | none => simp [u8Digits, hc]
  | some x =>
      have hx : x.val < 256 := by omega
      cases hd : hexValue d with
      | none => simp [u8Digits, hc, hd, hx]
      | some y =>
          have hlt : x.val * 16 + y.val < 256 := by omega
          simp [u8Digits, hc, hd, hx, hlt, mul_comm]

/-- A pair is read as two digits, or as one behind the sign. -/
theorem u8FromStrRadix16_pair (c d : Char) :
    u8FromStrRadix16 [c, d] =
      (leadValue c).bind fun x => (hexValue d).map fun y => UInt8.ofNat (16 * x.val + y.val) := by
  by_cases hplus : c = '+'
  · subst hplus
    cases hd : hexValue d <;> simp [u8FromStrRadix16, u8Digits_one, leadValue, hd]
  · have hread : u8FromStrRadix16 [c, d] = (u8Digits [c, d]).map UInt8.ofNat := by
      simp [u8FromStrRadix16, hplus]
    rw [hread, u8Digits_two, leadValue, if_neg hplus]
    cases hexValue c <;> cases hexValue d <;> rfl

/-- One character that fills a pair by itself is no number. -/
theorem u8FromStrRadix16_wide (h : c.utf8Size = 2) : u8FromStrRadix16 [c] = none := by
  have hplus : c ≠ '+' := by
    rintro rfl
    cases h
  have hvalue : hexValue c = none := by
    refine Option.eq_none_iff_forall_ne_some.mpr ?_
    intro d hd
    rw [utf8Size_of_hexValue hd] at h
    cases h
  have hread : u8FromStrRadix16 [c] = (u8Digits [c]).map UInt8.ofNat := by
    simp [u8FromStrRadix16, hplus]
  rw [hread, u8Digits_one, hvalue]
  rfl

/-- Two bytes of text are two narrow characters or a wide one. -/
theorem pair_cases {pair : List Char} (h : byteLen pair = 2) :
    (∃ c d, pair = [c, d]) ∨ ∃ c, pair = [c] ∧ c.utf8Size = 2 := by
  match pair, h with
  | [], h => cases h
  | [c], h => exact .inr ⟨c, rfl, by simpa using h⟩
  | [c, d], _ => exact .inl ⟨c, d, rfl⟩
  | c :: d :: e :: rest, h =>
      have hc := c.utf8Size_pos
      have hd := d.utf8Size_pos
      have he := e.utf8Size_pos
      simp only [byteLen_cons] at h
      omega

/-! ## The loop -/

/-- The loop over the text that is still unread. -/
def readRest : (n : Nat) → List Char → Except HeadFailure (Fixed n)
  | 0, _ => .ok ⟨[], rfl⟩
  | n + 1, cs =>
      match splitAtByte 2 cs with
      | none => .error .panic
      | some (pair, rest) =>
          match u8FromStrRadix16 pair with
          | none => .error (.error "--expect-head is not valid hex")
          | some byte =>
              match readRest n rest with
              | .error e => .error e
              | .ok bytes => .ok ⟨byte :: bytes.bytes, by simp [bytes.length_eq]⟩

/-- The slices of the loop are taken from the front of what is unread. -/
theorem parseBytes_eq_readRest {i : Nat} {front : List Char} (h : byteLen front = 2 * i) :
    parseBytes (front ++ rest) n i = readRest n rest := by
  induction n generalizing i front rest with
  | zero => rfl
  | succ n ih =>
      have hslice : slice (front ++ rest) (2 * i) (2 * i + 2) =
          (splitAtByte 2 rest).map Prod.fst := by
        rw [← h]
        exact slice_of_split 2
      simp only [parseBytes, parseByte, readRest, hslice]
      cases hsplit : splitAtByte 2 rest with
      | none => rfl
      | some parts =>
          obtain ⟨pair, rest'⟩ := parts
          obtain ⟨rfl, hpair⟩ := splitAtByte_eq_some_iff.mp hsplit
          simp only [Option.map_some]
          cases u8FromStrRadix16 pair with
          | none => rfl
          | some byte =>
              have hnext : byteLen (front ++ pair) = 2 * (i + 1) := by
                rw [byteLen_append, h, hpair]
                omega
              rw [← ih hnext, List.append_assoc]

/-- Pairs of a digit, or the sign, and a digit. -/
def digitPairs : List Char → Bool
  | [] => true
  | [_] => false
  | c :: d :: rest => (leadValue c).isSome && (hexValue d).isSome && digitPairs rest

/-- A sign or digit is one byte. -/
theorem utf8Size_of_leadValue (h : leadValue c = some x) :
    c.utf8Size = 1 := by
  unfold leadValue at h
  split_ifs at h with hplus
  · rw [hplus]
    rfl
  · exact utf8Size_of_hexValue h

/-- A number is read from two characters: a digit or the sign, and a digit. -/
theorem pair_of_eq_some {pair : List Char} {byte : UInt8} (hlen : byteLen pair = 2)
    (h : u8FromStrRadix16 pair = some byte) :
    ∃ c d x y, pair = [c, d] ∧ leadValue c = some x ∧ hexValue d = some y ∧
      byte = UInt8.ofNat (16 * x.val + y.val) := by
  rcases pair_cases hlen with ⟨c, d, rfl⟩ | ⟨c, rfl, hwide⟩
  · rw [u8FromStrRadix16_pair] at h
    obtain ⟨x, hx, h⟩ := Option.bind_eq_some_iff.mp h
    obtain ⟨y, hy, rfl⟩ := Option.map_eq_some_iff.mp h
    exact ⟨c, d, x, y, rfl, hx, hy, rfl⟩
  · rw [u8FromStrRadix16_wide hwide] at h
    cases h

/-- A pair is two bytes. -/
theorem splitAtByte_pair {d : Char} (rest : List Char) (hc : leadValue c = some x)
    (hd : hexValue d = some y) :
    splitAtByte 2 (c :: d :: rest) = some ([c, d], rest) := by
  refine splitAtByte_eq_some_iff.mpr ⟨rfl, ?_⟩
  simp [utf8Size_of_leadValue hc, utf8Size_of_hexValue hd]

/-- A pair that can be read is read, and the loop goes on behind it. -/
theorem readRest_pair {d : Char} (rest : List Char) (hc : leadValue c = some x)
    (hd : hexValue d = some y) :
    readRest (n + 1) (c :: d :: rest) =
      match readRest n rest with
      | .error e => .error e
      | .ok bytes =>
          .ok ⟨UInt8.ofNat (16 * x.val + y.val) :: bytes.bytes, by simp [bytes.length_eq]⟩ := by
  simp only [readRest, splitAtByte_pair rest hc hd, u8FromStrRadix16_pair, hc, hd,
    Option.bind_some, Option.map_some]

theorem ne_nil_of_byteLen (h : byteLen cs = 2 * (n + 1)) : cs ≠ [] := by
  rintro rfl
  simp only [byteLen_nil] at h
  omega

theorem eq_nil_of_byteLen (h : byteLen cs = 2 * 0) : cs = [] := by
  cases cs with
  | nil => rfl
  | cons c cs =>
      have := c.utf8Size_pos
      simp only [byteLen_cons] at h
      omega

/-- The first pair. -/
theorem digitPairs_cons {d : Char} (h : digitPairs (c :: d :: rest) = true) :
    ∃ x y, leadValue c = some x ∧ hexValue d = some y ∧ digitPairs rest = true := by
  simp only [digitPairs, Bool.and_eq_true, Option.isSome_iff_exists] at h
  obtain ⟨⟨⟨x, hx⟩, y, hy⟩, hrest⟩ := h
  exact ⟨x, y, hx, hy, hrest⟩

/-- A pair that can be read stands at the front. -/
def StartsWithPair (cs : List Char) : Prop :=
  ∃ c d x y rest, cs = c :: d :: rest ∧ leadValue c = some x ∧ hexValue d = some y

theorem startsWithPair_of_digitPairs {front : List Char} (rest : List Char) (hne : front ≠ [])
    (h : digitPairs front = true) : StartsWithPair (front ++ rest) := by
  match front, hne, h with
  | c :: d :: front, _, h =>
      obtain ⟨x, y, hx, hy, -⟩ := digitPairs_cons h
      exact ⟨c, d, x, y, front ++ rest, rfl, hx, hy⟩

/-- What the loop finds at the front of the unread text: a pair that can be read, no
character boundary, or something that is no number. -/
theorem readRest_cases (n : Nat) (cs : List Char) :
    StartsWithPair cs ∨
    (¬ StartsWithPair cs ∧ splitAtByte 2 cs = none ∧ readRest (n + 1) cs = .error .panic) ∨
    (¬ StartsWithPair cs ∧ (∃ parts, splitAtByte 2 cs = some parts) ∧
      readRest (n + 1) cs = .error (.error "--expect-head is not valid hex")) := by
  by_cases hpair : StartsWithPair cs
  · exact .inl hpair
  · right
    cases hsplit : splitAtByte 2 cs with
    | none => exact .inl ⟨hpair, rfl, by simp only [readRest, hsplit]⟩
    | some parts =>
        obtain ⟨pair, rest⟩ := parts
        refine .inr ⟨hpair, ⟨_, rfl⟩, ?_⟩
        have hread : u8FromStrRadix16 pair = none := by
          refine Option.eq_none_iff_forall_ne_some.mpr ?_
          intro byte hbyte
          obtain ⟨hcs, hlen⟩ := splitAtByte_eq_some_iff.mp hsplit
          obtain ⟨c, d, x, y, rfl, hx, hy, -⟩ := pair_of_eq_some hlen hbyte
          exact hpair ⟨c, d, x, y, rest, hcs, hx, hy⟩
        simp only [readRest, hsplit, hread]

theorem byteLen_pair {d : Char} (hc : leadValue c = some x) (hd : hexValue d = some y)
    (h : byteLen (c :: d :: rest) = 2 * (n + 1)) : byteLen rest = 2 * n := by
  simp only [byteLen_cons, utf8Size_of_leadValue hc, utf8Size_of_hexValue hd] at h
  omega

/-- The loop ends with a head exactly for pairs that can be read. -/
theorem readRest_ok_iff (hlen : byteLen cs = 2 * n) :
    (∃ bytes, readRest n cs = .ok bytes) ↔ digitPairs cs = true := by
  induction n generalizing cs with
  | zero =>
      obtain rfl := eq_nil_of_byteLen hlen
      exact ⟨fun _ => rfl, fun _ => ⟨_, rfl⟩⟩
  | succ n ih =>
      have hne := ne_nil_of_byteLen hlen
      have hfalse : ¬ StartsWithPair cs → digitPairs cs = false := by
        intro hpair
        rw [← Bool.not_eq_true]
        intro htrue
        exact hpair (by simpa using startsWithPair_of_digitPairs [] hne htrue)
      rcases readRest_cases n cs with
        ⟨c, d, x, y, rest, rfl, hc, hd⟩ | ⟨hpair, -, hread⟩ | ⟨hpair, -, hread⟩
      · have hrest := ih (byteLen_pair hc hd hlen)
        rw [readRest_pair rest hc hd, digitPairs, hc, hd]
        simp only [Option.isSome_some, Bool.true_and, ← hrest]
        cases readRest n rest with
        | error e => simp
        | ok bytes => simp
      · simp [hread, hfalse hpair]
      · simp [hread, hfalse hpair]

/-- The loop panics where the text behind some pairs that can be read has no character
boundary after two bytes. -/
def Straddles (cs : List Char) : Prop :=
  ∃ front rest, cs = front ++ rest ∧ digitPairs front = true ∧ rest ≠ [] ∧
    splitAtByte 2 rest = none

/-- A pair does not straddle. -/
theorem straddles_pair {d : Char} (hc : leadValue c = some x) (hd : hexValue d = some y) :
    Straddles (c :: d :: rest) ↔ Straddles rest := by
  constructor
  · rintro ⟨front, rest', hcs, hpairs, hne, hsplit⟩
    match front, hcs, hpairs with
    | [], hcs, _ =>
        rw [List.nil_append] at hcs
        rw [← hcs, splitAtByte_pair rest hc hd] at hsplit
        cases hsplit
    | c' :: d' :: front, hcs, hpairs =>
        simp only [List.cons_append, List.cons.injEq] at hcs
        obtain ⟨x', y', -, -, hpairs⟩ := digitPairs_cons hpairs
        exact ⟨front, rest', hcs.2.2, hpairs, hne, hsplit⟩
  · rintro ⟨front, rest', rfl, hpairs, hne, hsplit⟩
    refine ⟨c :: d :: front, rest', rfl, ?_, hne, hsplit⟩
    simp [digitPairs, hc, hd, hpairs]

/-- The slice panics inside a character. -/
theorem readRest_panic_iff (hlen : byteLen cs = 2 * n) :
    readRest n cs = .error .panic ↔ Straddles cs := by
  induction n generalizing cs with
  | zero =>
      obtain rfl := eq_nil_of_byteLen hlen
      constructor
      · intro h
        simp [readRest] at h
      · rintro ⟨front, rest, hcs, -, hne, -⟩
        exact absurd (List.append_eq_nil_iff.mp hcs.symm).2 hne
  | succ n ih =>
      have hne := ne_nil_of_byteLen hlen
      rcases readRest_cases n cs with
        ⟨c, d, x, y, rest, rfl, hc, hd⟩ | ⟨-, hsplit, hread⟩ | ⟨hpair, ⟨parts, hsplit⟩, hread⟩
      · rw [readRest_pair rest hc hd, straddles_pair hc hd, ← ih (byteLen_pair hc hd hlen)]
        cases readRest n rest with
        | error e => simp
        | ok bytes => simp
      · rw [hread]
        exact ⟨fun _ => ⟨[], cs, rfl, rfl, hne, hsplit⟩, fun _ => rfl⟩
      · rw [hread]
        constructor
        · intro h
          simp at h
        · rintro ⟨front, rest, rfl, hpairs, -, hnone⟩
          by_cases hfront : front = []
          · rw [hfront, List.nil_append, hnone] at hsplit
            cases hsplit
          · exact absurd (startsWithPair_of_digitPairs rest hfront hpairs) hpair

/-! ## Whole texts -/

/-- Sixty-four hexadecimal digits. -/
def HexHead (t : List Char) : Prop :=
  t.length = 64 ∧ ∀ c ∈ t, (hexValue c).isSome

/-- A byte is written as a pair. -/
theorem hexChars_pair (x y : Fin 16) (bytes : Bytes) :
    hexChars (UInt8.ofNat (16 * x.val + y.val) :: bytes) =
      hexChar x :: hexChar y :: hexChars bytes := by
  have hval : (UInt8.ofNat (16 * x.val + y.val)).toNat = 16 * x.val + y.val := by
    rw [UInt8.toNat_ofNat']
    omega
  have hhigh : Fin.ofNat 16 ((16 * x.val + y.val) / 16) = x := by
    apply Fin.ext
    rw [Fin.val_ofNat]
    omega
  have hlow : Fin.ofNat 16 (16 * x.val + y.val) = y := by
    apply Fin.ext
    rw [Fin.val_ofNat]
    omega
  rw [hexChars, List.flatMap_cons, hval, hhigh, hlow]
  rfl

theorem leadValue_of_isSome (h : (hexValue c).isSome) : leadValue c = hexValue c := by
  rw [leadValue, if_neg]
  rintro rfl
  cases h

/-- A text of digits is read as the bytes that it spells. -/
theorem readRest_of_digits (hlen : cs.length = 2 * n) (hdigits : ∀ c ∈ cs, (hexValue c).isSome) :
    ∃ bytes, readRest n cs = .ok bytes ∧ hexChars bytes.bytes = cs.map Char.toLower := by
  induction n generalizing cs with
  | zero =>
      obtain rfl := List.length_eq_zero_iff.mp hlen
      exact ⟨⟨[], rfl⟩, rfl, rfl⟩
  | succ n ih =>
      match cs, hlen, hdigits with
      | c :: d :: rest, hlen, hdigits =>
          have hrest : rest.length = 2 * n := by
            simp only [List.length_cons] at hlen
            omega
          obtain ⟨bytes, hread, hspell⟩ := ih hrest fun e he =>
            hdigits e (List.mem_cons_of_mem _ (List.mem_cons_of_mem _ he))
          have hsome := hdigits c List.mem_cons_self
          obtain ⟨x, hx⟩ := Option.isSome_iff_exists.mp hsome
          obtain ⟨y, hy⟩ := Option.isSome_iff_exists.mp (hdigits d (by simp))
          have hlead : leadValue c = some x := (leadValue_of_isSome hsome).trans hx
          refine ⟨_, by rw [readRest_pair rest hlead hy, hread], ?_⟩
          rw [hexChars_pair, hspell, hexChar_of_hexValue hx, hexChar_of_hexValue hy]
          rfl

/-- Digits are one byte each. -/
theorem byteLen_of_digits (h : ∀ c ∈ cs, (hexValue c).isSome) :
    byteLen cs = cs.length := by
  induction cs with
  | nil => rfl
  | cons c cs ih =>
      obtain ⟨x, hx⟩ := Option.isSome_iff_exists.mp (h c List.mem_cons_self)
      rw [byteLen_cons, utf8Size_of_hexValue hx, ih fun d hd => h d (List.mem_cons_of_mem _ hd),
        List.length_cons]
      omega

/-- Pairs without the sign consist of digits. -/
theorem isSome_of_digitPairs {cs : List Char} (hpairs : digitPairs cs = true) (hplus : '+' ∉ cs) :
    ∀ c ∈ cs, (hexValue c).isSome := by
  match cs with
  | [] => simp
  | c :: d :: rest =>
      obtain ⟨x, y, hx, hy, hrest⟩ := digitPairs_cons hpairs
      have hc : hexValue c = some x := by
        rw [← hx, leadValue, if_neg]
        rintro rfl
        exact hplus List.mem_cons_self
      intro e he
      rcases List.mem_cons.mp he with rfl | he
      · simp [hc]
      rcases List.mem_cons.mp he with rfl | he
      · simp [hy]
      · exact isSome_of_digitPairs hrest
          (fun h => hplus (List.mem_cons_of_mem _ (List.mem_cons_of_mem _ h))) e he

/-- A head of the right length is read in pairs. -/
theorem parseHead_eq (h : byteLen (trim s.toList) = 64) :
    parseHead s = readRest 32 (trim s.toList) := by
  rw [parseHead]
  simp only [h, if_true]
  have hloop : parseBytes ([] ++ trim s.toList) 32 0 = readRest 32 (trim s.toList) :=
    parseBytes_eq_readRest rfl
  exact hloop

/-- A trimmed text of sixty-four digits is read as the bytes that it spells. -/
theorem parseHead_of_digits (h : HexHead (trim s.toList)) :
    ∃ head, parseHead s = .ok head ∧
      toHex head.bytes = String.ofList ((trim s.toList).map Char.toLower) := by
  have hlen : byteLen (trim s.toList) = 64 := (byteLen_of_digits h.2).trans h.1
  obtain ⟨head, hread, hspell⟩ := readRest_of_digits (n := 32) h.1 h.2
  exact ⟨head, (parseHead_eq hlen).trans hread, by rw [toHex, hspell]⟩

/-- What the reader is for: it does not panic, it reads exactly sixty-four digits, and what
it reads is spelt by them. -/
structure ReadsHex (s : String) : Prop where
  total : parseHead s ≠ .error .panic
  ok_iff : (∃ head, parseHead s = .ok head) ↔ HexHead (trim s.toList)
  spells : ∀ head, parseHead s = .ok head →
    toHex head.bytes = String.ofList ((trim s.toList).map Char.toLower)

/-- A text of sixty-four bytes in which a character lies across the end of a pair, behind
pairs that can be read, or which consists of such pairs and has a sign in one. -/
def Misread (t : List Char) : Prop :=
  byteLen t = 64 ∧ (Straddles t ∨ digitPairs t = true ∧ '+' ∈ t)

theorem map_toLower_hexChars (bytes : Bytes) :
    (hexChars bytes).map Char.toLower = hexChars bytes := by
  have hlower : ∀ n : Fin 16, (hexChar n).toLower = hexChar n := by decide
  simp [hexChars, List.map_flatMap, hlower]

/-- Only digits are written. -/
theorem hexChars_isSome {bytes : Bytes} : ∀ c ∈ hexChars bytes, (hexValue c).isSome := by
  intro c hc
  simp only [hexChars, List.mem_flatMap, List.mem_cons, List.not_mem_nil, or_false] at hc
  obtain ⟨byte, -, rfl | rfl⟩ := hc <;> simp

/-- What is read as written is not misread. -/
theorem ReadsHex.not_misread (h : ReadsHex s) : ¬ Misread (trim s.toList) := by
  rintro ⟨hlen, hstraddles | ⟨hpairs, hplus⟩⟩
  · exact h.total ((parseHead_eq hlen).trans ((readRest_panic_iff hlen).mpr hstraddles))
  · have hok := (readRest_ok_iff (n := 32) hlen).mpr hpairs
    rw [← parseHead_eq hlen] at hok
    have hsome := (h.ok_iff.mp hok).2 '+' hplus
    cases hsome

/-- Another length is an error, and no text of digits. -/
theorem readsHex_of_length_ne (hlen : byteLen (trim s.toList) ≠ 64) : ReadsHex s := by
  have herror : parseHead s =
      .error (.error "--expect-head must be 64 hex chars (32 bytes)") := by
    rw [parseHead]
    simp only [hlen, if_false]
  have hnot : ¬ HexHead (trim s.toList) := fun hhex =>
    hlen ((byteLen_of_digits hhex.2).trans hhex.1)
  refine ⟨?_, ⟨?_, fun hhex => absurd hhex hnot⟩, ?_⟩
  · simp [herror]
  · simp [herror]
  · simp [herror]

/-- And conversely. -/
theorem readsHex_of_not_misread (h : ¬ Misread (trim s.toList)) : ReadsHex s := by
  by_cases hlen : byteLen (trim s.toList) = 64
  · have heq := parseHead_eq hlen
    have hdigits : (∃ head, parseHead s = .ok head) → HexHead (trim s.toList) := by
      intro hok
      rw [heq] at hok
      have hpairs := (readRest_ok_iff (n := 32) hlen).mp hok
      have hall := isSome_of_digitPairs hpairs fun hplus => h ⟨hlen, .inr ⟨hpairs, hplus⟩⟩
      exact ⟨(byteLen_of_digits hall).symm.trans hlen, hall⟩
    refine ⟨?_, ⟨hdigits, ?_⟩, ?_⟩
    · intro hpanic
      rw [heq] at hpanic
      exact h ⟨hlen, .inl ((readRest_panic_iff (n := 32) hlen).mp hpanic)⟩
    · intro hhex
      obtain ⟨head, hhead, -⟩ := parseHead_of_digits hhex
      exact ⟨head, hhead⟩
    · intro head hhead
      obtain ⟨head', hhead', hspell⟩ := parseHead_of_digits (hdigits ⟨head, hhead⟩)
      obtain rfl := Except.ok.inj (hhead.symm.trans hhead')
      exact hspell
  · exact readsHex_of_length_ne hlen

/-- A head that was written is read back. -/
theorem parseHead_toHex (head : Hash) : parseHead (toHex head.bytes) = .ok head := by
  have htrim : trim (toHex head.bytes).toList = hexChars head.bytes := by
    rw [toHex, String.toList_ofList]
    refine Coordinator.trim_of_forall ?_
    intro c hc
    obtain ⟨x, hx⟩ := Option.isSome_iff_exists.mp (hexChars_isSome c hc)
    exact isWhitespace_of_hexValue hx
  have hhex : HexHead (trim (toHex head.bytes).toList) := by
    rw [htrim]
    exact ⟨by rw [length_hexChars, head.length_eq], hexChars_isSome⟩
  obtain ⟨head', hhead', hspell⟩ := parseHead_of_digits hhex
  rw [htrim, map_toLower_hexChars] at hspell
  have hbytes := hexChars_injective (String.ofList_injective hspell)
  have heq : head' = head := by
    cases head
    cases head'
    simp_all
  rw [hhead', heq]

/-- {lit}`parse_head` is right exactly for the texts that are not misread, among them every
text that {lit}`to_hex` writes for a head. -/
theorem reads_hex_iff_not_misread (s : String) (head : Hash) :
    (ReadsHex s ↔ ¬ Misread (trim s.toList)) ∧ parseHead (toHex head.bytes) = .ok head :=
  ⟨⟨ReadsHex.not_misread, readsHex_of_not_misread⟩, parseHead_toHex head⟩

/-- A character that lies across the first pair makes the reader panic, and a sign in the
first pair is read as no digit at all. -/
theorem misread_heads :
    parseHead ("a\u00e9" ++ String.ofList (List.replicate 61 '0')) = .error .panic ∧
    parseHead ("+f" ++ String.ofList (List.replicate 62 '0')) =
      .ok ⟨15 :: List.replicate 31 0, by decide⟩ ∧
    ¬ ReadsHex ("a\u00e9" ++ String.ofList (List.replicate 61 '0')) ∧
    ¬ ReadsHex ("+f" ++ String.ofList (List.replicate 62 '0')) := by
  have hpanic : parseHead ("a\u00e9" ++ String.ofList (List.replicate 61 '0')) =
      .error .panic := by
    decide +kernel
  have hsign : parseHead ("+f" ++ String.ofList (List.replicate 62 '0')) =
      .ok ⟨15 :: List.replicate 31 0, by decide⟩ := by
    decide +kernel
  refine ⟨hpanic, hsign, fun hright => hright.total hpanic, ?_⟩
  intro hright
  obtain ⟨-, hdigits⟩ := hright.ok_iff.mp ⟨_, hsign⟩
  exact absurd (hdigits '+' (by decide +kernel)) (by decide)

end Cli
end OpenSsmAgent
