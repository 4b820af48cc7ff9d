import Mathlib

/-!
# Self-delimiting byte framings

Protocol transcripts, authenticated headers and hashed records are all built by
writing fields one after the other into one byte string.  This module gives the
byte-level vocabulary for that: big-endian machine words, length-prefixed
fields, and the notion of a self-delimiting encoding, one whose output can be
cut off the front of any longer byte string in only one way.

Main results:

- Theorem {lit}`beBytes_selfDelimiting`: fixed-width big-endian words are
  self-delimiting.
- Theorems {lit}`lengthPrefixed_text` and {lit}`lengthPrefixed_blob`: texts and
  byte vectors under an eight-byte length prefix are self-delimiting.
-/

namespace Framing

/-- A byte string. -/
abbrev Bytes := List UInt8

/-- The UTF-8 bytes of a text. -/
def utf8 (s : String) : Bytes :=
  s.toByteArray.data.toList

/-- Texts are determined by their UTF-8 bytes. -/
theorem utf8_injective : Function.Injective utf8 := by
  intro s t h
  apply String.toByteArray_inj.mp
  apply ByteArray.ext
  exact Array.toList_inj.mp h

@[simp] theorem length_utf8 (s : String) : (utf8 s).length = s.utf8ByteSize :=
  rfl

/-- A Rust {lit}`String`: UTF-8 text whose byte length fits in a machine word. -/
structure Str where
  text : String
  size_lt : text.utf8ByteSize < 2 ^ 64
deriving DecidableEq

/-- A Rust {lit}`Vec<u8>`: a byte string whose length fits in a machine word. -/
structure Blob where
  bytes : Bytes
  length_lt : bytes.length < 2 ^ 64
deriving DecidableEq

/-- A string literal. -/
def Str.lit (s : String)
    (h : decide (s.utf8ByteSize < 2 ^ 64) = true := by exact Eq.refl true) : Str :=
  ⟨s, of_decide_eq_true h⟩

/-- A literal byte vector. -/
def Blob.lit (bytes : Bytes)
    (h : decide (bytes.length < 2 ^ 64) = true := by exact Eq.refl true) : Blob :=
  ⟨bytes, of_decide_eq_true h⟩

instance : Inhabited Str := ⟨⟨"", by decide⟩⟩

instance : Inhabited Blob := ⟨⟨[], by decide⟩⟩

/-- A Rust {lit}`[u8; n]`: a byte string of one fixed length. -/
structure Fixed (n : Nat) where
  bytes : Bytes
  length_eq : bytes.length = n
deriving DecidableEq

/-- A literal byte array. -/
def Fixed.lit {n : Nat} (bytes : Bytes)
    (h : decide (bytes.length = n) = true := by exact Eq.refl true) : Fixed n :=
  ⟨bytes, of_decide_eq_true h⟩

/-- The bytes of a Rust string. -/
def Str.bytes (s : Str) : Bytes :=
  utf8 s.text

theorem Str.ext_text {s t : Str} (h : s.text = t.text) : s = t := by
  cases s
  cases t
  simp_all

/-- A text is given by its bytes. -/
theorem Str.bytes_injective : Function.Injective Str.bytes := by
  intro s t h
  exact Str.ext_text (utf8_injective h)

theorem Str.length_bytes_lt (s : Str) : s.bytes.length < 2 ^ 64 := by
  simpa [Str.bytes] using s.size_lt

/-- {lit}`as_bytes`. -/
def Str.asBytes (s : Str) : Blob :=
  ⟨s.bytes, s.length_bytes_lt⟩

@[simp] theorem Str.bytes_asBytes (s : Str) : s.asBytes.bytes = s.bytes :=
  rfl

theorem Str.asBytes_injective : Function.Injective Str.asBytes := by
  intro s t h
  exact Str.bytes_injective (congrArg Blob.bytes h)

theorem Blob.bytes_injective : Function.Injective Blob.bytes := by
  intro a b h
  cases a
  cases b
  simp_all

theorem Fixed.bytes_injective {n : Nat} : Function.Injective (Fixed.bytes (n := n)) := by
  intro a b h
  cases a
  cases b
  simp_all

/-! ## Big-endian words -/

/-- The low {lit}`w` bytes of {lit}`n`, most significant first. -/
def beBytes : Nat → Nat → Bytes
  | 0, _ => []
  | w + 1, n => UInt8.ofNat (n / 256 ^ w) :: beBytes w n

/-- The width is the length. -/
@[simp] theorem length_beBytes (w n : Nat) : (beBytes w n).length = w := by
  induction w with
  | zero => rfl
  | succ w ih => simp [beBytes, ih]

/-- Equal big-endian words agree modulo the word size. -/
theorem beBytes_mod_eq {w m n : Nat} (h : beBytes w m = beBytes w n) :
    m % 256 ^ w = n % 256 ^ w := by
  induction w with
  | zero => simp [Nat.mod_one]
  | succ w ih =>
      simp only [beBytes, List.cons.injEq] at h
      have hlow := ih h.2
      have hhigh : m / 256 ^ w % 256 = n / 256 ^ w % 256 := by
        simpa using congrArg UInt8.toNat h.1
      rw [pow_succ, Nat.mod_mul, Nat.mod_mul, hlow, hhigh]

/-- Words below the word size are determined by their big-endian bytes. -/
theorem beBytes_inj {w m n : Nat} (hm : m < 256 ^ w) (hn : n < 256 ^ w)
    (h : beBytes w m = beBytes w n) : m = n := by
  have hmod := beBytes_mod_eq h
  rwa [Nat.mod_eq_of_lt hm, Nat.mod_eq_of_lt hn] at hmod

/-! ## Self-delimiting encodings -/

variable {α β : Type*}

/-- An encoding whose output can be cut off the front of a longer byte string in
only one way. -/
def SelfDelimiting (enc : α → Bytes) : Prop :=
  ∀ ⦃a b : α⦄ ⦃r s : Bytes⦄, enc a ++ r = enc b ++ s → a = b ∧ r = s

/-- A self-delimiting encoding is injective. -/
theorem SelfDelimiting.injective {enc : α → Bytes} (h : SelfDelimiting enc) :
    Function.Injective enc := by
  intro a b hab
  have happ : enc a ++ [] = enc b ++ [] := by rw [hab]
  exact (h happ).1

/-- Injective encodings of one fixed length are self-delimiting. -/
theorem SelfDelimiting.of_length {enc : α → Bytes} {n : Nat}
    (hlength : ∀ a, (enc a).length = n) (hinj : Function.Injective enc) :
    SelfDelimiting enc := by
  intro a b r s h
  have hlen : (enc a).length = (enc b).length := by rw [hlength, hlength]
  obtain ⟨henc, hrest⟩ := List.append_inj h hlen
  exact ⟨hinj henc, hrest⟩

/-- Fixed-width big-endian words are self-delimiting on any type that embeds
below the word size. -/
theorem beBytes_selfDelimiting {w : Nat} {e : α → Nat}
    (hlt : ∀ a, e a < 256 ^ w) (hinj : Function.Injective e) :
    SelfDelimiting (fun a => beBytes w (e a)) := by
  apply SelfDelimiting.of_length (n := w)
  · intro a
    exact length_beBytes w (e a)
  · intro a b h
    exact hinj (beBytes_inj (hlt a) (hlt b) h)

/-! ## Machine words and length prefixes -/

/-- {lit}`u64::to_be_bytes`. -/
def be64 (n : UInt64) : Bytes :=
  beBytes 8 n.toNat

/-- {lit}`i64::to_be_bytes`. -/
def beI64 (n : Int64) : Bytes :=
  beBytes 8 n.toUInt64.toNat

/-- {lit}`i32::to_be_bytes`. -/
def beI32 (n : Int32) : Bytes :=
  beBytes 4 n.toUInt32.toNat

/-- Eight bytes delimit themselves. -/
theorem be64_selfDelimiting : SelfDelimiting be64 := by
  apply beBytes_selfDelimiting
  · intro n
    simpa using n.toNat_lt
  · intro m n h
    exact UInt64.toNat_inj.mp h

theorem beI64_selfDelimiting : SelfDelimiting beI64 := by
  apply beBytes_selfDelimiting
  · intro n
    simpa using n.toUInt64.toNat_lt
  · intro m n h
    exact congrArg Int64.ofUInt64 (UInt64.toNat_inj.mp h)

theorem beI32_selfDelimiting : SelfDelimiting beI32 := by
  apply beBytes_selfDelimiting
  · intro n
    simpa using n.toUInt32.toNat_lt
  · intro m n h
    exact congrArg Int32.ofUInt32 (UInt32.toNat_inj.mp h)

/-- A field under its big-endian {lit}`u64` length: {lit}`len as u64` is the
length modulo the word size. -/
def pushField (field : Bytes) : Bytes :=
  beBytes 8 field.length ++ field

/-- Length-prefixed fields are self-delimiting on any type of byte strings whose
lengths fit the prefix. -/
theorem pushField_selfDelimiting {e : α → Bytes} (hlt : ∀ a, (e a).length < 2 ^ 64)
    (hinj : Function.Injective e) : SelfDelimiting (fun a => pushField (e a)) := by
  intro a b r s h
  simp only [pushField, List.append_assoc] at h
  have hprefix : beBytes 8 (e a).length = beBytes 8 (e b).length :=
    List.append_inj_left h (by simp)
  have hlen : (e a).length = (e b).length := by
    apply beBytes_inj (w := 8) _ _ hprefix
    · simpa using hlt a
    · simpa using hlt b
  have hrest := List.append_inj_right h (by simp)
  obtain ⟨hfield, hrs⟩ := List.append_inj hrest hlen
  exact ⟨hinj hfield, hrs⟩

theorem lengthPrefixed_text : SelfDelimiting (fun s : Str => pushField s.bytes) :=
  pushField_selfDelimiting Str.length_bytes_lt Str.bytes_injective

theorem lengthPrefixed_blob : SelfDelimiting (fun b : Blob => pushField b.bytes) :=
  pushField_selfDelimiting Blob.length_lt Blob.bytes_injective

/-! ## Lexicographic order -/

/-- The order of byte strings. -/
def bytesLe : Bytes → Bytes → Bool
  | [], _ => true
  | _ :: _, [] => false
  | a :: as, b :: bs =>
      if a.toNat < b.toNat then true else if b.toNat < a.toNat then false else bytesLe as bs

theorem bytesLe_total (x y : Bytes) : bytesLe x y ∨ bytesLe y x := by
  induction x generalizing y with
  | nil => simp [bytesLe]
  | cons a as ih =>
      cases y with
      | nil => simp [bytesLe]
      | cons b bs =>
          simp only [bytesLe]
          rcases lt_trichotomy a.toNat b.toNat with h | h | h
          · simp [h]
          · simpa [h] using ih bs
          · simp [h]

theorem bytesLe_antisymm {x y : Bytes} (hxy : bytesLe x y) (hyx : bytesLe y x) : x = y := by
  induction x generalizing y with
  | nil =>
      cases y with
      | nil => rfl
      | cons b bs => simp [bytesLe] at hyx
  | cons a as ih =>
      cases y with
      | nil => simp [bytesLe] at hxy
      | cons b bs =>
          simp only [bytesLe] at hxy hyx
          rcases lt_trichotomy a.toNat b.toNat with h | h | h
          · simp [h, h.not_gt] at hyx
          · rw [UInt8.toNat_inj.mp h, ih (by simpa [h] using hxy) (by simpa [h] using hyx)]
          · simp [h, h.not_gt] at hxy

/-- Two byte strings in ascending order. -/
def orderPair {n : Nat} (p q : Fixed n) : Fixed n × Fixed n :=
  if bytesLe p.bytes q.bytes then (p, q) else (q, p)

/-- The ascending order does not depend on who writes first. -/
theorem orderPair_comm {n : Nat} (p q : Fixed n) : orderPair p q = orderPair q p := by
  unfold orderPair
  split_ifs with hpq hqp
  · rw [Fixed.bytes_injective (bytesLe_antisymm hpq hqp)]
  · rfl
  · rfl
  · rcases bytesLe_total p.bytes q.bytes with h | h
    · exact absurd h hpq
    · contradiction

end Framing
