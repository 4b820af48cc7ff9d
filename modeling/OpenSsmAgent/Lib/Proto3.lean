import OpenSsmAgent.Lib.Framing

/-!
# The proto3 wire format

Protobuf bytes are a sequence of fields, each a key (tag and wire type) followed
by a value whose extent the wire type fixes.  This module reads and writes that
level: variable-length integers, keys, values with unknown groups skipped, and
whole field sequences.  A message schema is then a fold over the fields read.

Main results:

- Theorem {lit}`decodeVarint_encodeVarint`: variable-length integers round-trip.
- Theorem {lit}`parseFields_encodeFields_append`: well-formed field sequences are
  read back in front of any rest.
- Theorem {lit}`readUtf8_utf8`: the bytes of a text pass the UTF-8 check.
-/

open Framing

namespace Proto3

variable {tag limit : Nat} {b rest : Bytes}

/-! ## Variable-length integers -/

/-- Write a number in base 128, low digits first, in at most the given number of
bytes. -/
def encodeVarintIn : Nat → Nat → Bytes
  | 0, _ => []
  | k + 1, n =>
      if n < 128 then [UInt8.ofNat n]
      else UInt8.ofNat (n % 128 + 128) :: encodeVarintIn k (n / 128)

/-- Read a number of at most the given number of bytes; the last byte allowed may
carry one bit only, so that the value fits in 64 bits. -/
def decodeVarintIn : Nat → Bytes → Option (Nat × Bytes)
  | 0, _ => none
  | _ + 1, [] => none
  | k + 1, b :: rest =>
      if b < 128 then
        if k = 0 ∧ 2 ≤ b then none else some (b.toNat, rest)
      else
        match decodeVarintIn k rest with
        | none => none
        | some (v, rest') => some (b.toNat % 128 + 128 * v, rest')

/-- {lit}`encode_varint`. -/
def encodeVarint (n : Nat) : Bytes :=
  encodeVarintIn 10 n

/-- {lit}`decode_varint`: at most ten bytes, the tenth below two. -/
def decodeVarint (b : Bytes) : Option (Nat × Bytes) :=
  decodeVarintIn 10 b

/-- A number is read back. -/
theorem decodeVarintIn_encodeVarintIn (k n : Nat) (rest : Bytes) (h : n < 2 * 128 ^ k) :
    decodeVarintIn (k + 1) (encodeVarintIn (k + 1) n ++ rest) = some (n, rest) := by
  induction k generalizing n with
  | zero =>
      have hn : n < 2 := by simpa using h
      interval_cases n <;> rfl
  | succ k ih =>
      rw [encodeVarintIn]
      by_cases hsmall : n < 128
      · have hlt : UInt8.ofNat n < 128 := by
          rw [UInt8.lt_iff_toNat_lt]
          simp
          omega
        simp only [hsmall, if_true, List.cons_append, List.nil_append, decodeVarintIn, hlt]
        simp
        omega
      · have hge : ¬UInt8.ofNat (n % 128 + 128) < 128 := by
          rw [UInt8.lt_iff_toNat_lt]
          simp
          omega
        have hdiv : n / 128 < 2 * 128 ^ k := by
          rw [pow_succ] at h
          omega
        have hdigit : (UInt8.ofNat (n % 128 + 128)).toNat % 128 = n % 128 := by
          simp
        rw [if_neg hsmall, List.cons_append, decodeVarintIn, if_neg hge, ih (n / 128) hdiv]
        simp only [hdigit, Option.some.injEq, Prod.mk.injEq, and_true]
        omega

/-- Variable-length integers round-trip in front of any rest. -/
@[simp] theorem decodeVarint_encodeVarint (n : Nat) (rest : Bytes) (h : n < 2 ^ 64) :
    decodeVarint (encodeVarint n ++ rest) = some (n, rest) :=
  decodeVarintIn_encodeVarintIn 9 n rest (by omega)

/-- Its length is bounded. -/
theorem length_encodeVarintIn_le (k n : Nat) : (encodeVarintIn k n).length ≤ k := by
  induction k generalizing n with
  | zero => simp [encodeVarintIn]
  | succ k ih =>
      rw [encodeVarintIn]
      split_ifs
      · simp
      · simpa using ih (n / 128)

/-- A number is written in at most ten bytes. -/
theorem length_encodeVarint_le (n : Nat) : (encodeVarint n).length ≤ 10 :=
  length_encodeVarintIn_le 10 n

/-- Reading a number consumes at least one byte. -/
theorem decodeVarintIn_length {k v : Nat}
    (h : decodeVarintIn k b = some (v, rest)) : rest.length < b.length := by
  induction k generalizing b v rest with
  | zero => simp [decodeVarintIn] at h
  | succ k ih =>
      cases b with
      | nil => simp [decodeVarintIn] at h
      | cons c b =>
          rw [decodeVarintIn] at h
          split_ifs at h with hsmall hlast
          · simp only [Option.some.injEq, Prod.mk.injEq] at h
            simp [h.2]
          · split at h
            · simp at h
            · rename_i w r hr
              simp only [Option.some.injEq, Prod.mk.injEq] at h
              have hlt := ih hr
              rw [h.2] at hlt
              simp only [List.length_cons]
              omega

/-! ## Keys and values -/

/-- The six wire types. -/
inductive WireType where
  | varint
  | sixtyFourBit
  | lengthDelimited
  | startGroup
  | endGroup
  | thirtyTwoBit
deriving DecidableEq

variable {w : WireType}

/-- The number of a wire type. -/
def WireType.code : WireType → Nat
  | .varint => 0
  | .sixtyFourBit => 1
  | .lengthDelimited => 2
  | .startGroup => 3
  | .endGroup => 4
  | .thirtyTwoBit => 5

/-- The wire type of a number. -/
def WireType.ofCode : Nat → Option WireType
  | 0 => some .varint
  | 1 => some .sixtyFourBit
  | 2 => some .lengthDelimited
  | 3 => some .startGroup
  | 4 => some .endGroup
  | 5 => some .thirtyTwoBit
  | _ => none

/-- A wire type is read back. -/
@[simp] theorem WireType.ofCode_code (w : WireType) : WireType.ofCode w.code = some w := by
  cases w <;> rfl

/-- It takes three bits. -/
theorem WireType.code_lt (w : WireType) : w.code < 8 := by
  cases w <;> decide

/-- {lit}`encode_key`. -/
def encodeKey (tag : Nat) (w : WireType) : Bytes :=
  encodeVarint (tag * 8 + w.code)

/-- {lit}`decode_key`: the key has to fit in 32 bits, name a known wire type and
carry a positive tag. -/
def decodeKey (b : Bytes) : Option (Nat × WireType × Bytes) :=
  match decodeVarint b with
  | none => none
  | some (key, rest) =>
      if 2 ^ 32 ≤ key then none
      else
        match WireType.ofCode (key % 8) with
        | none => none
        | some w => if key / 8 = 0 then none else some (key / 8, w, rest)

/-- A tag a message may declare. -/
def ValidTag (tag : Nat) : Prop :=
  1 ≤ tag ∧ tag < 2 ^ 29

instance (tag : Nat) : Decidable (ValidTag tag) :=
  inferInstanceAs (Decidable (1 ≤ tag ∧ tag < 2 ^ 29))

/-- A key is read back. -/
@[simp] theorem decodeKey_encodeKey (tag : Nat) (w : WireType) (rest : Bytes)
    (htag : ValidTag tag) : decodeKey (encodeKey tag w ++ rest) = some (tag, w, rest) := by
  have hw := w.code_lt
  have hlow := htag.1
  have hhigh := htag.2
  have hmod : (tag * 8 + w.code) % 8 = w.code := by omega
  have hdiv : (tag * 8 + w.code) / 8 = tag := by omega
  have hbound : ¬2 ^ 32 ≤ tag * 8 + w.code := by omega
  have hpos : ¬tag = 0 := by omega
  unfold decodeKey encodeKey
  rw [decodeVarint_encodeVarint _ _ (by omega)]
  simp only [hbound, if_false, hmod, WireType.ofCode_code, hdiv, hpos]

/-- A key takes bytes. -/
theorem decodeKey_length (h : decodeKey b = some (tag, w, rest)) : rest.length < b.length := by
  unfold decodeKey at h
  split at h
  · simp at h
  · rename_i key r hr
    have hlt := decodeVarintIn_length hr
    split at h
    · simp at h
    · split at h
      · simp at h
      · split at h
        · simp at h
        · simp only [Option.some.injEq, Prod.mk.injEq] at h
          rwa [h.2.2] at hlt

/-- The value of a field as its wire type delimits it.  An unknown group is
skipped as a whole. -/
inductive RawValue where
  | varint (n : Nat)
  | sixtyFourBit (b : Bytes)
  | lengthDelimited (b : Bytes)
  | group
  | thirtyTwoBit (b : Bytes)
deriving DecidableEq

/-- A field: its tag and its value. -/
structure Field where
  tag : Nat
  value : RawValue
deriving DecidableEq

variable {fs : List Field}

/-- Cut a number of bytes off the front, if there are enough. -/
def splitBytes (n : Nat) (b : Bytes) : Option (Bytes × Bytes) :=
  if n ≤ b.length then some (b.take n, b.drop n) else none

/-- The front is cut off. -/
@[simp] theorem splitBytes_append (b rest : Bytes) :
    splitBytes b.length (b ++ rest) = some (b, rest) := by
  simp [splitBytes]

/-- No byte is added. -/
theorem splitBytes_length {n : Nat} {front : Bytes}
    (h : splitBytes n b = some (front, rest)) : rest.length ≤ b.length := by
  unfold splitBytes at h
  split_ifs at h
  simp only [Option.some.injEq, Prod.mk.injEq] at h
  simp [← h.2]

/-- Read a value other than a group. -/
def takeScalar (w : WireType) (b : Bytes) : Option (RawValue × Bytes) :=
  match w with
  | .varint => (decodeVarint b).map (fun p => (.varint p.1, p.2))
  | .sixtyFourBit => (splitBytes 8 b).map (fun p => (.sixtyFourBit p.1, p.2))
  | .thirtyTwoBit => (splitBytes 4 b).map (fun p => (.thirtyTwoBit p.1, p.2))
  | .lengthDelimited =>
      match decodeVarint b with
      | none => none
      | some (n, rest) => (splitBytes n rest).map (fun p => (.lengthDelimited p.1, p.2))
  | .startGroup => none
  | .endGroup => none

/-- No byte is added. -/
theorem takeScalar_length {v : RawValue}
    (h : takeScalar w b = some (v, rest)) : rest.length ≤ b.length := by
  cases w with
  | varint =>
      obtain ⟨⟨n, r⟩, hr, heq⟩ := Option.map_eq_some_iff.mp h
      have hlt := decodeVarintIn_length hr
      cases heq
      exact hlt.le
  | sixtyFourBit =>
      obtain ⟨⟨c, r⟩, hr, heq⟩ := Option.map_eq_some_iff.mp h
      cases heq
      exact splitBytes_length hr
  | lengthDelimited =>
      simp only [takeScalar] at h
      split at h
      · simp at h
      · rename_i n r hn
        obtain ⟨⟨c, r'⟩, hr, heq⟩ := Option.map_eq_some_iff.mp h
        cases heq
        exact (splitBytes_length hr).trans (decodeVarintIn_length hn).le
  | startGroup => simp [takeScalar] at h
  | endGroup => simp [takeScalar] at h
  | thirtyTwoBit =>
      obtain ⟨⟨c, r⟩, hr, heq⟩ := Option.map_eq_some_iff.mp h
      cases heq
      exact splitBytes_length hr

/-- Skip to the end of the open groups, innermost first.  Every field inside is
skipped at a recursion level one deeper than its group; the fuel is the number
of keys that may still be read. -/
def skipGroups (limit : Nat) : Nat → List Nat → Bytes → Option Bytes
  | _, [], b => some b
  | 0, _ :: _, _ => none
  | fuel + 1, tag :: outer, b =>
      match decodeKey b with
      | none => none
      | some (inner, .endGroup, rest) =>
          if inner = tag then skipGroups limit fuel outer rest else none
      | some (inner, w, rest) =>
          if limit ≤ outer.length + 1 then none
          else
            match w with
            | .startGroup => skipGroups limit fuel (inner :: tag :: outer) rest
            | w =>
                match takeScalar w rest with
                | none => none
                | some (_, rest') => skipGroups limit fuel (tag :: outer) rest'

/-- Read the value that follows a key.  {lit}`limit` is the recursion depth left
to the reader. -/
def takeValue (limit tag : Nat) (w : WireType) (b : Bytes) : Option (RawValue × Bytes) :=
  match w with
  | .startGroup => (skipGroups limit b.length [tag] b).map (fun rest => (.group, rest))
  | w => takeScalar w b

/-- No byte is added. -/
theorem skipGroups_length {fuel : Nat} {stack : List Nat}
    (h : skipGroups limit fuel stack b = some rest) : rest.length ≤ b.length := by
  induction fuel generalizing stack b with
  | zero =>
      cases stack with
      | nil => simp_all [skipGroups]
      | cons tag outer => simp [skipGroups] at h
  | succ fuel ih =>
      cases stack with
      | nil => simp_all [skipGroups]
      | cons tag outer =>
          rw [skipGroups] at h
          split at h
          · simp at h
          · rename_i inner r hkey
            split_ifs at h
            exact (ih h).trans (decodeKey_length hkey).le
          · rename_i inner w r hend hkey
            split_ifs at h
            split at h
            · exact (ih h).trans (decodeKey_length hkey).le
            · split at h
              · simp at h
              · rename_i v r' hscalar
                exact (ih h).trans ((takeScalar_length hscalar).trans (decodeKey_length hkey).le)

/-- No byte is added. -/
theorem takeValue_length {v : RawValue}
    (h : takeValue limit tag w b = some (v, rest)) : rest.length ≤ b.length := by
  unfold takeValue at h
  split at h
  · obtain ⟨r, hr, heq⟩ := Option.map_eq_some_iff.mp h
    cases heq
    exact skipGroups_length hr
  · exact takeScalar_length h

/-! ## Field sequences -/

/-- Read fields to the end of the bytes.  The fuel is the number of fields that
may still be read; every field takes at least one byte. -/
def parseFieldsIn (limit : Nat) : Nat → Bytes → Option (List Field)
  | _, [] => some []
  | 0, _ :: _ => none
  | fuel + 1, b :: bs =>
      match decodeKey (b :: bs) with
      | none => none
      | some (tag, w, rest) =>
          match takeValue limit tag w rest with
          | none => none
          | some (v, rest') => (parseFieldsIn limit fuel rest').map (⟨tag, v⟩ :: ·)

/-- The field sequence of a byte string. -/
def parseFields (limit : Nat) (b : Bytes) : Option (List Field) :=
  parseFieldsIn limit b.length b

/-- Fuel beyond the number of bytes changes nothing. -/
theorem parseFieldsIn_eq {fuel : Nat} (h : b.length ≤ fuel) :
    parseFieldsIn limit fuel b = parseFields limit b := by
  unfold parseFields
  induction fuel using Nat.strong_induction_on generalizing b with
  | _ fuel ih =>
      cases b with
      | nil => cases fuel <;> rfl
      | cons c bs =>
          obtain ⟨fuel, rfl⟩ : ∃ n, fuel = n + 1 := Nat.exists_eq_succ_of_ne_zero (by
            simp only [List.length_cons] at h
            omega)
          simp only [List.length_cons, parseFieldsIn]
          split
          · rfl
          · rename_i tag w rest hkey
            split
            · rfl
            · rename_i v rest' hvalue
              have hlt := decodeKey_length hkey
              have hle := takeValue_length hvalue
              simp only [List.length_cons] at h hlt
              have hwide := ih fuel (by omega) (b := rest') (by omega)
              have htight := ih bs.length (by omega) (b := rest') (by omega)
              rw [hwide, htight]

@[simp] theorem parseFields_nil (limit : Nat) : parseFields limit [] = some [] :=
  rfl

/-- Reading one field and then the rest. -/
theorem parseFields_of_key {rest' : Bytes} {v : RawValue} (hkey : decodeKey b = some (tag, w, rest))
    (hvalue : takeValue limit tag w rest = some (v, rest')) :
    parseFields limit b = (parseFields limit rest').map (⟨tag, v⟩ :: ·) := by
  have hlt := decodeKey_length hkey
  have hle := takeValue_length hvalue
  cases b with
  | nil => simp at hlt
  | cons c bs =>
      simp only [List.length_cons] at hlt
      have hfuel : parseFieldsIn limit bs.length rest' = parseFields limit rest' :=
        parseFieldsIn_eq (by omega)
      rw [← hfuel]
      simp only [parseFields, List.length_cons, parseFieldsIn, hkey, hvalue]

/-- A byte string whose first key is unreadable has no field sequence. -/
theorem parseFields_of_decodeKey_eq_none (hne : b ≠ [])
    (hkey : decodeKey b = none) : parseFields limit b = none := by
  cases b with
  | nil => simp at hne
  | cons c bs => simp [parseFields, parseFieldsIn, hkey]

/-- Write one field.  Groups and fixed-width values never occur in the schemas
written with this module. -/
def encodeField (f : Field) : Bytes :=
  match f.value with
  | .varint n => encodeKey f.tag .varint ++ encodeVarint n
  | .lengthDelimited b => encodeKey f.tag .lengthDelimited ++ encodeVarint b.length ++ b
  | .sixtyFourBit b => encodeKey f.tag .sixtyFourBit ++ b
  | .thirtyTwoBit b => encodeKey f.tag .thirtyTwoBit ++ b
  | .group => encodeKey f.tag .startGroup ++ encodeKey f.tag .endGroup

/-- A field that its own bytes describe: a declared tag, a 64-bit number or a
byte string whose length fits its prefix. -/
def Field.WellFormed (f : Field) : Prop :=
  ValidTag f.tag ∧
    match f.value with
    | .varint n => n < 2 ^ 64
    | .lengthDelimited b => b.length < 2 ^ 64
    | _ => False

/-- Write a field sequence. -/
def encodeFields (fs : List Field) : Bytes :=
  fs.flatMap encodeField

/-- A well-formed field is read back in front of any rest. -/
theorem parseFields_encodeField_append {f : Field} (hf : f.WellFormed) (rest : Bytes) :
    parseFields limit (encodeField f ++ rest) = (parseFields limit rest).map (f :: ·) := by
  obtain ⟨tag, value⟩ := f
  obtain ⟨htag, hvalue⟩ := hf
  cases value with
  | varint n =>
      have hkey : decodeKey (encodeField ⟨tag, .varint n⟩ ++ rest) =
          some (tag, .varint, encodeVarint n ++ rest) := by
        simp only [encodeField, List.append_assoc, decodeKey_encodeKey _ _ _ htag]
      apply parseFields_of_key hkey
      simp [takeValue, takeScalar, decodeVarint_encodeVarint _ _ hvalue]
  | lengthDelimited b =>
      have hkey : decodeKey (encodeField ⟨tag, .lengthDelimited b⟩ ++ rest) =
          some (tag, .lengthDelimited, encodeVarint b.length ++ (b ++ rest)) := by
        simp only [encodeField, List.append_assoc, decodeKey_encodeKey _ _ _ htag]
      apply parseFields_of_key hkey
      simp [takeValue, takeScalar, decodeVarint_encodeVarint _ _ hvalue]
  | sixtyFourBit b => exact hvalue.elim
  | group => exact hvalue.elim
  | thirtyTwoBit b => exact hvalue.elim

/-- Well-formed field sequences are read back in front of any rest. -/
theorem parseFields_encodeFields_append (hfs : ∀ f ∈ fs, f.WellFormed) (rest : Bytes) :
    parseFields limit (encodeFields fs ++ rest) = (parseFields limit rest).map (fs ++ ·) := by
  induction fs with
  | nil => simp [encodeFields]
  | cons f fs ih =>
      have hrest := ih (fun g hg => hfs g (List.mem_cons_of_mem _ hg))
      simp only [encodeFields, List.flatMap_cons, List.append_assoc] at hrest ⊢
      rw [parseFields_encodeField_append (hfs f List.mem_cons_self), hrest]
      simp [Function.comp_def]

/-- Fields are read back. -/
theorem parseFields_encodeFields
    (hfs : ∀ f ∈ fs, f.WellFormed) : parseFields limit (encodeFields fs) = some fs := by
  have happend : parseFields limit (encodeFields fs ++ []) = _ :=
    parseFields_encodeFields_append hfs []
  simpa using happend

/-! ## Scalar fields of a schema -/

/-- A text field has to be UTF-8. -/
def readUtf8 (b : Bytes) : Option String :=
  String.fromUTF8? ⟨b.toArray⟩

/-- The bytes of a text pass the UTF-8 check. -/
@[simp] theorem readUtf8_utf8 (s : String) : readUtf8 (utf8 s) = some s := by
  have hbytes : (⟨(utf8 s).toArray⟩ : ByteArray) = s.toByteArray := by
    apply ByteArray.ext
    simp [utf8]
  rw [readUtf8, hbytes, String.fromUTF8?, dif_pos s.isValidUTF8]
  rfl

/-- Read a {lit}`string` field; any other wire type is a mismatch. -/
def readString : RawValue → Option Str
  | .lengthDelimited b =>
      match readUtf8 b with
      | none => none
      | some s => if h : s.utf8ByteSize < 2 ^ 64 then some ⟨s, h⟩ else none
  | _ => none

/-- Read a {lit}`bytes` field. -/
def readBytes : RawValue → Option Blob
  | .lengthDelimited b => if h : b.length < 2 ^ 64 then some ⟨b, h⟩ else none
  | _ => none

/-- Read a {lit}`uint64` field. -/
def readUInt64 : RawValue → Option UInt64
  | .varint n => some (UInt64.ofNat n)
  | _ => none

/-- Read a {lit}`uint32` field: the low 32 bits of the number. -/
def readUInt32 : RawValue → Option UInt32
  | .varint n => some (UInt32.ofNat n)
  | _ => none

/-- Read an {lit}`int32` or enumeration field: the low 32 bits of the number. -/
def readInt32 : RawValue → Option Int32
  | .varint n => some (Int64.ofUInt64 (UInt64.ofNat n)).toInt32
  | _ => none

/-- Read a {lit}`bool` field. -/
def readBool : RawValue → Option Bool
  | .varint n => some (n != 0)
  | _ => none

/-- Negative numbers are written sign-extended to 64 bits. -/
def int32Value (n : Int32) : RawValue :=
  .varint n.toInt64.toUInt64.toNat

/-- A {lit}`uint32`. -/
def uint32Value (n : UInt32) : RawValue :=
  .varint n.toNat

/-- A {lit}`bool`. -/
def boolValue (b : Bool) : RawValue :=
  .varint (if b then 1 else 0)

/-- A {lit}`string`. -/
def stringValue (s : Str) : RawValue :=
  .lengthDelimited s.bytes

/-- A {lit}`bytes`. -/
def bytesValue (b : Blob) : RawValue :=
  .lengthDelimited b.bytes

/-- A string is read back. -/
@[simp] theorem readString_stringValue (s : Str) : readString (stringValue s) = some s := by
  simp only [readString, stringValue, Str.bytes, readUtf8_utf8, dif_pos s.size_lt]

/-- Bytes are read back. -/
@[simp] theorem readBytes_bytesValue (b : Blob) : readBytes (bytesValue b) = some b := by
  simp only [readBytes, bytesValue, dif_pos b.length_lt]

/-- A number is read back. -/
@[simp] theorem readInt32_int32Value (n : Int32) : readInt32 (int32Value n) = some n := by
  simp only [readInt32, int32Value, UInt64.ofNat_toNat, Option.some.injEq]
  exact Int32.toInt32_toInt64 n

/-- A flag is read back. -/
@[simp] theorem readBool_boolValue (b : Bool) : readBool (boolValue b) = some b := by
  cases b <;> rfl

theorem wellFormed_string (htag : ValidTag tag) (s : Str) :
    Field.WellFormed ⟨tag, stringValue s⟩ :=
  ⟨htag, s.length_bytes_lt⟩

theorem wellFormed_bytes (htag : ValidTag tag) (b : Blob) :
    Field.WellFormed ⟨tag, bytesValue b⟩ :=
  ⟨htag, b.length_lt⟩

theorem wellFormed_int32 (htag : ValidTag tag) (n : Int32) :
    Field.WellFormed ⟨tag, int32Value n⟩ :=
  ⟨htag, n.toInt64.toUInt64.toNat_lt⟩

theorem wellFormed_bool (htag : ValidTag tag) (b : Bool) :
    Field.WellFormed ⟨tag, boolValue b⟩ := by
  refine ⟨htag, ?_⟩
  cases b <;> simp [boolValue]

/-- A message within the length limit. -/
theorem wellFormed_message (htag : ValidTag tag)
    (hb : b.length < 2 ^ 64) : Field.WellFormed ⟨tag, .lengthDelimited b⟩ :=
  ⟨htag, hb⟩

/-! ## Fields with a default

A field without presence is left out when it holds its default value. -/

/-- A string, unless it is empty. -/
def stringField (tag : Nat) (s : Str) : List Field :=
  if s.text = "" then [] else [⟨tag, stringValue s⟩]

@[simp] theorem stringField_default (tag : Nat) : stringField tag default = [] :=
  rfl

/-- Bytes, unless they are empty. -/
def bytesField (tag : Nat) (b : Blob) : List Field :=
  if b.bytes = [] then [] else [⟨tag, bytesValue b⟩]

/-- A number, unless it is zero. -/
def int32Field (tag : Nat) (n : Int32) : List Field :=
  if n = 0 then [] else [⟨tag, int32Value n⟩]

/-- A number, unless it is zero. -/
def uint32Field (tag : Nat) (n : UInt32) : List Field :=
  if n = 0 then [] else [⟨tag, uint32Value n⟩]

/-- A flag, if it is set. -/
def boolField (tag : Nat) (b : Bool) : List Field :=
  if b then [⟨tag, boolValue true⟩] else []

theorem stringField_wellFormed (htag : ValidTag tag) (s : Str) :
    ∀ f ∈ stringField tag s, f.WellFormed := by
  intro f hf
  unfold stringField at hf
  split_ifs at hf
  · simp at hf
  · obtain rfl := List.mem_singleton.mp hf
    exact wellFormed_string htag s

theorem bytesField_wellFormed (htag : ValidTag tag) (b : Blob) :
    ∀ f ∈ bytesField tag b, f.WellFormed := by
  intro f hf
  unfold bytesField at hf
  split_ifs at hf
  · simp at hf
  · obtain rfl := List.mem_singleton.mp hf
    exact wellFormed_bytes htag b

theorem int32Field_wellFormed (htag : ValidTag tag) (n : Int32) :
    ∀ f ∈ int32Field tag n, f.WellFormed := by
  intro f hf
  unfold int32Field at hf
  split_ifs at hf
  · simp at hf
  · obtain rfl := List.mem_singleton.mp hf
    exact wellFormed_int32 htag n

theorem boolField_wellFormed (htag : ValidTag tag) (b : Bool) :
    ∀ f ∈ boolField tag b, f.WellFormed := by
  intro f hf
  unfold boolField at hf
  split_ifs at hf
  · obtain rfl := List.mem_singleton.mp hf
    exact wellFormed_bool htag true
  · simp at hf

/-! ## Messages -/

/-- The depth to which messages and groups may nest. -/
def recursionLimit : Nat := 100

/-- Read a message by merging its fields, in order, into a default value. -/
def decodeMessage {M : Type*} (limit : Nat) (merge : M → Field → Option M) (init : M)
    (b : Bytes) : Option M :=
  match parseFields limit b with
  | none => none
  | some fs => fs.foldlM merge init

/-- Read a field that holds a message, one level deeper. -/
def readMessage {M : Type*} (limit : Nat) (merge : M → Field → Option M) (init : M) :
    RawValue → Option M
  | .lengthDelimited b => if limit = 0 then none else decodeMessage (limit - 1) merge init b
  | _ => none

section Messages

variable {M : Type*} {limit : Nat} {merge : M → Field → Option M} {init : M}

/-- Reading written fields merges exactly those fields. -/
theorem decodeMessage_encodeFields {fs : List Field} (hfs : ∀ f ∈ fs, f.WellFormed) :
    decodeMessage limit merge init (encodeFields fs) = fs.foldlM merge init := by
  simp [decodeMessage, parseFields_encodeFields hfs]

/-- A nested message is read back. -/
theorem readMessage_encodeFields {fs : List Field} (hlimit : limit ≠ 0)
    (hfs : ∀ f ∈ fs, f.WellFormed) :
    readMessage limit merge init (.lengthDelimited (encodeFields fs)) = fs.foldlM merge init := by
  simp [readMessage, hlimit, decodeMessage_encodeFields hfs]

/-- Without a key there is no message. -/
theorem decodeMessage_of_decodeKey_eq_none {b : Bytes} (hne : b ≠ [])
    (hkey : decodeKey b = none) : decodeMessage limit merge init b = none := by
  simp [decodeMessage, parseFields_of_decodeKey_eq_none hne hkey]

end Messages

end Proto3
