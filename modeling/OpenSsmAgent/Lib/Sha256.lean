import OpenSsmAgent.Lib.Framing

/-!
# SHA-256

An executable SHA-256 over byte strings, written so that the kernel can evaluate
it on short inputs.  The hash function is used as it is; collision resistance is
a property of a set of inputs and is always an explicit assumption.

Main results:

- Definition {lit}`sha256`: the digest of a byte string, a 32-byte value by
  construction.
- Definition {lit}`CollisionFreeOn`: no two different inputs of a set share a
  digest.
-/

open Framing

namespace Sha256

/-! ## Words and the message schedule -/

/-- Rotate a word right. -/
def rotr (x : UInt32) (n : UInt32) : UInt32 :=
  (x >>> n) ||| (x <<< (32 - n))

def smallSigma0 (x : UInt32) : UInt32 :=
  rotr x 7 ^^^ rotr x 18 ^^^ (x >>> 3)

def smallSigma1 (x : UInt32) : UInt32 :=
  rotr x 17 ^^^ rotr x 19 ^^^ (x >>> 10)

def bigSigma0 (x : UInt32) : UInt32 :=
  rotr x 2 ^^^ rotr x 13 ^^^ rotr x 22

def bigSigma1 (x : UInt32) : UInt32 :=
  rotr x 6 ^^^ rotr x 11 ^^^ rotr x 25

/-- The sixty-four round constants. -/
def roundConstants : List UInt32 :=
  [0x428a2f98, 0x71374491, 0xb5c0fbcf, 0xe9b5dba5, 0x3956c25b, 0x59f111f1, 0x923f82a4, 0xab1c5ed5,
   0xd807aa98, 0x12835b01, 0x243185be, 0x550c7dc3, 0x72be5d74, 0x80deb1fe, 0x9bdc06a7, 0xc19bf174,
   0xe49b69c1, 0xefbe4786, 0x0fc19dc6, 0x240ca1cc, 0x2de92c6f, 0x4a7484aa, 0x5cb0a9dc, 0x76f988da,
   0x983e5152, 0xa831c66d, 0xb00327c8, 0xbf597fc7, 0xc6e00bf3, 0xd5a79147, 0x06ca6351, 0x14292967,
   0x27b70a85, 0x2e1b2138, 0x4d2c6dfc, 0x53380d13, 0x650a7354, 0x766a0abb, 0x81c2c92e, 0x92722c85,
   0xa2bfe8a1, 0xa81a664b, 0xc24b8b70, 0xc76c51a3, 0xd192e819, 0xd6990624, 0xf40e3585, 0x106aa070,
   0x19a4c116, 0x1e376c08, 0x2748774c, 0x34b0bcb5, 0x391c0cb3, 0x4ed8aa4a, 0x5b9cca4f, 0x682e6ff3,
   0x748f82ee, 0x78a5636f, 0x84c87814, 0x8cc70208, 0x90befffa, 0xa4506ceb, 0xbef9a3f7, 0xc67178f2]

/-- Extend a schedule, kept most recent word first, by {lit}`n` words. -/
def extendSchedule : Nat → List UInt32 → List UInt32
  | 0, w => w
  | n + 1, w =>
      extendSchedule n
        ((smallSigma1 (w.getD 1 0) + w.getD 6 0 + smallSigma0 (w.getD 14 0) + w.getD 15 0) :: w)

/-- The sixty-four schedule words of a sixteen-word block. -/
def schedule (block : List UInt32) : List UInt32 :=
  (extendSchedule 48 block.reverse).reverse

/-! ## Compression -/

/-- The eight working variables. -/
structure Registers where
  a : UInt32
  b : UInt32
  c : UInt32
  d : UInt32
  e : UInt32
  f : UInt32
  g : UInt32
  h : UInt32

def initial : Registers :=
  ⟨0x6a09e667, 0xbb67ae85, 0x3c6ef372, 0xa54ff53a, 0x510e527f, 0x9b05688c, 0x1f83d9ab, 0x5be0cd19⟩

/-- One round with the sum of its round constant and schedule word. -/
def round (r : Registers) (kw : UInt32) : Registers :=
  let ch := (r.e &&& r.f) ^^^ (~~~r.e &&& r.g)
  let maj := (r.a &&& r.b) ^^^ (r.a &&& r.c) ^^^ (r.b &&& r.c)
  let t1 := r.h + bigSigma1 r.e + ch + kw
  let t2 := bigSigma0 r.a + maj
  ⟨t1 + t2, r.a, r.b, r.c, r.d + t1, r.e, r.f, r.g⟩

/-- Absorb one sixteen-word block. -/
def compress (r : Registers) (block : List UInt32) : Registers :=
  let s := (List.zipWith (· + ·) roundConstants (schedule block)).foldl round r
  ⟨r.a + s.a, r.b + s.b, r.c + s.c, r.d + s.d, r.e + s.e, r.f + s.f, r.g + s.g, r.h + s.h⟩

/-- Absorb {lit}`n` blocks from the front of a word list. -/
def absorb : Nat → Registers → List UInt32 → Registers
  | 0, r, _ => r
  | n + 1, r, w => absorb n (compress r (w.take 16)) (w.drop 16)

/-! ## Padding and the digest -/

/-- Big-endian words of a byte string whose length is a multiple of four. -/
def toWords : Bytes → List UInt32
  | a :: b :: c :: d :: rest =>
      ((a.toUInt32 <<< 24) ||| (b.toUInt32 <<< 16) ||| (c.toUInt32 <<< 8) ||| d.toUInt32) ::
        toWords rest
  | _ => []

/-- The padded message: a one bit, zeros up to eight bytes short of a block, and
the bit length. -/
def pad (m : Bytes) : Bytes :=
  m ++ 0x80 :: List.replicate ((119 - m.length % 64) % 64) 0 ++ beBytes 8 (8 * m.length)

/-- The registers written out most significant byte first. -/
def Registers.bytes (r : Registers) : Bytes :=
  [r.a, r.b, r.c, r.d, r.e, r.f, r.g, r.h].flatMap (fun w => beBytes 4 w.toNat)

theorem Registers.length_bytes (r : Registers) : r.bytes.length = 32 := by
  simp [Registers.bytes]

/-- The SHA-256 digest of a byte string. -/
def sha256 (m : Bytes) : Fixed 32 :=
  let w := toWords (pad m)
  ⟨(absorb (w.length / 16) initial w).bytes, Registers.length_bytes _⟩

example : (sha256 (utf8 "abc")).bytes =
    beBytes 32 0xba7816bf8f01cfea414140de5dae2223b00361a396177a9cb410ff61f20015ad := by
  decide +kernel

/-! ## Collision freedom -/

/-- No two different inputs of the set share a digest. -/
def CollisionFreeOn (inputs : Set Bytes) : Prop :=
  Set.InjOn sha256 inputs

theorem CollisionFreeOn.mono {s t : Set Bytes} (h : CollisionFreeOn t) (hst : s ⊆ t) :
    CollisionFreeOn s :=
  Set.InjOn.mono hst h

end Sha256
