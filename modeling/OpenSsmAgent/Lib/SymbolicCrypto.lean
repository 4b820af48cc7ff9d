import OpenSsmAgent.Lib.Framing

/-!
# Ideal cryptographic primitives

Symbolic counterparts of Diffie--Hellman exchange, key derivation, authenticated
encryption and digital signatures.  Secrets are free terms: a derived key is the
tree of its derivation, a ciphertext made by sealing remembers what was sealed,
a signature made by signing remembers what was signed.  Byte strings that were
made in no such way are {lit}`raw` and never open or verify.

A Diffie--Hellman secret is identified by its public point, and the shared
secret of two parties by the unordered pair of their coordinates.  What an
attacker can derive is the closure of the secrets it holds under the public
operations.

Main results:

- Theorem {lit}`aeadOpen_eq_some_iff`: opening succeeds exactly on what was
  sealed under that key, nonce and associated data.
- Theorem {lit}`verifySignature_eq_ok_iff`: verification succeeds exactly on
  signatures of that message by the holder of that key.
- Theorem {lit}`knows_iff_root`: an attacker knows a derived key exactly if it
  knows the shared secret at the root of its derivation.
-/

open Framing

namespace SymbolicCrypto

/-! ## Diffie--Hellman on Curve25519 -/

/-- The prime of the coordinate field. -/
def fieldPrime : Nat := 2 ^ 255 - 19

/-- A public key as it is transported. -/
abbrev Point := Fixed 32

/-- The number written by a byte string, least significant byte first. -/
def leNat : Bytes → Nat
  | [] => 0
  | b :: rest => b.toNat + 256 * leNat rest

/-- The coordinate a public key stands for: the top bit is ignored and the rest
is reduced, so that several byte strings stand for one point. -/
def uCoordinate (p : Point) : Nat :=
  leNat p.bytes % 2 ^ 255 % fieldPrime

/-- The coordinates of the points of small order, for which the shared secret
does not depend on the other party. -/
def lowOrderCoordinates : List Nat :=
  [0, 1,
   325606250916557431795983626356110631294008115727848805560023387167927233504,
   39382357235489614581723060781553021112529911719440698176882885853963445705823,
   fieldPrime - 1]

/-- {lit}`was_contributory`: the peer's point is not of small order. -/
def contributory (peer : Point) : Bool :=
  uCoordinate peer ∉ lowOrderCoordinates

/-- A shared secret. -/
abbrev Shared := Sym2 Nat

/-- The shared secret of the holder of one point's secret with another point.  The
pair is written in order, so that both sides evaluate to one term. -/
def diffieHellman (own peer : Point) : Shared :=
  s(min (uCoordinate own) (uCoordinate peer), max (uCoordinate own) (uCoordinate peer))

theorem diffieHellman_eq (own peer : Point) :
    diffieHellman own peer = s(uCoordinate own, uCoordinate peer) := by
  unfold diffieHellman
  rcases le_total (uCoordinate own) (uCoordinate peer) with h | h
  · rw [min_eq_left h, max_eq_right h]
  · rw [min_eq_right h, max_eq_left h, Sym2.eq_swap]

theorem diffieHellman_comm (p q : Point) : diffieHellman p q = diffieHellman q p := by
  simp only [diffieHellman, min_comm, max_comm]

/-! ## Key derivation -/

/-- A key is the tree of its HKDF derivation. -/
inductive Key where
  | extract (salt : Bytes) (ikm : Shared)
  | expand (prk : Key) (info : Bytes)
deriving DecidableEq

/-- The shared secret a key was derived from. -/
def Key.root : Key → Shared
  | .extract _ ikm => ikm
  | .expand prk _ => prk.root

/-! ## Authenticated encryption -/

/-- A ciphertext with its tag. -/
inductive Ciphertext where
  | sealed (key : Key) (nonce aad plaintext : Bytes)
  | raw (b : Bytes)
deriving DecidableEq

/-- The key and nonce a ciphertext was made with; other bytes have none. -/
def Ciphertext.keyNonce : Ciphertext → Option (Key × Bytes)
  | .sealed key nonce _ _ => some (key, nonce)
  | .raw _ => none

/-- Open a ciphertext under a key, a nonce and associated data. -/
def aeadOpen (key : Key) (nonce aad : Bytes) : Ciphertext → Option Bytes
  | .sealed k n a p => if k = key ∧ n = nonce ∧ a = aad then some p else none
  | .raw _ => none

/-- Opening succeeds exactly on what was sealed under the same key, nonce and
associated data. -/
theorem aeadOpen_eq_some_iff {key : Key} {nonce aad p : Bytes} {c : Ciphertext} :
    aeadOpen key nonce aad c = some p ↔ c = .sealed key nonce aad p := by
  cases c with
  | raw b => simp [aeadOpen]
  | sealed k n a q =>
      simp only [aeadOpen, Ciphertext.sealed.injEq]
      split_ifs with h
      · simp [h]
      · simp only [false_iff]
        tauto

/-! ## Signatures -/

/-- A private signing key. -/
structure SigningKey where
  id : Nat
deriving DecidableEq

/-- A public verification key as it is transported. -/
inductive VerifyingKey where
  | ofKey (key : SigningKey)
  | raw (b : Bytes)
deriving DecidableEq

/-- A signature as it is transported.  Several byte strings are signatures of one
message; {lit}`form` tells them apart. -/
inductive Signature where
  | signed (key : SigningKey) (message : Bytes) (form : Nat)
  | raw (b : Bytes)
deriving DecidableEq

/-- The public half of a signing key. -/
def SigningKey.verifyingKey (key : SigningKey) : VerifyingKey :=
  .ofKey key

/-- Why a signature was refused. -/
inductive VerifyError where
  | badKey
  | badSignature
deriving DecidableEq

/-- Verify a signature over a message. -/
def verifySignature : VerifyingKey → Bytes → Signature → Except VerifyError Unit
  | .raw _, _, _ => .error .badKey
  | .ofKey _, _, .raw _ => .error .badSignature
  | .ofKey k, message, .signed key m _ =>
      if key = k ∧ m = message then .ok () else .error .badSignature

/-- Verification succeeds exactly on signatures of that message by the holder of
that key. -/
theorem verifySignature_eq_ok_iff {vk : VerifyingKey} {message : Bytes} {sig : Signature} :
    verifySignature vk message sig = .ok () ↔
      ∃ key form, vk = .ofKey key ∧ sig = .signed key message form := by
  cases vk with
  | raw b => simp [verifySignature]
  | ofKey k =>
      cases sig with
      | raw b => simp [verifySignature]
      | signed key m form =>
          simp only [verifySignature, VerifyingKey.ofKey.injEq, Signature.signed.injEq]
          split_ifs with h
          · simp [h]
          · simp only [false_iff]
            rintro ⟨k', form', rfl, rfl, rfl, -⟩
            exact h ⟨rfl, rfl⟩

/-! ## What an attacker can derive -/

/-- The shared secrets of a party that holds the secrets of some coordinates. -/
inductive KnowsShared (secrets : Set Nat) : Shared → Prop
  | exchange {own peer : Nat} (h : own ∈ secrets) : KnowsShared secrets s(own, peer)

/-- The keys such a party can derive. -/
inductive Knows (secrets : Set Nat) : Key → Prop
  | extract {salt : Bytes} {ikm : Shared} (h : KnowsShared secrets ikm) :
      Knows secrets (.extract salt ikm)
  | expand {prk : Key} {info : Bytes} (h : Knows secrets prk) : Knows secrets (.expand prk info)

theorem knowsShared_iff {secrets : Set Nat} {p q : Nat} :
    KnowsShared secrets s(p, q) ↔ p ∈ secrets ∨ q ∈ secrets := by
  constructor
  · intro h
    generalize heq : s(p, q) = pair at h
    cases h with
    | exchange hown =>
        rcases Sym2.eq_iff.mp heq with ⟨rfl, rfl⟩ | ⟨rfl, rfl⟩
        · exact Or.inl hown
        · exact Or.inr hown
  · rintro (h | h)
    · exact .exchange h
    · rw [Sym2.eq_swap]
      exact .exchange h

/-- An attacker knows a derived key exactly if it knows the shared secret at the
root of its derivation. -/
theorem knows_iff_root {secrets : Set Nat} {key : Key} :
    Knows secrets key ↔ KnowsShared secrets key.root := by
  induction key with
  | extract salt ikm =>
      constructor
      · rintro ⟨h⟩
        exact h
      · exact .extract
  | expand prk info ih =>
      constructor
      · intro h
        cases h with
        | expand hprk => exact ih.mp hprk
      · intro h
        exact .expand (ih.mpr h)

end SymbolicCrypto
