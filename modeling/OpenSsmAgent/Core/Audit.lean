import OpenSsmAgent.Lib.HashChain
import OpenSsmAgent.Lib.Sha256

/-!
# The audit chain

The audit log of {lit}`osa-core/src/audit.rs`: records, the canonical encoding
that is hashed into the chain, sealed entries, and the verifier with its error
paths.

Main results:

- Theorem {lit}`hashInput_injective`: the hashed encoding determines the
  sequence number, every record field and the previous hash.
- Theorem {lit}`verifyLoop_eq_ok_iff`: the verifier's loop accepts exactly the
  hash chains of {lit}`AuditEntry.Links`.
- Theorem {lit}`verify_tamper_evident`: lists accepted under one anchored head
  are equal, and lists that carry one hash agree up to it.
-/

open Framing HashChain Sha256

namespace OpenSsmAgent
namespace Audit

/-! ## Records and entries -/

/-- A 32-byte SHA-256 chain hash. -/
abbrev Hash := Fixed 32

/-- The {lit}`prev_hash` of the first entry. -/
def genesisPrev : Hash :=
  ⟨List.replicate 32 0, by simp⟩

/-- The authorization outcome recorded for a dispatch. -/
inductive Decision where
  | allow
  | deny
deriving DecidableEq

/-- The token that is hashed into the chain. -/
def Decision.asStr : Decision → Str
  | .allow => .lit "allow"
  | .deny => .lit "deny"

theorem Decision.asStr_injective : Function.Injective Decision.asStr := by
  intro d e h
  revert h
  cases d <;> cases e <;> decide

/-- {lit}`Decision::parse`. -/
def Decision.parse (s : String) : Option Decision :=
  if s = "allow" then some .allow else if s = "deny" then some .deny else none

@[simp] theorem Decision.parse_asStr (d : Decision) : Decision.parse d.asStr.text = some d := by
  cases d <;> decide

/-- The content of one audit record. -/
structure AuditRecord where
  tsUnix : Int64
  subject : Str
  kind : Str
  target : Str
  runAs : Str
  decision : Decision
deriving DecidableEq

/-- A record with its position and chain hashes. -/
structure AuditEntry where
  seq : UInt64
  record : AuditRecord
  prevHash : Hash
  hash : Hash
deriving DecidableEq

/-- The text fields in the order in which they are hashed. -/
def AuditRecord.fields (r : AuditRecord) : List Str :=
  [r.subject, r.kind, r.target, r.runAs, r.decision.asStr]

/-- The bytes fed to the hash: fixed field order, each text under its length,
finished with the previous hash. -/
def hashInput (seq : UInt64) (r : AuditRecord) (prevHash : Hash) : Bytes :=
  be64 seq ++ beI64 r.tsUnix ++ r.fields.flatMap (fun field => pushField field.bytes) ++
    prevHash.bytes

/-- {lit}`compute_hash`. -/
def computeHash (seq : UInt64) (r : AuditRecord) (prevHash : Hash) : Hash :=
  sha256 (hashInput seq r prevHash)

/-- Seal a record at a position onto the previous hash. -/
def AuditEntry.seal (seq : UInt64) (record : AuditRecord) (prevHash : Hash) : AuditEntry where
  seq := seq
  record := record
  prevHash := prevHash
  hash := computeHash seq record prevHash

/-- The bytes whose digest an entry claims to carry. -/
def AuditEntry.hashInput (e : AuditEntry) : Bytes :=
  Audit.hashInput e.seq e.record e.prevHash

/-- No field boundary can be shifted: the hashed bytes determine the sequence
number, every record field and the previous hash. -/
theorem hashInput_injective {seq seq' : UInt64} {r r' : AuditRecord} {p p' : Hash}
    (h : hashInput seq r p = hashInput seq' r' p') : seq = seq' ∧ r = r' ∧ p = p' := by
  simp only [hashInput, AuditRecord.fields, List.flatMap_cons, List.flatMap_nil, List.append_nil,
    List.append_assoc] at h
  obtain ⟨hseq, h⟩ := be64_selfDelimiting h
  obtain ⟨hts, h⟩ := beI64_selfDelimiting h
  obtain ⟨hsubject, h⟩ := lengthPrefixed_text h
  obtain ⟨hkind, h⟩ := lengthPrefixed_text h
  obtain ⟨htarget, h⟩ := lengthPrefixed_text h
  obtain ⟨hrunAs, h⟩ := lengthPrefixed_text h
  obtain ⟨hdecision, h⟩ := lengthPrefixed_text h
  have hdecision := Decision.asStr_injective hdecision
  refine ⟨hseq, ?_, Fixed.bytes_injective h⟩
  cases r
  cases r'
  simp_all

/-! ## Verification -/

/-- Why a chain failed verification. -/
inductive AuditError where
  | outOfOrder (index : Nat) (seq expected : UInt64)
  | brokenLink (seq : UInt64)
  | altered (seq : UInt64)
  | truncated
  | unexpectedHead
deriving DecidableEq

/-- The loop of {lit}`verify` from an index on; {lit}`index as u64` is the index
modulo the word size. -/
def verifyLoop : Nat → Hash → List AuditEntry → Except AuditError Unit
  | _, _, [] => .ok ()
  | index, prev, e :: rest =>
      let expected := UInt64.ofNat index
      if e.seq ≠ expected then .error (.outOfOrder index e.seq expected)
      else if e.prevHash ≠ prev then .error (.brokenLink e.seq)
      else if computeHash e.seq e.record e.prevHash ≠ e.hash then .error (.altered e.seq)
      else verifyLoop (index + 1) e.hash rest

/-- The anchor check after the loop. -/
def checkHead (entries : List AuditEntry) : Option Hash → Except AuditError Unit
  | none => .ok ()
  | some head =>
      match entries.getLast? with
      | some last => if last.hash = head then .ok () else .error .unexpectedHead
      | none => .error .truncated

/-- {lit}`verify`: recompute the chain, then compare its head with the anchor. -/
def verify (entries : List AuditEntry) (expectedHead : Option Hash) : Except AuditError Unit := do
  verifyLoop 0 genesisPrev entries
  checkHead entries expectedHead

/-- What the verifier asks of the entry at an index after the hash {lit}`prev`. -/
def AuditEntry.Links (index : Nat) (prev : Hash) (e : AuditEntry) : Prop :=
  e.seq = UInt64.ofNat index ∧ e.prevHash = prev ∧ sha256 e.hashInput = e.hash

/-- The verifier's loop accepts exactly the hash chains. -/
theorem verifyLoop_eq_ok_iff (index : Nat) (prev : Hash) (entries : List AuditEntry) :
    verifyLoop index prev entries = .ok () ↔
      Chain AuditEntry.Links AuditEntry.hash index prev entries := by
  induction entries generalizing index prev with
  | nil => simp [verifyLoop, Chain]
  | cons e rest ih =>
      have hhash : computeHash e.seq e.record e.prevHash = sha256 e.hashInput := rfl
      simp only [verifyLoop, Chain, AuditEntry.Links, ← ih, hhash]
      split_ifs <;> simp_all

theorem checkHead_some_eq_ok_iff (entries : List AuditEntry) (head : Hash) :
    checkHead entries (some head) = .ok () ↔
      ∃ last, entries.getLast? = some last ∧ last.hash = head := by
  cases h : entries.getLast? with
  | none => simp [checkHead, h]
  | some last =>
      simp only [checkHead, h]
      split_ifs <;> simp_all

theorem verify_eq_ok_iff (entries : List AuditEntry) (expectedHead : Option Hash) :
    verify entries expectedHead = .ok () ↔
      Chain AuditEntry.Links AuditEntry.hash 0 genesisPrev entries ∧
        checkHead entries expectedHead = .ok () := by
  rw [← verifyLoop_eq_ok_iff]
  unfold verify
  cases verifyLoop 0 genesisPrev entries with
  | error err => simp [bind, Except.bind]
  | ok _ => simp [bind, Except.bind]

/-! ## Tamper evidence -/

/-- Every byte string hashed by a list of entries. -/
def hashInputs (entries : List AuditEntry) : List Bytes :=
  entries.map AuditEntry.hashInput

/-- The positions a chain of at most {lit}`2 ^ 64` entries can name. -/
def AuditEntry.LinksBelow (index : Nat) (prev : Hash) (e : AuditEntry) : Prop :=
  index < 2 ^ 64 ∧ e.Links index prev

/-- In a list that fits the sequence space the positions are exact. -/
theorem chain_linksBelow {index : Nat} {prev : Hash} {entries : List AuditEntry}
    (hlen : index + entries.length ≤ 2 ^ 64)
    (h : Chain AuditEntry.Links AuditEntry.hash index prev entries) :
    Chain AuditEntry.LinksBelow AuditEntry.hash index prev entries := by
  induction entries generalizing index prev with
  | nil => trivial
  | cons e rest ih =>
      simp only [List.length_cons] at hlen
      exact ⟨⟨by omega, h.1⟩, ih (by omega) h.2⟩

/-- Without SHA-256 collisions an entry's hash commits to its position, its
predecessor's hash and its content. -/
theorem committing_of_collisionFree {xs ys : List AuditEntry}
    (hfree : CollisionFreeOn {b | b ∈ hashInputs xs ++ hashInputs ys}) :
    Committing AuditEntry.LinksBelow AuditEntry.hash xs ys := by
  rintro i j p q e f he hf ⟨hi, hseq, hprev, hhash⟩ ⟨hj, hseq', hprev', hhash'⟩ heq
  have hmem : e.hashInput ∈ hashInputs xs ++ hashInputs ys :=
    List.mem_append_left _ (List.mem_map_of_mem he)
  have hmem' : f.hashInput ∈ hashInputs xs ++ hashInputs ys :=
    List.mem_append_right _ (List.mem_map_of_mem hf)
  have hinput : e.hashInput = f.hashInput := hfree hmem hmem' (by rw [hhash, hhash', heq])
  obtain ⟨hs, hr, hp⟩ := hashInput_injective hinput
  have hij : i = j := by
    have hmod := congrArg UInt64.toNat (hseq.symm.trans (hs.trans hseq'))
    simp only [UInt64.toNat_ofNat'] at hmod
    rwa [Nat.mod_eq_of_lt hi, Nat.mod_eq_of_lt hj] at hmod
  have hef : e = f := by
    cases e
    cases f
    simp_all
  exact ⟨hij, hprev.symm.trans (hp.trans hprev'), hef⟩

/-- Two lists that {lit}`verify` accepts under one anchored head are equal, and
two accepted lists that carry one hash agree on every entry up to it. -/
theorem verify_tamper_evident (xs ys : List AuditEntry)
    (hxs : xs.length ≤ 2 ^ 64) (hys : ys.length ≤ 2 ^ 64)
    (hfree : CollisionFreeOn {b | b ∈ hashInputs xs ++ hashInputs ys}) :
    (∀ head, verify xs (some head) = .ok () → verify ys (some head) = .ok () → xs = ys) ∧
      (∀ i j e f, verify xs none = .ok () → verify ys none = .ok () →
        xs[i]? = some e → ys[j]? = some f → e.hash = f.hash →
          i = j ∧ xs.take (i + 1) = ys.take (j + 1)) := by
  have hcommit := committing_of_collisionFree hfree
  constructor
  · intro head hx hy
    rw [verify_eq_ok_iff, checkHead_some_eq_ok_iff] at hx hy
    obtain ⟨hx, e, he, hehead⟩ := hx
    obtain ⟨hy, f, hf, hfhead⟩ := hy
    exact (chain_linksBelow (by omega) hx).eq_of_last_hash_eq hcommit
      (chain_linksBelow (by omega) hy) he hf (hehead.trans hfhead.symm)
  · intro i j e f hx hy he hf hhash
    rw [verify_eq_ok_iff] at hx hy
    exact (chain_linksBelow (by omega) hx.1).agree_of_hash_eq hcommit
      (chain_linksBelow (by omega) hy.1) he hf hhash

/-- A decision on one operator's dispatch. -/
def sampleRecord (decision : Decision) : AuditRecord where
  tsUnix := 1700000000
  subject := .lit "alice"
  kind := .lit "exec"
  target := .lit "host-1"
  runAs := .lit ""
  decision := decision

/-- A chain of two records, the second with the given decision. -/
def sampleChain (decision : Decision) : List AuditEntry :=
  let first := AuditEntry.seal 0 (sampleRecord .allow) genesisPrev
  [first, AuditEntry.seal 1 (sampleRecord decision) first.hash]

/-- Rewriting the last decision and re-chaining passes without an anchor; the
anchored head of the original rejects it. -/
theorem sampleChain_rewrite_rejected :
    verify (sampleChain .allow) none = .ok () ∧
      verify (sampleChain .deny) (some (AuditEntry.seal 1 (sampleRecord .deny)
        (AuditEntry.seal 0 (sampleRecord .allow) genesisPrev).hash).hash) = .ok () ∧
      verify (sampleChain .allow) (some (AuditEntry.seal 1 (sampleRecord .deny)
        (AuditEntry.seal 0 (sampleRecord .allow) genesisPrev).hash).hash) ≠ .ok () := by
  have hchains : verify (sampleChain .allow) none = .ok () ∧
      verify (sampleChain .deny) (some (AuditEntry.seal 1 (sampleRecord .deny)
        (AuditEntry.seal 0 (sampleRecord .allow) genesisPrev).hash).hash) = .ok () ∧
      (∀ x ∈ hashInputs (sampleChain .allow) ++ hashInputs (sampleChain .deny),
        ∀ y ∈ hashInputs (sampleChain .allow) ++ hashInputs (sampleChain .deny),
          sha256 x = sha256 y → x = y) ∧
      sampleChain .allow ≠ sampleChain .deny := by
    decide +kernel
  obtain ⟨hallow, hdeny, hinj, hne⟩ := hchains
  refine ⟨hallow, hdeny, ?_⟩
  intro haccept
  have hfree : CollisionFreeOn
      {b | b ∈ hashInputs (sampleChain .allow) ++ hashInputs (sampleChain .deny)} :=
    fun x hx y hy hxy => hinj x hx y hy hxy
  exact hne ((verify_tamper_evident (sampleChain .allow) (sampleChain .deny) (by decide)
    (by decide) hfree).1 _ haccept hdeny)

end Audit
end OpenSsmAgent
