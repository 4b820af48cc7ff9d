import Mathlib

/-!
# Hash chains

A hash chain is a list whose entries each name their position, the hash of their
predecessor and their own hash.  The rule that ties the three together is a
parameter; what makes a chain tamper evident is that an entry's hash commits to
its position, its predecessor's hash and its content.

Main results:

- Theorem {lit}`Chain.links_at`: every entry of a chain obeys the rule at its
  position.
- Theorem {lit}`chain_concat_iff`: a chain is extended by an entry that obeys the rule
  after its last hash.
- Theorem {lit}`Chain.agree_of_hash_eq`: two chains that carry one hash agree on
  everything up to it.
- Theorem {lit}`Chain.eq_of_last_hash_eq`: two chains with one head are equal.
-/

namespace HashChain

variable {E H : Type*} {links : Nat → H → E → Prop} {hash : E → H}

/-- The entries obey the rule from position {lit}`start` on, the first of them
after the hash {lit}`prev`. -/
def Chain (links : Nat → H → E → Prop) (hash : E → H) : Nat → H → List E → Prop
  | _, _, [] => True
  | start, prev, e :: rest => links start prev e ∧ Chain links hash (start + 1) (hash e) rest

/-- The hash an entry at the given position has to name as its predecessor's. -/
def predecessor (hash : E → H) (anchor : H) (entries : List E) : Nat → H
  | 0 => anchor
  | i + 1 => (entries[i]?.map hash).getD anchor

@[simp] theorem predecessor_zero (anchor : H) (entries : List E) :
    predecessor hash anchor entries 0 = anchor :=
  rfl

theorem predecessor_succ {anchor : H} {entries : List E} {i : Nat} {e : E}
    (he : entries[i]? = some e) : predecessor hash anchor entries (i + 1) = hash e := by
  simp [predecessor, he]

/-- Dropping the first entry moves its hash into the anchor. -/
theorem predecessor_cons (anchor : H) (e : E) (rest : List E) {i : Nat} {f : E}
    (hf : rest[i]? = some f) :
    predecessor hash anchor (e :: rest) (i + 1) = predecessor hash (hash e) rest i := by
  cases i with
  | zero => rfl
  | succ i =>
      have hlt : i < rest.length := by
        have := (List.getElem?_eq_some_iff.mp hf).1
        omega
      simp [predecessor, hlt]

/-- Every entry of a chain obeys the rule at its position. -/
theorem Chain.links_at {start i : Nat} {anchor : H} {entries : List E} {e : E}
    (h : Chain links hash start anchor entries) (he : entries[i]? = some e) :
    links (start + i) (predecessor hash anchor entries i) e := by
  induction entries generalizing start anchor i with
  | nil => simp at he
  | cons f rest ih =>
      cases i with
      | zero =>
          simp only [List.getElem?_cons_zero, Option.some.injEq] at he
          subst he
          simpa using h.1
      | succ i =>
          rw [List.getElem?_cons_succ] at he
          have hrest := ih h.2 he
          rw [predecessor_cons anchor f rest he]
          rwa [Nat.add_assoc, Nat.add_comm 1 i] at hrest

/-- The hash the next entry of a list has to name. -/
def lastHash (hash : E → H) (anchor : H) (entries : List E) : H :=
  (entries.getLast?.map hash).getD anchor

/-- A chain is extended by an entry that obeys the rule after its last hash. -/
theorem chain_concat_iff {start : Nat} {anchor : H} {entries : List E} {e : E} :
    Chain links hash start anchor (entries ++ [e]) ↔
      Chain links hash start anchor entries ∧
        links (start + entries.length) (lastHash hash anchor entries) e := by
  induction entries generalizing start anchor with
  | nil => simp [Chain, lastHash]
  | cons f rest ih =>
      have hlast : lastHash hash anchor (f :: rest) = lastHash hash (hash f) rest := by
        cases hrest : rest.getLast? <;> simp [lastHash, List.getLast?_cons, hrest]
      rw [List.cons_append, Chain, Chain, ih, hlast, List.length_cons, and_assoc,
        Nat.add_assoc, Nat.add_comm 1]

/-- On the entries of two lists, an entry's hash commits to its position, its
predecessor's hash and its content. -/
def Committing (links : Nat → H → E → Prop) (hash : E → H) (xs ys : List E) : Prop :=
  ∀ ⦃i j : Nat⦄ ⦃p q : H⦄ ⦃e f : E⦄, e ∈ xs → f ∈ ys →
    links i p e → links j q f → hash e = hash f → i = j ∧ p = q ∧ e = f

section TamperEvidence

variable {anchor : H} {xs ys : List E}

/-- Two chains that carry one hash agree on everything up to it.

The induction runs backwards along the first chain: the shared hash fixes the
entry and the hash of its predecessor, which the second chain then carries too. -/
theorem Chain.agree_of_hash_eq (hcommit : Committing links hash xs ys)
    (hx : Chain links hash 0 anchor xs) (hy : Chain links hash 0 anchor ys)
    {i j : Nat} {e f : E} (he : xs[i]? = some e) (hf : ys[j]? = some f)
    (hhash : hash e = hash f) : i = j ∧ xs.take (i + 1) = ys.take (j + 1) := by
  induction i generalizing j e f with
  | zero =>
      obtain ⟨hij, -, hef⟩ := hcommit (List.mem_of_getElem? he) (List.mem_of_getElem? hf)
        (hx.links_at he) (hy.links_at hf) hhash
      obtain rfl : j = 0 := by omega
      subst hef
      simp [List.take_add_one, he, hf]
  | succ i ih =>
      obtain ⟨hij, hprev, hef⟩ := hcommit (List.mem_of_getElem? he) (List.mem_of_getElem? hf)
        (hx.links_at he) (hy.links_at hf) hhash
      obtain rfl : j = i + 1 := by omega
      subst hef
      have hix : i < xs.length := by
        have := (List.getElem?_eq_some_iff.mp he).1
        omega
      have hiy : i < ys.length := by
        have := (List.getElem?_eq_some_iff.mp hf).1
        omega
      have hpx : xs[i]? = some xs[i] := List.getElem?_eq_getElem hix
      have hpy : ys[i]? = some ys[i] := List.getElem?_eq_getElem hiy
      rw [predecessor_succ hpx, predecessor_succ hpy] at hprev
      obtain ⟨-, htake⟩ := ih hpx hpy hprev
      refine ⟨rfl, ?_⟩
      rw [List.take_add_one, htake, he, List.take_add_one (l := ys) (i := i + 1), hf]

/-- Two chains whose last entries carry one hash are equal. -/
theorem Chain.eq_of_last_hash_eq (hcommit : Committing links hash xs ys)
    (hx : Chain links hash 0 anchor xs) (hy : Chain links hash 0 anchor ys)
    {e f : E} (he : xs.getLast? = some e) (hf : ys.getLast? = some f)
    (hhash : hash e = hash f) : xs = ys := by
  have hxne : xs ≠ [] := by
    rintro rfl
    simp at he
  have hyne : ys ≠ [] := by
    rintro rfl
    simp at hf
  have hxlen := List.length_pos_of_ne_nil hxne
  have hylen := List.length_pos_of_ne_nil hyne
  rw [List.getLast?_eq_getElem?] at he hf
  obtain ⟨hlen, htake⟩ := hx.agree_of_hash_eq hcommit hy he hf hhash
  rw [Nat.sub_add_cancel hxlen, Nat.sub_add_cancel hylen, List.take_length,
    List.take_length] at htake
  exact htake

end TamperEvidence

end HashChain
