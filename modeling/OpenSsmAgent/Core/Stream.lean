import OpenSsmAgent.Lib.Table

/-!
# Reliable-stream ordering

The reorder buffer of {lit}`osa-core/src/stream.rs`: it orders the items of one stream by
their sequence numbers, drops duplicates and holds items that came early, within a window
ahead of the next number it needs.

A buffer is compared with what was offered to it: {lit}`kept` is the first item that was
offered for a number and did not overflow.  The buffer has delivered the kept items from
its start up to the first number without one, and holds the others.

Main results:

- Theorem {lit}`Resequenced.step`: one call keeps this, unless it delivers the last number
  of the sequence space.
- Theorem {lit}`delivers_in_order`: what the buffer delivers, holds and acknowledges for
  numbers below the last.
- Theorem {lit}`exact_iff_not_exhausted`: over all numbers, exactly the runs that do not
  deliver the last one are exact.
-/

namespace OpenSsmAgent
namespace Stream

variable {T : Type}

/-! ## The buffer -/

/-- {lit}`Accept`: the outcome of one offer. -/
inductive Accept (T : Type) where
  | deliver (items : List T)
  | duplicate
  | buffered
  | overflow (item : T)
deriving DecidableEq

/-- {lit}`ReorderBuffer`. -/
structure ReorderBuffer (T : Type) where
  start : UInt64
  next : UInt64
  pending : Table UInt64 T
  capacity : UInt64

/-- {lit}`u64::MAX`. -/
def maxSeq : UInt64 := 0xffffffffffffffff

/-- {lit}`saturating_add(1)`. -/
def saturatingSucc (n : UInt64) : UInt64 :=
  if n = maxSeq then maxSeq else n + 1

namespace ReorderBuffer

/-- {lit}`new`. -/
def new (start capacity : UInt64) : ReorderBuffer T :=
  ⟨start, start, ∅, capacity⟩

/-- {lit}`ack`. -/
def ack (b : ReorderBuffer T) : Option UInt64 :=
  if b.start < b.next then some (b.next - 1) else none

/-- {lit}`buffered`. -/
def buffered (b : ReorderBuffer T) : Nat :=
  b.pending.size

/-- {lit}`reset`. -/
def reset (b : ReorderBuffer T) (start : UInt64) : ReorderBuffer T :=
  { b with start := start, next := start, pending := ∅ }

/-- The loop of {lit}`accept`: remove the item under the next number as long as there is
one.  Every round removes one, so the number of held items bounds the rounds. -/
def drain : Nat → UInt64 → Table UInt64 T → List T × UInt64 × Table UInt64 T
  | 0, next, pending => ([], next, pending)
  | fuel + 1, next, pending =>
      match pending.lookup next with
      | none => ([], next, pending)
      | some item =>
          let rest := drain fuel (saturatingSucc next) (pending.drop next)
          (item :: rest.1, rest.2)

/-- {lit}`accept`. -/
def accept (b : ReorderBuffer T) (seq : UInt64) (item : T) : Accept T × ReorderBuffer T :=
  if seq < b.next ∨ (b.pending.lookup seq).isSome then (.duplicate, b)
  else if seq = b.next then
    let out := drain b.pending.size (saturatingSucc b.next) b.pending
    (.deliver (item :: out.1), { b with next := out.2.1, pending := out.2.2 })
  else if b.capacity.toNat < seq.toNat - b.next.toNat then (.overflow item, b)
  else (.buffered, { b with pending := AList.insert seq item b.pending })

/-- A sequence of offers: the outcomes and the buffer after them. -/
def run (b : ReorderBuffer T) : List (UInt64 × T) → List (Accept T) × ReorderBuffer T
  | [] => ([], b)
  | (seq, item) :: calls =>
      let here := b.accept seq item
      let later := here.2.run calls
      (here.1 :: later.1, later.2)

end ReorderBuffer

/-- The items that an outcome delivers. -/
def Accept.items : Accept T → List T
  | .deliver items => items
  | _ => []

/-- Whether an outcome is an overflow. -/
def Accept.isOverflow : Accept T → Bool
  | .overflow _ => true
  | _ => false

/-- All items delivered, in order. -/
def delivered (outcomes : List (Accept T)) : List T :=
  outcomes.flatMap Accept.items

/-- The first item that was offered for a number and did not overflow. -/
def kept (calls : List (UInt64 × T)) (outcomes : List (Accept T)) (k : UInt64) : Option T :=
  ((calls.zip outcomes).find? fun c => c.1.1 = k && !c.2.isOverflow).map fun c => c.1.2

/-- The numbers from one up to another, the latter not included. -/
def seqs (start next : UInt64) : List UInt64 :=
  (List.range' start.toNat (next.toNat - start.toNat)).map UInt64.ofNat

/-- Restarting a stream gives a new buffer. -/
theorem reset_eq_new (b : ReorderBuffer T) (start : UInt64) :
    b.reset start = ReorderBuffer.new start b.capacity :=
  rfl

/-! ## Numbers -/

variable {start next capacity k : UInt64} {pending : Table UInt64 T} {calls : List (UInt64 × T)}

theorem toNat_maxSeq : maxSeq.toNat = 2 ^ 64 - 1 := rfl

theorem le_maxSeq (k : UInt64) : k ≤ maxSeq := by
  rw [UInt64.le_iff_toNat_le, toNat_maxSeq]
  have := k.toNat_lt
  omega

theorem toNat_saturatingSucc {n : UInt64} (h : n < k) :
    (saturatingSucc n).toNat = n.toNat + 1 := by
  rw [UInt64.lt_iff_toNat_lt] at h
  have hk := k.toNat_lt
  have hne : n ≠ maxSeq := by
    rintro rfl
    rw [toNat_maxSeq] at h
    omega
  simp only [saturatingSucc, hne, if_false, UInt64.toNat_add, UInt64.toNat_one]
  omega

theorem le_of_lt_saturatingSucc {n : UInt64} (h : k < saturatingSucc n) : k ≤ n := by
  by_cases hlast : n = maxSeq
  · rw [hlast]
    exact le_maxSeq k
  · have hsucc := toNat_saturatingSucc (UInt64.lt_of_le_of_ne (le_maxSeq n) hlast)
    rw [UInt64.lt_iff_toNat_lt] at h
    rw [UInt64.le_iff_toNat_le]
    omega

theorem mem_seqs {a b : UInt64} : k ∈ seqs a b ↔ a ≤ k ∧ k < b := by
  simp only [seqs, List.mem_map, List.mem_range'_1, UInt64.le_iff_toNat_le, UInt64.lt_iff_toNat_lt]
  constructor
  · rintro ⟨n, ⟨hle, hlt⟩, rfl⟩
    have hb := b.toNat_lt
    rw [UInt64.toNat_ofNat_of_lt' (show n < 2 ^ 64 by omega)]
    omega
  · rintro ⟨hle, hlt⟩
    exact ⟨k.toNat, by omega, UInt64.ofNat_toNat⟩

theorem nodup_seqs (a b : UInt64) : (seqs a b).Nodup := by
  have hrange : (List.range' a.toNat (b.toNat - a.toNat)).Nodup := List.nodup_range'
  refine hrange.map_on ?_
  intro m hm n hn heq
  rw [List.mem_range'_1] at hm hn
  have hb := b.toNat_lt
  have htoNat := congrArg UInt64.toNat heq
  rwa [UInt64.toNat_ofNat_of_lt' (show m < 2 ^ 64 by omega),
    UInt64.toNat_ofNat_of_lt' (show n < 2 ^ 64 by omega)] at htoNat

@[simp] theorem length_seqs (a b : UInt64) : (seqs a b).length = b.toNat - a.toNat := by
  simp [seqs]

@[simp] theorem seqs_self (a : UInt64) : seqs a a = [] := by
  simp [seqs]

theorem seqs_append {a b c : UInt64} (hab : a ≤ b) (hbc : b ≤ c) :
    seqs a c = seqs a b ++ seqs b c := by
  rw [UInt64.le_iff_toNat_le] at hab hbc
  have hsplit : List.range' a.toNat (c.toNat - a.toNat) =
      List.range' a.toNat (b.toNat - a.toNat) ++ List.range' b.toNat (c.toNat - b.toNat) := by
    have happend := List.range'_append_1 (s := a.toNat) (m := b.toNat - a.toNat)
      (n := c.toNat - b.toNat)
    rw [show a.toNat + (b.toNat - a.toNat) = b.toNat by omega,
      show b.toNat - a.toNat + (c.toNat - b.toNat) = c.toNat - a.toNat by omega] at happend
    exact happend.symm
  rw [seqs, hsplit, List.map_append]
  rfl

theorem seqs_saturatingSucc {a b : UInt64} (h : a < b) :
    seqs a b = a :: seqs (saturatingSucc a) b := by
  have hsucc := toNat_saturatingSucc h
  rw [UInt64.lt_iff_toNat_lt] at h
  have hone : seqs a (saturatingSucc a) = [a] := by
    simp [seqs, hsucc]
  rw [seqs_append (b := saturatingSucc a), hone]
  · rfl
  · rw [UInt64.le_iff_toNat_le]
    omega
  · rw [UInt64.le_iff_toNat_le]
    omega

/-! ## The loop -/

theorem size_drop {m : Table UInt64 T} (h : (m.lookup k).isSome) :
    (m.drop k).size + 1 = m.size := by
  have hmem : k ∈ m.keys := AList.lookup_isSome.mp h
  have hlen := List.length_erase_of_mem hmem
  have hpos := List.length_pos_of_mem hmem
  simp only [Table.size, Table.drop, AList.keys_erase, hlen]
  omega

theorem lookup_of_size_eq_zero {m : Table UInt64 T} (h : m.size = 0) (k : UInt64) :
    m.lookup k = none := by
  have hkeys : m.keys = [] := List.length_eq_zero_iff.mp h
  refine AList.lookup_eq_none.mpr ?_
  rw [AList.mem_keys, hkeys]
  exact List.not_mem_nil

/-- What the loop makes of the held items, when it stops at a number that is not held. -/
structure Drains (next : UInt64) (pending : Table UInt64 T)
    (out : List T × UInt64 × Table UInt64 T) : Prop where
  next_le : next ≤ out.2.1
  gap : pending.lookup out.2.1 = none
  items_eq : out.1.map some = (seqs next out.2.1).map pending.lookup
  pending_eq : ∀ k, out.2.2.lookup k =
    if next ≤ k ∧ k < out.2.1 then none else pending.lookup k

theorem Drains.stop
    (hgap : pending.lookup next = none) : Drains next pending ([], next, pending) := by
  refine ⟨UInt64.le_refl _, hgap, by simp, ?_⟩
  intro k
  rw [if_neg]
  show ¬ (next ≤ k ∧ k < next)
  rw [UInt64.le_iff_toNat_le, UInt64.lt_iff_toNat_lt]
  omega

theorem lookup_drop_of_ne (h : k ≠ next) :
    (pending.drop next).lookup k = pending.lookup k := by
  rw [Table.lookup_drop, if_neg h]

theorem Drains.cons {above : UInt64} {item : T} {out : List T × UInt64 × Table UInt64 T}
    (habove : next < above) (hitem : pending.lookup next = some item)
    (h : Drains (saturatingSucc next) (pending.drop next) out) :
    Drains next pending (item :: out.1, out.2) := by
  have hsucc := toNat_saturatingSucc habove
  have hle := UInt64.le_iff_toNat_le.mp h.next_le
  have hlt : next < out.2.1 := by
    rw [UInt64.lt_iff_toNat_lt]
    omega
  refine ⟨UInt64.le_of_lt hlt, ?_, ?_, ?_⟩
  · rw [← h.gap, lookup_drop_of_ne (UInt64.ne_of_lt hlt).symm]
  · rw [seqs_saturatingSucc hlt, List.map_cons, List.map_cons, hitem, h.items_eq]
    congr 1
    refine List.map_congr_left ?_
    intro k hk
    have hk := UInt64.le_iff_toNat_le.mp (mem_seqs.mp hk).1
    refine lookup_drop_of_ne ?_
    rintro rfl
    omega
  · intro k
    simp only [h.pending_eq, Table.lookup_drop, UInt64.le_iff_toNat_le, UInt64.lt_iff_toNat_lt,
      hsucc, ← UInt64.toNat_inj]
    split_ifs <;> first | rfl | omega

/-- If some number from the head on is missing, the loop delivers the items below the first
missing one and stops there. -/
theorem drain_spec {fuel : Nat} (hfuel : pending.size ≤ fuel)
    (hstop : ∃ k, next ≤ k ∧ pending.lookup k = none) :
    Drains next pending (ReorderBuffer.drain fuel next pending) := by
  induction fuel generalizing next pending with
  | zero => exact .stop (lookup_of_size_eq_zero (Nat.le_zero.mp hfuel) next)
  | succ fuel ih =>
      cases hlookup : pending.lookup next with
      | none =>
          simp only [ReorderBuffer.drain, hlookup]
          exact .stop hlookup
      | some item =>
          obtain ⟨k, hk, hmissing⟩ := hstop
          have hne : k ≠ next := by
            rintro rfl
            rw [hmissing] at hlookup
            cases hlookup
          have hlt : next < k := UInt64.lt_of_le_of_ne hk (Ne.symm hne)
          have hsize := size_drop (m := pending) (k := next) (by simp [hlookup])
          simp only [ReorderBuffer.drain, hlookup]
          refine .cons hlt hlookup (ih (by omega) ⟨k, ?_, ?_⟩)
          · have hsucc := toNat_saturatingSucc hlt
            rw [UInt64.lt_iff_toNat_lt] at hlt
            rw [UInt64.le_iff_toNat_le]
            omega
          · rw [lookup_drop_of_ne hne, hmissing]

theorem drain_of_none (fuel : Nat) (h : pending.lookup next = none) :
    ReorderBuffer.drain fuel next pending = ([], next, pending) := by
  cases fuel with
  | zero => rfl
  | succ fuel => simp only [ReorderBuffer.drain, h]

/-- If every number from the head on is held, the loop delivers them all and leaves the head
at the last number, which it has delivered. -/
theorem drain_exhausts {fuel : Nat} (hfuel : pending.size ≤ fuel)
    (hall : ∀ k, next ≤ k → (pending.lookup k).isSome) :
    (ReorderBuffer.drain fuel next pending).2.1 = maxSeq ∧
    ∃ item, pending.lookup maxSeq = some item ∧
      item ∈ (ReorderBuffer.drain fuel next pending).1 := by
  induction fuel generalizing next pending with
  | zero =>
      have hsome := hall next (UInt64.le_refl _)
      rw [lookup_of_size_eq_zero (Nat.le_zero.mp hfuel)] at hsome
      cases hsome
  | succ fuel ih =>
      obtain ⟨item, hitem⟩ := Option.isSome_iff_exists.mp (hall next (UInt64.le_refl _))
      simp only [ReorderBuffer.drain, hitem]
      by_cases hlast : next = maxSeq
      · subst hlast
        have hgap : (pending.drop maxSeq).lookup maxSeq = none := by
          rw [Table.lookup_drop, if_pos rfl]
        simp only [saturatingSucc, if_true, drain_of_none fuel hgap]
        exact ⟨trivial, item, hitem, List.mem_cons_self⟩
      · have hlt : next < maxSeq := UInt64.lt_of_le_of_ne (le_maxSeq next) hlast
        have hsucc := toNat_saturatingSucc hlt
        have hsize := size_drop (m := pending) (k := next) (by simp [hitem])
        have hne : ∀ k, saturatingSucc next ≤ k → k ≠ next := by
          rintro k hk rfl
          rw [UInt64.le_iff_toNat_le] at hk
          omega
        obtain ⟨hnext, last, hlast', hmem⟩ := @ih (saturatingSucc next) (pending.drop next)
          (by omega) (fun k hk => by
            rw [lookup_drop_of_ne (hne k hk)]
            refine hall k ?_
            rw [UInt64.le_iff_toNat_le] at hk ⊢
            omega)
        rw [lookup_drop_of_ne (Ne.symm hlast)] at hlast'
        exact ⟨hnext, last, hlast', List.mem_cons_of_mem _ hmem⟩

/-! ## One offer -/

/-- The offer that delivers the last number of the sequence space: it is for the next number,
and every number above that is held. -/
def Exhausts (b : ReorderBuffer T) (seq : UInt64) : Prop :=
  seq = b.next ∧ ∀ k, b.next < k → (b.pending.lookup k).isSome

/-- A buffer against what was offered to it since it started. -/
structure Resequenced (start capacity : UInt64) (kept : UInt64 → Option T) (items : List T)
    (b : ReorderBuffer T) : Prop where
  start_eq : b.start = start
  capacity_eq : b.capacity = capacity
  start_le : start ≤ b.next
  items_eq : items.map some = (seqs start b.next).map kept
  gap : kept b.next = none
  pending_eq : ∀ k, b.pending.lookup k = if b.next < k then kept k else none
  window : ∀ k, b.next < k → (kept k).isSome → k.toNat ≤ b.next.toNat + capacity.toNat

theorem resequenced_new (start capacity : UInt64) :
    Resequenced start capacity (fun _ => none) [] (ReorderBuffer.new start capacity (T := T)) where
  start_eq := rfl
  capacity_eq := rfl
  start_le := UInt64.le_refl _
  items_eq := by simp [ReorderBuffer.new]
  gap := rfl
  pending_eq := by
    intro k
    rw [ite_self]
    exact Table.lookup_empty k
  window := by simp

/-- The first kept items after one more offer. -/
def keep (kept : UInt64 → Option T) (seq : UInt64) (item : T) (outcome : Accept T) (k : UInt64) :
    Option T :=
  (kept k).or (if k = seq && !outcome.isOverflow then some item else none)

namespace Resequenced

variable {kept kept' : UInt64 → Option T} {items : List T}
  {b : ReorderBuffer T} {seq : UInt64} {item : T}

/-- Every number below the head was delivered from a kept item. -/
theorem isSome_kept (h : Resequenced start capacity kept items b) (hstart : start ≤ k)
    (hnext : k < b.next) : (kept k).isSome := by
  have hmem : kept k ∈ items.map some := by
    rw [h.items_eq]
    exact List.mem_map_of_mem (mem_seqs.mpr ⟨hstart, hnext⟩)
  obtain ⟨x, -, hx⟩ := List.mem_map.mp hmem
  rw [← hx]
  rfl

/-- Only the items kept from the start on matter. -/
theorem congr (h : Resequenced start capacity kept items b)
    (heq : ∀ k, start ≤ k → kept' k = kept k) : Resequenced start capacity kept' items b := by
  have habove : ∀ k, b.next < k → kept' k = kept k := fun k hk =>
    heq k (UInt64.le_trans h.start_le (UInt64.le_of_lt hk))
  refine ⟨h.start_eq, h.capacity_eq, h.start_le, ?_, ?_, ?_, ?_⟩
  · rw [h.items_eq]
    refine List.map_congr_left ?_
    intro k hk
    exact (heq k (mem_seqs.mp hk).1).symm
  · rw [heq _ h.start_le, h.gap]
  · intro k
    rw [h.pending_eq]
    split_ifs with hk
    · exact (habove k hk).symm
    · rfl
  · intro k hk hsome
    rw [habove k hk] at hsome
    exact h.window k hk hsome

/-- An offer for a number that already has an item keeps nothing new. -/
theorem duplicate (h : Resequenced start capacity kept items b)
    (hdup : seq < b.next ∨ (b.pending.lookup seq).isSome) :
    Resequenced start capacity (keep kept seq item .duplicate) items b := by
  refine h.congr ?_
  intro k hk
  by_cases hkseq : k = seq
  · subst hkseq
    have hsome : (kept k).isSome := by
      rcases hdup with hbelow | hheld
      · exact h.isSome_kept hk hbelow
      · rw [h.pending_eq] at hheld
        split_ifs at hheld with hlt
        · exact hheld
        · cases hheld
    obtain ⟨x, hx⟩ := Option.isSome_iff_exists.mp hsome
    simp [keep, hx]
  · simp [keep, hkseq]

/-- An offer too far ahead keeps nothing. -/
theorem overflow (h : Resequenced start capacity kept items b) :
    Resequenced start capacity (keep kept seq item (.overflow item)) items b := by
  refine h.congr ?_
  intro k _
  simp [keep, Accept.isOverflow]

/-- An early offer within the window is held. -/
theorem buffer (h : Resequenced start capacity kept items b) (item : T) (hseq : b.next < seq)
    (hnew : b.pending.lookup seq = none)
    (hwindow : seq.toNat ≤ b.next.toNat + capacity.toNat) :
    Resequenced start capacity (keep kept seq item .buffered) items
      { b with pending := AList.insert seq item b.pending } := by
  have hfree : kept seq = none := by
    rw [← hnew, h.pending_eq, if_pos hseq]
  have hself : keep kept seq item .buffered seq = some item := by
    simp [keep, hfree, Accept.isOverflow]
  have hother : ∀ k, k ≠ seq → keep kept seq item .buffered k = kept k := by
    intro k hk
    simp [keep, hk]
  have hbelow : ∀ k, k ≤ b.next → k ≠ seq := by
    rintro k hk rfl
    rw [UInt64.le_iff_toNat_le] at hk
    rw [UInt64.lt_iff_toNat_lt] at hseq
    omega
  refine ⟨h.start_eq, h.capacity_eq, h.start_le, ?_, ?_, ?_, ?_⟩
  · rw [h.items_eq]
    refine List.map_congr_left ?_
    intro k hk
    exact (hother k (hbelow k (UInt64.le_of_lt (mem_seqs.mp hk).2))).symm
  · rw [hother _ (hbelow _ (UInt64.le_refl _)), h.gap]
  · intro k
    by_cases hk : k = seq
    · subst hk
      rw [if_pos hseq, hself]
      exact AList.lookup_insert _
    · rw [hother k hk, ← h.pending_eq]
      exact AList.lookup_insert_ne hk
  · intro k hk hsome
    by_cases hkseq : k = seq
    · exact hkseq ▸ hwindow
    · rw [hother k hkseq] at hsome
      exact h.window k hk hsome

/-- The offer for the next number is delivered together with the held run behind it. -/
theorem deliver (h : Resequenced start capacity kept items b) {above : UInt64}
    (habove : b.next < above) {out : List T × UInt64 × Table UInt64 T}
    (hout : Drains (saturatingSucc b.next) b.pending out) :
    Resequenced start capacity (keep kept b.next item (.deliver (item :: out.1)))
      (items ++ item :: out.1) { b with next := out.2.1, pending := out.2.2 } := by
  have hsucc := toNat_saturatingSucc habove
  have hle := UInt64.le_iff_toNat_le.mp hout.next_le
  have hlt : b.next < out.2.1 := by
    rw [UInt64.lt_iff_toNat_lt]
    omega
  have hself : keep kept b.next item (.deliver (item :: out.1)) b.next = some item := by
    simp [keep, h.gap, Accept.isOverflow]
  have hother : ∀ k, k ≠ b.next → keep kept b.next item (.deliver (item :: out.1)) k = kept k := by
    intro k hk
    simp [keep, hk]
  have hheld : ∀ k, b.next < k → b.pending.lookup k = kept k := by
    intro k hk
    rw [h.pending_eq, if_pos hk]
  have hkept : ∀ k, b.next < k →
      keep kept b.next item (.deliver (item :: out.1)) k = b.pending.lookup k := by
    intro k hk
    rw [hother k (UInt64.ne_of_lt hk).symm, hheld k hk]
  refine ⟨h.start_eq, h.capacity_eq, UInt64.le_trans h.start_le (UInt64.le_of_lt hlt), ?_, ?_, ?_,
    ?_⟩
  · rw [seqs_append h.start_le (UInt64.le_of_lt hlt), seqs_saturatingSucc hlt]
    simp only [List.map_append, List.map_cons, hself, h.items_eq, hout.items_eq]
    congr 1
    · refine List.map_congr_left ?_
      intro k hk
      exact (hother k (UInt64.ne_of_lt (mem_seqs.mp hk).2)).symm
    · congr 1
      refine List.map_congr_left ?_
      intro k hk
      have hk := UInt64.le_iff_toNat_le.mp (mem_seqs.mp hk).1
      refine (hkept k ?_).symm
      rw [UInt64.lt_iff_toNat_lt]
      omega
  · rw [hkept _ hlt, hout.gap]
  · intro k
    simp only [hout.pending_eq]
    split_ifs with hrun hk hk
    · rw [UInt64.lt_iff_toNat_lt] at hk
      rw [UInt64.lt_iff_toNat_lt] at hrun
      omega
    · rfl
    · exact (hkept k (UInt64.lt_trans hlt hk)).symm
    · by_cases hend : k = out.2.1
      · rw [hend, hout.gap]
      · rw [h.pending_eq, if_neg]
        rw [UInt64.le_iff_toNat_le, UInt64.lt_iff_toNat_lt] at hrun
        rw [UInt64.lt_iff_toNat_lt] at hk ⊢
        rw [← UInt64.toNat_inj] at hend
        omega
  · intro k hk hsome
    have hk' := UInt64.lt_trans hlt hk
    rw [hkept k hk', hheld k hk'] at hsome
    have := h.window k hk' hsome
    rw [UInt64.lt_iff_toNat_lt] at hlt
    show k.toNat ≤ out.2.1.toNat + capacity.toNat
    omega

/-- One offer keeps the buffer in step with what was offered, unless it delivers the last
number. -/
theorem step (h : Resequenced start capacity kept items b) (item : T)
    (hok : ¬ Exhausts b seq) :
    Resequenced start capacity (keep kept seq item (b.accept seq item).1)
      (items ++ (b.accept seq item).1.items) (b.accept seq item).2 := by
  simp only [ReorderBuffer.accept]
  split_ifs with hdup hnext hfar
  · simpa [Accept.items] using h.duplicate hdup
  · subst hnext
    simp only [Exhausts, true_and, not_forall] at hok
    obtain ⟨k, hk, hmissing⟩ := hok
    have hsucc := toNat_saturatingSucc hk
    refine h.deliver hk (drain_spec (Nat.le_refl _) ⟨k, ?_, by simpa using hmissing⟩)
    rw [UInt64.lt_iff_toNat_lt] at hk
    rw [UInt64.le_iff_toNat_le]
    omega
  · simpa [Accept.items] using h.overflow
  · simp only [not_or, Bool.not_eq_true, Option.isSome_eq_false_iff, Option.isNone_iff_eq_none]
      at hdup
    have hlt : b.next < seq :=
      UInt64.lt_of_le_of_ne (UInt64.not_lt.mp hdup.1) (Ne.symm hnext)
    have hbuffer := h.buffer item hlt hdup.2 (by
      rw [h.capacity_eq] at hfar
      omega)
    simpa [Accept.items] using hbuffer

theorem window_of_pending (h : Resequenced start capacity kept items b)
    (hk : (b.pending.lookup k).isSome) :
    b.next < k ∧ k.toNat ≤ b.next.toNat + capacity.toNat := by
  rw [h.pending_eq] at hk
  split_ifs at hk with hlt
  · exact ⟨hlt, h.window k hlt hk⟩
  · cases hk

/-- The window bounds the number of held items. -/
theorem buffered_le (h : Resequenced start capacity kept items b) :
    b.buffered ≤ capacity.toNat := by
  have hnodup : (b.pending.keys.map UInt64.toNat).Nodup :=
    b.pending.keys_nodup.map fun _ _ => UInt64.toNat_inj.mp
  have hsubset : (b.pending.keys.map UInt64.toNat).toFinset ⊆
      Finset.Ioc b.next.toNat (b.next.toNat + capacity.toNat) := by
    intro n hn
    obtain ⟨k, hk, rfl⟩ := List.mem_map.mp (List.mem_toFinset.mp hn)
    obtain ⟨hlt, hle⟩ := h.window_of_pending (AList.lookup_isSome.mpr hk)
    exact Finset.mem_Ioc.mpr ⟨UInt64.lt_iff_toNat_lt.mp hlt, hle⟩
  calc b.buffered = (b.pending.keys.map UInt64.toNat).toFinset.card := by
        rw [List.toFinset_card_of_nodup hnodup, List.length_map]
        rfl
    _ ≤ (Finset.Ioc b.next.toNat (b.next.toNat + capacity.toNat)).card :=
        Finset.card_le_card hsubset
    _ = capacity.toNat := by
        rw [Nat.card_Ioc]
        omega

theorem length_items (h : Resequenced start capacity kept items b) :
    items.length = b.next.toNat - start.toNat := by
  have hlength := congrArg List.length h.items_eq
  simpa using hlength

/-- Once something was delivered, the number before the head is acknowledged. -/
theorem ack_eq (h : Resequenced start capacity kept items b) :
    b.ack = if items = [] then none else some (b.next - 1) := by
  have hlength := h.length_items
  rw [ReorderBuffer.ack, h.start_eq]
  by_cases hnil : items = []
  · rw [if_pos hnil, if_neg]
    rw [hnil, List.length_nil] at hlength
    rw [UInt64.lt_iff_toNat_lt]
    omega
  · rw [if_neg hnil, if_pos]
    have hpos := List.length_pos_iff.mpr hnil
    rw [UInt64.lt_iff_toNat_lt]
    omega

/-- If every number from the start up to one has an item, they have all been delivered. -/
theorem delivers_to (h : Resequenced start capacity kept items b) {n : UInt64}
    (hstart : start ≤ n) (hall : ∀ k, start ≤ k → k ≤ n → (kept k).isSome) :
    ∃ first, first <+: items ∧ first.map some = (seqs start (saturatingSucc n)).map kept ∧
      first.length = n.toNat - start.toNat + 1 := by
  have hlt : n < b.next := by
    by_contra hnot
    have hgap := hall b.next h.start_le (UInt64.not_lt.mp hnot)
    rw [h.gap] at hgap
    cases hgap
  have hsucc := toNat_saturatingSucc hlt
  rw [UInt64.lt_iff_toNat_lt] at hlt
  rw [UInt64.le_iff_toNat_le] at hstart
  have hsplit : seqs start b.next =
      seqs start (saturatingSucc n) ++ seqs (saturatingSucc n) b.next := by
    refine seqs_append ?_ ?_ <;> rw [UInt64.le_iff_toNat_le] <;> omega
  have hlength : (seqs start (saturatingSucc n)).length = n.toNat - start.toNat + 1 := by
    rw [length_seqs]
    omega
  refine ⟨items.take (n.toNat - start.toNat + 1), List.take_prefix _ _, ?_, ?_⟩
  · rw [List.map_take, h.items_eq, hsplit, List.map_append, List.take_left']
    rw [List.length_map, hlength]
  · rw [List.length_take, h.length_items]
    omega

end Resequenced

/-! ## Runs -/

theorem run_append (b : ReorderBuffer T) (calls later : List (UInt64 × T)) :
    b.run (calls ++ later) =
      ((b.run calls).1 ++ ((b.run calls).2.run later).1, ((b.run calls).2.run later).2) := by
  induction calls generalizing b with
  | nil => rfl
  | cons call calls ih =>
      simp only [List.cons_append, ReorderBuffer.run, ih]

@[simp] theorem length_run (b : ReorderBuffer T) (calls : List (UInt64 × T)) :
    (b.run calls).1.length = calls.length := by
  induction calls generalizing b with
  | nil => rfl
  | cons call calls ih => simp [ReorderBuffer.run, ih]

theorem kept_concat (b : ReorderBuffer T) (calls : List (UInt64 × T)) (seq : UInt64) (item : T) :
    kept (calls ++ [(seq, item)]) (b.run (calls ++ [(seq, item)])).1 =
      keep (kept calls (b.run calls).1) seq item ((b.run calls).2.accept seq item).1 := by
  funext k
  rw [run_append]
  simp only [ReorderBuffer.run, kept, keep, List.zip_append (length_run b calls).symm,
    List.find?_append, List.zip_cons_cons, List.zip_nil_right, Option.map_or]
  congr 1
  by_cases hk : seq = k
  · subst hk
    cases hover : ((b.run calls).2.accept seq item).1.isOverflow <;> simp [hover]
  · simp [hk, Ne.symm hk]

/-- No offer of the list delivers the last number. -/
def NeverExhausts (b : ReorderBuffer T) (calls : List (UInt64 × T)) : Prop :=
  ∀ before seq item, before ++ [(seq, item)] <+: calls → ¬ Exhausts (b.run before).2 seq

theorem NeverExhausts.of_isPrefix {b : ReorderBuffer T} {before : List (UInt64 × T)}
    (h : NeverExhausts b calls) (hbefore : before <+: calls) : NeverExhausts b before :=
  fun first seq item hfirst => h first seq item (hfirst.trans hbefore)

theorem resequenced_run (hok : NeverExhausts (.new start capacity) calls) :
    Resequenced start capacity (kept calls ((ReorderBuffer.new start capacity).run calls).1)
      (delivered ((ReorderBuffer.new start capacity).run calls).1)
      ((ReorderBuffer.new start capacity).run calls).2 := by
  induction calls using List.reverseRecOn with
  | nil => exact resequenced_new start capacity
  | append_singleton calls call ih =>
      obtain ⟨seq, item⟩ := call
      have hstep := (ih (hok.of_isPrefix (List.prefix_append _ _))).step item
        (hok calls seq item (List.prefix_refl _))
      rw [kept_concat, run_append]
      simpa [ReorderBuffer.run, delivered] using hstep

theorem mem_of_isSome_kept {outcomes : List (Accept T)}
    (h : (kept calls outcomes k).isSome) : ∃ item, (k, item) ∈ calls := by
  rw [kept, Option.isSome_map] at h
  obtain ⟨⟨⟨seq, item⟩, outcome⟩, hfound⟩ := Option.isSome_iff_exists.mp h
  have hseq := List.find?_some hfound
  simp only [Bool.and_eq_true, decide_eq_true_eq] at hseq
  exact ⟨item, hseq.1 ▸ (List.of_mem_zip (List.mem_of_find?_eq_some hfound)).1⟩

/-- An offer below the last number never delivers the last one, since that was not offered. -/
theorem neverExhausts_of_lt
    (hmax : ∀ call ∈ calls, call.1 < maxSeq) : NeverExhausts (.new start capacity) calls := by
  induction calls using List.reverseRecOn with
  | nil =>
      intro before seq item hpre
      simp at hpre
  | append_singleton calls call ih =>
      have hcalls := ih fun call hcall => hmax call (List.mem_append_left _ hcall)
      intro before seq item hpre hexhausts
      rcases List.prefix_concat_iff.mp hpre with heq | hpre
      · obtain ⟨rfl, rfl⟩ := List.append_singleton_inj.mp heq
        have hlt : ((ReorderBuffer.new start capacity).run before).2.next < maxSeq :=
          hexhausts.1 ▸ hmax (seq, item) (by simp)
        have hheld := hexhausts.2 maxSeq hlt
        rw [(resequenced_run hcalls).pending_eq, if_pos hlt] at hheld
        obtain ⟨last, hlast⟩ := mem_of_isSome_kept hheld
        exact absurd (hmax _ (List.mem_append_left _ hlast)) (UInt64.lt_irrefl _)
      · exact hcalls before seq item hpre hexhausts

/-- An offer that is refused leaves the buffer as it is. -/
theorem accept_of_refused {b : ReorderBuffer T} {seq : UInt64} {item : T}
    (h : (b.accept seq item).1 = .duplicate ∨ (b.accept seq item).1 = .overflow item) :
    (b.accept seq item).2 = b := by
  revert h
  simp only [ReorderBuffer.accept]
  split_ifs <;> simp

/-- The first item that was offered for a number. -/
def offered (calls : List (UInt64 × T)) (k : UInt64) : Option T :=
  (calls.find? fun call => call.1 = k).map Prod.snd

/-- Without overflows, the first offered item is kept. -/
theorem kept_eq_offered {outcomes : List (Accept T)} (hlength : outcomes.length = calls.length)
    (hover : ∀ outcome ∈ outcomes, outcome.isOverflow = false) (k : UInt64) :
    kept calls outcomes k = offered calls k := by
  induction calls generalizing outcomes with
  | nil => rfl
  | cons call calls ih =>
      obtain _ | ⟨outcome, outcomes⟩ := outcomes
      · cases hlength
      · have hhere := hover outcome List.mem_cons_self
        have hrest := ih (Nat.succ.inj hlength) fun o ho => hover o (List.mem_cons_of_mem _ ho)
        simp only [kept, offered] at hrest ⊢
        by_cases hk : call.1 = k
        · simp [hk, hhere]
        · simp [hk, hrest]

/-- {lit}`ReorderBuffer`, below the last number: it delivers the first kept item of every
number from the start up to the first number without one, holds the kept items beyond
that and within its window, acknowledges what it delivered, and delivers the same items
for every arrival order that does not overflow. -/
theorem delivers_in_order (start capacity : UInt64) (calls : List (UInt64 × T))
    (hmax : ∀ call ∈ calls, call.1 < maxSeq) :
    let out := (ReorderBuffer.new start capacity).run calls
    let kept := kept calls out.1
    (∀ b : ReorderBuffer T, b.capacity = capacity → b.reset start = .new start capacity) ∧
    (delivered out.1).map some = (seqs start out.2.next).map kept ∧
    (start ≤ out.2.next ∧ (∀ k, start ≤ k → k < out.2.next → (kept k).isSome) ∧
      kept out.2.next = none) ∧
    (∀ k, out.2.pending.lookup k = if out.2.next < k then kept k else none) ∧
    (∀ k, (out.2.pending.lookup k).isSome →
      out.2.next < k ∧ k.toNat ≤ out.2.next.toNat + capacity.toNat) ∧
    out.2.buffered ≤ capacity.toNat ∧
    (∀ seq item, (out.2.accept seq item).1 = .duplicate ∨
      (out.2.accept seq item).1 = .overflow item → (out.2.accept seq item).2 = out.2) ∧
    out.2.ack = (if delivered out.1 = [] then none else some (out.2.next - 1)) ∧
    (∀ (n capacity' : UInt64) (calls' : List (UInt64 × T)),
      let out' := (ReorderBuffer.new start capacity').run calls'
      (∀ call ∈ calls', call.1 < maxSeq) →
      (∀ outcome ∈ out.1, outcome.isOverflow = false) →
      (∀ outcome ∈ out'.1, outcome.isOverflow = false) →
      start ≤ n →
      (∀ k, start ≤ k → k ≤ n → (offered calls k).isSome ∧ offered calls' k = offered calls k) →
      ∃ first, first.map some = (seqs start (saturatingSucc n)).map (offered calls) ∧
        first.length = n.toNat - start.toNat + 1 ∧
        first <+: delivered out.1 ∧ first <+: delivered out'.1) := by
  intro out kept
  have hrun : Resequenced start capacity kept (delivered out.1) out.2 :=
    resequenced_run (neverExhausts_of_lt hmax)
  refine ⟨?_, hrun.items_eq, ⟨hrun.start_le, fun k => hrun.isSome_kept, hrun.gap⟩,
    hrun.pending_eq, fun k => hrun.window_of_pending, hrun.buffered_le,
    fun seq item => accept_of_refused, hrun.ack_eq, ?_⟩
  · rintro b rfl
    exact reset_eq_new b start
  · intro n capacity' calls' out' hmax' hover hover' hstart hsame
    have hkept : ∀ k, kept k = offered calls k := kept_eq_offered (length_run _ _) hover
    have hkept' : ∀ k, Stream.kept calls' out'.1 k = offered calls' k :=
      kept_eq_offered (length_run _ _) hover'
    have hrun' : Resequenced start capacity' (Stream.kept calls' out'.1) (delivered out'.1)
        out'.2 :=
      resequenced_run (neverExhausts_of_lt hmax')
    obtain ⟨first, hpre, hfirst, hlength⟩ := hrun.delivers_to hstart fun k hk hkn => by
      rw [hkept]
      exact (hsame k hk hkn).1
    obtain ⟨first', hpre', hfirst', hlength'⟩ := hrun'.delivers_to hstart fun k hk hkn => by
      rw [hkept', (hsame k hk hkn).2]
      exact (hsame k hk hkn).1
    have hoffered : first.map some = (seqs start (saturatingSucc n)).map (offered calls) := by
      rw [hfirst]
      exact List.map_congr_left fun k _ => hkept k
    have hsome : first'.map some = first.map some := by
      rw [hfirst', hoffered]
      refine List.map_congr_left ?_
      intro k hk
      obtain ⟨hk, hkn⟩ := mem_seqs.mp hk
      rw [hkept', (hsame k hk (le_of_lt_saturatingSucc hkn)).2]
    have heq : first' = first := List.map_injective_iff.mpr (Option.some_injective T) hsome
    exact ⟨first, hoffered, hlength, hpre, heq ▸ hpre'⟩

/-- Three items in two arrival orders. -/
theorem delivers_in_order_two_orders :
    (delivered ((ReorderBuffer.new 5 8).run [(5, 'a'), (6, 'b'), (7, 'c')]).1 = ['a', 'b', 'c'] ∧
      ((ReorderBuffer.new 5 8).run [(5, 'a'), (6, 'b'), (7, 'c')]).2.buffered ≤ 8) ∧
    ∃ first : List Char, first.length = 3 ∧
      first <+: delivered ((ReorderBuffer.new 5 8).run [(5, 'a'), (6, 'b'), (7, 'c')]).1 ∧
      first <+: delivered ((ReorderBuffer.new 5 2).run [(7, 'c'), (6, 'b'), (5, 'a')]).1 := by
  have horder := delivers_in_order 5 8 [(5, 'a'), (6, 'b'), (7, 'c')] (by decide)
  obtain ⟨-, -, -, -, -, hbuffered, -, -, hsame⟩ := horder
  refine ⟨⟨by decide +kernel, hbuffered⟩, ?_⟩
  obtain ⟨first, -, hlength, hpre, hpre'⟩ := hsame 7 2 [(7, 'c'), (6, 'b'), (5, 'a')] (by decide)
    (by decide +kernel) (by decide +kernel) (by decide) (by
      intro k hk hkn
      have hcases : k = 5 ∨ k = 6 ∨ k = 7 := by
        rw [UInt64.le_iff_toNat_le] at hk hkn
        simp only [← UInt64.toNat_inj]
        have h5 : (5 : UInt64).toNat = 5 := rfl
        have h6 : (6 : UInt64).toNat = 6 := rfl
        have h7 : (7 : UInt64).toNat = 7 := rfl
        omega
      rcases hcases with rfl | rfl | rfl <;> decide)
  exact ⟨first, hlength, hpre, hpre'⟩

/-! ## The end of the sequence space -/

/-- Offers whose items carry their number, so that the numbers of delivered items can be
read off. -/
def tagged (calls : List (UInt64 × T)) : List (UInt64 × (UInt64 × T)) :=
  calls.map fun call => (call.1, call)

/-- Each number is delivered once, stays a duplicate afterwards, and the acknowledgement
names the end of the delivered run. -/
structure Exact (start : UInt64) (out : List (Accept (UInt64 × T)) × ReorderBuffer (UInt64 × T)) :
    Prop where
  once : ((delivered out.1).map Prod.fst).Nodup
  again : ∀ seq ∈ (delivered out.1).map Prod.fst, ∀ item, (out.2.accept seq item).1 = .duplicate
  acked : delivered out.1 ≠ [] → ∃ high, out.2.ack = some high ∧
    (∀ k, start ≤ k → k ≤ high → k ∈ (delivered out.1).map Prod.fst) ∧
    ∀ k, k.toNat = high.toNat + 1 → k ∉ (delivered out.1).map Prod.fst

/-- The run of a buffer over tagged offers. -/
def taggedRun (start capacity : UInt64) (calls : List (UInt64 × T)) :
    List (Accept (UInt64 × T)) × ReorderBuffer (UInt64 × T) :=
  (ReorderBuffer.new start capacity).run (tagged calls)

theorem fst_of_kept {outcomes : List (Accept (UInt64 × T))} {item : UInt64 × T}
    (h : kept (tagged calls) outcomes k = some item) :
    item.1 = k := by
  obtain ⟨⟨call, outcome⟩, hfound, rfl⟩ := Option.map_eq_some_iff.mp h
  have hseq := List.find?_some hfound
  simp only [Bool.and_eq_true, decide_eq_true_eq] at hseq
  have hmem := (List.of_mem_zip (List.mem_of_find?_eq_some hfound)).1
  obtain ⟨original, -, rfl⟩ := List.mem_map.mp hmem
  exact hseq.1

/-- The delivered numbers are the ones from the start up to the head. -/
theorem Resequenced.seqs_eq {outcomes : List (Accept (UInt64 × T))} {items : List (UInt64 × T)}
    {b : ReorderBuffer (UInt64 × T)}
    (h : Resequenced start capacity (kept (tagged calls) outcomes) items b) :
    items.map Prod.fst = seqs start b.next := by
  have hfst : (items.map some).map (Option.map Prod.fst) =
      ((seqs start b.next).map (kept (tagged calls) outcomes)).map (Option.map Prod.fst) := by
    rw [h.items_eq]
  have hkept : ((seqs start b.next).map (kept (tagged calls) outcomes)).map (Option.map Prod.fst) =
      (seqs start b.next).map some := by
    rw [List.map_map]
    refine List.map_congr_left ?_
    intro k hk
    obtain ⟨item, hitem⟩ :=
      Option.isSome_iff_exists.mp (h.isSome_kept (mem_seqs.mp hk).1 (mem_seqs.mp hk).2)
    simp [hitem, fst_of_kept hitem]
  rw [hkept, List.map_map] at hfst
  refine List.map_injective_iff.mpr (Option.some_injective UInt64) ?_
  rw [List.map_map, ← hfst]
  rfl

/-- A buffer in step with what was offered is exact. -/
theorem Resequenced.exact {out : List (Accept (UInt64 × T)) × ReorderBuffer (UInt64 × T)}
    (h : Resequenced start capacity (kept (tagged calls) out.1) (delivered out.1) out.2) :
    Exact start out := by
  have hseqs := h.seqs_eq
  refine ⟨?_, ?_, ?_⟩
  · rw [hseqs]
    exact nodup_seqs _ _
  · intro seq hseq item
    rw [hseqs] at hseq
    simp [ReorderBuffer.accept, (mem_seqs.mp hseq).2]
  · intro hne
    have hack := h.ack_eq
    rw [if_neg hne] at hack
    have hlength := h.length_items
    have hpos := List.length_pos_iff.mpr hne
    have hstart := UInt64.le_iff_toNat_le.mp h.start_le
    have hpred : (out.2.next - 1).toNat = out.2.next.toNat - 1 := by
      rw [UInt64.toNat_sub_of_le]
      · rfl
      · rw [UInt64.le_iff_toNat_le, UInt64.toNat_one]
        omega
    refine ⟨out.2.next - 1, hack, ?_, ?_⟩
    · intro k hk hhigh
      rw [hseqs]
      rw [UInt64.le_iff_toNat_le, hpred] at hhigh
      refine mem_seqs.mpr ⟨hk, ?_⟩
      rw [UInt64.lt_iff_toNat_lt]
      omega
    · intro k hk hmem
      rw [hseqs] at hmem
      have hlt := UInt64.lt_iff_toNat_lt.mp (mem_seqs.mp hmem).2
      omega

/-- The offer that delivers the last number leaves the head on it. -/
theorem accept_of_exhausts {b : ReorderBuffer (UInt64 × T)} {seq : UInt64} (item : T)
    (hexhausts : Exhausts b seq) (hfresh : b.pending.lookup b.next = none)
    (htags : ∀ k x, b.pending.lookup k = some x → x.1 = k) :
    (b.accept seq (seq, item)).2.next = maxSeq ∧
    maxSeq ∈ (b.accept seq (seq, item)).1.items.map Prod.fst := by
  obtain ⟨rfl, hall⟩ := hexhausts
  have hnot : ¬ (b.next < b.next ∨ (b.pending.lookup b.next).isSome) := by
    simp [hfresh]
  simp only [ReorderBuffer.accept, hnot, if_false, if_true, Accept.items]
  by_cases hlast : b.next = maxSeq
  · have hsucc : saturatingSucc b.next = b.next := by
      rw [saturatingSucc, if_pos hlast, hlast]
    rw [hsucc, drain_of_none _ hfresh]
    exact ⟨hlast, by simp [hlast]⟩
  · have hlt : b.next < maxSeq := UInt64.lt_of_le_of_ne (le_maxSeq _) hlast
    have hsucc := toNat_saturatingSucc hlt
    have hbehind : ∀ k, saturatingSucc b.next ≤ k → (b.pending.lookup k).isSome := by
      intro k hk
      refine hall k ?_
      rw [UInt64.le_iff_toNat_le] at hk
      rw [UInt64.lt_iff_toNat_lt]
      omega
    obtain ⟨hnext, last, hheld, hmem⟩ := drain_exhausts (Nat.le_refl b.pending.size) hbehind
    refine ⟨hnext, ?_⟩
    rw [List.map_cons]
    exact List.mem_cons_of_mem _ (htags _ _ hheld ▸ List.mem_map_of_mem hmem)

/-- After the offer that delivers the last number, the acknowledgement falls short of it. -/
theorem not_exact_of_exhausts {outcomes : List (Accept (UInt64 × T))}
    {b : ReorderBuffer (UInt64 × T)} {seq : UInt64} {item : T} (hexhausts : Exhausts b seq)
    (hfresh : b.pending.lookup b.next = none)
    (htags : ∀ k x, b.pending.lookup k = some x → x.1 = k) :
    ¬ Exact start (outcomes ++ [(b.accept seq (seq, item)).1], (b.accept seq (seq, item)).2) := by
  intro hexact
  obtain ⟨hnext, hmem⟩ := accept_of_exhausts item hexhausts hfresh htags
  have hmem : maxSeq ∈ (delivered (outcomes ++ [(b.accept seq (seq, item)).1])).map Prod.fst := by
    rw [delivered, List.flatMap_append, List.map_append]
    exact List.mem_append_right _ (by simpa using hmem)
  have hne : delivered (outcomes ++ [(b.accept seq (seq, item)).1]) ≠ [] := by
    intro hnil
    rw [hnil] at hmem
    cases hmem
  obtain ⟨high, hack, -, hbeyond⟩ := hexact.acked hne
  refine hbeyond maxSeq ?_ hmem
  simp only [ReorderBuffer.ack, hnext] at hack
  split_ifs at hack
  obtain rfl := Option.some.inj hack
  decide

theorem neverExhausts_tagged (h : ∀ before seq item, before ++ [(seq, item)] <+: calls →
      ¬ Exhausts (taggedRun start capacity before).2 seq) :
    NeverExhausts (.new start capacity) (tagged calls) := by
  intro before seq item hpre
  obtain ⟨rest, hrest⟩ := hpre
  obtain ⟨whole, later, rfl, hwhole, -⟩ := List.map_eq_append_iff.mp hrest.symm
  obtain ⟨first, last, rfl, rfl, hlast⟩ := List.map_eq_append_iff.mp hwhole
  obtain ⟨⟨seq', item'⟩, rfl, hcall⟩ := List.map_eq_singleton_iff.mp hlast
  obtain ⟨rfl, rfl⟩ := Prod.mk.inj hcall
  exact h first seq' item' (List.prefix_append _ _)

/-- Over all numbers, a buffer is exact after every offer exactly when no offer delivers
the last number. -/
theorem exact_iff_not_exhausted (start capacity : UInt64) (calls : List (UInt64 × T)) :
    (∀ before, before <+: calls → Exact start (taggedRun start capacity before)) ↔
      ∀ before seq item, before ++ [(seq, item)] <+: calls →
        ¬ Exhausts (taggedRun start capacity before).2 seq := by
  constructor
  · induction calls using List.reverseRecOn with
    | nil =>
        intro _ before seq item hpre
        simp at hpre
    | append_singleton calls call ih =>
        intro hexact before seq item hpre hexhausts
        have hearlier := ih fun first hfirst => hexact first (hfirst.trans (List.prefix_append _ _))
        rcases List.prefix_concat_iff.mp hpre with heq | hpre
        · obtain ⟨rfl, rfl⟩ := List.append_singleton_inj.mp heq
          have hrun : Resequenced start capacity
              (kept (tagged before) (taggedRun start capacity before).1)
              (delivered (taggedRun start capacity before).1)
              (taggedRun start capacity before).2 :=
            resequenced_run (neverExhausts_tagged hearlier)
          have hlast := hexact _ (List.prefix_refl _)
          rw [taggedRun, tagged, List.map_append, run_append] at hlast
          refine not_exact_of_exhausts hexhausts ?_ ?_ hlast
          · rw [hrun.pending_eq, if_neg (UInt64.lt_irrefl _)]
          · intro k x hx
            rw [hrun.pending_eq] at hx
            split_ifs at hx
            exact fst_of_kept hx
        · exact hearlier before seq item hpre hexhausts
  · intro hok before hbefore
    exact (resequenced_run (neverExhausts_tagged fun first seq item hfirst =>
      hok first seq item (hfirst.trans hbefore))).exact

/-- Two offers in the wrong order are delivered exactly. -/
theorem exact_reordered :
    ∀ before, before <+: [(1, 'b'), (0, 'a')] → Exact 0 (taggedRun 0 4 before) := by
  refine (exact_iff_not_exhausted 0 4 [(1, 'b'), (0, 'a')]).mpr ?_
  rintro before seq item ⟨rest, hrest⟩ ⟨-, hall⟩
  rcases before with _ | ⟨first, _ | ⟨second, before⟩⟩
  · exact absurd (hall maxSeq (by decide)) (by decide)
  · obtain ⟨rfl, -⟩ := List.cons.inj hrest
    exact absurd (hall maxSeq (by decide)) (by decide)
  · simp at hrest

/-- The last number is delivered twice, and never acknowledged. -/
theorem last_number_twice :
    (taggedRun maxSeq 4 [(maxSeq, 'a'), (maxSeq, 'b')]).1 =
      [.deliver [(maxSeq, 'a')], .deliver [(maxSeq, 'b')]] ∧
    (taggedRun maxSeq 4 [(maxSeq, 'a'), (maxSeq, 'b')]).2.ack = none ∧
    ¬ ∀ before, before <+: [(maxSeq, 'a'), (maxSeq, 'b')] →
      Exact maxSeq (taggedRun maxSeq 4 before) := by
  have hrun : (taggedRun maxSeq 4 [(maxSeq, 'a'), (maxSeq, 'b')]).1 =
      [.deliver [(maxSeq, 'a')], .deliver [(maxSeq, 'b')]] := by
    decide +kernel
  refine ⟨hrun, by decide +kernel, ?_⟩
  intro hexact
  have honce := (hexact _ (List.prefix_refl _)).once
  rw [hrun] at honce
  exact absurd honce (by decide)

end Stream
end OpenSsmAgent
