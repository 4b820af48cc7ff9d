import Mathlib

/-!
# Authenticate-then-advance replay guards

A receiver that authenticates each message first and only then compares its
sequence number with a strict high-water mark.  The authentication function and
the sequence number are parameters; the run is over any list of deliveries.

Main results:

- Theorem {lit}`guardedOpen_reject`: a rejected message leaves the mark as it
  was.
- Theorem {lit}`accepted_pairwise`: accepted sequence numbers strictly increase.
- Theorem {lit}`sublist_of_subset`: what is accepted out of a log in sequence
  order is a subsequence of it.
- Theorem {lit}`guardedOpen_genuine`: a message newer than everything accepted so
  far is accepted, whatever was delivered before.
-/

namespace ReplayGuard

variable {E P : Type*}

/-- The sequence number is not newer than the mark. -/
def stale (recvHigh : Option UInt64) (seq : UInt64) : Bool :=
  recvHigh.any (fun h => seq ≤ h)

@[simp] theorem stale_none (seq : UInt64) : stale none seq = false :=
  rfl

@[simp] theorem stale_some (h seq : UInt64) : stale (some h) seq = decide (seq ≤ h) :=
  rfl

/-- Authenticate, then reject what is not newer than the mark, then advance. -/
def guardedOpen (auth : E → Option P) (seq : E → UInt64) (recvHigh : Option UInt64) (e : E) :
    Option P × Option UInt64 :=
  match auth e with
  | none => (none, recvHigh)
  | some p => if stale recvHigh (seq e) then (none, recvHigh) else (some p, some (seq e))

variable {auth : E → Option P} {seq : E → UInt64} {recvHigh : Option UInt64} {e : E} {p : P}

/-- A message is accepted exactly if it authenticates and is not stale. -/
theorem guardedOpen_fst_eq_some_iff :
    (guardedOpen auth seq recvHigh e).1 = some p ↔
      auth e = some p ∧ stale recvHigh (seq e) = false := by
  unfold guardedOpen
  cases auth e with
  | none => simp
  | some q => cases h : stale recvHigh (seq e) <;> simp

/-- Accepting moves the mark to the accepted sequence number. -/
theorem guardedOpen_accept (h : (guardedOpen auth seq recvHigh e).1 = some p) :
    (guardedOpen auth seq recvHigh e).2 = some (seq e) := by
  obtain ⟨hauth, hfresh⟩ := guardedOpen_fst_eq_some_iff.mp h
  simp [guardedOpen, hauth, hfresh]

/-- A rejected message leaves the mark as it was. -/
theorem guardedOpen_reject (h : (guardedOpen auth seq recvHigh e).1 = none) :
    (guardedOpen auth seq recvHigh e).2 = recvHigh := by
  unfold guardedOpen at h ⊢
  cases hauth : auth e with
  | none => rfl
  | some q =>
      cases hstale : stale recvHigh (seq e) with
      | true => simp
      | false => simp [hauth, hstale] at h

/-! ## Runs -/

/-- Deliver a list of messages: what was accepted, in order, and the final mark. -/
def deliver (auth : E → Option P) (seq : E → UInt64) :
    Option UInt64 → List E → List (E × P) × Option UInt64
  | recvHigh, [] => ([], recvHigh)
  | recvHigh, e :: es =>
      match guardedOpen auth seq recvHigh e with
      | (none, high) => deliver auth seq high es
      | (some p, high) => ((e, p) :: (deliver auth seq high es).1, (deliver auth seq high es).2)

/-- Delivering a rejected message first changes nothing. -/
theorem deliver_cons_reject {es : List E} (h : (guardedOpen auth seq recvHigh e).1 = none) :
    deliver auth seq recvHigh (e :: es) = deliver auth seq recvHigh es := by
  have hmark := guardedOpen_reject h
  rw [deliver]
  split <;> rename_i heq
  · rw [heq] at hmark
    rw [← hmark]
  · simp [heq] at h

theorem deliver_cons_accept {es : List E} (h : (guardedOpen auth seq recvHigh e).1 = some p) :
    deliver auth seq recvHigh (e :: es) =
      ((e, p) :: (deliver auth seq (some (seq e)) es).1,
        (deliver auth seq (some (seq e)) es).2) := by
  have hmark := guardedOpen_accept h
  rw [deliver]
  split <;> rename_i heq
  · simp [heq] at h
  · simp only [heq, Option.some.injEq] at h hmark
    rw [h, hmark]

/-- Everything accepted authenticates. -/
theorem auth_of_mem_accepted {es : List E} {a : E × P}
    (ha : a ∈ (deliver auth seq recvHigh es).1) : a.1 ∈ es ∧ auth a.1 = some a.2 := by
  induction es generalizing recvHigh with
  | nil => simp [deliver] at ha
  | cons e es ih =>
      cases hopen : (guardedOpen auth seq recvHigh e).1 with
      | none =>
          rw [deliver_cons_reject hopen] at ha
          exact ⟨List.mem_cons_of_mem _ (ih ha).1, (ih ha).2⟩
      | some p =>
          rw [deliver_cons_accept hopen] at ha
          rcases List.mem_cons.mp ha with rfl | ha
          · exact ⟨List.mem_cons_self, (guardedOpen_fst_eq_some_iff.mp hopen).1⟩
          · exact ⟨List.mem_cons_of_mem _ (ih ha).1, (ih ha).2⟩

/-- Everything accepted is newer than the mark it started from. -/
theorem stale_of_mem_accepted {es : List E} {a : E × P}
    (ha : a ∈ (deliver auth seq recvHigh es).1) : stale recvHigh (seq a.1) = false := by
  induction es generalizing recvHigh with
  | nil => simp [deliver] at ha
  | cons e es ih =>
      cases hopen : (guardedOpen auth seq recvHigh e).1 with
      | none =>
          rw [deliver_cons_reject hopen] at ha
          exact ih ha
      | some p =>
          have hfresh := (guardedOpen_fst_eq_some_iff.mp hopen).2
          rw [deliver_cons_accept hopen] at ha
          rcases List.mem_cons.mp ha with rfl | ha
          · exact hfresh
          · have hnewer := ih ha
            cases recvHigh with
            | none => rfl
            | some high =>
                simp only [stale_some, decide_eq_false_iff_not, UInt64.le_iff_toNat_le]
                  at hfresh hnewer ⊢
                omega

/-- Accepted sequence numbers strictly increase. -/
theorem accepted_pairwise (recvHigh : Option UInt64) (es : List E) :
    (deliver auth seq recvHigh es).1.Pairwise (fun a b => seq a.1 < seq b.1) := by
  induction es generalizing recvHigh with
  | nil => simp [deliver]
  | cons e es ih =>
      cases hopen : (guardedOpen auth seq recvHigh e).1 with
      | none =>
          rw [deliver_cons_reject hopen]
          exact ih recvHigh
      | some p =>
          rw [deliver_cons_accept hopen]
          refine List.Pairwise.cons ?_ (ih _)
          intro a ha
          have hnewer := stale_of_mem_accepted ha
          simpa [UInt64.le_iff_toNat_le, UInt64.lt_iff_toNat_lt] using hnewer

/-- What is accepted was delivered, in the same order. -/
theorem accepted_sublist (recvHigh : Option UInt64) (es : List E) :
    ((deliver auth seq recvHigh es).1.map Prod.fst).Sublist es := by
  induction es generalizing recvHigh with
  | nil => simp [deliver]
  | cons e es ih =>
      cases hopen : (guardedOpen auth seq recvHigh e).1 with
      | none =>
          rw [deliver_cons_reject hopen]
          exact (ih recvHigh).cons e
      | some p =>
          rw [deliver_cons_accept hopen]
          exact (ih (some (seq e))).cons_cons e

/-- Genuine messages in sequence order, all newer than the mark, are all
accepted. -/
theorem deliver_of_increasing {es : List E} {plain : E → P}
    (hauth : ∀ e ∈ es, auth e = some (plain e)) (hnew : ∀ e ∈ es, stale recvHigh (seq e) = false)
    (hinc : es.Pairwise (fun a b => seq a < seq b)) :
    (deliver auth seq recvHigh es).1 = es.map (fun e => (e, plain e)) := by
  induction es generalizing recvHigh with
  | nil => simp [deliver]
  | cons e es ih =>
      obtain ⟨hfirst, hrest⟩ := List.pairwise_cons.mp hinc
      have hopen : (guardedOpen auth seq recvHigh e).1 = some (plain e) :=
        guardedOpen_fst_eq_some_iff.mpr
          ⟨hauth e List.mem_cons_self, hnew e List.mem_cons_self⟩
      rw [deliver_cons_accept hopen, List.map_cons]
      dsimp only
      rw [ih (fun a ha => hauth a (List.mem_cons_of_mem _ ha)) ?_ hrest]
      intro a ha
      have hlt := hfirst a ha
      simp only [stale_some, decide_eq_false_iff_not, UInt64.le_iff_toNat_le,
        UInt64.lt_iff_toNat_lt] at hlt ⊢
      omega

/-- The final mark is the last accepted sequence number. -/
theorem deliver_snd (recvHigh : Option UInt64) (es : List E) :
    (deliver auth seq recvHigh es).2 =
      ((deliver auth seq recvHigh es).1.getLast?.map (fun a => seq a.1)).or recvHigh := by
  induction es generalizing recvHigh with
  | nil => simp [deliver]
  | cons e es ih =>
      cases hopen : (guardedOpen auth seq recvHigh e).1 with
      | none =>
          rw [deliver_cons_reject hopen]
          exact ih recvHigh
      | some p =>
          rw [deliver_cons_accept hopen, ih]
          cases h : (deliver auth seq (some (seq e)) es).1 with
          | nil => simp
          | cons a as => simp [List.getLast?_cons]

/-- A message newer than everything accepted so far is accepted, whatever else
was delivered in between. -/
theorem guardedOpen_genuine {es : List E} (hauth : auth e = some p)
    (hnewer : ∀ a ∈ (deliver auth seq none es).1, seq a.1 < seq e) :
    guardedOpen auth seq (deliver auth seq none es).2 e = (some p, some (seq e)) := by
  have hfresh : stale (deliver auth seq none es).2 (seq e) = false := by
    rw [deliver_snd]
    cases hlast : (deliver auth seq none es).1.getLast? with
    | none => simp
    | some a =>
        have hlt := hnewer a (List.mem_of_getLast? hlast)
        simp only [Option.map_some, Option.some_or, stale_some, decide_eq_false_iff_not,
          UInt64.le_iff_toNat_le, UInt64.lt_iff_toNat_lt] at hlt ⊢
        omega
  simp [guardedOpen, hauth, hfresh]

/-! ## Subsequences of a log -/

/-- Of two lists in strict sequence order, one whose elements all occur in the
other is a subsequence of it. -/
theorem sublist_of_subset {α : Type*} (num : α → UInt64) {xs ys : List α}
    (hxs : xs.Pairwise (fun a b => num a < num b)) (hys : ys.Pairwise (fun a b => num a < num b))
    (hsubset : xs ⊆ ys) : xs.Sublist ys := by
  have hantisymm : Std.Antisymm (fun a b : α => num a < num b) := by
    refine ⟨fun a b hab hba => ?_⟩
    simp only [UInt64.lt_iff_toNat_lt] at hab hba
    omega
  have hnodup : xs.Nodup := by
    refine hxs.imp ?_
    rintro a b hlt rfl
    simp only [UInt64.lt_iff_toNat_lt] at hlt
    omega
  exact List.sublist_of_subperm_of_pairwise (List.subperm_of_subset hnodup hsubset) hxs hys

end ReplayGuard
