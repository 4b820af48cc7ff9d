import Mathlib

/-!
# Transactions behind one advisory lock

Several clients run one transaction against a shared table, statement by statement: begin,
possibly pin the isolation level, take the table's advisory lock, read, insert at most one
row, commit.  Any statement may fail, and the transaction is then rolled back.  The lock is
held until the transaction ends.  A unique index refuses a row that clashes with a committed
one and makes it wait for an uncommitted one, and a full table refuses every row.

What a transaction reads is the table at its read, or, where its isolation level fixes the
snapshot at the first statement, the table as it was before the lock was granted.

Main results:

- Theorem {lit}`Inv.next`: what one event preserves.
- Theorem {lit}`history_run`: in every run the table is built by the committed transactions
  one after the other, each deciding on an earlier state of the table; where the
  transaction pins its isolation level, on the state it extends.
- Theorem {lit}`mem_returned_run_iff`: the committed transactions are those listed.
- Theorem {lit}`rows_run_append`: committed rows stay as they are.
-/

namespace LockedTransactions

/-! ## Rows in the order of a key -/

/-- The rows in ascending order of a key; the negated key orders them descending. -/
def orderBy {Row : Type} (key : Row → Int) (rows : List Row) : List Row :=
  rows.insertionSort fun a b => key a ≤ key b

theorem mem_orderBy {Row : Type} {key : Row → Int} {rows : List Row} {row : Row} :
    row ∈ orderBy key rows ↔ row ∈ rows :=
  List.mem_insertionSort _

/-- Rows with distinct keys have one ordering. -/
theorem orderBy_eq {Row : Type} {key : Row → Int} {rows sorted : List Row}
    (hperm : sorted.Perm rows) (hsorted : sorted.Pairwise fun a b => key a < key b) :
    orderBy key rows = sorted := by
  have htotal : Std.Total fun a b : Row => key a ≤ key b := ⟨fun a b => le_total (key a) (key b)⟩
  have hperm' : (orderBy key rows).Perm sorted := (List.perm_insertionSort _ rows).trans hperm.symm
  refine List.Perm.eq_of_pairwise (fun a b ha hb hab hba => ?_)
    (List.pairwise_insertionSort (fun a b : Row => key a ≤ key b) rows)
    (hsorted.imp fun h => le_of_lt h) hperm'
  -- Two rows of the sorted list with one key are the same row.
  have hsymm : Std.Symm fun a b : Row => key a ≠ key b := ⟨fun _ _ h => h.symm⟩
  have hne := (hsorted.imp (fun h => ne_of_lt h)).forall (hperm'.mem_iff.mp ha) hb
  by_contra hab'
  exact hne hab' (le_antisymm hab hba)

/-! ## Transactions and their statements -/

/-- What a transaction decides on the rows it reads: an answer, or a row to insert and the
answer after that. -/
inductive Plan (Row Out : Type) where
  | found (out : Out)
  | adds (row : Row) (out : Out)
deriving DecidableEq

/-- The transaction all clients run, and the table it runs on. -/
structure Program (Input Row Out Err : Type) where
  /-- whether it first pins the isolation level to a fresh snapshot for each statement -/
  pins : Bool
  plan : Input → List Row → Except Err (Plan Row Out)
  /-- the unique index -/
  clash : Row → Row → Bool
  capacity : Nat
  /-- the error of a refused insert -/
  refused : Err

/-- Whether each statement of a transaction takes a fresh snapshot, or all use the one of
the first statement. -/
inductive Isolation where
  | perStatement
  | fixed
deriving DecidableEq

/-- How far a transaction is. -/
inductive Phase (Row Out Err : Type) where
  | begun
  | pinned
  | waiting (snapshot : List Row)
  | locked (snapshot : List Row)
  | planned (plan : Plan Row Out)
  | inserted (row : Row) (out : Out)
  | committed (out : Out)
  | failed (err : Err)
deriving DecidableEq

structure Tx (Input Row Out Err : Type) where
  input : Input
  isolation : Isolation
  phase : Phase Row Out Err
deriving DecidableEq

/-- The answer of a committed transaction. -/
structure Return (Input Out : Type) where
  call : Nat
  input : Input
  out : Out
deriving DecidableEq

/-- The committed rows, the holder of the lock, all transactions begun, and the answers in
the order of the commits. -/
structure World (Input Row Out Err : Type) where
  rows : List Row := []
  holder : Option Nat := none
  txs : List (Tx Input Row Out Err) := []
  returned : List (Return Input Out) := []
deriving DecidableEq

/-- A transaction begins under the level its session has, runs its next statement, or
fails at it. -/
inductive Event (Input Err : Type) where
  | start (input : Input) (isolation : Isolation)
  | step (i : Nat)
  | fail (i : Nat) (err : Err)
deriving DecidableEq

variable {Input Row Out Err : Type}

/-- The rows a statement after the lock sees. -/
def Tx.view (tx : Tx Input Row Out Err) (snapshot rows : List Row) : List Row :=
  match tx.isolation with
  | .perStatement => rows
  | .fixed => snapshot

/-- The row a transaction has inserted and not yet committed. -/
def Phase.pending : Phase Row Out Err → Option Row
  | .inserted row _ => some row
  | _ => none

/-- Whether a transaction has ended. -/
def Phase.ended : Phase Row Out Err → Bool
  | .committed _ | .failed _ => true
  | _ => false

/-- The lock after a transaction has ended. -/
def release (holder : Option Nat) (i : Nat) : Option Nat :=
  if holder = some i then none else holder

namespace World

/-- Put a transaction in its place. -/
def put (w : World Input Row Out Err) (i : Nat) (tx : Tx Input Row Out Err) :
    World Input Row Out Err :=
  { w with txs := w.txs.set i tx }

/-- Roll a transaction back. -/
def rollback (w : World Input Row Out Err) (i : Nat) (tx : Tx Input Row Out Err) (err : Err) :
    World Input Row Out Err :=
  { w with
    holder := release w.holder i
    txs := w.txs.set i { tx with phase := .failed err } }

/-- Commit a transaction with the rows it has added. -/
def commit (w : World Input Row Out Err) (i : Nat) (tx : Tx Input Row Out Err) (added : List Row)
    (out : Out) : World Input Row Out Err where
  rows := w.rows ++ added
  holder := release w.holder i
  txs := w.txs.set i { tx with phase := .committed out }
  returned := w.returned ++ [⟨i, tx.input, out⟩]

/-- Whether a row has to wait for another transaction's uncommitted row. -/
def blocked (p : Program Input Row Out Err) (w : World Input Row Out Err) (row : Row) : Bool :=
  w.txs.any fun tx => tx.phase.pending.any (p.clash · row)

/-- Whether the table refuses a row. -/
def refuses (p : Program Input Row Out Err) (w : World Input Row Out Err) (row : Row) : Bool :=
  w.rows.any (p.clash · row) || p.capacity ≤ w.rows.length

/-- The next statement of a transaction. -/
def statement (p : Program Input Row Out Err) (w : World Input Row Out Err) (i : Nat)
    (tx : Tx Input Row Out Err) : World Input Row Out Err :=
  match tx.phase with
  | .begun =>
      if p.pins then w.put i { tx with isolation := .perStatement, phase := .pinned }
      else w.put i { tx with phase := .waiting w.rows }
  | .pinned => w.put i { tx with phase := .waiting w.rows }
  | .waiting snapshot =>
      match w.holder with
      | none => { w.put i { tx with phase := .locked snapshot } with holder := some i }
      | some _ => w
  | .locked snapshot =>
      match p.plan tx.input (tx.view snapshot w.rows) with
      | .ok plan => w.put i { tx with phase := .planned plan }
      | .error err => w.rollback i tx err
  | .planned (.found out) => w.commit i tx [] out
  | .planned (.adds row out) =>
      if w.blocked p row then w
      else if w.refuses p row then w.rollback i tx p.refused
      else w.put i { tx with phase := .inserted row out }
  | .inserted row out => w.commit i tx [row] out
  | .committed _ => w
  | .failed _ => w

/-- What an event does. -/
def next (p : Program Input Row Out Err) (w : World Input Row Out Err) :
    Event Input Err → World Input Row Out Err
  | .start input isolation => { w with txs := w.txs ++ [⟨input, isolation, .begun⟩] }
  | .step i =>
      match w.txs[i]? with
      | none => w
      | some tx => w.statement p i tx
  | .fail i err =>
      match w.txs[i]? with
      | none => w
      | some tx => if tx.phase.ended then w else w.rollback i tx err

/-- A run from the empty table. -/
def run (p : Program Input Row Out Err) (events : List (Event Input Err)) :
    World Input Row Out Err :=
  events.foldl (next p) {}

end World

/-! ## What a statement can do -/

/-- The rows a transaction may decide on while the table holds the given rows. -/
def Program.Sees (p : Program Input Row Out Err) (seen rows : List Row) : Prop :=
  seen <+: rows ∧ (p.pins = true → seen = rows)

/-- The transaction has reached a phase from which it goes on holding the lock. -/
def Phase.Holds : Phase Row Out Err → Prop
  | .locked _ | .planned _ | .inserted _ _ => True
  | _ => False

/-- One statement of a transaction, or its failure. -/
inductive Move (p : Program Input Row Out Err) (w : World Input Row Out Err) (i : Nat)
    (tx : Tx Input Row Out Err) : World Input Row Out Err → Prop where
  | stay : Move p w i tx w
  | pin : tx.phase = .begun →
      Move p w i tx (w.put i { tx with isolation := .perStatement, phase := .pinned })
  | queue : tx.phase = .pinned ∨ tx.phase = .begun ∧ p.pins = false →
      Move p w i tx (w.put i { tx with phase := .waiting w.rows })
  | acquire {snapshot : List Row} : tx.phase = .waiting snapshot → w.holder = none →
      Move p w i tx { w.put i { tx with phase := .locked snapshot } with holder := some i }
  | read {snapshot : List Row} {plan : Plan Row Out} : tx.phase = .locked snapshot →
      p.plan tx.input (tx.view snapshot w.rows) = .ok plan →
      Move p w i tx (w.put i { tx with phase := .planned plan })
  | insert {row : Row} {out : Out} : tx.phase = .planned (.adds row out) →
      w.refuses p row = false →
      Move p w i tx (w.put i { tx with phase := .inserted row out })
  | commitFound {out : Out} : tx.phase = .planned (.found out) →
      Move p w i tx (w.commit i tx [] out)
  | commitAdded {row : Row} {out : Out} : tx.phase = .inserted row out →
      Move p w i tx (w.commit i tx [row] out)
  | rollback (err : Err) : tx.phase.ended = false → Move p w i tx (w.rollback i tx err)

theorem move_statement (p : Program Input Row Out Err) (w : World Input Row Out Err) (i : Nat)
    (tx : Tx Input Row Out Err) : Move p w i tx (w.statement p i tx) := by
  unfold World.statement
  cases hphase : tx.phase with
  | begun =>
      cases hpins : p.pins with
      | false => exact .queue (.inr ⟨hphase, hpins⟩)
      | true => exact .pin hphase
  | pinned => exact .queue (.inl hphase)
  | waiting snapshot =>
      cases hholder : w.holder with
      | none => exact .acquire hphase hholder
      | some j => exact .stay
  | locked snapshot =>
      cases hplan : p.plan tx.input (tx.view snapshot w.rows) with
      | ok plan =>
          simp only [hplan]
          exact .read hphase hplan
      | error err =>
          simp only [hplan]
          exact .rollback err (by rw [hphase]; rfl)
  | planned plan =>
      cases plan with
      | found out => exact .commitFound hphase
      | adds row out =>
          dsimp only
          split_ifs with hblocked hrefuses
          · exact .stay
          · exact .rollback p.refused (by rw [hphase]; rfl)
          · exact .insert hphase (Bool.eq_false_iff.mpr hrefuses)
  | inserted row out => exact .commitAdded hphase
  | committed out => exact .stay
  | failed err => exact .stay

/-- An event begins a transaction or moves one. -/
theorem next_cases (p : Program Input Row Out Err) (w : World Input Row Out Err)
    (event : Event Input Err) :
    (∃ input isolation,
        w.next p event = { w with txs := w.txs ++ [⟨input, isolation, .begun⟩] }) ∨
      w.next p event = w ∨
      ∃ i tx, w.txs[i]? = some tx ∧ Move p w i tx (w.next p event) := by
  cases event with
  | start input isolation => exact .inl ⟨input, isolation, rfl⟩
  | step i =>
      cases htx : w.txs[i]? with
      | none => exact .inr (.inl (by simp [World.next, htx]))
      | some tx =>
          refine .inr (.inr ⟨i, tx, htx, ?_⟩)
          simpa only [World.next, htx] using move_statement p w i tx
  | fail i err =>
      cases htx : w.txs[i]? with
      | none => exact .inr (.inl (by simp [World.next, htx]))
      | some tx =>
          refine .inr (.inr ⟨i, tx, htx, ?_⟩)
          cases hended : tx.phase.ended with
          | true => simpa [World.next, htx, hended] using Move.stay
          | false => simpa [World.next, htx, hended] using Move.rollback err hended

/-! ## The invariant -/

/-- The table built by transactions one after the other: each reads rows it may see and
answers, or adds a row that the index and the capacity allow. -/
inductive History (p : Program Input Row Out Err) :
    List Row → List (Return Input Out) → Prop where
  | nil : History p [] []
  | found {rows seen : List Row} {returned : List (Return Input Out)} {i : Nat} {input : Input}
      {out : Out} : History p rows returned → p.Sees seen rows →
      p.plan input seen = .ok (.found out) → History p rows (returned ++ [⟨i, input, out⟩])
  | added {rows seen : List Row} {returned : List (Return Input Out)} {i : Nat} {input : Input}
      {row : Row} {out : Out} : History p rows returned → p.Sees seen rows →
      p.plan input seen = .ok (.adds row out) → (∀ r ∈ rows, p.clash r row = false) →
      rows.length < p.capacity → History p (rows ++ [row]) (returned ++ [⟨i, input, out⟩])

/-- What holds of a transaction while the table and the lock are as given. -/
def Tx.Sound (p : Program Input Row Out Err) (rows : List Row) (holder : Option Nat) (i : Nat)
    (tx : Tx Input Row Out Err) : Prop :=
  match tx.phase with
  | .begun => True
  | .pinned => tx.isolation = .perStatement
  | .waiting snapshot => snapshot <+: rows ∧ (p.pins = true → tx.isolation = .perStatement)
  | .locked snapshot =>
      holder = some i ∧ snapshot <+: rows ∧ (p.pins = true → tx.isolation = .perStatement)
  | .planned plan =>
      holder = some i ∧ ∃ seen, p.Sees seen rows ∧ p.plan tx.input seen = .ok plan
  | .inserted row out =>
      holder = some i ∧ (∃ seen, p.Sees seen rows ∧ p.plan tx.input seen = .ok (.adds row out)) ∧
        (∀ r ∈ rows, p.clash r row = false) ∧ rows.length < p.capacity
  | .committed _ => True
  | .failed _ => True

/-- The invariant of a run. -/
structure Inv (p : Program Input Row Out Err) (w : World Input Row Out Err) : Prop where
  sound : ∀ (i : Nat) (tx : Tx Input Row Out Err),
    w.txs[i]? = some tx → tx.Sound p w.rows w.holder i
  history : History p w.rows w.returned
  returned_iff : ∀ (i : Nat) (input : Input) (out : Out), ⟨i, input, out⟩ ∈ w.returned ↔
    ∃ tx : Tx Input Row Out Err, w.txs[i]? = some tx ∧ tx.input = input ∧ tx.phase = .committed out
  once : (w.returned.map Return.call).Nodup

namespace Tx.Sound

variable {p : Program Input Row Out Err} {rows rows' : List Row} {holder holder' : Option Nat}
  {i : Nat} {tx : Tx Input Row Out Err}

/-- A transaction that does not hold the lock is not disturbed by rows that are added, and
the holder is not disturbed while the rows and the lock stay. -/
theorem frame (h : tx.Sound p rows holder i) (hrows : rows <+: rows')
    (hheld : holder = some i → rows' = rows ∧ holder' = some i) :
    tx.Sound p rows' holder' i := by
  unfold Tx.Sound at h ⊢
  cases hphase : tx.phase with
  | begun => trivial
  | pinned => simpa [hphase] using h
  | waiting snapshot =>
      simp only [hphase] at h ⊢
      exact ⟨h.1.trans hrows, h.2⟩
  | locked snapshot =>
      simp only [hphase] at h ⊢
      obtain ⟨hrows', hholder'⟩ := hheld h.1
      exact ⟨hholder', hrows' ▸ h.2⟩
  | planned plan =>
      simp only [hphase] at h ⊢
      obtain ⟨hrows', hholder'⟩ := hheld h.1
      exact ⟨hholder', hrows' ▸ h.2⟩
  | inserted row out =>
      simp only [hphase] at h ⊢
      obtain ⟨hrows', hholder'⟩ := hheld h.1
      exact ⟨hholder', hrows' ▸ h.2⟩
  | committed out => trivial
  | failed err => trivial

/-- What the read after the lock sees. -/
theorem sees_view {snapshot : List Row} (h : tx.Sound p rows holder i)
    (hphase : tx.phase = .locked snapshot) : p.Sees (tx.view snapshot rows) rows := by
  simp only [Tx.Sound, hphase] at h
  unfold Tx.view
  cases hisolation : tx.isolation with
  | perStatement => exact ⟨List.prefix_rfl, fun _ => rfl⟩
  | fixed =>
      refine ⟨h.2.1, fun hpins => ?_⟩
      rw [h.2.2 hpins] at hisolation
      cases hisolation

/-- A transaction past the lock holds it. -/
theorem holder_eq (h : tx.Sound p rows holder i) (hholds : tx.phase.Holds) :
    holder = some i := by
  cases hphase : tx.phase with
  | locked snapshot =>
      simp only [Tx.Sound, hphase] at h
      exact h.1
  | planned plan =>
      simp only [Tx.Sound, hphase] at h
      exact h.1
  | inserted row out =>
      simp only [Tx.Sound, hphase] at h
      exact h.1
  | _ => simp [Phase.Holds, hphase] at hholds

end Tx.Sound

namespace Inv

variable {p : Program Input Row Out Err} {w : World Input Row Out Err} {i : Nat}
  {tx tx' : Tx Input Row Out Err}

theorem init (p : Program Input Row Out Err) : Inv p {} where
  sound i tx htx := by simp at htx
  history := .nil
  returned_iff i input out := by simp
  once := by simp

/-- A transaction that ends leaves the lock of the others alone. -/
theorem release_of_ne {holder : Option Nat} {i j : Nat} (hne : j ≠ i) (h : holder = some j) :
    release holder i = some j := by
  subst h
  simp [release, hne]

/-- Moving one transaction to another sound state keeps every transaction sound, as long as
the others are not disturbed. -/
theorem sound_set (hinv : Inv p w) {rows : List Row} {holder : Option Nat}
    (hrows : w.rows <+: rows)
    (hothers : ∀ j, j ≠ i → w.holder = some j → rows = w.rows ∧ holder = some j)
    (hmoved : tx'.Sound p rows holder i) :
    ∀ (j : Nat) (other : Tx Input Row Out Err),
      (w.txs.set i tx')[j]? = some other → other.Sound p rows holder j := by
  intro j other hother
  rw [List.getElem?_set] at hother
  split_ifs at hother with hij hlt
  · obtain rfl := Option.some.inj hother
    exact hij ▸ hmoved
  · exact (hinv.sound j other hother).frame hrows (hothers j (Ne.symm hij))

/-- The committed transactions stay the same while another one moves on. -/
theorem returned_iff_set (hinv : Inv p w) (htx : w.txs[i]? = some tx)
    (hbefore : ∀ out, tx.phase ≠ .committed out) (hafter : ∀ out, tx'.phase ≠ .committed out)
    (j : Nat) (input : Input) (out : Out) :
    ⟨j, input, out⟩ ∈ w.returned ↔
      ∃ other, (w.txs.set i tx')[j]? = some other ∧ other.input = input ∧
        other.phase = .committed out := by
  have hlt : i < w.txs.length := (List.getElem?_eq_some_iff.mp htx).1
  rw [hinv.returned_iff, List.getElem?_set]
  by_cases hij : i = j
  · subst hij
    simp only [htx, if_pos hlt, if_true, Option.some.injEq, exists_eq_left']
    constructor
    · rintro ⟨-, hphase⟩
      exact absurd hphase (hbefore out)
    · rintro ⟨-, hphase⟩
      exact absurd hphase (hafter out)
  · simp only [if_neg hij]

/-- A statement that neither commits nor ends the transaction. -/
theorem put (hinv : Inv p w) (htx : w.txs[i]? = some tx) (holder : Option Nat)
    (hothers : ∀ j, j ≠ i → w.holder = some j → holder = some j)
    (hmoved : tx'.Sound p w.rows holder i) (hbefore : ∀ out, tx.phase ≠ .committed out)
    (hafter : ∀ out, tx'.phase ≠ .committed out) :
    Inv p { w with holder := holder, txs := w.txs.set i tx' } where
  sound := hinv.sound_set List.prefix_rfl (fun j hne hj => ⟨rfl, hothers j hne hj⟩) hmoved
  history := hinv.history
  returned_iff := hinv.returned_iff_set htx hbefore hafter
  once := hinv.once

/-- A commit of the transaction that holds the lock. -/
theorem commit (hinv : Inv p w) (htx : w.txs[i]? = some tx) {added : List Row} {out : Out}
    (hholds : tx.phase.Holds)
    (hhistory : History p (w.rows ++ added) (w.returned ++ [⟨i, tx.input, out⟩])) :
    Inv p (w.commit i tx added out) := by
  have hlt : i < w.txs.length := (List.getElem?_eq_some_iff.mp htx).1
  have hholder : w.holder = some i := (hinv.sound i tx htx).holder_eq hholds
  have hnot : ∀ input out', (⟨i, input, out'⟩ : Return Input Out) ∉ w.returned := by
    intro input out' hmem
    obtain ⟨tx', htx', -, hphase⟩ := (hinv.returned_iff _ _ _).mp hmem
    obtain rfl : tx = tx' := Option.some.inj (htx.symm.trans htx')
    simp [Phase.Holds, hphase] at hholds
  refine ⟨?_, hhistory, ?_, ?_⟩
  · refine hinv.sound_set (List.prefix_append _ _) (fun j hne hj => ?_) trivial
    rw [hholder] at hj
    exact absurd (Option.some.inj hj).symm hne
  · intro j input out'
    simp only [World.commit, List.mem_append, List.mem_singleton, Return.mk.injEq,
      List.getElem?_set]
    by_cases hij : i = j
    · subst hij
      simp only [hnot, false_or, true_and, if_pos hlt, if_true, Option.some.injEq,
        exists_eq_left', Phase.committed.injEq]
      constructor
      · rintro ⟨rfl, rfl⟩
        exact ⟨rfl, rfl⟩
      · rintro ⟨rfl, rfl⟩
        exact ⟨rfl, rfl⟩
    · simp only [if_neg hij, ← hinv.returned_iff, Ne.symm hij, false_and, or_false]
  · simp only [World.commit, List.map_append, List.map_cons, List.map_nil]
    refine List.Nodup.append hinv.once (List.nodup_singleton i) ?_
    rw [List.disjoint_singleton]
    intro hmem
    obtain ⟨⟨j, input, out'⟩, hreturn, rfl⟩ := List.mem_map.mp hmem
    exact hnot input out' hreturn

/-- Beginning a transaction. -/
theorem start (hinv : Inv p w) (input : Input) (isolation : Isolation) :
    Inv p { w with txs := w.txs ++ [⟨input, isolation, .begun⟩] } where
  sound i tx htx := by
    rw [List.getElem?_append] at htx
    split_ifs at htx with hlt
    · exact hinv.sound i tx htx
    · obtain rfl := List.mem_singleton.mp (List.mem_of_getElem? htx)
      trivial
  history := hinv.history
  returned_iff i input' out := by
    rw [hinv.returned_iff, List.getElem?_append]
    split_ifs with hlt
    · rfl
    · rw [List.getElem?_eq_none_iff.mpr (by omega)]
      constructor
      · rintro ⟨tx, htx, -⟩
        cases htx
      · rintro ⟨tx, htx, -, hphase⟩
        obtain rfl := List.mem_singleton.mp (List.mem_of_getElem? htx)
        cases hphase
  once := hinv.once

/-- What one statement preserves. -/
theorem move {w' : World Input Row Out Err} (hinv : Inv p w) (htx : w.txs[i]? = some tx)
    (hmove : Move p w i tx w') : Inv p w' := by
  have hsound := hinv.sound i tx htx
  cases hmove with
  | stay => exact hinv
  | pin hphase =>
      exact hinv.put htx w.holder (fun _ _ hj => hj) rfl (by simp [hphase]) (by simp)
  | queue hphase =>
      have hisolation : p.pins = true → tx.isolation = .perStatement := by
        rcases hphase with hphase | ⟨-, hpins⟩
        · simpa only [Tx.Sound, hphase] using fun _ => hsound
        · simp [hpins]
      refine hinv.put htx w.holder (fun _ _ hj => hj) ⟨List.prefix_rfl, hisolation⟩ ?_ (by simp)
      intro out hcommitted
      rcases hphase with hphase | ⟨hphase, -⟩ <;> simp [hphase] at hcommitted
  | @acquire snapshot hphase hfree =>
      have hwaiting : snapshot <+: w.rows ∧ (p.pins = true → tx.isolation = .perStatement) := by
        simpa only [Tx.Sound, hphase] using hsound
      exact hinv.put htx (some i) (fun j _ hj => by simp [hfree] at hj) ⟨rfl, hwaiting⟩
        (by simp [hphase]) (by simp)
  | @read snapshot plan hphase hplan =>
      have hholder := hsound.holder_eq (by simp [Phase.Holds, hphase])
      exact hinv.put htx w.holder (fun _ _ hj => hj)
        ⟨hholder, _, hsound.sees_view hphase, hplan⟩ (by simp [hphase]) (by simp)
  | @insert row out hphase hrefuses =>
      simp only [Tx.Sound, hphase] at hsound
      simp only [World.refuses, Bool.or_eq_false_iff, List.any_eq_false, Bool.not_eq_true,
        decide_eq_false_iff_not, not_le] at hrefuses
      exact hinv.put htx w.holder (fun _ _ hj => hj) ⟨hsound.1, hsound.2, hrefuses⟩
        (by simp [hphase]) (by simp)
  | @commitFound out hphase =>
      refine hinv.commit htx (by simp [Phase.Holds, hphase]) ?_
      simp only [Tx.Sound, hphase] at hsound
      obtain ⟨-, seen, hsees, hplan⟩ := hsound
      rw [List.append_nil]
      exact .found hinv.history hsees hplan
  | @commitAdded row out hphase =>
      refine hinv.commit htx (by simp [Phase.Holds, hphase]) ?_
      simp only [Tx.Sound, hphase] at hsound
      obtain ⟨-, ⟨seen, hsees, hplan⟩, hclash, hroom⟩ := hsound
      exact .added hinv.history hsees hplan hclash hroom
  | rollback err hended =>
      refine hinv.put htx (release w.holder i) (fun j hne hj => release_of_ne hne hj) trivial ?_
        (by simp)
      intro out hphase
      simp [hphase, Phase.ended] at hended

/-- What one event preserves. -/
theorem next (hinv : Inv p w) (event : Event Input Err) : Inv p (w.next p event) := by
  rcases next_cases p w event with ⟨input, isolation, hnext⟩ | hnext | ⟨i, tx, htx, hmove⟩
  · rw [hnext]
    exact hinv.start input isolation
  · rwa [hnext]
  · exact hinv.move htx hmove

end Inv

/-! ## Runs -/

theorem inv_run (p : Program Input Row Out Err) (events : List (Event Input Err)) :
    Inv p (World.run p events) := by
  induction events using List.reverseRecOn with
  | nil => exact Inv.init p
  | append_singleton events event ih =>
      rw [World.run, List.foldl_append]
      exact ih.next event

/-- In every run the table is built by the committed transactions one after the other. -/
theorem history_run (p : Program Input Row Out Err) (events : List (Event Input Err)) :
    History p (World.run p events).rows (World.run p events).returned :=
  (inv_run p events).history

/-- The committed transactions are those listed. -/
theorem mem_returned_run_iff (p : Program Input Row Out Err) (events : List (Event Input Err))
    (i : Nat) (input : Input) (out : Out) :
    ⟨i, input, out⟩ ∈ (World.run p events).returned ↔
      ∃ tx, (World.run p events).txs[i]? = some tx ∧ tx.input = input ∧
        tx.phase = .committed out :=
  (inv_run p events).returned_iff i input out

theorem rows_next (p : Program Input Row Out Err) (w : World Input Row Out Err)
    (event : Event Input Err) : w.rows <+: (w.next p event).rows := by
  rcases next_cases p w event with ⟨input, isolation, hnext⟩ | hnext | ⟨i, tx, -, hmove⟩
  · rw [hnext]
  · rw [hnext]
  · generalize w.next p event = w' at hmove
    cases hmove <;> simp [World.put, World.rollback, World.commit]

/-- Committed rows stay as they are. -/
theorem rows_run_append (p : Program Input Row Out Err) (events later : List (Event Input Err)) :
    (World.run p events).rows <+: (World.run p (events ++ later)).rows := by
  induction later using List.reverseRecOn with
  | nil => simp
  | append_singleton later event ih =>
      rw [← List.append_assoc]
      refine ih.trans ?_
      conv_rhs => rw [World.run, List.foldl_append]
      exact rows_next p _ event

end LockedTransactions
