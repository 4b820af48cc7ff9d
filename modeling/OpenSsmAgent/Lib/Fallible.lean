import Mathlib.Data.List.Forall2

/-!
# Computations that may fail

Inversion of a sequence of steps each of which may fail, and single statements sent to
a database: each runs atomically or not at all, and its answer may be lost.

Main results:

- Theorems {lit}`bind_eq_ok_iff`, {lit}`mapM_eq_ok` and {lit}`orError_eq_ok_iff`: what a
  computation that succeeded has gone through.
- Theorem {lit}`CallFate.statement_snd`: what holds before and after a statement holds
  whatever becomes of it.
-/

namespace Fallible

variable {E A B : Type}

/-- The value, or an error if there is none. -/
def orError (e : E) : Option A → Except E A
  | some a => .ok a
  | none => .error e

/-- Inversion of {lit}`orError`. -/
theorem orError_eq_ok_iff {e : E} {o : Option A} {a : A} : orError e o = .ok a ↔ o = some a := by
  cases o <;> simp [orError]

/-- Inversion of a step that may fail. -/
theorem bind_eq_ok_iff {x : Except E A} {next : A → Except E B} {b : B} :
    (x >>= next) = .ok b ↔ ∃ a, x = .ok a ∧ next a = .ok b := by
  cases x <;> simp [bind, Except.bind]

/-- Another error makes no other result. -/
theorem mapError_eq_ok_iff {E' : Type} {f : E → E'} {x : Except E A} {a : A} :
    x.mapError f = .ok a ↔ x = .ok a := by
  cases x <;> simp [Except.mapError]

/-- Inversion of a list of steps each of which may fail. -/
theorem mapM_eq_ok {f : A → Except E B} {xs : List A} {ys : List B} (h : xs.mapM f = .ok ys) :
    List.Forall₂ (fun x y => f x = .ok y) xs ys := by
  induction xs generalizing ys with
  | nil =>
      cases h
      exact .nil
  | cons x xs ih =>
      rw [List.mapM_cons] at h
      obtain ⟨y, hy, h⟩ := bind_eq_ok_iff.mp h
      obtain ⟨rest, hrest, h⟩ := bind_eq_ok_iff.mp h
      cases h
      exact .cons hy (ih hrest)

/-! ## Statements -/

/-- What becomes of a statement sent to the database: it runs and is answered, it
runs and the answer is lost, or it does not run. -/
inductive CallFate where
  | answered
  | lost (message : String)
  | failed (message : String)
deriving DecidableEq

/-- Whether the statement ran. -/
def CallFate.ran : CallFate → Bool
  | .failed _ => false
  | _ => true

/-- Send a statement: the caller's result and the tables after it. -/
def CallFate.statement {A S : Type} (fate : CallFate) (run : S → A × S) (s : S) :
    Except String A × S :=
  match fate with
  | .answered => (.ok (run s).1, (run s).2)
  | .lost message => (.error message, (run s).2)
  | .failed message => (.error message, s)

section Statements

variable {A S : Type} {fate : CallFate} {run : S → A × S} {s : S}

theorem CallFate.statement_of_ran (h : fate.ran = true) : (fate.statement run s).2 = (run s).2 := by
  cases fate with
  | answered => rfl
  | lost message => rfl
  | failed message => cases h

theorem CallFate.statement_of_not_ran (h : fate.ran = false) : (fate.statement run s).2 = s := by
  cases fate with
  | answered => cases h
  | lost message => cases h
  | failed message => rfl

/-- What holds before and after a statement holds whatever becomes of it. -/
theorem CallFate.statement_snd (good : S → Prop) (fate : CallFate) (hs : good s)
    (hrun : good (run s).2) : good (fate.statement run s).2 := by
  cases fate with
  | answered => exact hrun
  | lost message => exact hrun
  | failed message => exact hs

end Statements

end Fallible
