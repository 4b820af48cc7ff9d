import OpenSsmAgent.Lib.Framing

/-!
# The host-local backstop

The allowlist of {lit}`osa-core/src/allowlist.rs`, which an agent asks before
every side effect, whatever the coordinator authorized.

Main results:

- Theorem {lit}`LocalAllowlist.permits_eq_ok_iff`: exactly what a host permits.
-/

open Framing

namespace OpenSsmAgent

/-- The routing-level description of an action. -/
structure ActionDescriptor where
  kind : Str
  target : Str
  runAs : Str
  paramsHash : Blob
deriving DecidableEq

/-- Why the backstop refused an action. -/
inductive BackstopDenial where
  | verb (kind : Str)
  | runAs (runAs : Str)
deriving DecidableEq

/-- The verbs and users a host permits; {lit}`"*"` is a wildcard. -/
structure LocalAllowlist where
  verbs : List Str
  runAs : List Str
deriving DecidableEq

namespace LocalAllowlist

/-- {lit}`deny_all`. -/
def denyAll : LocalAllowlist := ⟨[], []⟩

/-- A list names a value or holds the wildcard. -/
def listed (list : List Str) (s : Str) : Bool :=
  list.any (fun entry => entry.text = "*" ∨ entry = s)

/-- {lit}`permits`. -/
def permits (a : LocalAllowlist) (action : ActionDescriptor) : Except BackstopDenial Unit :=
  if action.kind.text = "" ∨ ¬ listed a.verbs action.kind then .error (.verb action.kind)
  else if ¬ listed a.runAs action.runAs then .error (.runAs action.runAs)
  else .ok ()

/-- Exactly what a host permits. -/
theorem permits_eq_ok_iff {a : LocalAllowlist} {action : ActionDescriptor} :
    a.permits action = .ok () ↔
      action.kind.text ≠ "" ∧ listed a.verbs action.kind = true ∧
        listed a.runAs action.runAs = true := by
  by_cases hkind : action.kind.text = "" <;>
    by_cases hverb : listed a.verbs action.kind = true <;>
    by_cases hrun : listed a.runAs action.runAs = true <;>
    simp [permits, hkind, hverb, hrun]

end LocalAllowlist
end OpenSsmAgent
