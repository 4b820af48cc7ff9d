import OpenSsmAgent.Coordinator.Ca
import OpenSsmAgent.Coordinator.Service
import OpenSsmAgent.Lib.Fallible

/-!
# The policy decision point

The deny-by-default policy engine of {lit}`osa-coordinator/src/policy.rs`: the loader of a
policy document and the decision over its role bindings.  The TOML reader is a parameter
that gives the bindings as they stand in the document, and so is the quoted form of a
string in an error text.

Main results:

- Theorem {lit}`allows_iff_grants`: a loaded binding allows what the binding of the
  document grants.
- Theorem {lit}`authorizes_exactly`: what a policy authorizes, and that its bindings agree
  with the backstop of the hosts.
-/

open Framing Fallible

namespace OpenSsmAgent
namespace Coordinator

open Domain

/-! ## Bindings -/

/-- {lit}`ANONYMOUS_SUBJECT`. -/
def anonymousSubject : Str := .lit "anonymous"

/-- {lit}`Selector`. -/
inductive Selector where
  | any
  | host (id : Uuid)
deriving DecidableEq

/-- {lit}`Selector::matches`. -/
def Selector.matches : Selector → Uuid → Bool
  | .any, _ => true
  | .host id, target => id = target

/-- {lit}`Binding`. -/
structure Binding where
  subject : Str
  verbs : List Str
  selectors : List Selector
  runAs : List Str
deriving DecidableEq

/-- {lit}`Binding::allows`. -/
def Binding.allows (b : Binding) (subject kind : Str) (target : Uuid) (runAs : Str) : Bool :=
  b.subject = subject && kind.text ≠ "" &&
    b.verbs.any (fun v => v.text = "*" ∨ v = kind) &&
    b.selectors.any (·.matches target) &&
    b.runAs.any (fun u => u.text = "*" ∨ u = runAs)

/-- {lit}`RbacPolicyEngine`. -/
structure RbacPolicyEngine where
  bindings : List Binding
deriving DecidableEq

/-- {lit}`authorize`. -/
def RbacPolicyEngine.authorize (e : RbacPolicyEngine) (subject : Str) (action : ActionDescriptor) :
    Except PortError Unit :=
  match Uuid.parseStr action.target.text with
  | none => .error .denied
  | some target =>
      if e.bindings.any (·.allows subject action.kind target action.runAs) then .ok ()
      else .error .denied

/-! ## Loading a document -/

/-- {lit}`BindingDoc`. -/
structure BindingDoc where
  subject : Str
  verbs : List Str
  selectors : List Str
  runAs : List Str
deriving DecidableEq

/-- {lit}`PolicyDoc`. -/
structure PolicyDoc where
  binding : List BindingDoc
deriving DecidableEq

/-- Not padded with white space. -/
def isTrimmed (s : Str) : Bool :=
  trim s.text.toList = s.text.toList

/-- {lit}`anyhow::ensure!`. -/
def ensure (condition : Bool) (text : String) : Except String Unit :=
  if condition then .ok () else .error text

section Loader

variable (quote : String → String) (toml : String → Except String PolicyDoc)

/-- {lit}`parse_selector`. -/
def parseSelector (s : Str) : Except String Selector :=
  if s.text = "*" then .ok .any
  else
    match Uuid.parseStr s.text with
    | some id => .ok (.host id)
    | none => .error ("selector " ++ quote s.text ++ " is neither \"*\" nor a host_id UUID")

/-- The checks and the conversion of one binding. -/
def loadBinding (b : BindingDoc) : Except String Binding := do
  ensure (b.subject.text ≠ "" && isTrimmed b.subject)
    "a binding subject must be non-empty and not padded with whitespace"
  ensure (b.subject ≠ anonymousSubject)
    "\"anonymous\" is reserved for unauthenticated callers and cannot be granted"
  ensure (!b.verbs.isEmpty) ("binding for " ++ b.subject.text ++ " lists no verbs")
  ensure (!b.selectors.isEmpty) ("binding for " ++ b.subject.text ++ " lists no selectors")
  ensure (!b.runAs.isEmpty) ("binding for " ++ b.subject.text ++
    " lists no run_as users (use [\"*\"] for any user, [\"\"] for the agent's default identity)")
  b.runAs.forM fun u => ensure (isTrimmed u) ("binding for " ++ b.subject.text ++
    " has a run_as entry " ++ quote u.text ++ " padded with whitespace")
  let selectors ← b.selectors.mapM (parseSelector quote)
  return ⟨b.subject, b.verbs, selectors, b.runAs⟩

/-- {lit}`from_toml`. -/
def fromToml (doc : String) : Except String RbacPolicyEngine :=
  match toml doc with
  | .error _ => .error "policy is not valid TOML"
  | .ok parsed => do
      let bindings ← parsed.binding.mapM (loadBinding quote)
      return ⟨bindings⟩

end Loader

/-! ## What a document grants -/

/-- What one binding of a document grants to a subject, by itself. -/
structure BindingDoc.Grants (b : BindingDoc) (subject : Str) (action : ActionDescriptor) :
    Prop where
  subject_eq : b.subject = subject
  kind_ne : action.kind.text ≠ ""
  verb : ∃ v ∈ b.verbs, v.text = "*" ∨ v = action.kind
  selector : ∃ target, Uuid.parseStr action.target.text = some target ∧
    ∃ s ∈ b.selectors, s.text = "*" ∨ Uuid.parseStr s.text = some target
  runAs : ∃ u ∈ b.runAs, u.text = "*" ∨ u = action.runAs

theorem ensure_bind_eq_ok {condition : Bool} {text : String} {A : Type}
    {next : Unit → Except String A} {a : A} (h : (ensure condition text >>= next) = .ok a) :
    condition = true ∧ next () = .ok a := by
  unfold ensure at h
  cases condition with
  | false => cases h
  | true => exact ⟨rfl, h⟩

/-- A related list has a member with a property when the list has one. -/
theorem exists_mem_iff_of_forall₂ {A B : Type} {R : A → B → Prop} {P : A → Prop} {Q : B → Prop}
    {xs : List A} {ys : List B} (h : List.Forall₂ R xs ys) (hiff : ∀ x y, R x y → (P x ↔ Q y)) :
    (∃ x ∈ xs, P x) ↔ ∃ y ∈ ys, Q y := by
  induction h with
  | nil => simp
  | cons hxy _ ih => simp [ih, hiff _ _ hxy]

variable {quote : String → String}

/-- A selector of a document matches the target that it names, in any spelling. -/
theorem matches_of_parseSelector {s : Str} {selector : Selector} (target : Uuid)
    (h : parseSelector quote s = .ok selector) :
    selector.matches target = true ↔ s.text = "*" ∨ Uuid.parseStr s.text = some target := by
  unfold parseSelector at h
  split_ifs at h with hany
  · cases h
    simp [Selector.matches, hany]
  · split at h
    · rename_i id hid
      cases h
      simp [Selector.matches, hany, hid]
    · cases h

/-- A binding that was loaded, against the binding of the document. -/
structure Loaded (quote : String → String) (b : BindingDoc) (loaded : Binding) : Prop where
  subject_eq : loaded.subject = b.subject
  verbs_eq : loaded.verbs = b.verbs
  runAs_eq : loaded.runAs = b.runAs
  selectors : List.Forall₂ (fun s selector => parseSelector quote s = .ok selector)
    b.selectors loaded.selectors
  not_anonymous : b.subject ≠ anonymousSubject

theorem loaded_of_loadBinding {b : BindingDoc} {loaded : Binding}
    (h : loadBinding quote b = .ok loaded) : Loaded quote b loaded := by
  unfold loadBinding at h
  obtain ⟨-, h⟩ := ensure_bind_eq_ok h
  obtain ⟨hanonymous, h⟩ := ensure_bind_eq_ok h
  obtain ⟨-, h⟩ := ensure_bind_eq_ok h
  obtain ⟨-, h⟩ := ensure_bind_eq_ok h
  obtain ⟨-, h⟩ := ensure_bind_eq_ok h
  obtain ⟨-, -, h⟩ := bind_eq_ok_iff.mp h
  obtain ⟨selectors, hselectors, h⟩ := bind_eq_ok_iff.mp h
  cases h
  exact ⟨rfl, rfl, rfl, mapM_eq_ok hselectors, by simpa using hanonymous⟩

/-- A loaded binding allows exactly what the binding of the document grants. -/
theorem allows_iff_grants {b : BindingDoc} {loaded : Binding} {action : ActionDescriptor}
    {target : Uuid} (subject : Str) (h : Loaded quote b loaded)
    (htarget : Uuid.parseStr action.target.text = some target) :
    loaded.allows subject action.kind target action.runAs = true ↔ b.Grants subject action := by
  have hselectors : (∃ s ∈ b.selectors, s.text = "*" ∨ Uuid.parseStr s.text = some target) ↔
      ∃ selector ∈ loaded.selectors, selector.matches target = true :=
    exists_mem_iff_of_forall₂ h.selectors fun s selector hs =>
      (matches_of_parseSelector target hs).symm
  simp only [Binding.allows, h.subject_eq, h.verbs_eq, h.runAs_eq, Bool.and_eq_true,
    List.any_eq_true, decide_eq_true_eq, ← hselectors]
  constructor
  · rintro ⟨⟨⟨⟨hsubject, hkind⟩, hverb⟩, hselector⟩, hrunAs⟩
    exact ⟨hsubject, hkind, hverb, ⟨target, htarget, hselector⟩, hrunAs⟩
  · rintro ⟨hsubject, hkind, hverb, ⟨target', htarget', hselector⟩, hrunAs⟩
    obtain rfl := Option.some.inj (htarget.symm.trans htarget')
    exact ⟨⟨⟨⟨hsubject, hkind⟩, hverb⟩, hselector⟩, hrunAs⟩

theorem loaded_of_fromToml {toml : String → Except String PolicyDoc} {doc : String}
    {engine : RbacPolicyEngine} (h : fromToml quote toml doc = .ok engine) :
    ∃ parsed, toml doc = .ok parsed ∧
      List.Forall₂ (Loaded quote) parsed.binding engine.bindings := by
  unfold fromToml at h
  split at h
  · cases h
  · rename_i parsed hparsed
    obtain ⟨bindings, hbindings, h⟩ := bind_eq_ok_iff.mp h
    cases h
    exact ⟨parsed, hparsed, (mapM_eq_ok hbindings).imp fun _ _ => loaded_of_loadBinding⟩

theorem authorize_eq_ok_iff {engine : RbacPolicyEngine} {bindings : List BindingDoc}
    (h : List.Forall₂ (Loaded quote) bindings engine.bindings) (subject : Str)
    (action : ActionDescriptor) :
    engine.authorize subject action = .ok () ↔ ∃ b ∈ bindings, b.Grants subject action := by
  cases htarget : Uuid.parseStr action.target.text with
  | none =>
      simp only [RbacPolicyEngine.authorize, htarget]
      constructor
      · intro h
        cases h
      · rintro ⟨b, -, hgrants⟩
        obtain ⟨target, htarget', -⟩ := hgrants.selector
        rw [htarget] at htarget'
        cases htarget'
  | some target =>
      have hany : (∃ b ∈ bindings, b.Grants subject action) ↔
          ∃ loaded ∈ engine.bindings,
            loaded.allows subject action.kind target action.runAs = true :=
        exists_mem_iff_of_forall₂ h fun b loaded hloaded =>
          (allows_iff_grants subject hloaded htarget).symm
      rw [hany]
      simp only [RbacPolicyEngine.authorize, htarget]
      split_ifs with hallowed
      · simpa using hallowed
      · simpa using hallowed

/-- No binding of an accepted document is for the anonymous subject. -/
theorem not_anonymous {bindings : List BindingDoc} {loaded : List Binding} {b : BindingDoc}
    (h : List.Forall₂ (Loaded quote) bindings loaded) (hb : b ∈ bindings) :
    b.subject ≠ anonymousSubject := by
  intro hanonymous
  have hnone : (∃ b ∈ bindings, b.subject = anonymousSubject) ↔ ∃ l ∈ loaded, False :=
    exists_mem_iff_of_forall₂ h fun b l hl => by simp [hl.not_anonymous]
  obtain ⟨l, -, hfalse⟩ := hnone.mp ⟨b, hb, hanonymous⟩
  exact hfalse

theorem denied_of_not_ok {engine : RbacPolicyEngine} {subject : Str} {action : ActionDescriptor}
    (h : engine.authorize subject action ≠ .ok ()) :
    engine.authorize subject action = .error .denied := by
  unfold RbacPolicyEngine.authorize at h ⊢
  split at h
  · rfl
  · split_ifs at h ⊢
    · exact absurd rfl h
    · rfl

/-- A binding and a backstop with the same lists agree on the verb and the user. -/
theorem allows_iff_permits {b : Binding} {subject : Str} {action : ActionDescriptor}
    {target : Uuid} (hsubject : b.subject = subject)
    (hselector : b.selectors.any (·.matches target) = true) :
    b.allows subject action.kind target action.runAs = true ↔
      LocalAllowlist.permits ⟨b.verbs, b.runAs⟩ action = .ok () := by
  rw [LocalAllowlist.permits_eq_ok_iff, Binding.allows, hselector]
  simp [hsubject, LocalAllowlist.listed, and_assoc]

/-- A policy authorizes exactly what one binding of its document grants by itself.  So it
denies the anonymous subject, an empty verb and a target that is no host; more bindings
only grant more; and every binding decides on verb and user as the backstop of a host with
the same two lists does. -/
theorem authorizes_exactly {toml : String → Except String PolicyDoc} {doc : String}
    {engine : RbacPolicyEngine} (h : fromToml quote toml doc = .ok engine) :
    ∃ parsed, toml doc = .ok parsed ∧
    (∀ subject action, engine.authorize subject action = .ok () ↔
      ∃ b ∈ parsed.binding, b.Grants subject action) ∧
    (∀ subject action, subject = anonymousSubject ∨ action.kind.text = "" ∨
      Uuid.parseStr action.target.text = none →
      engine.authorize subject action = .error .denied) ∧
    (∀ doc' engine' more, toml doc' = .ok ⟨parsed.binding ++ more⟩ →
      fromToml quote toml doc' = .ok engine' →
      ∀ subject action, engine.authorize subject action = .ok () →
        engine'.authorize subject action = .ok ()) ∧
    ∀ b ∈ engine.bindings, ∀ subject action target, b.subject = subject →
      Uuid.parseStr action.target.text = some target →
      b.selectors.any (·.matches target) = true →
      (b.allows subject action.kind target action.runAs = true ↔
        LocalAllowlist.permits ⟨b.verbs, b.runAs⟩ action = .ok ()) := by
  obtain ⟨parsed, hparsed, hloaded⟩ := loaded_of_fromToml h
  have hiff := authorize_eq_ok_iff hloaded
  refine ⟨parsed, hparsed, hiff, ?_, ?_, ?_⟩
  · intro subject action hcase
    refine denied_of_not_ok ?_
    rw [ne_eq, hiff]
    rintro ⟨b, hb, hgrants⟩
    rcases hcase with rfl | hkind | htarget
    · exact not_anonymous hloaded hb hgrants.subject_eq
    · exact hgrants.kind_ne hkind
    · obtain ⟨target, htarget', -⟩ := hgrants.selector
      rw [htarget] at htarget'
      cases htarget'
  · intro doc' engine' more hdoc' hengine' subject action hok
    obtain ⟨parsed', hparsed', hloaded'⟩ := loaded_of_fromToml hengine'
    obtain rfl := Except.ok.inj (hdoc'.symm.trans hparsed')
    obtain ⟨b, hb, hgrants⟩ := (hiff subject action).mp hok
    exact (authorize_eq_ok_iff hloaded' subject action).mpr
      ⟨b, List.mem_append_left _ hb, hgrants⟩
  · intro b _ subject action target hsubject _ hselector
    exact allows_iff_permits hsubject hselector

/-- A policy of one binding, whose selector spells the sample host without hyphens. -/
def samplePolicy : PolicyDoc :=
  ⟨[⟨.lit "alice@example", [.lit "exec"], [.lit "77777777777777777777777777777777"],
    [.lit "deploy"]⟩]⟩

/-- Its text. -/
def samplePolicyText : String :=
  "[[binding]]\nsubject = \"alice@example\"\nverbs = [\"exec\"]\n" ++
    "selectors = [\"77777777777777777777777777777777\"]\nrun_as = [\"deploy\"]\n"

/-- A reader that knows this text. -/
def sampleReader (text : String) : Except String PolicyDoc :=
  if text = samplePolicyText then .ok samplePolicy else .error "unknown document"

theorem authorizes_exactly_sample :
    (⟨[⟨.lit "alice@example", [.lit "exec"], [.host sampleHost.uuid], [.lit "deploy"]⟩]⟩ :
      RbacPolicyEngine).authorize (.lit "alice@example")
        ⟨.lit "exec", sampleHost.toStr, .lit "deploy", default⟩ = .ok () := by
  have hload : fromToml id sampleReader samplePolicyText =
      .ok ⟨[⟨.lit "alice@example", [.lit "exec"], [.host sampleHost.uuid], [.lit "deploy"]⟩]⟩ := by
    decide +kernel
  obtain ⟨parsed, hparsed, hiff, -⟩ := authorizes_exactly hload
  obtain rfl := Except.ok.inj hparsed
  refine (hiff _ _).mpr ⟨_, List.mem_singleton_self _, rfl, by decide, ⟨_, by simp, .inr rfl⟩, ?_,
    ⟨_, by simp, .inr rfl⟩⟩
  exact ⟨sampleHost.uuid, by decide +kernel, _, List.mem_singleton_self _, .inr (by decide +kernel)⟩

end Coordinator
end OpenSsmAgent
