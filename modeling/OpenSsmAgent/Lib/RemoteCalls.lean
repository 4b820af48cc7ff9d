import Mathlib

/-!
# Programs that call a remote store

A client program is a tree of calls to a server, each of which may be answered,
may take effect without an answer, or may not happen at all.  A call that is not
answered ends the program with an error, so that a program can stop after any of
its calls, with or without the effect of the last one.

{lit}`Runs` is the rule of such programs: an invariant that holds wherever the
program may stop, a guarantee for every call it makes, and a postcondition for the
run that gets all its answers.  It composes along the program, over loops, and
through a retry loop.

Main results:

- Theorems {lit}`Runs.exec` and {lit}`Runs.exec_recording`: what {lit}`Runs` says of every
  execution, and of its calls with what was called before them.
- Theorems {lit}`Runs.bind`, {lit}`Runs.foldlM` and {lit}`Runs.forM`: the rules of
  composition and loops.
- Theorem {lit}`Reaches.exec`: where a program may stop, some faults make it stop.
- Theorems {lit}`exec_faults` and {lit}`exec_of_answered`: every error uses up one fault of the
  environment, and without faults there is none.
- Theorems {lit}`runs_retrying` and {lit}`retrying_ok`: what repeated attempts keep,
  and how many faults they outlast.
- Theorem {lit}`retrying_refused`: attempts whose first call is never answered change
  nothing.
-/

namespace RemoteCalls

/-! ## Programs -/

/-- A program that makes calls, each with its own type of answer. -/
inductive Prog (C : Type) (Answer : C → Type) (A : Type) where
  | ret (a : A)
  | call (c : C) (k : Answer c → Prog C Answer A)

section Programs

variable {C : Type} {Answer : C → Type} {A B : Type}

/-- Sequential composition. -/
def Prog.bind : Prog C Answer A → (A → Prog C Answer B) → Prog C Answer B
  | .ret a, f => f a
  | .call c k, f => .call c (fun answer => (k answer).bind f)

instance : Monad (Prog C Answer) where
  pure := .ret
  bind := Prog.bind

/-- Make one call. -/
def perform (c : C) : Prog C Answer (Answer c) :=
  .call c .ret

end Programs

/-! ## Executions -/

/-- What becomes of a call: it is answered, it takes effect but the answer is lost,
or it has no effect. -/
inductive Fate (E : Type) where
  | answered
  | lost (error : E)
  | failed (error : E)
deriving DecidableEq

namespace Fate

variable {E : Type}

/-- The error of a call that is not answered. -/
def error? : Fate E → Option E
  | .answered => none
  | .lost e => some e
  | .failed e => some e

end Fate

/-- A store, the fates of the calls to come, and the calls made, each with the state
it met.  Calls beyond the listed fates are answered. -/
structure World (S C E : Type) where
  state : S
  fates : List (Fate E)
  calls : List (C × S)

/-- The unanswered calls to come. -/
def World.faults {S C E : Type} (w : World S C E) : List E :=
  w.fates.filterMap Fate.error?

section Executions

variable {S C E : Type} {Answer : C → Type} {A B : Type} (serve : (c : C) → S → Answer c × S)

/-- Run a program. -/
def exec : Prog C Answer A → World S C E → Except E A × World S C E
  | .ret a, w => (.ok a, w)
  | .call c k, w =>
      let answer := serve c w.state
      let calls := w.calls ++ [(c, w.state)]
      match w.fates with
      | [] => exec (k answer.1) ⟨answer.2, [], calls⟩
      | .answered :: fates => exec (k answer.1) ⟨answer.2, fates, calls⟩
      | .lost e :: fates => (.error e, ⟨answer.2, fates, calls⟩)
      | .failed e :: fates => (.error e, ⟨w.state, fates, calls⟩)

/-- What holds after an execution, with its result and with its error. -/
def Ends (Q : A → World S C E → Prop) (X : E → World S C E → Prop) :
    Except E A × World S C E → Prop
  | (.ok a, w) => Q a w
  | (.error e, w) => X e w

/-- Every error is a fault of the environment, and an execution without error meets
none. -/
theorem exec_faults (p : Prog C Answer A) (w : World S C E) :
    Ends (fun _ w' => w.faults = w'.faults) (fun e w' => w.faults = e :: w'.faults)
      (exec serve p w) := by
  induction p generalizing w with
  | ret a => rfl
  | call c k ih =>
      obtain ⟨s, fates, calls⟩ := w
      match fates with
      | [] => exact ih (serve c s).1 ⟨(serve c s).2, [], calls ++ [(c, s)]⟩
      | .answered :: fates => exact ih (serve c s).1 ⟨(serve c s).2, fates, calls ++ [(c, s)]⟩
      | .lost e :: fates => rfl
      | .failed e :: fates => rfl

/-- Without faults a program ends with its result. -/
theorem exec_of_answered (p : Prog C Answer A) {w : World S C E}
    (h : ∀ fate ∈ w.fates, fate = Fate.answered) : ∃ a, (exec serve p w).1 = .ok a := by
  have hnone : w.faults = [] := by
    refine List.filterMap_eq_nil_iff.mpr fun fate hfate => ?_
    rw [h fate hfate]
    rfl
  have hends := exec_faults serve p w
  generalize exec serve p w = out at hends ⊢
  obtain ⟨result, w'⟩ := out
  cases result with
  | ok a => exact ⟨a, rfl⟩
  | error e =>
      rw [Ends, hnone] at hends
      cases hends

/-! ## The rule of a program -/

/-- From a state on, the invariant holds wherever the program may stop, every call is
made as guaranteed, and the answered run ends in the postcondition. -/
def Runs (I : S → Prop) (G : C → S → Prop) :
    Prog C Answer A → (A → S → Prop) → S → Prop
  | .ret a, Q, s => I s ∧ Q a s
  | .call c k, Q, s => I s ∧ G c s ∧ Runs I G (k (serve c s).1) Q (serve c s).2

variable {serve} {I I' : S → Prop} {G G' : C → S → Prop} {Q Q' : A → S → Prop} {s : S}
  {p : Prog C Answer A}

theorem Runs.inv (h : Runs serve I G p Q s) : I s := by
  cases p with
  | ret a => exact h.1
  | call c k => exact h.1

theorem runs_pure {a : A} (hI : I s) (hQ : Q a s) :
    Runs serve I G (pure a : Prog C Answer A) Q s :=
  ⟨hI, hQ⟩

theorem runs_perform {c : C} {Q : Answer c → S → Prop} (hI : I s) (hG : G c s)
    (hI' : I (serve c s).2) (hQ : Q (serve c s).1 (serve c s).2) :
    Runs serve I G (perform c : Prog C Answer _) Q s :=
  ⟨hI, hG, hI', hQ⟩

theorem runs_trivial (p : Prog C Answer A) (s : S) :
    Runs serve (fun _ => True) (fun _ _ => True) p (fun _ _ => True) s := by
  induction p generalizing s with
  | ret a => exact ⟨trivial, trivial⟩
  | call c k ih => exact ⟨trivial, trivial, ih _ _⟩

/-- The rule of consequence. -/
theorem Runs.mono (h : Runs serve I G p Q s) (hI : ∀ s, I s → I' s)
    (hG : ∀ c s, G c s → G' c s) (hQ : ∀ a s, I s → Q a s → Q' a s) :
    Runs serve I' G' p Q' s := by
  induction p generalizing s with
  | ret a => exact ⟨hI s h.1, hQ a s h.1 h.2⟩
  | call c k ih => exact ⟨hI s h.1, hG c s h.2.1, ih _ h.2.2⟩

theorem Runs.post (h : Runs serve I G p Q s) (hQ : ∀ a s, I s → Q a s → Q' a s) :
    Runs serve I G p Q' s :=
  h.mono (fun _ h => h) (fun _ _ h => h) hQ

/-- Two rules of one program hold together. -/
theorem Runs.and (h : Runs serve I G p Q s) (h' : Runs serve I' G' p Q' s) :
    Runs serve (fun s => I s ∧ I' s) (fun c s => G c s ∧ G' c s) p
      (fun a s => Q a s ∧ Q' a s) s := by
  induction p generalizing s with
  | ret a => exact ⟨⟨h.1, h'.1⟩, h.2, h'.2⟩
  | call c k ih => exact ⟨⟨h.1, h'.1⟩, ⟨h.2.1, h'.2.1⟩, ih _ h.2.2 h'.2.2⟩

/-- The rule of sequential composition. -/
theorem runs_bind {f : A → Prog C Answer B} {R : B → S → Prop} :
    Runs serve I G (p >>= f) R s ↔
      Runs serve I G p (fun a s' => Runs serve I G (f a) R s') s := by
  induction p generalizing s with
  | ret a => exact ⟨fun h => ⟨h.inv, h⟩, fun h => h.2⟩
  | call c k ih => exact and_congr_right fun _ => and_congr_right fun _ => ih _

theorem Runs.bind {f : A → Prog C Answer B} {R : B → S → Prop} (h : Runs serve I G p Q s)
    (hf : ∀ a s, I s → Q a s → Runs serve I G (f a) R s) :
    Runs serve I G (p >>= f) R s :=
  runs_bind.mpr (h.post hf)

/-- The rule of loops with an accumulator: the loop invariant speaks of the part of
the list that was gone through. -/
theorem Runs.foldlM {l : List B} {f : A → B → Prog C Answer A}
    (J : List B → A → S → Prop) (hJ : ∀ front a s, J front a s → I s)
    (hstep : ∀ front b back a s, l = front ++ b :: back → J front a s →
      Runs serve I G (f a b) (J (front ++ [b])) s)
    {a : A} (hstart : J [] a s) : Runs serve I G (l.foldlM f a) (J l) s := by
  suffices h : ∀ (back front : List B) (a : A) (s : S), l = front ++ back → J front a s →
      Runs serve I G (back.foldlM f a) (J l) s from h l [] a s rfl hstart
  intro back
  induction back with
  | nil =>
      intro front a s hl h
      rw [List.append_nil] at hl
      subst hl
      exact runs_pure (hJ _ _ _ h) h
  | cons b back ih =>
      intro front a s hl h
      rw [List.foldlM_cons]
      exact (hstep front b back a s hl h).bind fun a' s' _ h' =>
        ih (front ++ [b]) a' s' (by simp [hl]) h'

/-- The rule of loops. -/
theorem Runs.forM {l : List B} {f : B → Prog C Answer PUnit}
    (J : List B → S → Prop) (hJ : ∀ front s, J front s → I s)
    (hstep : ∀ front b back s, l = front ++ b :: back → J front s →
      Runs serve I G (f b) (fun _ => J (front ++ [b])) s)
    (hstart : J [] s) : Runs serve I G (l.forM f) (fun _ => J l) s := by
  suffices h : ∀ (back front : List B) (s : S), l = front ++ back → J front s →
      Runs serve I G (back.forM f) (fun _ => J l) s from h l [] s rfl hstart
  intro back
  induction back with
  | nil =>
      intro front s hl h
      rw [List.append_nil] at hl
      subst hl
      exact runs_pure (hJ _ _ h) h
  | cons b back ih =>
      intro front s hl h
      change Runs serve I G (f b >>= fun _ => back.forM f) _ s
      exact (hstep front b back s hl h).bind fun _ s' _ h' =>
        ih (front ++ [b]) s' (by simp [hl]) h'

/-- Every execution keeps the invariant and the guarantee, and one without error
ends in the postcondition. -/
theorem Runs.exec {w : World S C E} (h : Runs serve I G p Q w.state) :
    I (exec serve p w).2.state ∧
    (∀ a, (exec serve p w).1 = .ok a → Q a (exec serve p w).2.state) ∧
    ∃ made, (exec serve p w).2.calls = w.calls ++ made ∧ ∀ e ∈ made, G e.1 e.2 := by
  induction p generalizing w with
  | ret a =>
      refine ⟨h.1, ?_, [], by simp [RemoteCalls.exec], by simp⟩
      rintro b hb
      cases hb
      exact h.2
  | call c k ih =>
      obtain ⟨s, fates, calls⟩ := w
      obtain ⟨hI, hG, hrest⟩ := h
      have hmade : ∀ made : List (C × S), (∀ e ∈ made, G e.1 e.2) →
          ∀ e ∈ (c, s) :: made, G e.1 e.2 := by
        intro made hmade e he
        rcases List.mem_cons.mp he with rfl | he
        · exact hG
        · exact hmade e he
      have hanswered : ∀ fates, _ := fun fates =>
        ih (serve c s).1 (w := ⟨(serve c s).2, fates, calls ++ [(c, s)]⟩) hrest
      have hcons : ∀ made, calls ++ [(c, s)] ++ made = calls ++ (c, s) :: made := by simp
      match fates with
      | [] =>
          obtain ⟨hinv, hpost, made, hcalls, hG'⟩ := hanswered []
          exact ⟨hinv, hpost, (c, s) :: made, hcalls.trans (hcons made), hmade made hG'⟩
      | .answered :: fates =>
          obtain ⟨hinv, hpost, made, hcalls, hG'⟩ := hanswered fates
          exact ⟨hinv, hpost, (c, s) :: made, hcalls.trans (hcons made), hmade made hG'⟩
      | .lost e :: fates =>
          exact ⟨hrest.inv, (by intro a ha; cases ha), [(c, s)], rfl, hmade [] (by simp)⟩
      | .failed e :: fates =>
          exact ⟨hI, (by intro a ha; cases ha), [(c, s)], rfl, hmade [] (by simp)⟩

/-- A server that also writes down the calls, each with the state it met. -/
def recording (serve : (c : C) → S → Answer c × S) (c : C) (r : S × List (C × S)) :
    Answer c × (S × List (C × S)) :=
  ((serve c r.1).1, (serve c r.1).2, r.2 ++ [(c, r.1)])

/-- A rule over the recording server speaks of every call with the calls before it, and of
the state that is left with some of the calls. -/
theorem Runs.exec_recording {I : S × List (C × S) → Prop} {G : C → S × List (C × S) → Prop}
    {Q : A → S × List (C × S) → Prop} {w : World S C E}
    (h : Runs (recording serve) I G p Q (w.state, w.calls)) :
    (∃ seen, I ((RemoteCalls.exec serve p w).2.state, seen)) ∧
    ∃ made, (RemoteCalls.exec serve p w).2.calls = w.calls ++ made ∧
      ∀ before c s after, made = before ++ (c, s) :: after →
        I (s, w.calls ++ before) ∧ G c (s, w.calls ++ before) := by
  induction p generalizing w with
  | ret a =>
      refine ⟨⟨_, h.1⟩, [], by simp [RemoteCalls.exec], ?_⟩
      intro before c s after hnil
      simp at hnil
  | call c k ih =>
      obtain ⟨s, fates, calls⟩ := w
      obtain ⟨hI, hG, hrest⟩ := h
      -- the call itself comes first, and the others have it before them
      have hfirst : ∀ made, (∀ before c' s' after, made = before ++ (c', s') :: after →
          I (s', calls ++ [(c, s)] ++ before) ∧ G c' (s', calls ++ [(c, s)] ++ before)) →
          ∀ before c' s' after, (c, s) :: made = before ++ (c', s') :: after →
            I (s', calls ++ before) ∧ G c' (s', calls ++ before) := by
        intro made hmade before c' s' after hsplit
        cases before with
        | nil =>
            obtain ⟨heq, -⟩ := List.cons.inj hsplit
            cases heq
            rw [List.append_nil]
            exact ⟨hI, hG⟩
        | cons first before =>
            obtain ⟨rfl, htail⟩ := List.cons.inj hsplit
            have hlater := hmade before c' s' after htail
            rwa [List.append_assoc, List.singleton_append] at hlater
      have hcons : ∀ made, calls ++ [(c, s)] ++ made = calls ++ (c, s) :: made := by simp
      have hanswered : ∀ fates, _ := fun fates =>
        ih (serve c s).1 (w := ⟨(serve c s).2, fates, calls ++ [(c, s)]⟩) hrest
      match fates with
      | [] =>
          obtain ⟨hseen, made, hcalls, hmade⟩ := hanswered []
          exact ⟨hseen, (c, s) :: made, hcalls.trans (hcons made), hfirst made hmade⟩
      | .answered :: fates =>
          obtain ⟨hseen, made, hcalls, hmade⟩ := hanswered fates
          exact ⟨hseen, (c, s) :: made, hcalls.trans (hcons made), hfirst made hmade⟩
      | .lost e :: fates => exact ⟨⟨_, hrest.inv⟩, [(c, s)], rfl, hfirst [] (by simp)⟩
      | .failed e :: fates => exact ⟨⟨_, hI⟩, [(c, s)], rfl, hfirst [] (by simp)⟩

/-- The answered run ends where the execution without faults ends. -/
theorem runs_answered (p : Prog C Answer A) (s : S) (calls : List (C × S)) :
    Runs serve (fun _ => True) (fun _ _ => True) p
      (fun a s' => (exec serve p (⟨s, [], calls⟩ : World S C E)).1 = .ok a ∧
        (exec serve p (⟨s, [], calls⟩ : World S C E)).2.state = s') s := by
  induction p generalizing s calls with
  | ret a => exact ⟨trivial, rfl, rfl⟩
  | call c k ih => exact ⟨trivial, trivial, ih _ _ (calls ++ [(c, s)])⟩

/-- The answered run ends somewhere. -/
theorem Runs.exists_post (h : Runs serve I G p Q s) : ∃ a s', Q a s' := by
  induction p generalizing s with
  | ret a => exact ⟨a, s, h.2⟩
  | call c k ih => exact ih _ h.2.2

/-- Every turn of a loop keeps the guarantee of the loop. -/
theorem Runs.foldlM_each {l : List B} {f : A → B → Prog C Answer A} {a : A}
    (h : Runs serve I G (l.foldlM f a) Q s) :
    ∀ b ∈ l, ∃ a' s', Runs serve I G (f a' b) (fun _ _ => True) s' := by
  induction l generalizing a s with
  | nil => simp
  | cons b l ih =>
      rw [List.foldlM_cons, runs_bind] at h
      intro b' hb'
      rcases List.mem_cons.mp hb' with rfl | hb'
      · exact ⟨a, s, h.post (fun _ _ _ _ => trivial)⟩
      · obtain ⟨a', s', hrest⟩ := h.exists_post
        exact ih hrest b' hb'

/-- Without faults an execution ends without error. -/
theorem exec_ok_of_faults_eq_nil {w : World S C E} (h : w.faults = []) :
    ∃ a, (exec serve p w).1 = .ok a := by
  have hends := exec_faults serve p w
  cases hout : RemoteCalls.exec serve p w with
  | mk result w' =>
      rw [hout] at hends
      cases result with
      | ok a => exact ⟨a, rfl⟩
      | error e =>
          have hfault : w.faults = e :: w'.faults := hends
          rw [h] at hfault
          cases hfault

/-- A guarantee that all calls of an execution without error meet is one of the
program. -/
theorem runs_of_exec {w : World S C E} {a : A} {made : List (C × S)}
    (hok : (exec serve p w).1 = .ok a) (hcalls : (exec serve p w).2.calls = w.calls ++ made)
    (hG : ∀ e ∈ made, G e.1 e.2) :
    Runs serve (fun _ => True) G p (fun _ _ => True) w.state := by
  induction p generalizing w made with
  | ret b => exact ⟨trivial, trivial⟩
  | call c k ih =>
      obtain ⟨s, fates, calls⟩ := w
      have hmore : ∀ fates, ∃ more, (exec serve (k (serve c s).1)
          (⟨(serve c s).2, fates, calls ++ [(c, s)]⟩ : World S C E)).2.calls =
          calls ++ [(c, s)] ++ more := fun fates => by
        obtain ⟨-, -, more, hmore, -⟩ := (runs_trivial (k (serve c s).1) (serve c s).2).exec
          (w := (⟨(serve c s).2, fates, calls ++ [(c, s)]⟩ : World S C E))
        exact ⟨more, hmore⟩
      have hstep : ∀ fates, (exec serve (k (serve c s).1)
          (⟨(serve c s).2, fates, calls ++ [(c, s)]⟩ : World S C E)).1 = .ok a →
          (exec serve (k (serve c s).1)
            (⟨(serve c s).2, fates, calls ++ [(c, s)]⟩ : World S C E)).2.calls = calls ++ made →
          Runs serve (fun _ => True) G (.call c k) (fun _ _ => True) s := by
        intro fates hok hcalls
        obtain ⟨more, hmore⟩ := hmore fates
        have hmade : made = (c, s) :: more := by
          have heq := hcalls.symm.trans hmore
          rw [List.append_assoc] at heq
          simpa using heq
        rw [hmade] at hG
        exact ⟨trivial, hG (c, s) List.mem_cons_self,
          ih _ (w := ⟨(serve c s).2, fates, calls ++ [(c, s)]⟩) hok hmore
            fun e he => hG e (List.mem_cons_of_mem _ he)⟩
      match fates with
      | [] => exact hstep [] hok hcalls
      | .answered :: fates => exact hstep fates hok hcalls
      | .lost e :: fates => cases hok
      | .failed e :: fates => cases hok

/-- The program may stop in a state of the given kind. -/
def Reaches (serve : (c : C) → S → Answer c × S) (P : S → Prop) : Prog C Answer A → S → Prop
  | .ret _, s => P s
  | .call c k, s => P s ∨ Reaches serve P (k (serve c s).1) (serve c s).2

theorem Reaches.here {P : S → Prop} (h : P s) : Reaches serve P p s := by
  cases p with
  | ret a => exact h
  | call c k => exact Or.inl h

theorem Reaches.bind {P : S → Prop} {f : A → Prog C Answer B} (h : Runs serve I G p Q s)
    (hf : ∀ a s, Q a s → Reaches serve P (f a) s) : Reaches serve P (p >>= f) s := by
  induction p generalizing s with
  | ret a => exact hf a s h.2
  | call c k ih => exact Or.inr (ih _ h.2.2)

/-- Some faults make it stop there. -/
theorem Reaches.exec {P : S → Prop} (h : Reaches serve P p s) (e : E) (calls : List (C × S)) :
    ∃ fates : List (Fate E), P (exec serve p ⟨s, fates, calls⟩).2.state := by
  induction p generalizing s calls with
  | ret a => exact ⟨[], h⟩
  | call c k ih =>
      rcases h with h | h
      · exact ⟨[.failed e], h⟩
      · obtain ⟨fates, hfates⟩ := ih _ h (calls ++ [(c, s)])
        exact ⟨.answered :: fates, hfates⟩

end Executions

/-! ## Retries -/

section Retries

variable {S C E A : Type} (transient : E → Bool)
  (attempt : World S C E → Except E A × World S C E)

/-- Attempt again after a transient error, a bounded number of times. -/
def retrying : Nat → World S C E → Except E A × World S C E
  | 0, w => attempt w
  | n + 1, w =>
      match attempt w with
      | (.ok a, w') => (.ok a, w')
      | (.error e, w') => if transient e then retrying n w' else (.error e, w')

variable {transient attempt} {w : World S C E}

/-- What every failed attempt keeps holds at the start of the attempt that succeeds. -/
theorem retrying_inv {J : World S C E → Prop} {Q : A → World S C E → Prop}
    (hattempt : ∀ w, J w → Ends Q (fun _ => J) (attempt w)) (n : Nat) (hJ : J w) :
    Ends Q (fun _ => J) (retrying transient attempt n w) := by
  induction n generalizing w with
  | zero => exact hattempt w hJ
  | succ n ih =>
      have hfirst := hattempt w hJ
      cases hout : attempt w with
      | mk result w' =>
          rw [hout] at hfirst
          cases result with
          | ok a => simpa only [retrying, hout] using hfirst
          | error e =>
              simp only [retrying, hout]
              split
              · exact ih hfirst
              · exact hfirst

/-- Attempts that fail only by faults of the environment outlast as many transient
faults as there are retries. -/
theorem retrying_ok
    (hattempt : ∀ w e w', attempt w = (.error e, w') → w.faults = e :: w'.faults)
    {n : Nat} (hfew : w.faults.length ≤ n) (htransient : ∀ e ∈ w.faults, transient e = true) :
    ∃ a, (retrying transient attempt n w).1 = .ok a := by
  induction n generalizing w with
  | zero =>
      cases hout : attempt w with
      | mk result w' =>
          cases result with
          | ok a => exact ⟨a, by simp [retrying, hout]⟩
          | error e =>
              have hfaults := hattempt w e w' hout
              simp [hfaults] at hfew
  | succ n ih =>
      cases hout : attempt w with
      | mk result w' =>
          cases result with
          | ok a => exact ⟨a, by simp [retrying, hout]⟩
          | error e =>
              have hfaults := hattempt w e w' hout
              rw [hfaults] at hfew htransient
              have hrest := ih (w := w') (by simpa using hfew)
                (fun e' he' => htransient e' (List.mem_cons_of_mem _ he'))
              simpa [retrying, hout, htransient e List.mem_cons_self] using hrest

end Retries

section RetriedPrograms

variable {S C E A : Type} {Answer : C → Type} {serve : (c : C) → S → Answer c × S}
  {I : S → Prop} {G : C → S → Prop} {Q : A → S → Prop} {p : Prog C Answer A}

/-- The invariant holds and all calls so far were made as guaranteed. -/
structure InOrder (I : S → Prop) (G : C → S → Prop) (w : World S C E) : Prop where
  state : I w.state
  calls : ∀ e ∈ w.calls, G e.1 e.2

/-- The rule of a program that is attempted again from wherever it stopped. -/
theorem runs_retrying (h : ∀ s, I s → Runs serve I G p Q s) (transient : E → Bool) (n : Nat)
    {w : World S C E} (hw : InOrder I G w) :
    Ends (fun a w' => Q a w'.state ∧ InOrder I G w') (fun _ => InOrder I G)
      (retrying transient (exec serve p) n w) := by
  refine retrying_inv (fun w hw => ?_) n hw
  obtain ⟨hinv, hpost, made, hcalls, hmade⟩ := (h w.state hw.state).exec (w := w)
  have hafter : InOrder I G (exec serve p w).2 := by
    refine ⟨hinv, ?_⟩
    intro e he
    rw [hcalls, List.mem_append] at he
    exact he.elim (hw.calls e) (hmade e)
  cases hout : exec serve p w with
  | mk result w' =>
      rw [hout] at hpost hafter
      cases result with
      | ok a => exact ⟨hpost a rfl, hafter⟩
      | error e => exact hafter

/-- No attempt gets an answer to its first call: as many calls as there are attempts
fail, or a permanent error ends the attempts before. -/
def refused {E : Type} (transient : E → Bool) : Nat → List (Fate E) → Bool
  | _, [] => false
  | 0, fate :: _ => fate.error?.isSome
  | n + 1, fate :: fates =>
      match fate.error? with
      | none => false
      | some e => !transient e || refused transient n fates

/-- A program that starts with a call of no effect changes nothing while it is
refused. -/
theorem retrying_refused {E : Type} {transient : E → Bool} {c : C} {k : Answer c → Prog C Answer A}
    {s : S} (hread : (serve c s).2 = s) {n : Nat} {fates : List (Fate E)} {calls : List (C × S)}
    (h : refused transient n fates = true) :
    ∃ e fates' calls',
      retrying transient (exec serve (.call c k)) n ⟨s, fates, calls⟩ =
        (.error e, ⟨s, fates', calls ++ calls'⟩) ∧ ∀ made ∈ calls', made = (c, s) := by
  have hfirst : ∀ (fate : Fate E) (e : E) (rest : List (Fate E)) (calls : List (C × S)),
      fate.error? = some e →
      exec serve (.call c k) ⟨s, fate :: rest, calls⟩ =
        ((.error e : Except E A), ⟨s, rest, calls ++ [(c, s)]⟩) := by
    intro fate e rest calls hfate
    cases fate with
    | answered => cases hfate
    | lost e' =>
        cases hfate
        simp only [exec, hread]
    | failed e' =>
        cases hfate
        rfl
  induction n generalizing fates calls with
  | zero =>
      cases fates with
      | nil => cases h
      | cons fate rest =>
          obtain ⟨e, hfate⟩ := Option.isSome_iff_exists.mp h
          exact ⟨e, rest, [(c, s)], hfirst fate e rest calls hfate, by simp⟩
  | succ n ih =>
      cases fates with
      | nil => cases h
      | cons fate rest =>
          cases hfate : fate.error? with
          | none => simp [refused, hfate] at h
          | some e =>
              simp only [retrying, hfirst fate e rest calls hfate]
              by_cases htransient : transient e = true
              · have hrest : refused transient n rest = true := by
                  simpa [refused, hfate, htransient] using h
                obtain ⟨e', fates', calls', hout, hmade⟩ := @ih rest (calls ++ [(c, s)]) hrest
                refine ⟨e', fates', (c, s) :: calls', ?_, ?_⟩
                · rw [if_pos htransient, hout, List.append_assoc]
                  rfl
                · intro made hmem
                  rcases List.mem_cons.mp hmem with rfl | hmem
                  · rfl
                  · exact hmade made hmem
              · rw [if_neg htransient]
                exact ⟨e, rest, [(c, s)], rfl, by simp⟩

end RetriedPrograms

end RemoteCalls
