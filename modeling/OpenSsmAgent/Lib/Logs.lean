import OpenSsmAgent.Lib.ReplayGuard

/-!
# Logs

Two ways to reason about a log that grows at its end.

In the first, every entry of a certain kind was preceded by something: a property of
each entry and the part of the log before it.

In the second, entries carry a key and a sequence number, and a reader holds at
most one key at a time together with a replay mark.  The reader takes entries of
its key that are newer than the mark; from time to time it is given a new key, or
loses the one it had.  What it takes is a subsequence of the log, also across the
change of keys, because a cut of the log moves forward with the reader: what was
taken lies before the cut, and everything before the cut is stale.

Main results:

- Theorems {lit}`Journal.Justified.snoc` and {lit}`Journal.Justified.append_free`: a log
  stays justified when a justified entry is added, or entries that need no justification.
- Theorems {lit}`LogCut.Behind.read` and {lit}`LogCut.Behind.rekey`: reading an entry and
  changing to an unused key move the cut.
- Theorem {lit}`LogCut.Behind.sublist`: what was taken is a subsequence of the log.
-/

namespace Journal

variable {A : Type*}

/-- Every entry is justified by the part of the log before it. -/
def Justified (ok : List A → A → Prop) (log : List A) : Prop :=
  ∀ front a back, log = front ++ a :: back → ok front a

variable {ok : List A → A → Prop} {log new : List A} {a : A}

theorem justified_nil : Justified ok [] := by
  intro front a back hsplit
  simp at hsplit

/-- One more entry. -/
theorem Justified.snoc (h : Justified ok log) (ha : ok log a) : Justified ok (log ++ [a]) := by
  intro front b back hsplit
  rcases List.eq_nil_or_concat back with rfl | ⟨back', last, rfl⟩
  · obtain ⟨rfl, hlast⟩ := List.append_inj' hsplit rfl
    rw [← List.singleton_inj.mp hlast]
    exact ha
  · rw [List.concat_eq_append, ← List.cons_append, ← List.append_assoc] at hsplit
    obtain ⟨hfront, -⟩ := List.append_inj' hsplit rfl
    exact h front b back' hfront

/-- More entries that need no justification. -/
theorem Justified.append_free (h : Justified ok log) (hnew : ∀ a ∈ new, ∀ front, ok front a) :
    Justified ok (log ++ new) := by
  induction new generalizing log with
  | nil => simpa using h
  | cons a new ih =>
      rw [List.append_cons]
      exact ih (h.snoc (hnew a List.mem_cons_self log))
        fun b hb => hnew b (List.mem_cons_of_mem _ hb)

end Journal

namespace LogCut

open ReplayGuard

variable {X K : Type*} {keyOf : X → K} {seqOf : X → UInt64}

/-- Some cut of the log has everything taken before it, and nothing before it is
taken again. -/
def Behind (keyOf : X → K) (seqOf : X → UInt64) (log taken : List X)
    (reader : Option (K × Option UInt64)) : Prop :=
  ∃ front back, log = front ++ back ∧ List.Sublist taken front ∧
    ∀ key high, reader = some (key, high) → ∀ x ∈ front, keyOf x = key →
      stale high (seqOf x) = true

/-- Entries of one key are logged in sequence order. -/
def InOrder (keyOf : X → K) (seqOf : X → UInt64) (log : List X) : Prop :=
  log.Pairwise (fun x y => keyOf x = keyOf y → seqOf x < seqOf y)

variable {log taken : List X} {reader : Option (K × Option UInt64)} {key : K}
  {high : Option UInt64}

theorem behind_empty : Behind keyOf seqOf [] [] reader :=
  ⟨[], [], rfl, List.Sublist.refl _, nofun⟩

theorem Behind.sublist (h : Behind keyOf seqOf log taken reader) : List.Sublist taken log := by
  obtain ⟨front, back, rfl, hsub, -⟩ := h
  exact hsub.trans (List.sublist_append_left _ _)

theorem Behind.extend (h : Behind keyOf seqOf log taken reader) (more : List X) :
    Behind keyOf seqOf (log ++ more) taken reader := by
  obtain ⟨front, back, rfl, hsub, hstale⟩ := h
  exact ⟨front, back ++ more, List.append_assoc _ _ _, hsub, hstale⟩

theorem Behind.forget {taken' : List X} (h : Behind keyOf seqOf log taken reader)
    (hsub : List.Sublist taken' taken) : Behind keyOf seqOf log taken' reader := by
  obtain ⟨front, back, hlog, hfront, hstale⟩ := h
  exact ⟨front, back, hlog, hsub.trans hfront, hstale⟩

theorem Behind.lose (h : Behind keyOf seqOf log taken reader) :
    Behind keyOf seqOf log taken none := by
  obtain ⟨front, back, hlog, hsub, -⟩ := h
  exact ⟨front, back, hlog, hsub, nofun⟩

/-- A mark that is not newer than another stays stale when the mark advances. -/
theorem stale_of_advance {seq newer : UInt64} (hfresh : stale high newer = false)
    (hstale : stale high seq = true) : stale (some newer) seq = true := by
  cases high with
  | none => cases hstale
  | some mark =>
      simp only [stale_some, decide_eq_false_iff_not, decide_eq_true_eq,
        UInt64.le_iff_toNat_le] at hfresh hstale ⊢
      omega

/-- The mark advances without an entry of the log. -/
theorem Behind.advance (h : Behind keyOf seqOf log taken (some (key, high))) {newer : UInt64}
    (hfresh : stale high newer = false) :
    Behind keyOf seqOf log taken (some (key, some newer)) := by
  obtain ⟨front, back, hlog, hsub, hstale⟩ := h
  refine ⟨front, back, hlog, hsub, ?_⟩
  rintro key' high' heq x hx hkey
  obtain ⟨rfl, rfl⟩ := Prod.mk.inj (Option.some.inj heq)
  exact stale_of_advance hfresh (hstale key high rfl x hx hkey)

/-- Reading an entry moves the cut right behind it. -/
theorem Behind.read (h : Behind keyOf seqOf log taken (some (key, high)))
    (horder : InOrder keyOf seqOf log) {x : X} (hx : x ∈ log) (hkey : keyOf x = key)
    (hfresh : stale high (seqOf x) = false) :
    Behind keyOf seqOf log (taken ++ [x]) (some (key, some (seqOf x))) := by
  obtain ⟨front, back, rfl, hsub, hstale⟩ := h
  have hback : x ∈ back := by
    refine (List.mem_append.mp hx).resolve_left ?_
    intro hfront
    rw [hstale key high rfl x hfront hkey] at hfresh
    cases hfresh
  obtain ⟨skipped, rest, rfl⟩ := List.append_of_mem hback
  have hskipped : ∀ y ∈ skipped, keyOf y = keyOf x → seqOf y < seqOf x :=
    fun y hy => (List.pairwise_append.mp (List.pairwise_append.mp horder).2.1).2.2 y hy x
      List.mem_cons_self
  refine ⟨front ++ skipped ++ [x], rest, by simp, ?_, ?_⟩
  · exact (hsub.trans (List.sublist_append_left _ _)).append (List.Sublist.refl _)
  · rintro key' high' heq y hy hykey
    obtain ⟨rfl, rfl⟩ := Prod.mk.inj (Option.some.inj heq)
    simp only [List.mem_append, List.mem_singleton] at hy
    rcases hy with (hy | hy) | rfl
    · exact stale_of_advance hfresh (hstale _ high rfl y hy hykey)
    · have hlt := hskipped y hy (hykey.trans hkey.symm)
      simp only [stale_some, decide_eq_true_eq, UInt64.le_iff_toNat_le]
      exact (UInt64.lt_iff_toNat_lt.mp hlt).le
    · simp

/-- A key that no entry carries is read from the end of the log on. -/
theorem Behind.rekey (h : Behind keyOf seqOf log taken reader) (key : K) (high : Option UInt64)
    (hnew : ∀ x ∈ log, keyOf x ≠ key) : Behind keyOf seqOf log taken (some (key, high)) := by
  refine ⟨log, [], by simp, h.sublist, ?_⟩
  rintro key' high' heq x hx hkey
  obtain ⟨rfl, rfl⟩ := Prod.mk.inj (Option.some.inj heq)
  exact absurd hkey (hnew x hx)

end LogCut
