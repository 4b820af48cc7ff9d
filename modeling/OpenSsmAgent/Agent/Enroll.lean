import OpenSsmAgent.Lib.CrashStore

/-!
# Persisted identities

An enrolled host keeps four files: the certificate, the root of the authority, the
host id and, written last, the private key.  Each file is replaced atomically, one
after the other, so that a crash leaves the first few of them new and the rest as they
were.  Without a key from before this is an identity or none.  With one, the old key
stands beside new files until the last replacement.

Main results:

- Theorem {lit}`persist_runs`: what a stopped enrollment leaves of the four files.
- Theorem {lit}`persist_all_or_nothing_iff`: when every crash leaves a whole identity
  or none.
- Theorem {lit}`forced_reenroll_mixes`: a crash that leaves an old key with a new
  certificate.
-/

open Framing RemoteCalls CrashStore

namespace OpenSsmAgent
namespace Agent

/-- {lit}`KEY_FILE`. -/
def keyFile : String := "host.key"

/-- {lit}`CERT_FILE`. -/
def certFile : String := "host.crt"

/-- {lit}`CA_FILE`. -/
def caFile : String := "ca.crt"

/-- {lit}`HOST_ID_FILE`. -/
def hostIdFile : String := "host_id"

/-- {lit}`Identity`. -/
structure Identity where
  hostId : String
  keyPem : String
  certPem : String
  caRootPem : String
deriving DecidableEq

/-- {lit}`ensure_not_enrolled`. -/
def ensureNotEnrolled (stateDir : String) (force : Bool) : FsProg String (Except String Unit) := do
  let found ← perform (FsCall.stat keyFile)
  if found && !force then
    pure (.error ("already enrolled (found " ++ stateDir ++ "/" ++ keyFile ++
      "); pass --force to re-enroll"))
  else pure (.ok ())

/-- {lit}`write_atomic`. -/
def writeAtomic (name : String) (bytes : Bytes) (mode : Option Nat) : FsProg String Unit :=
  replace (name ++ ".tmp") name bytes mode

/-- {lit}`persist`. -/
def persist (stateDir : String) (id : Identity) (force : Bool) :
    FsProg String (Except String Unit) := do
  match ← ensureNotEnrolled stateDir force with
  | .error message => pure (.error message)
  | .ok () => do
      perform FsCall.createDirAll
      writeAtomic certFile (utf8 id.certPem) none
      writeAtomic caFile (utf8 id.caRootPem) none
      writeAtomic hostIdFile (utf8 id.hostId) none
      writeAtomic keyFile (utf8 id.keyPem) (some 0o600)
      pure (.ok ())

/-! ## What an enrollment leaves -/

/-- The disk after an enrollment, wherever it stopped: it ended or met an error, and
there may have been a crash. -/
inductive Leaves (statOk : Bool) (stateDir : String) (id : Identity) (force : Bool)
    (d d' : Disk String) : Prop
  | stopped (fates : List (Fate String)) :
      d' = (exec (serve statOk) (persist stateDir id force) ⟨d, fates, []⟩).2.state →
      Leaves statOk stateDir id force d d'
  | crashed (fates : List (Fate String)) :
      CrashInOrder (exec (serve statOk) (persist stateDir id force) ⟨d, fates, []⟩).2.state d' →
      Leaves statOk stateDir id force d d'

/-- The four files are those of an identity. -/
structure Complete (found : String → Option Bytes) (id : Identity) : Prop where
  cert : found certFile = some (utf8 id.certPem)
  ca : found caFile = some (utf8 id.caRootPem)
  hostId : found hostIdFile = some (utf8 id.hostId)
  key : found keyFile = some (utf8 id.keyPem)

/-- A whole identity, the old one or the new one, or no key. -/
def AllOrNothing (old : Option Identity) (new : Identity) (found : String → Option Bytes) : Prop :=
  (∃ id, old = some id ∧ Complete found id) ∨ Complete found new ∨ found keyFile = none

/-- The names of the four files, in the order they are written. -/
def identityFiles : List String :=
  [certFile, caFile, hostIdFile, keyFile]

/-- The entries of before an enrollment: on the disk, with a complete identity or
without a key. -/
structure Before (d : Disk String) (old : Option Identity) : Prop where
  past : d.past = []
  synced : ∀ name ∈ identityFiles, ∀ f, d.live name = some f → f.synced = true
  content : match old with
    | some id => Complete d.found id
    | none => d.found keyFile = none

/-- The contents of the four files of an identity. -/
def Identity.contents (id : Identity) (name : String) : Bytes :=
  if name = certFile then utf8 id.certPem
  else if name = caFile then utf8 id.caRootPem
  else if name = hostIdFile then utf8 id.hostId
  else utf8 id.keyPem

/-- The number of files in which two identities differ. -/
def differing (old new : Identity) : Nat :=
  identityFiles.countP fun name => old.contents name ≠ new.contents name

/-- The first files in the order of writing are new, the others as before. -/
def Partly (d : Disk String) (new : Identity) (count : Nat) (v : Entries String) : Prop :=
  (∀ name ∈ identityFiles.take count, HasFile v name (new.contents name)) ∧
  ∀ name ∈ identityFiles.drop count, v name = d.live name

/-- Each version has some of the files written. -/
def Staged (d : Disk String) (new : Identity) (v : Entries String) : Prop :=
  ∃ count, Partly d new count v

section Enrollments

variable {statOk force : Bool} {stateDir : String} {old : Option Identity} {new : Identity}
  {d d' : Disk String} {name : String}

theorem tmp_notMem (h : name ∈ identityFiles) : name ++ ".tmp" ∉ identityFiles := by
  revert name
  decide +kernel

theorem complete_iff {found : String → Option Bytes} {id : Identity} :
    Complete found id ↔ ∀ name ∈ identityFiles, found name = some (id.contents name) := by
  have hcontents : id.contents certFile = utf8 id.certPem ∧
      id.contents caFile = utf8 id.caRootPem ∧ id.contents hostIdFile = utf8 id.hostId ∧
      id.contents keyFile = utf8 id.keyPem :=
    ⟨rfl, rfl, rfl, rfl⟩
  simp only [identityFiles, List.forall_mem_cons, hcontents]
  constructor
  · rintro ⟨hcert, hca, hhost, hkey⟩
    exact ⟨hcert, hca, hhost, hkey, by simp⟩
  · rintro ⟨hcert, hca, hhost, hkey, -⟩
    exact ⟨hcert, hca, hhost, hkey⟩

/-- One more file is written, and the version is one of the stages all along. -/
theorem writeAtomic_runs (count : Nat) {mode : Option Nat}
    (hname : identityFiles[count]? = some name)
    (hall : AllVersions (Staged d new) d') (hpart : Partly d new count d'.live) :
    Runs (serve statOk) (AllVersions (Staged d new)) (fun _ _ => True)
      (writeAtomic name (new.contents name) mode)
      (fun _ d'' => AllVersions (Staged d new) d'' ∧ Partly d new (count + 1) d''.live) d' := by
  have hmem : name ∈ identityFiles := List.mem_of_getElem? hname
  have htmp : ∀ other ∈ identityFiles, other ≠ name ++ ".tmp" := by
    rintro other hother rfl
    exact tmp_notMem hmem hother
  have hnodup : identityFiles.Nodup := by decide +kernel
  obtain ⟨hlt, hget⟩ := List.getElem?_eq_some_iff.mp hname
  have hdrop : identityFiles.drop count = name :: identityFiles.drop (count + 1) := by
    rw [List.drop_eq_getElem_cons hlt, hget]
  have htake : identityFiles.take (count + 1) = identityFiles.take count ++ [name] := by
    rw [List.take_add_one, hname]
    rfl
  have hsplit : identityFiles =
      identityFiles.take count ++ name :: identityFiles.drop (count + 1) := by
    rw [← hdrop, List.take_append_drop]
  rw [hsplit] at hnodup
  have hbefore : ∀ v, AgreeBut (name ++ ".tmp") d'.live v → Partly d new count v := by
    intro v hagree
    refine ⟨?_, ?_⟩
    · intro other hother
      obtain ⟨m, hfile⟩ := hpart.1 other hother
      exact ⟨m, (hagree other (htmp other (List.mem_of_mem_take hother))).trans hfile⟩
    · intro other hother
      exact (hagree other (htmp other (List.mem_of_mem_drop hother))).trans (hpart.2 other hother)
  have hafter : ∀ v, Replaced (name ++ ".tmp") name (new.contents name) d'.live v →
      Partly d new (count + 1) v := by
    rintro v ⟨hfile, hothers⟩
    refine ⟨?_, ?_⟩
    · intro other hother
      rw [htake] at hother
      rcases List.mem_append.mp hother with hfront | hlast
      · have hne : other ≠ name := by
          rintro rfl
          exact (List.nodup_append.mp hnodup).2.2 _ hfront _ List.mem_cons_self rfl
        obtain ⟨m, hold⟩ := hpart.1 other hfront
        exact ⟨m, (hothers other (htmp other (List.mem_of_mem_take hfront)) hne).trans hold⟩
      · rw [List.mem_singleton.mp hlast]
        exact hfile
    · intro other hother
      have hne : other ≠ name := by
        rintro rfl
        exact (List.nodup_cons.mp (List.nodup_append.mp hnodup).2.1).1 hother
      refine (hothers other (htmp other (List.mem_of_mem_drop hother)) hne).trans ?_
      exact hpart.2 other (hdrop ▸ List.mem_cons_of_mem _ hother)
  refine (runs_replace (htmp name hmem) hall
    (fun _ v hall' hv => hall'.enter ⟨count, hbefore v hv⟩)
    (fun _ v hall' hv => hall'.enter ⟨count + 1, hafter v hv⟩)).post ?_
  rintro _ d'' - ⟨hall', hreplaced⟩
  exact ⟨hall', hafter _ hreplaced⟩

/-- The key is seen and the enrollment is not forced. -/
def refusesEnrollment (statOk force : Bool) (d : Disk String) : Bool :=
  ((d.live keyFile).isSome && statOk) && !force

theorem ensureNotEnrolled_runs {I : Disk String → Prop} (hI : I d) :
    Runs (serve statOk) I (fun _ _ => True) (ensureNotEnrolled stateDir force)
      (fun result d' => d' = d ∧
        ((∃ message, result = .error message) ↔ refusesEnrollment statOk force d = true)) d := by
  refine Runs.bind (Q := fun (found : Bool) d' => d' = d ∧
      found = ((d.live keyFile).isSome && statOk)) (runs_perform hI trivial hI ⟨rfl, rfl⟩) ?_
  rintro found d' - ⟨rfl, rfl⟩
  split
  · rename_i hrefused
    exact runs_pure hI ⟨rfl, fun _ => hrefused, fun _ => ⟨_, rfl⟩⟩
  · rename_i hgoes
    refine runs_pure hI ⟨rfl, ?_, fun hrefused => absurd hrefused hgoes⟩
    rintro ⟨message, ⟨⟩⟩

/-- A refused enrollment leaves the files alone. -/
theorem persist_refused_runs (hpast : d.past = [])
    (hrefused : refusesEnrollment statOk force d = true) :
    Runs (serve statOk) (AllVersions (Partly d new 0)) (fun _ _ => True)
      (persist stateDir new force) (fun _ _ => True) d := by
  have hstart : AllVersions (Partly d new 0) d := by
    intro v hv
    simp only [Disk.versions, hpast, List.mem_singleton] at hv
    subst hv
    exact ⟨by simp, fun _ _ => rfl⟩
  refine (ensureNotEnrolled_runs hstart).bind ?_
  rintro result d' - ⟨rfl, hresult⟩
  obtain ⟨message, rfl⟩ := hresult.mpr hrefused
  exact runs_pure hstart trivial

/-- An enrollment that is not refused writes the files one after the other. -/
theorem persist_runs (hpast : d.past = []) :
    Runs (serve statOk) (AllVersions (Staged d new)) (fun _ _ => True)
      (persist stateDir new force) (fun _ _ => True) d := by
  have hpart : Partly d new 0 d.live := ⟨by simp, fun _ _ => rfl⟩
  have hstart : AllVersions (Staged d new) d := by
    intro v hv
    simp only [Disk.versions, hpast, List.mem_singleton] at hv
    exact ⟨0, hv ▸ hpart⟩
  refine (ensureNotEnrolled_runs hstart).bind ?_
  rintro result d₀ - ⟨rfl, -⟩
  cases result with
  | error message => exact runs_pure hstart trivial
  | ok u =>
      refine Runs.bind (Q := fun _ d' => d' = d₀) (runs_perform hstart trivial hstart rfl) ?_
      rintro _ d₁ - rfl
      refine (writeAtomic_runs 0 rfl hstart hpart).bind fun _ d₂ _ h₂ => ?_
      refine (writeAtomic_runs 1 rfl h₂.1 h₂.2).bind fun _ d₃ _ h₃ => ?_
      refine (writeAtomic_runs 2 rfl h₃.1 h₃.2).bind fun _ d₄ _ h₄ => ?_
      refine (writeAtomic_runs 3 rfl h₄.1 h₄.2).bind fun _ d₅ _ h₅ => ?_
      exact runs_pure h₅.1 trivial

/-- What holds of all versions wherever the enrollment may stop holds of the entries
that it leaves, up to what a crash does to contents. -/
theorem Leaves.version {V : Entries String → Prop} (h : Leaves statOk stateDir new force d d')
    (hruns : Runs (serve statOk) (AllVersions V) (fun _ _ => True) (persist stateDir new force)
      (fun _ _ => True) d) :
    ∃ v, V v ∧ ∀ name, d'.live name = v name ∨ Survives (v name) (d'.live name) := by
  cases h with
  | stopped fates hstate =>
      have hall := (hruns.exec (w := ⟨d, fates, []⟩)).1
      rw [← hstate] at hall
      exact ⟨d'.live, hall _ List.mem_cons_self, fun _ => Or.inl rfl⟩
  | crashed fates hcrash =>
      have hall := (hruns.exec (w := ⟨d, fates, []⟩)).1
      obtain ⟨v, hv, hsurvives⟩ := hall.crash hcrash
      exact ⟨v, hv, fun name => Or.inr (hsurvives name)⟩

/-- The contents found in the files when some of them are written. -/
structure PartlyFound (d : Disk String) (new : Identity) (count : Nat)
    (found : String → Option Bytes) : Prop where
  written : ∀ name ∈ identityFiles.take count, found name = some (new.contents name)
  kept : ∀ name ∈ identityFiles.drop count, found name = d.found name

theorem Partly.found {count : Nat} {v : Entries String} (h : Partly d new count v)
    (hsynced : ∀ name ∈ identityFiles, ∀ f, d.live name = some f → f.synced = true)
    (hv : ∀ name, d'.live name = v name ∨ Survives (v name) (d'.live name)) :
    PartlyFound d new count d'.found := by
  -- a synced entry is found as it was
  have hfound : ∀ name, (∀ f, v name = some f → f.synced = true) →
      d'.found name = (v name).map File.bytes := by
    intro name hfile
    rcases hv name with hsame | hsurvives
    · rw [Disk.found, hsame]
    · rw [Disk.found]
      generalize v name = entry at hfile hsurvives
      generalize d'.live name = entry' at hsurvives
      cases hsurvives with
      | absent => rfl
      | file f f' hbytes _ => simp [hbytes (hfile f rfl)]
  refine ⟨?_, ?_⟩
  · intro name hname
    obtain ⟨mode, hfile⟩ := h.1 name hname
    rw [hfound name (by rintro f hf; rw [hfile] at hf; cases hf; rfl), hfile]
    rfl
  · intro name hname
    have hsame := h.2 name hname
    rw [hfound name (by rw [hsame]; exact hsynced name (List.mem_of_mem_drop hname)), hsame]
    rfl

/-- What an enrollment leaves in the four files. -/
theorem Leaves.partlyFound (h : Leaves statOk stateDir new force d d') (hbefore : Before d old) :
    ∃ count, (refusesEnrollment statOk force d = true → count = 0) ∧
      PartlyFound d new count d'.found := by
  by_cases hrefused : refusesEnrollment statOk force d = true
  · obtain ⟨v, hpart, hv⟩ := h.version (persist_refused_runs hbefore.past hrefused)
    exact ⟨0, fun _ => rfl, hpart.found hbefore.synced hv⟩
  · obtain ⟨v, ⟨count, hpart⟩, hv⟩ := h.version (persist_runs hbefore.past)
    exact ⟨count, fun hrefused' => absurd hrefused' hrefused, hpart.found hbefore.synced hv⟩

/-- One more file is written on the way to a stage that is not reached yet. -/
theorem reaches_write {A : Type} {mode : Option Nat} (target count : Nat)
    {rest : FsProg String A} (hname : identityFiles[count]? = some name)
    (hall : AllVersions (Staged d new) d') (hpart : Partly d new count d'.live)
    (hle : count ≤ target)
    (hrest : ∀ d'', AllVersions (Staged d new) d'' → Partly d new (count + 1) d''.live →
      count + 1 ≤ target → Reaches (serve statOk) (fun s => Partly d new target s.live) rest d'') :
    Reaches (serve statOk) (fun s => Partly d new target s.live)
      (writeAtomic name (new.contents name) mode >>= fun _ => rest) d' := by
  rcases hle.eq_or_lt with rfl | hlt
  · exact Reaches.here hpart
  · exact Reaches.bind (writeAtomic_runs count hname hall hpart) fun _ d'' h'' =>
      hrest d'' h''.1 h''.2 hlt

/-- Every stage can be left behind by an enrollment that is not refused. -/
theorem persist_reaches (hpast : d.past = []) (hgoes : ¬ refusesEnrollment statOk force d = true)
    {target : Nat} (hle : target ≤ 4) :
    Reaches (serve statOk) (fun s => Partly d new target s.live)
      (persist stateDir new force) d := by
  have hpart : Partly d new 0 d.live := ⟨by simp, fun _ _ => rfl⟩
  have hstart : AllVersions (Staged d new) d := by
    intro v hv
    simp only [Disk.versions, hpast, List.mem_singleton] at hv
    exact ⟨0, hv ▸ hpart⟩
  refine Reaches.bind (ensureNotEnrolled_runs hstart) ?_
  rintro result d₀ ⟨rfl, hresult⟩
  cases result with
  | error message => exact absurd (hresult.mp ⟨message, rfl⟩) hgoes
  | ok u =>
      refine Reaches.bind (G := fun _ _ => True) (Q := fun _ d' => d' = d₀)
        (runs_perform hstart trivial hstart rfl) ?_
      rintro _ d₁ rfl
      refine reaches_write target 0 rfl hstart hpart (Nat.zero_le _) fun d₂ hall₂ h₂ hle₂ => ?_
      refine reaches_write target 1 rfl hall₂ h₂ hle₂ fun d₃ hall₃ h₃ hle₃ => ?_
      refine reaches_write target 2 rfl hall₃ h₃ hle₃ fun d₄ hall₄ h₄ hle₄ => ?_
      refine reaches_write target 3 rfl hall₄ h₄ hle₄ fun d₅ hall₅ h₅ hle₅ => ?_
      obtain rfl : target = 4 := by omega
      exact Reaches.here h₅

/-- At most one element of a list is marked iff no cut has marked elements on both
sides. -/
theorem countP_le_one_iff {A : Type} (p : A → Bool) (l : List A) :
    l.countP p ≤ 1 ↔
      ∀ n, (∀ a ∈ l.take n, p a = false) ∨ ∀ a ∈ l.drop n, p a = false := by
  constructor
  · intro h n
    have hsplit : l.countP p = (l.take n).countP p + (l.drop n).countP p := by
      rw [← List.countP_append, List.take_append_drop]
    have hzero : ∀ l' : List A, l'.countP p = 0 → ∀ a ∈ l', p a = false := by
      intro l' h' a ha
      simpa using List.countP_eq_zero.mp h' a ha
    rcases Nat.eq_zero_or_pos ((l.take n).countP p) with hnone | hsome
    · exact Or.inl (hzero _ hnone)
    · exact Or.inr (hzero _ (by omega))
  · induction l with
    | nil => simp
    | cons a l ih =>
        intro h
        by_cases ha : p a = true
        · rcases h 1 with hfront | hback
          · exact absurd (hfront a (by simp)) (by simp [ha])
          · have hnone : l.countP p = 0 := by
              rw [List.countP_eq_zero]
              intro b hb
              simp [hback b (by simpa using hb)]
            rw [List.countP_cons_of_pos ha, hnone]
        · rw [List.countP_cons_of_neg ha]
          refine ih fun n => ?_
          rcases h (n + 1) with hfront | hback
          · exact Or.inl fun b hb => hfront b (by simp [hb])
          · exact Or.inr fun b hb => hback b (by simpa using hb)

/-- A stage holds a whole identity iff the written files or the others do not differ. -/
theorem partlyFound_whole_iff {id : Identity} {count : Nat} {found : String → Option Bytes}
    (h : PartlyFound d new count found) (hold : Complete d.found id) :
    (Complete found id ↔ ∀ name ∈ identityFiles.take count, id.contents name = new.contents name) ∧
    (Complete found new ↔
      ∀ name ∈ identityFiles.drop count, id.contents name = new.contents name) := by
  rw [complete_iff] at hold
  rw [complete_iff, complete_iff]
  have hsplit : ∀ P : String → Prop, (∀ name ∈ identityFiles, P name) ↔
      (∀ name ∈ identityFiles.take count, P name) ∧ ∀ name ∈ identityFiles.drop count, P name := by
    intro P
    rw [← List.forall_mem_append, List.take_append_drop]
  have hkept : ∀ name ∈ identityFiles.drop count, found name = some (id.contents name) :=
    fun name hname => (h.kept name hname).trans (hold name (List.mem_of_mem_drop hname))
  constructor
  · rw [hsplit, and_iff_left hkept]
    refine forall₂_congr fun name hname => ?_
    rw [h.written name hname, Option.some.injEq, eq_comm]
  · rw [hsplit, and_iff_right h.written]
    refine forall₂_congr fun name hname => ?_
    rw [hkept name hname, Option.some.injEq]

theorem keyFile_mem_drop {count : Nat} (h : count < 4) : keyFile ∈ identityFiles.drop count := by
  revert count
  decide +kernel

/-- An enrollment that is not refused may stop between any two files, so that an
identity with a key must not differ on both sides. -/
theorem differing_le_one_of_allOrNothing {id : Identity} (hbefore : Before d (some id))
    (hgoes : ¬ refusesEnrollment statOk force d = true)
    (hall : ∀ d', Leaves statOk stateDir new force d d' → AllOrNothing (some id) new d'.found) :
    differing id new ≤ 1 := by
  rw [differing, countP_le_one_iff]
  intro count
  simp only [decide_eq_false_iff_not, not_not]
  by_cases hcount : count < 4
  · obtain ⟨fates, hpart⟩ : ∃ fates : List (Fate String), Partly d new count
        (exec (serve statOk) (persist stateDir new force) ⟨d, fates, []⟩).2.state.live :=
      (persist_reaches hbefore.past hgoes hcount.le).exec "" []
    have hfound := hpart.found hbefore.synced (fun _ => Or.inl rfl)
    obtain ⟨hold, hnew⟩ := partlyFound_whole_iff hfound hbefore.content
    rcases hall _ (.stopped fates rfl) with ⟨id', hid, hcomplete⟩ | hcomplete | hnone
    · cases hid
      exact Or.inl (hold.mp hcomplete)
    · exact Or.inr (hnew.mp hcomplete)
    · rw [hfound.kept keyFile (keyFile_mem_drop hcount), hbefore.content.key] at hnone
      cases hnone
  · have hlength : identityFiles.length ≤ count := not_lt.mp hcount
    rw [List.drop_eq_nil_of_le hlength]
    exact Or.inr (by simp)

/-- Without a key from before, the key comes with all the other files. -/
theorem allOrNothing_of_fresh {count : Nat} {found : String → Option Bytes}
    (hfound : PartlyFound d new count found) (hfresh : d.found keyFile = none) :
    AllOrNothing none new found := by
  by_cases hcount : count < 4
  · exact Or.inr (Or.inr ((hfound.kept keyFile (keyFile_mem_drop hcount)).trans hfresh))
  · have hlength : identityFiles.length ≤ count := not_lt.mp hcount
    refine Or.inr (Or.inl (complete_iff.mpr fun name hname => hfound.written name ?_))
    rwa [List.take_of_length_le hlength]

/-- Every enrollment, wherever it stops and whatever a crash does then, leaves a whole
identity or no key, iff no identity was there before, or it was seen and not to be
replaced, or the identities differ in one file at most. -/
theorem persist_all_or_nothing_iff (statOk : Bool) (stateDir : String) (force : Bool)
    (d : Disk String) (old : Option Identity) (new : Identity) (hbefore : Before d old) :
    (∀ d', Leaves statOk stateDir new force d d' → AllOrNothing old new d'.found) ↔
      ∀ id, old = some id → (force = false ∧ statOk = true) ∨ differing id new ≤ 1 := by
  constructor
  · rintro hall id rfl
    by_cases hrefused : refusesEnrollment statOk force d = true
    · simp only [refusesEnrollment, Bool.and_eq_true, Bool.not_eq_true'] at hrefused
      exact Or.inl ⟨hrefused.2, hrefused.1.2⟩
    · exact Or.inr (differing_le_one_of_allOrNothing hbefore hrefused hall)
  · intro hcond d' hleaves
    obtain ⟨count, hrefused, hfound⟩ := hleaves.partlyFound hbefore
    cases old with
    | none => exact allOrNothing_of_fresh hfound hbefore.content
    | some id =>
        obtain ⟨hold, hnew⟩ := partlyFound_whole_iff hfound hbefore.content
        rcases hcond id rfl with ⟨hforce, hstat⟩ | hfew
        · obtain ⟨f, hf, -⟩ := Option.map_eq_some_iff.mp hbefore.content.key
          have hzero := hrefused (by simp [refusesEnrollment, hforce, hstat, hf])
          exact Or.inl ⟨id, rfl, hold.mpr (by simp [hzero])⟩
        · rw [differing, countP_le_one_iff] at hfew
          rcases hfew count with hfront | hback
          · exact Or.inl ⟨id, rfl, hold.mpr (by simpa using hfront)⟩
          · exact Or.inr (Or.inl (hnew.mpr (by simpa using hback)))

end Enrollments

/-- The identities of two enrollments under one authority. -/
def sampleIdentity : Identity := ⟨"host-1", "key-1", "cert-1", "root"⟩

def sampleReenrolled : Identity := ⟨"host-2", "key-2", "cert-2", "root"⟩

/-- A state directory that holds the four files of an identity. -/
def enrolledDisk (id : Identity) : Disk String :=
  ⟨fun name => if name ∈ identityFiles then some ⟨id.contents name, true, none⟩ else none, []⟩

theorem before_enrolledDisk (id : Identity) : Before (enrolledDisk id) (some id) where
  past := rfl
  synced := by
    intro name hname f hf
    simp only [enrolledDisk, hname, if_true, Option.some.injEq] at hf
    rw [← hf]
  content := by
    refine complete_iff.mpr fun name hname => ?_
    simp [Disk.found, enrolledDisk, hname]

/-- A first enrollment, and one that is not forced. -/
theorem persist_all_or_nothing_fresh :
    (∀ d', Leaves true "/var/lib/osa" sampleIdentity true ⟨fun _ => none, []⟩ d' →
      AllOrNothing none sampleIdentity d'.found) ∧
    ∀ d', Leaves true "/var/lib/osa" sampleReenrolled false (enrolledDisk sampleIdentity) d' →
      AllOrNothing (some sampleIdentity) sampleReenrolled d'.found := by
  refine ⟨(persist_all_or_nothing_iff true "/var/lib/osa" true ⟨fun _ => none, []⟩ none
      sampleIdentity ⟨rfl, by simp, rfl⟩).mpr (by simp), ?_⟩
  exact (persist_all_or_nothing_iff true "/var/lib/osa" false _ _ sampleReenrolled
    (before_enrolledDisk sampleIdentity)).mpr fun _ _ => Or.inl ⟨rfl, rfl⟩

/-- A forced enrollment that fails after its first file: the old key stands beside the
new certificate. -/
theorem forced_reenroll_mixes :
    let d' := (exec (serve true) (persist "/var/lib/osa" sampleReenrolled true)
      ⟨enrolledDisk sampleIdentity,
        List.replicate 6 .answered ++ [.failed "No space left on device"], []⟩).2.state
    Before (enrolledDisk sampleIdentity) (some sampleIdentity) ∧
    Leaves true "/var/lib/osa" sampleReenrolled true (enrolledDisk sampleIdentity) d' ∧
    d'.found keyFile = some (utf8 "key-1") ∧ d'.found certFile = some (utf8 "cert-2") ∧
    ¬ AllOrNothing (some sampleIdentity) sampleReenrolled d'.found := by
  intro d'
  have hkey : d'.found keyFile = some (utf8 "key-1") := by decide +kernel
  have hcert : d'.found certFile = some (utf8 "cert-2") := by decide +kernel
  refine ⟨before_enrolledDisk sampleIdentity, .stopped _ rfl, hkey, hcert, ?_⟩
  rintro (⟨id, hid, hcomplete⟩ | hcomplete | hnone)
  · cases hid
    exact absurd (hcert.symm.trans hcomplete.cert) (by decide +kernel)
  · exact absurd (hkey.symm.trans hcomplete.key) (by decide +kernel)
  · exact absurd (hkey.symm.trans hnone) (by simp)

end Agent
end OpenSsmAgent
