import OpenSsmAgent.Lib.Framing
import OpenSsmAgent.Lib.RemoteCalls

/-!
# Files that outlive a crash

A directory of files under system calls that may fail, and what a crash leaves of it.
Contents reach the disk with a sync of the file, entries with a sync of the
directory.  Until then the directory keeps its earlier versions: a crash falls back to
one of them as a whole if entries reach the disk in order, or entry by entry if they
do not, and contents that were never synced may be anything.

Main results:

- Theorems {lit}`AllVersions.crash` and {lit}`EveryEntry.crash`: what holds of all
  versions holds after a crash.
- Theorem {lit}`runs_replace`: a file replaced through a synced temporary file is the old one
  or the new one, and no other file is touched.
- Theorems {lit}`Writing.step` and {lit}`Writing.frame`: a durable write makes its way
  whatever other files are written in between, and its file is in every version when
  it ends.
-/

open Framing RemoteCalls

namespace CrashStore

/-- The contents of a file, whether they have reached the disk, and the mode that the
file was created with. -/
structure File where
  bytes : Bytes
  synced : Bool
  mode : Option Nat
deriving DecidableEq

/-- The entries of a directory. -/
abbrev Entries (N : Type) := N → Option File

/-- A directory, with the versions of its entries since the last sync. -/
structure Disk (N : Type) where
  live : Entries N
  past : List (Entries N)

section Disks

variable {N : Type}

/-- The versions a crash may fall back to. -/
def Disk.versions (d : Disk N) : List (Entries N) :=
  d.live :: d.past

/-- A new version of the entries. -/
def Disk.enter (d : Disk N) (live : Entries N) : Disk N :=
  ⟨live, d.versions⟩

/-- The contents that a read finds. -/
def Disk.found (d : Disk N) (name : N) : Option Bytes :=
  (d.live name).map File.bytes

/-- What becomes of an entry in a crash: synced contents stay. -/
inductive Survives : Option File → Option File → Prop
  | absent : Survives none none
  | file (f f' : File) : (f.synced = true → f'.bytes = f.bytes) → f'.synced = true →
      Survives (some f) (some f')

/-- A crash where entries reach the disk in order. -/
def CrashInOrder (d d' : Disk N) : Prop :=
  d'.past = [] ∧ ∃ v ∈ d.versions, ∀ name, Survives (v name) (d'.live name)

theorem mem_versions_enter {d : Disk N} {live v : Entries N} :
    v ∈ (d.enter live).versions ↔ v = live ∨ v ∈ d.versions := by
  simp [Disk.versions, Disk.enter]

end Disks

/-! ## System calls -/

/-- A system call on the files of a directory. -/
inductive FsCall (N : Type) where
  | stat (name : N)
  | createDirAll
  | create (name : N) (mode : Option Nat)
  | write (name : N) (bytes : Bytes)
  | sync (name : N)
  | rename (source target : N)
  | read (name : N)
  | openDir
  | syncDir
deriving DecidableEq

/-- What a call answers. -/
abbrev FsCall.Answer {N : Type} : FsCall N → Type
  | .stat _ => Bool
  | .read _ => Option Bytes
  | _ => Unit

abbrev FsProg (N : Type) := Prog (FsCall N) FsCall.Answer

section Calls

variable {N : Type} [DecidableEq N] {name tmp : N} {bytes : Bytes} {d : Disk N} {v v' : Entries N}
  {P : Option File → Prop} {rest : List (FsCall N)}

/-- The effect of a call.  A file that cannot be looked at does not seem to exist. -/
def serve (statOk : Bool) : (c : FsCall N) → Disk N → c.Answer × Disk N
  | .stat name, d => ((d.live name).isSome && statOk, d)
  | .createDirAll, d => ((), d)
  | .create name mode, d =>
      ((), d.enter (Function.update d.live name
        (some ⟨[], false, ((d.live name).map File.mode).getD mode⟩)))
  | .write name bytes, d =>
      ((), d.enter (Function.update d.live name
        ((d.live name).map fun f => { f with bytes := bytes, synced := false })))
  | .sync name, d =>
      ((), d.enter (Function.update d.live name
        ((d.live name).map fun f => { f with synced := true })))
  | .rename source target, d =>
      match d.live source with
      | none => ((), d)
      | some f =>
          ((), d.enter (Function.update (Function.update d.live target (some f)) source none))
  | .read name, d => (d.found name, d)
  | .openDir, d => ((), d)
  | .syncDir, d => ((), ⟨d.live, []⟩)

/-- Replace a file through a temporary one. -/
def replace (tmp name : N) (bytes : Bytes) (mode : Option Nat) : FsProg N Unit := do
  perform (FsCall.create tmp mode)
  perform (FsCall.write tmp bytes)
  perform (FsCall.sync tmp)
  perform (FsCall.rename tmp name)

/-- The entries agree on all names but one. -/
def AgreeBut (tmp : N) (v v' : Entries N) : Prop :=
  ∀ name, name ≠ tmp → v' name = v name

/-- A name holds synced contents. -/
def HasFile (v : Entries N) (name : N) (bytes : Bytes) : Prop :=
  ∃ mode, v name = some ⟨bytes, true, mode⟩

omit [DecidableEq N] in
theorem HasFile.found (h : HasFile d.live name bytes) :
    d.found name = some bytes := by
  obtain ⟨mode, hfile⟩ := h
  simp [Disk.found, hfile]

omit [DecidableEq N] in
theorem HasFile.of_eq (h : HasFile v name bytes)
    (heq : v' name = v name) : HasFile v' name bytes := by
  obtain ⟨mode, hfile⟩ := h
  exact ⟨mode, heq.trans hfile⟩

omit [DecidableEq N] in
/-- Synced contents survive a crash. -/
theorem HasFile.survives (h : HasFile v name bytes)
    (hsurvives : Survives (v name) (v' name)) : HasFile v' name bytes := by
  obtain ⟨mode, hfile⟩ := h
  rw [hfile] at hsurvives
  generalize hentry : v' name = entry at hsurvives
  cases hsurvives with
  | file f f' hbytes hsynced =>
      obtain ⟨bytes', synced', mode'⟩ := f'
      obtain rfl : bytes' = bytes := hbytes rfl
      obtain rfl : synced' = true := hsynced
      exact ⟨mode', hentry⟩

/-- What a replacement leaves of the entries: those of before, or the file replaced. -/
def Replaced (tmp name : N) (bytes : Bytes) (v v' : Entries N) : Prop :=
  HasFile v' name bytes ∧ ∀ other, other ≠ tmp → other ≠ name → v' other = v other

/-- Every version is one of the given kind. -/
def AllVersions (V : Entries N → Prop) (d : Disk N) : Prop :=
  ∀ v ∈ d.versions, V v

omit [DecidableEq N] in
theorem AllVersions.enter {V : Entries N → Prop} {live : Entries N} (h : AllVersions V d)
    (hlive : V live) : AllVersions V (d.enter live) := by
  intro v hv
  rcases mem_versions_enter.mp hv with rfl | hv
  · exact hlive
  · exact h v hv

omit [DecidableEq N] in
/-- A crash falls back to a version of the kind. -/
theorem AllVersions.crash {V : Entries N → Prop} {d' : Disk N} (h : AllVersions V d)
    (hcrash : CrashInOrder d d') :
    ∃ v, V v ∧ ∀ name, Survives (v name) (d'.live name) := by
  obtain ⟨-, v, hv, hsurvives⟩ := hcrash
  exact ⟨v, h v hv, hsurvives⟩

theorem agreeBut_update {entry : Option File}
    (h : AgreeBut tmp v v') : AgreeBut tmp v (Function.update v' tmp entry) := by
  intro name hname
  rw [Function.update_of_ne hname]
  exact h name hname

/-- In the middle of a replacement: an invariant, and the contents of the temporary file, the
only one that was touched. -/
structure Temporary (I : Disk N → Prop) (tmp : N) (before : Entries N) (bytes : Bytes)
    (synced : Bool) (d : Disk N) : Prop where
  inv : I d
  agree : AgreeBut tmp before d.live
  file : ∃ mode, d.live tmp = some ⟨bytes, synced, mode⟩

/-- A new version of the temporary file. -/
theorem temporary_enter {I : Disk N → Prop} {before : Entries N}
    (hI : ∀ v, AgreeBut tmp before v → I (d.enter v)) (hagree : AgreeBut tmp before d.live)
    (f : File) : Temporary I tmp before f.bytes f.synced
      (d.enter (Function.update d.live tmp (some f))) where
  inv := hI _ (agreeBut_update hagree)
  agree := agreeBut_update hagree
  file := ⟨f.mode, by simp [Disk.enter]⟩

/-- A replacement keeps what survives new entries that agree with those of before, and a new
version where the file is replaced. -/
theorem runs_replace {statOk : Bool} (hne : name ≠ tmp) {mode : Option Nat} {I : Disk N → Prop}
    (h : I d) (hbefore : ∀ d' v, I d' → AgreeBut tmp d.live v → I (d'.enter v))
    (hafter : ∀ d' v, I d' → Replaced tmp name bytes d.live v → I (d'.enter v)) :
    Runs (serve statOk) I (fun _ _ => True) (replace tmp name bytes mode)
      (fun _ d' => I d' ∧ Replaced tmp name bytes d.live d'.live) d := by
  have hcreate := temporary_enter (fun v => hbefore d v h) (fun _ _ => rfl)
    ⟨[], false, ((d.live tmp).map File.mode).getD mode⟩
  refine Runs.bind (Q := fun _ => Temporary I tmp d.live [] false)
    (runs_perform h trivial hcreate.inv hcreate) ?_
  rintro _ d₁ - ⟨hI₁, hagree₁, m₁, htmp₁⟩
  have hwrite : Temporary I tmp d.live bytes false (serve statOk (.write tmp bytes) d₁).2 := by
    simp only [serve, htmp₁, Option.map_some]
    exact temporary_enter (fun v => hbefore d₁ v hI₁) hagree₁ ⟨bytes, false, m₁⟩
  refine Runs.bind (Q := fun _ => Temporary I tmp d.live bytes false)
    (runs_perform hI₁ trivial hwrite.inv hwrite) ?_
  rintro _ d₂ - ⟨hI₂, hagree₂, m₂, htmp₂⟩
  have hsync : Temporary I tmp d.live bytes true (serve statOk (.sync tmp) d₂).2 := by
    simp only [serve, htmp₂, Option.map_some]
    exact temporary_enter (fun v => hbefore d₂ v hI₂) hagree₂ ⟨bytes, true, m₂⟩
  refine Runs.bind (Q := fun _ => Temporary I tmp d.live bytes true)
    (runs_perform hI₂ trivial hsync.inv hsync) ?_
  rintro _ d₃ - ⟨hI₃, hagree₃, m₃, htmp₃⟩
  have hreplaced : Replaced tmp name bytes d.live
      (Function.update (Function.update d₃.live name (some ⟨bytes, true, m₃⟩)) tmp none) := by
    refine ⟨⟨m₃, by simp [hne]⟩, ?_⟩
    intro other htmp hname
    rw [Function.update_of_ne htmp, Function.update_of_ne hname]
    exact hagree₃ other htmp
  have hrename : (serve statOk (.rename tmp name) d₃).2 = d₃.enter
      (Function.update (Function.update d₃.live name (some ⟨bytes, true, m₃⟩)) tmp none) := by
    simp only [serve, htmp₃]
  have hI₄ := hafter d₃ _ hI₃ hreplaced
  rw [← hrename] at hI₄
  refine runs_perform hI₃ trivial hI₄ ⟨hI₄, ?_⟩
  rw [hrename]
  exact hreplaced

end Calls

/-! ## Durable writes -/

section Durable

variable {N : Type} [DecidableEq N] {tmp name : N} {bytes : Bytes} {d : Disk N} {c : FsCall N}

/-- The calls of a write that is durable when the last of them has returned. -/
def durableWrite (tmp name : N) (bytes : Bytes) : List (FsCall N) :=
  [.create tmp none, .write tmp bytes, .sync tmp, .rename tmp name, .openDir, .syncDir]

/-- The disk after a call. -/
def effect (c : FsCall N) (d : Disk N) : Disk N :=
  (serve true c d).2

/-- A crash where every entry falls back to a version of its own. -/
def Disk.crash {N : Type} (d : Disk N) (pick : N → Nat) (torn : N → Bytes) : Disk N where
  live := fun name => (d.versions.getD (pick name) d.live name).map fun f =>
    if f.synced then f else ⟨torn name, true, f.mode⟩
  past := []

/-- What holds of an entry in every version. -/
def EveryEntry {N : Type} (name : N) (P : Option File → Prop) (d : Disk N) : Prop :=
  AllVersions (fun v => P (v name)) d

/-- An entry with synced contents. -/
def SyncedFile (bytes : Bytes) (entry : Option File) : Prop :=
  ∃ mode, entry = some ⟨bytes, true, mode⟩

/-- The names a call writes to. -/
def FsCall.writes : FsCall N → List N
  | .create name _ => [name]
  | .write name _ => [name]
  | .sync name => [name]
  | .rename source target => [source, target]
  | _ => []

theorem effect_rename (source target : N) (d : Disk N) :
    effect (.rename source target) d = (d.live source).elim d fun f =>
      d.enter (Function.update (Function.update d.live target (some f)) source none) := by
  cases hsource : d.live source <;> simp [effect, serve, hsource]

/-- Files that a call does not write to stay. -/
theorem live_effect (h : name ∉ c.writes) : (effect c d).live name = d.live name := by
  cases c with
  | stat n => rfl
  | createDirAll => rfl
  | create n m => simp_all [effect, serve, Disk.enter, FsCall.writes]
  | write n b => simp_all [effect, serve, Disk.enter, FsCall.writes]
  | sync n => simp_all [effect, serve, Disk.enter, FsCall.writes]
  | rename source target =>
      simp only [FsCall.writes, List.mem_cons, List.not_mem_nil, or_false, not_or] at h
      rw [effect_rename]
      cases d.live source with
      | none => rfl
      | some f => simp [Disk.enter, h.1, h.2]
  | read n => rfl
  | openDir => rfl
  | syncDir => rfl

/-- A call adds a version at most. -/
theorem mem_versions_effect {v : Entries N} (h : v ∈ (effect c d).versions) :
    v = (effect c d).live ∨ v ∈ d.versions := by
  cases c with
  | stat n => exact Or.inr h
  | createDirAll => exact Or.inr h
  | create n m => exact mem_versions_enter.mp h
  | write n b => exact mem_versions_enter.mp h
  | sync n => exact mem_versions_enter.mp h
  | rename source target =>
      rw [effect_rename] at h ⊢
      cases hsource : d.live source with
      | none =>
          rw [hsource] at h
          exact Or.inr h
      | some f =>
          rw [hsource] at h
          exact mem_versions_enter.mp h
  | read n => exact Or.inr h
  | openDir => exact Or.inr h
  | syncDir => exact Or.inl (by simpa [effect, serve, Disk.versions] using h)

/-- What holds of an entry in every version stays if it holds of the new one. -/
theorem EveryEntry.call {P : Option File → Prop} (h : EveryEntry name P d)
    (hlive : P ((effect c d).live name)) : EveryEntry name P (effect c d) := by
  intro v hv
  rcases mem_versions_effect hv with rfl | hv
  · exact hlive
  · exact h v hv

theorem EveryEntry.frame {P : Option File → Prop} (h : EveryEntry name P d)
    (hc : name ∉ c.writes) : EveryEntry name P (effect c d) :=
  EveryEntry.call h (by rw [live_effect hc]; exact h _ List.mem_cons_self)

omit [DecidableEq N] in
theorem EveryEntry.live {P : Option File → Prop} (h : EveryEntry name P d) : P (d.live name) :=
  h _ List.mem_cons_self

omit [DecidableEq N] in
/-- What holds of an entry in every version, and of synced contents whatever becomes of
them, holds after a crash. -/
theorem EveryEntry.crash {P : Option File → Prop} (h : EveryEntry name P d) (pick : N → Nat)
    (torn : N → Bytes)
    (hsurvives : ∀ entry bytes, P entry →
      P (entry.map fun f => if f.synced then f else ⟨bytes, true, f.mode⟩)) :
    EveryEntry name P (d.crash pick torn) := by
  intro v hv
  obtain rfl : v = (d.crash pick torn).live := List.mem_singleton.mp hv
  refine hsurvives _ _ ?_
  rw [List.getD_eq_getElem?_getD]
  cases hpick : d.versions[pick name]? with
  | none => exact h _ List.mem_cons_self
  | some v => exact h v (List.mem_of_getElem? hpick)

theorem SyncedFile.survives {entry : Option File} {torn : Bytes} (h : SyncedFile bytes entry) :
    SyncedFile bytes (entry.map fun f => if f.synced then f else ⟨torn, true, f.mode⟩) := by
  obtain ⟨mode, rfl⟩ := h
  exact ⟨mode, rfl⟩

/-- Where a durable write is: the calls to come, and what is on the disk. -/
inductive Writing (tmp name : N) (bytes : Bytes) (d : Disk N) : List (FsCall N) → Prop
  | create : Writing tmp name bytes d (durableWrite tmp name bytes)
  | write (f : File) : d.live tmp = some f → Writing tmp name bytes d
      [.write tmp bytes, .sync tmp, .rename tmp name, .openDir, .syncDir]
  | sync (synced : Bool) (mode : Option Nat) : d.live tmp = some ⟨bytes, synced, mode⟩ →
      Writing tmp name bytes d [.sync tmp, .rename tmp name, .openDir, .syncDir]
  | rename : SyncedFile bytes (d.live tmp) →
      Writing tmp name bytes d [.rename tmp name, .openDir, .syncDir]
  | openDir : SyncedFile bytes (d.live name) → Writing tmp name bytes d [.openDir, .syncDir]
  | syncDir : SyncedFile bytes (d.live name) → Writing tmp name bytes d [.syncDir]
  | written : EveryEntry name (SyncedFile bytes) d → Writing tmp name bytes d []

/-- The next call of a durable write. -/
theorem Writing.step {rest : List (FsCall N)} (hne : name ≠ tmp)
    (h : Writing tmp name bytes d (c :: rest)) : Writing tmp name bytes (effect c d) rest := by
  cases h with
  | create => exact .write _ (by simp [effect, serve, Disk.enter]; rfl)
  | write f hf => exact .sync false f.mode (by simp [effect, serve, Disk.enter, hf])
  | sync synced mode hf => exact .rename ⟨mode, by simp [effect, serve, Disk.enter, hf]⟩
  | rename hf =>
      obtain ⟨mode, hf⟩ := hf
      exact .openDir ⟨mode, by simp [effect, serve, hf, Disk.enter, hne]⟩
  | openDir hf => exact .syncDir hf
  | syncDir hf =>
      refine .written ?_
      intro v hv
      obtain rfl : v = d.live := by simpa [effect, serve, Disk.versions] using hv
      exact hf

/-- A call on other files does not disturb a durable write. -/
theorem Writing.frame {rest : List (FsCall N)} (h : Writing tmp name bytes d rest)
    (htmp : tmp ∉ c.writes) (hname : name ∉ c.writes) :
    Writing tmp name bytes (effect c d) rest := by
  have htmp' := live_effect (d := d) htmp
  have hname' := live_effect (d := d) hname
  cases h with
  | create => exact .create
  | write f hf => exact .write f (htmp'.trans hf)
  | sync synced mode hf => exact .sync synced mode (htmp'.trans hf)
  | rename hf => exact .rename (htmp' ▸ hf)
  | openDir hf => exact .openDir (hname' ▸ hf)
  | syncDir hf => exact .syncDir (hname' ▸ hf)
  | written hf => exact .written (hf.frame hname)

/-- A durable write keeps a file with synced contents there, the old ones or the new
ones. -/
theorem Writing.keeps {rest : List (FsCall N)} {P : Option File → Prop} (hne : name ≠ tmp)
    (h : Writing tmp name bytes d (c :: rest)) (hold : EveryEntry name P d)
    (hnew : ∀ entry, SyncedFile bytes entry → P entry) : EveryEntry name P (effect c d) := by
  by_cases hc : name ∈ c.writes
  · cases h with
    | rename hf =>
        obtain ⟨mode, hf⟩ := hf
        refine hold.call (hnew _ ⟨mode, ?_⟩)
        simp [effect, serve, hf, Disk.enter, hne]
    | _ => simp [FsCall.writes, hne] at hc
  · exact hold.frame hc

end Durable

end CrashStore
