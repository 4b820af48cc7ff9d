import OpenSsmAgent.Coordinator.Service
import OpenSsmAgent.Lib.CrashStore
import OpenSsmAgent.Lib.Proto3

/-!
# The session epoch file

The epoch of an agent's sessions, {lit}`next_epoch` of {lit}`osa-agent/src/session.rs`: a
number that is read, incremented and written back through a synced temporary file before
it is used, so that no crash brings an epoch back that was handed out.

The life of an agent is a list of calls, of calls in which the process dies, and of
crashes of the machine.  Every system call may fail with or without its effect, and
writing the number may take several writes.

Main results:

- Theorem {lit}`nextEpoch_runs`: what a call leaves wherever it stops, and what it has made
  durable when it returns an epoch.
- Theorem {lit}`epochs_increase`: the epochs of a whole life increase.
-/

open Framing RemoteCalls CrashStore

namespace OpenSsmAgent
namespace Agent

open Coordinator (trim isWhitespace)

/-! ## The number in the file -/

/-- {lit}`EPOCH_FILE`. -/
def epochFile : String := "session_epoch"

/-- {lit}`path.with_extension("tmp")`. -/
def epochTmp : String := "session_epoch.tmp"

def maxEpoch : UInt64 := 0xffffffffffffffff

/-- {lit}`next.to_string().as_bytes()`. -/
def epochText (n : UInt64) : Bytes :=
  utf8 (toString n.toNat)

/-- {lit}`str::parse::<u64>`: digits, behind at most one plus sign, of a number in range. -/
def parseU64 (cs : List Char) : Option UInt64 :=
  let digits := if cs.head? = some '+' then cs.drop 1 else cs
  if digits ≠ [] ∧ digits.all Char.isDigit = true ∧ Nat.ofDigitChars 10 digits 0 < 2 ^ 64 then
    some (UInt64.ofNat (Nat.ofDigitChars 10 digits 0))
  else none

/-- What a found file says: nothing if it is not UTF-8 or not a number. -/
def parseEpoch (bytes : Bytes) : Option UInt64 :=
  (Proto3.readUtf8 bytes).bind fun s => parseU64 (trim s.toList)

/-- The epoch that was used last. -/
def currentEpoch : Option Bytes → Except String UInt64
  | none => .ok 0
  | some bytes =>
      match Proto3.readUtf8 bytes with
      | none => .error "reading the session epoch"
      | some s =>
          match parseU64 (trim s.toList) with
          | none => .error "session epoch file is corrupt; refusing to regress the epoch"
          | some n => .ok n

/-- {lit}`next_epoch`.  The lengths are those that the file system accepts of the text
before it accepts all of it. -/
def nextEpoch (accepted : List Nat) : FsProg String (Except String UInt64) := do
  let found ← perform (FsCall.read epochFile)
  match currentEpoch found with
  | .error e => pure (.error e)
  | .ok current =>
      if current = maxEpoch then pure (.error "session epoch overflow (u64)")
      else do
        let next := current + 1
        perform (FsCall.create epochTmp none)
        accepted.forM fun n => perform (FsCall.write epochTmp ((epochText next).take n))
        perform (FsCall.write epochTmp (epochText next))
        perform (FsCall.sync epochTmp)
        perform (FsCall.rename epochTmp epochFile)
        perform FsCall.openDir
        perform FsCall.syncDir
        pure (.ok next)

theorem isWhitespace_of_isDigit {c : Char} (h : c.isDigit = true) : isWhitespace c = false := by
  have hrange : 48 ≤ c.toNat ∧ c.toNat ≤ 57 := by
    simpa [Char.isDigit, UInt32.le_iff_toNat_le] using h
  simp only [isWhitespace, List.mem_cons, List.not_mem_nil, or_false, Bool.or_eq_false_iff,
    decide_eq_false_iff_not, Bool.and_eq_false_iff]
  omega

/-- A number is read back from its text. -/
@[simp] theorem parseEpoch_epochText (n : UInt64) : parseEpoch (epochText n) = some n := by
  have hdigits : ∀ c ∈ Nat.toDigits 10 n.toNat, c.isDigit = true := fun c hc =>
    Nat.isDigit_of_mem_toDigits (by decide) (by decide) hc
  have htrim : trim (Nat.toDigits 10 n.toNat) = Nat.toDigits 10 n.toNat :=
    Coordinator.trim_of_forall fun c hc => isWhitespace_of_isDigit (hdigits c hc)
  have hsign : (Nat.toDigits 10 n.toNat).head? ≠ some '+' := by
    intro hhead
    exact absurd (hdigits '+' (List.mem_of_mem_head? hhead)) (by decide)
  have hall : (Nat.toDigits 10 n.toNat).all Char.isDigit = true := List.all_eq_true.mpr hdigits
  have hvalue : Nat.ofDigitChars 10 (Nat.toDigits 10 n.toNat) 0 = n.toNat :=
    Nat.ofDigitChars_toDigits (by decide) (by decide)
  have hlt := n.toNat_lt
  rw [parseEpoch, epochText, Proto3.readUtf8_utf8, Option.bind_some,
    Nat.toString_eq_ofList_toDigits, String.toList_ofList, htrim]
  simp only [parseU64, hsign, if_false, hvalue, hall, Nat.toDigits_ne_nil, ne_eq, not_false_eq_true,
    true_and, hlt, if_true, UInt64.ofNat_toNat]

/-! ## A life -/

/-- A call, a call in which the process dies, and a crash of the machine. -/
inductive EpochEvent where
  | call (accepted : List Nat) (fates : List (Fate String))
  | killed (accepted : List Nat) (fates : List (Fate String))
  | crash (pick : String → Nat) (torn : String → Bytes)

/-- The result of a call, if it returns one, and the disk after it. -/
def callEpoch (d : Disk String) (accepted : List Nat) (fates : List (Fate String)) :
    Except String (Except String UInt64) × Disk String :=
  let out := exec (serve true) (nextEpoch accepted) ⟨d, fates, []⟩
  (out.1, out.2.state)

/-- The epoch that an event hands out, and the disk after it. -/
def EpochEvent.next (d : Disk String) : EpochEvent → Option UInt64 × Disk String
  | .call accepted fates =>
      match callEpoch d accepted fates with
      | (.ok (.ok epoch), d') => (some epoch, d')
      | (_, d') => (none, d')
  | .killed accepted fates => (none, (callEpoch d accepted fates).2)
  | .crash pick torn => (none, d.crash pick torn)

/-- The epochs handed out in a life, and the disk it leaves. -/
def epochRun (d : Disk String) : List EpochEvent → List UInt64 × Disk String
  | [] => ([], d)
  | event :: events =>
      let here := event.next d
      let later := epochRun here.2 events
      (here.1.toList ++ later.1, later.2)

/-! ## One call -/

section Call

variable {P : Option File → Prop} {d : Disk String} {bytes : Bytes} {c : FsCall String}
  {rest : List (FsCall String)}

theorem epochFile_ne : epochFile ≠ epochTmp := by decide

/-- One call of a durable write. -/
theorem runs_writing (h : Writing epochTmp epochFile bytes d (c :: rest))
    (hold : EveryEntry epochFile P d) (hnew : ∀ entry, SyncedFile bytes entry → P entry) :
    Runs (serve true) (EveryEntry epochFile P) (fun _ _ => True) (perform c)
      (fun _ d' => Writing epochTmp epochFile bytes d' rest ∧ EveryEntry epochFile P d') d := by
  have hkeeps := h.keeps epochFile_ne hold hnew
  exact runs_perform hold trivial hkeeps ⟨h.step epochFile_ne, hkeeps⟩

/-- What holds of the epoch file in every version, and of the next epoch, holds wherever a
call stops; and when it returns an epoch, that epoch is in every version. -/
theorem nextEpoch_runs (accepted : List Nat) (hold : EveryEntry epochFile P d)
    (hnew : ∀ current entry, currentEpoch (d.found epochFile) = .ok current →
      current ≠ maxEpoch → SyncedFile (epochText (current + 1)) entry → P entry) :
    Runs (serve true) (EveryEntry epochFile P) (fun _ _ => True) (nextEpoch accepted)
      (fun result d' => ∀ epoch, result = .ok epoch → ∃ current,
        currentEpoch (d.found epochFile) = .ok current ∧ current ≠ maxEpoch ∧
        epoch = current + 1 ∧ EveryEntry epochFile (SyncedFile (epochText epoch)) d') d := by
  unfold nextEpoch
  refine Runs.bind (Q := fun found d' => found = d.found epochFile ∧ d' = d)
    (runs_perform hold trivial hold ⟨rfl, rfl⟩) ?_
  rintro found d' - ⟨rfl, rfl⟩
  cases hcurrent : currentEpoch (d'.found epochFile) with
  | error e => exact runs_pure hold (by simp)
  | ok current =>
      dsimp only
      split_ifs with hmax
      · exact runs_pure hold (by simp)
      have hnew := fun entry => hnew current entry hcurrent hmax
      refine (runs_writing .create hold hnew).bind fun _ d₁ _ h₁ => ?_
      refine Runs.bind (Q := fun _ d₂ => Writing epochTmp epochFile (epochText (current + 1)) d₂
        [.write epochTmp (epochText (current + 1)), .sync epochTmp, .rename epochTmp epochFile,
          .openDir, .syncDir] ∧ EveryEntry epochFile P d₂) ?_ ?_
      · -- each write of a part leaves a temporary file to be written
        refine Runs.forM (fun _ d₂ => Writing epochTmp epochFile (epochText (current + 1)) d₂
          [.write epochTmp (epochText (current + 1)), .sync epochTmp, .rename epochTmp epochFile,
            .openDir, .syncDir] ∧ EveryEntry epochFile P d₂) (fun _ _ h => h.2) ?_ h₁
        rintro front n back d₂ - ⟨hwriting, hold⟩
        cases hwriting with
        | write f hf =>
            have hkeeps : EveryEntry epochFile P
                (effect (.write epochTmp ((epochText (current + 1)).take n)) d₂) :=
              hold.frame (by simp [FsCall.writes, epochFile_ne])
            refine runs_perform hold trivial hkeeps ⟨.write
              { f with bytes := (epochText (current + 1)).take n, synced := false } ?_, hkeeps⟩
            simp only [serve, Disk.enter, hf, Function.update_self, Option.map_some]
      · rintro _ d₂ - ⟨hwriting, hold⟩
        refine (runs_writing hwriting hold hnew).bind fun _ d₃ _ h₃ => ?_
        refine (runs_writing h₃.1 h₃.2 hnew).bind fun _ d₄ _ h₄ => ?_
        refine (runs_writing h₄.1 h₄.2 hnew).bind fun _ d₅ _ h₅ => ?_
        refine (runs_writing h₅.1 h₅.2 hnew).bind fun _ d₆ _ h₆ => ?_
        refine (runs_writing h₆.1 h₆.2 hnew).bind fun _ d₇ _ h₇ => ?_
        refine runs_pure h₇.2 ?_
        intro epoch hepoch
        obtain rfl := Except.ok.inj hepoch
        cases h₇.1 with
        | written hwritten => exact ⟨current, rfl, hmax, rfl, hwritten⟩

/-- A file that does not hold a number, or that holds the last one, gives no epoch. -/
theorem currentEpoch_eq_ok {found : Option Bytes} {current : UInt64}
    (h : currentEpoch found = .ok current) :
    (found = none ∧ current = 0) ∨
    ∃ bytes, found = some bytes ∧ parseEpoch bytes = some current := by
  cases found with
  | none => exact .inl ⟨rfl, (Except.ok.inj h).symm⟩
  | some bytes =>
      right
      refine ⟨bytes, rfl, ?_⟩
      simp only [currentEpoch] at h
      split at h
      · cases h
      · rename_i s hs
        split at h
        · cases h
        · rename_i n hn
          obtain rfl := Except.ok.inj h
          rw [parseEpoch, hs, Option.bind_some, hn]

theorem callEpoch_keeps (accepted : List Nat) (fates : List (Fate String))
    (hold : EveryEntry epochFile P d)
    (hnew : ∀ current entry, currentEpoch (d.found epochFile) = .ok current →
      current ≠ maxEpoch → SyncedFile (epochText (current + 1)) entry → P entry) :
    EveryEntry epochFile P (callEpoch d accepted fates).2 :=
  (Runs.exec (w := (⟨d, fates, []⟩ : World (Disk String) (FsCall String) String))
    (nextEpoch_runs accepted hold hnew)).1

/-- An epoch that is handed out is the next one, and is in every version. -/
theorem callEpoch_eq_ok {accepted : List Nat} {fates : List (Fate String)} {epoch : UInt64}
    (h : (callEpoch d accepted fates).1 = .ok (.ok epoch)) :
    ∃ current, currentEpoch (d.found epochFile) = .ok current ∧ current ≠ maxEpoch ∧
      epoch = current + 1 ∧
      EveryEntry epochFile (SyncedFile (epochText epoch)) (callEpoch d accepted fates).2 := by
  have hruns := nextEpoch_runs (P := fun _ => True) (d := d) accepted (fun _ _ => trivial)
    (fun _ _ _ _ _ => trivial)
  exact (Runs.exec (w := (⟨d, fates, []⟩ : World (Disk String) (FsCall String) String))
    hruns).2.1 _ h epoch rfl

end Call

/-! ## Whole lives -/

section Life

variable {d : Disk String} {least : UInt64}

/-- The entry holds an epoch that is not below one. -/
def HoldsEpoch (least : UInt64) (entry : Option File) : Prop :=
  ∃ n, least ≤ n ∧ SyncedFile (epochText n) entry

theorem lt_succ_of_ne_max {n : UInt64} (h : n ≠ maxEpoch) : n < n + 1 := by
  have hlt := n.toNat_lt
  have hne : n.toNat ≠ 2 ^ 64 - 1 := fun heq => h (UInt64.toNat_inj.mp heq)
  rw [UInt64.lt_iff_toNat_lt, UInt64.toNat_add, UInt64.toNat_one]
  omega

/-- An epoch in every version is what a call reads. -/
theorem currentEpoch_of_holds (h : EveryEntry epochFile (HoldsEpoch least) d) :
    ∃ n, least ≤ n ∧ currentEpoch (d.found epochFile) = .ok n := by
  obtain ⟨n, hle, mode, hentry⟩ := h.live
  refine ⟨n, hle, ?_⟩
  have hfound : d.found epochFile = some (epochText n) := by
    rw [Disk.found, hentry]
    rfl
  have hparse := parseEpoch_epochText n
  rw [hfound, currentEpoch]
  rw [parseEpoch] at hparse
  obtain ⟨s, hs, hn⟩ := Option.bind_eq_some_iff.mp hparse
  simp only [hs, hn]

/-- Once an epoch is in every version, a call leaves it or a later one there. -/
theorem callEpoch_holds (accepted : List Nat) (fates : List (Fate String))
    (h : EveryEntry epochFile (HoldsEpoch least) d) :
    EveryEntry epochFile (HoldsEpoch least) (callEpoch d accepted fates).2 := by
  obtain ⟨n, hle, hcurrent⟩ := currentEpoch_of_holds h
  refine callEpoch_keeps accepted fates h ?_
  intro current entry hcurrent' hmax hentry
  obtain rfl := Except.ok.inj (hcurrent.symm.trans hcurrent')
  exact ⟨n + 1, UInt64.le_trans hle (UInt64.le_of_lt (lt_succ_of_ne_max hmax)), hentry⟩

theorem HoldsEpoch.crash (pick : String → Nat) (torn : String → Bytes)
    (h : EveryEntry epochFile (HoldsEpoch least) d) :
    EveryEntry epochFile (HoldsEpoch least) (d.crash pick torn) := by
  refine EveryEntry.crash h pick torn ?_
  rintro entry bytes ⟨n, hle, hentry⟩
  exact ⟨n, hle, hentry.survives⟩

theorem next_call_eq_some {accepted : List Nat} {fates : List (Fate String)} {epoch : UInt64}
    (h : ((EpochEvent.call accepted fates).next d).1 = some epoch) :
    (callEpoch d accepted fates).1 = .ok (.ok epoch) := by
  simp only [EpochEvent.next] at h
  split at h
  · rename_i n d' hout
    rw [hout]
    exact congrArg (fun n => Except.ok (Except.ok n)) (Option.some.inj h)
  · cases h

theorem next_call_snd (accepted : List Nat) (fates : List (Fate String)) :
    ((EpochEvent.call accepted fates).next d).2 = (callEpoch d accepted fates).2 := by
  simp only [EpochEvent.next]
  split
  · rename_i hout
    rw [hout]
  · rename_i hout
    rw [hout]

/-- An event keeps the epoch or a later one in every version. -/
theorem EpochEvent.next_holds (event : EpochEvent)
    (h : EveryEntry epochFile (HoldsEpoch least) d) :
    EveryEntry epochFile (HoldsEpoch least) (event.next d).2 := by
  cases event with
  | call accepted fates =>
      rw [next_call_snd]
      exact callEpoch_holds accepted fates h
  | killed accepted fates => exact callEpoch_holds accepted fates h
  | crash pick torn => exact HoldsEpoch.crash pick torn h

/-- What an event hands out is in every version after it. -/
theorem EpochEvent.next_eq_some {event : EpochEvent} {epoch : UInt64}
    (h : (event.next d).1 = some epoch) :
    (∃ current, currentEpoch (d.found epochFile) = .ok current ∧ current ≠ maxEpoch ∧
      epoch = current + 1) ∧
    EveryEntry epochFile (HoldsEpoch epoch) (event.next d).2 := by
  cases event with
  | call accepted fates =>
      obtain ⟨current, hcurrent, hmax, hepoch, hevery⟩ := callEpoch_eq_ok (next_call_eq_some h)
      refine ⟨⟨current, hcurrent, hmax, hepoch⟩, ?_⟩
      rw [next_call_snd]
      intro v hv
      exact ⟨epoch, UInt64.le_refl _, hevery v hv⟩
  | killed accepted fates => cases h
  | crash pick torn => cases h

theorem lt_of_next_eq_some {event : EpochEvent} {epoch : UInt64}
    (h : EveryEntry epochFile (HoldsEpoch least) d) (hepoch : (event.next d).1 = some epoch) :
    least < epoch := by
  obtain ⟨⟨current, hcurrent, hmax, rfl⟩, -⟩ := EpochEvent.next_eq_some hepoch
  obtain ⟨n, hle, hcurrent'⟩ := currentEpoch_of_holds h
  obtain rfl := Except.ok.inj (hcurrent'.symm.trans hcurrent)
  exact UInt64.lt_of_le_of_lt hle (lt_succ_of_ne_max hmax)

/-- A life hands out epochs above the one in every version, in increasing order. -/
theorem epochRun_holds (events : List EpochEvent) (h : EveryEntry epochFile (HoldsEpoch least) d) :
    (epochRun d events).1.Pairwise (· < ·) ∧ ∀ epoch ∈ (epochRun d events).1, least < epoch := by
  induction events generalizing d least with
  | nil => exact ⟨.nil, by simp [epochRun]⟩
  | cons event events ih =>
      cases hhere : (event.next d).1 with
      | none =>
          simp only [epochRun, hhere, Option.toList_none, List.nil_append]
          exact ih (event.next_holds h)
      | some epoch =>
          have hlt := lt_of_next_eq_some h hhere
          obtain ⟨hpairwise, habove⟩ := ih (EpochEvent.next_eq_some hhere).2
          simp only [epochRun, hhere, Option.toList_some, List.singleton_append,
            List.pairwise_cons, List.mem_cons]
          refine ⟨⟨habove, hpairwise⟩, ?_⟩
          rintro later (rfl | hlater)
          · exact hlt
          · exact UInt64.lt_trans hlt (habove later hlater)

theorem epochRun_pairwise (d : Disk String) (events : List EpochEvent) :
    (epochRun d events).1.Pairwise (· < ·) := by
  induction events generalizing d with
  | nil => exact .nil
  | cons event events ih =>
      cases hhere : (event.next d).1 with
      | none =>
          simp only [epochRun, hhere, Option.toList_none, List.nil_append]
          exact ih _
      | some epoch =>
          obtain ⟨hpairwise, habove⟩ := epochRun_holds events (EpochEvent.next_eq_some hhere).2
          simp only [epochRun, hhere, Option.toList_some, List.singleton_append,
            List.pairwise_cons]
          exact ⟨habove, hpairwise⟩

/-! ## Whole files -/

/-- The entry is one of those at the start, or a whole epoch. -/
def WholeEpoch (start : Disk String) (entry : Option File) : Prop :=
  (∃ v ∈ start.versions, entry = v epochFile) ∨ ∃ n, SyncedFile (epochText n) entry

/-- No epoch file at the start is without its contents on the disk. -/
def StartsSynced (start : Disk String) : Prop :=
  EveryEntry epochFile (fun entry => ∀ f, entry = some f → f.synced = true) start

theorem WholeEpoch.next {start : Disk String} (hstart : StartsSynced start) (event : EpochEvent)
    (h : EveryEntry epochFile (WholeEpoch start) d) :
    EveryEntry epochFile (WholeEpoch start) (event.next d).2 := by
  have hcall : ∀ accepted fates,
      EveryEntry epochFile (WholeEpoch start) (callEpoch d accepted fates).2 :=
    fun accepted fates => callEpoch_keeps accepted fates h fun current entry _ _ hentry =>
      .inr ⟨current + 1, hentry⟩
  cases event with
  | call accepted fates =>
      rw [next_call_snd]
      exact hcall accepted fates
  | killed accepted fates => exact hcall accepted fates
  | crash pick torn =>
      refine EveryEntry.crash h pick torn ?_
      rintro entry bytes (⟨v, hv, rfl⟩ | ⟨n, hentry⟩)
      · left
        refine ⟨v, hv, ?_⟩
        cases hfile : v epochFile with
        | none => rfl
        | some f => simp [hstart v hv f hfile]
      · exact .inr ⟨n, hentry.survives⟩

theorem epochRun_whole {start : Disk String} (hstart : StartsSynced start)
    (events : List EpochEvent) (h : EveryEntry epochFile (WholeEpoch start) d) :
    EveryEntry epochFile (WholeEpoch start) (epochRun d events).2 := by
  induction events generalizing d with
  | nil => exact h
  | cons event events ih => exact ih (WholeEpoch.next hstart event h)

end Life

/-- In every life on every state directory, with failing system calls, dying processes and
crashes anywhere: the epochs handed out increase; a file that holds no number, or the last
one, gives no epoch; and if the epoch file had its contents on the disk at the start, it is
that file or a whole epoch in every version, also after a crash. -/
theorem epochs_increase (d : Disk String) (events : List EpochEvent) :
    (epochRun d events).1.Pairwise (· < ·) ∧
    (∀ before event after, events = before ++ event :: after →
      ∀ bytes, (epochRun d before).2.found epochFile = some bytes →
      parseEpoch bytes = none ∨ parseEpoch bytes = some maxEpoch →
      (event.next (epochRun d before).2).1 = none) ∧
    (StartsSynced d → EveryEntry epochFile (WholeEpoch d) (epochRun d events).2) := by
  refine ⟨epochRun_pairwise d events, ?_, ?_⟩
  · intro before event after _ bytes hfound hbad
    refine Option.eq_none_iff_forall_ne_some.mpr ?_
    intro epoch hepoch
    obtain ⟨⟨current, hcurrent, hmax, -⟩, -⟩ := EpochEvent.next_eq_some hepoch
    rcases currentEpoch_eq_ok hcurrent with ⟨hnone, -⟩ | ⟨bytes', hfound', hparse⟩
    · rw [hfound] at hnone
      cases hnone
    · obtain rfl := Option.some.inj (hfound.symm.trans hfound')
      rcases hbad with hnone | hlast
      · rw [hparse] at hnone
        cases hnone
      · exact hmax (Option.some.inj (hparse.symm.trans hlast))
  · intro hstart
    exact epochRun_whole hstart events fun v hv => .inl ⟨v, hv, rfl⟩

/-- A first session, one whose directory sync fails before the machine crashes and loses the
rename, and one more. -/
theorem epochs_increase_crash :
    (epochRun ⟨fun _ => none, []⟩
      [.call [] [], .call [0] (List.replicate 7 .answered ++ [.failed "EIO"]),
        .crash (fun _ => 1) (fun _ => []), .call [] []]).1 = [1, 2] ∧
    [1, 2].Pairwise (fun a b : UInt64 => a < b) := by
  have hrun : (epochRun ⟨fun _ => none, []⟩
      [.call [] [], .call [0] (List.replicate 7 .answered ++ [.failed "EIO"]),
        .crash (fun _ => 1) (fun _ => []), .call [] []]).1 = [1, 2] := by
    decide +kernel
  have hincrease := (epochs_increase ⟨fun _ => none, []⟩
    [.call [] [], .call [0] (List.replicate 7 .answered ++ [.failed "EIO"]),
      .crash (fun _ => 1) (fun _ => []), .call [] []]).1
  rw [hrun] at hincrease
  exact ⟨hrun, hincrease⟩

end Agent
end OpenSsmAgent
