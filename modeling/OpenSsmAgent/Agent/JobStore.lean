import OpenSsmAgent.Agent.Report
import OpenSsmAgent.Core.Wire
import OpenSsmAgent.Lib.CrashStore

/-!
# Recorded jobs

The job store of {lit}`osa-agent/src/jobstore.rs`: one file for each job, named by the
hash of its id, that holds a start marker or the outcome of the job.  A record is
written durably, so that a marker that was set before a process was spawned is found
after a crash.

Main results:

- Theorem {lit}`parseRecord_doneRecord`: a recorded outcome is read back.
- Theorem {lit}`recordName_injOn`: jobs have records of their own.
- Theorem {lit}`live_prune`: pruning removes stale records and temporary files only.
-/

open Framing CrashStore Sha256

namespace OpenSsmAgent
namespace Agent

open Wire Proto

/-- {lit}`JobState`. -/
inductive JobState where
  | started
  | finished (outcome : FinalOutcome)
deriving DecidableEq

/-- {lit}`TAG_STARTED`. -/
def tagStarted : UInt8 := 0

/-- {lit}`TAG_DONE`. -/
def tagDone : UInt8 := 1

/-- {lit}`path`: the name of a record. -/
def recordName (jobId : Str) : String :=
  sha256Hex jobId.bytes

/-- The temporary file of a record, which carries the id of the process. -/
def tmpName (pid : String) (name : String) : String :=
  name ++ ".tmp." ++ pid

/-- The record of a started job. -/
def startedRecord : Bytes :=
  [tagStarted]

/-- The record of a job with an outcome. -/
def doneRecord (outcome : FinalOutcome) : Bytes :=
  tagDone :: outcome.toProto.encode

/-- How {lit}`lookup` reads a record: whatever is not a well-formed outcome counts as
started. -/
def parseRecord : Bytes → JobState
  | [] => .started
  | tag :: rest =>
      if tag = tagDone then
        match (JobOutcome.decode rest).bind FinalOutcome.ofProto with
        | some outcome => .finished outcome
        | none => .started
      else .started

/-- {lit}`lookup` on readable files: the recorded state, if there is a record. -/
def lookup (d : Disk String) (jobId : Str) : Option JobState :=
  (d.found (recordName jobId)).map parseRecord

/-- The calls of {lit}`mark_started`. -/
def markStarted (pid : String) (jobId : Str) : List (FsCall String) :=
  durableWrite (tmpName pid (recordName jobId)) (recordName jobId) startedRecord

/-- The calls of {lit}`record_done`. -/
def recordDone (pid : String) (jobId : Str) (outcome : FinalOutcome) : List (FsCall String) :=
  durableWrite (tmpName pid (recordName jobId)) (recordName jobId) (doneRecord outcome)

/-- Whether {lit}`prune` takes a name for a temporary file. -/
def isTmp (name : String) : Bool :=
  '.' ∈ name.toList

/-- {lit}`prune`: stale records and temporary files go, as far as they can be
removed. -/
def prune (stale removable : String → Bool) (d : Disk String) : Disk String :=
  d.enter fun name => if (isTmp name || stale name) && removable name then none else d.live name

/-! ## Records -/

@[simp] theorem parseRecord_startedRecord : parseRecord startedRecord = .started := rfl

/-- A recorded outcome is read back. -/
@[simp] theorem parseRecord_doneRecord (outcome : FinalOutcome) :
    parseRecord (doneRecord outcome) = .finished outcome := by
  simp [parseRecord, doneRecord]

theorem dot_notMem_recordName (jobId : Str) : '.' ∉ (recordName jobId).toList := by
  simp only [recordName, sha256Hex, String.toList_ofList, Domain.hexChars, List.mem_flatMap,
    List.mem_cons, List.not_mem_nil, or_false, not_exists, not_and, not_or]
  intro b _
  exact ⟨fun h => Domain.hexChar_ne _ rfl h.symm, fun h => Domain.hexChar_ne _ rfl h.symm⟩

theorem isTmp_recordName (jobId : Str) : isTmp (recordName jobId) = false := by
  simp [isTmp, dot_notMem_recordName]

/-- A record is no temporary file. -/
theorem recordName_ne_tmpName (jobId jobId' : Str) (pid : String) :
    recordName jobId ≠ tmpName pid (recordName jobId') := by
  intro h
  have hdot : '.' ∈ (tmpName pid (recordName jobId')).toList := by
    simp [tmpName, String.toList_append]
  exact dot_notMem_recordName jobId (h ▸ hdot)

theorem tmpName_injective (pid : String) : Function.Injective (tmpName pid) := by
  intro a b h
  have hlist := congrArg String.toList h
  simp only [tmpName, String.toList_append, List.append_assoc] at hlist
  exact String.toList_injective (List.append_left_injective _ hlist)

/-- Jobs whose ids do not collide have records of their own. -/
theorem recordName_injOn {ids : Set Str} (h : CollisionFreeOn (Str.bytes '' ids)) :
    Set.InjOn recordName ids := by
  intro i hi j hj heq
  exact Str.bytes_injective
    (sha256Hex_injOn h (Set.mem_image_of_mem _ hi) (Set.mem_image_of_mem _ hj) heq)

/-- Pruning keeps a record that is not stale, and brings none back. -/
theorem live_prune {stale removable : String → Bool} {d : Disk String} {jobId : Str}
    (h : stale (recordName jobId) = false) :
    (prune stale removable d).live (recordName jobId) = d.live (recordName jobId) := by
  simp [prune, Disk.enter, isTmp_recordName, h]

end Agent
end OpenSsmAgent
