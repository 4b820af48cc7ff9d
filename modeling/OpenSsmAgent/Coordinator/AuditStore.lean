import OpenSsmAgent.Coordinator.Service
import OpenSsmAgent.Lib.LockedTransactions

/-!
# The stored audit chain

The two audit logs of {lit}`osa-coordinator/src/audit_log.rs` and the export call of
{lit}`osa-coordinator/src/service.rs`.  Both logs read the head of the chain, seal the
record onto it and store the entry under a lock: the mutex around the vector in memory,
the advisory lock of the transaction in Postgres, which pins its isolation level so that
the head is read after the lock was granted.

Main results:

- Theorem {lit}`verify_chainOf`: the chain of some records verifies, with and without its
  head as the anchor.
- Theorems {lit}`MemoryAuditLog.entries_of_history` and {lit}`PgAuditLog.rows_of_history`:
  both logs hold the chain of the records appended, in the order of the commits.
- Theorem {lit}`PgAuditLog.exportEntries_chainOf`: the export reads the chain back.
-/

open Framing HashChain LockedTransactions

namespace OpenSsmAgent

/-! ## The chain of some records -/

namespace Audit

/-- The entry that seals a record onto a chain. -/
def nextEntry (entries : List AuditEntry) (record : AuditRecord) : AuditEntry :=
  AuditEntry.seal (UInt64.ofNat entries.length) record
    (lastHash AuditEntry.hash genesisPrev entries)

/-- The chain of some records. -/
def chainOf (records : List AuditRecord) : List AuditEntry :=
  records.foldl (fun entries record => entries ++ [nextEntry entries record]) []

@[simp] theorem chainOf_nil : chainOf [] = [] :=
  rfl

theorem chainOf_concat (records : List AuditRecord) (record : AuditRecord) :
    chainOf (records ++ [record]) = chainOf records ++ [nextEntry (chainOf records) record] := by
  simp [chainOf]

@[simp] theorem length_chainOf (records : List AuditRecord) :
    (chainOf records).length = records.length := by
  induction records using List.reverseRecOn with
  | nil => rfl
  | append_singleton records record ih => simp [chainOf_concat, ih]

theorem map_record_chainOf (records : List AuditRecord) :
    (chainOf records).map AuditEntry.record = records := by
  induction records using List.reverseRecOn with
  | nil => rfl
  | append_singleton records record ih =>
      simp [chainOf_concat, ih, nextEntry, AuditEntry.seal]

theorem map_seq_chainOf (records : List AuditRecord) :
    (chainOf records).map AuditEntry.seq = (List.range records.length).map UInt64.ofNat := by
  induction records using List.reverseRecOn with
  | nil => rfl
  | append_singleton records record ih =>
      simp [chainOf_concat, ih, nextEntry, AuditEntry.seal, List.range_succ]

theorem chain_chainOf (records : List AuditRecord) :
    Chain AuditEntry.Links AuditEntry.hash 0 genesisPrev (chainOf records) := by
  induction records using List.reverseRecOn with
  | nil => trivial
  | append_singleton records record ih =>
      rw [chainOf_concat, chain_concat_iff]
      refine ⟨ih, ?_, rfl, rfl⟩
      simp [nextEntry, AuditEntry.seal]

/-- The chain of some records verifies, with and without its head as the anchor. -/
theorem verify_chainOf (records : List AuditRecord) :
    verify (chainOf records) none = .ok () ∧
      ∀ last, (chainOf records).getLast? = some last →
        verify (chainOf records) (some last.hash) = .ok () := by
  refine ⟨(verify_eq_ok_iff _ _).mpr ⟨chain_chainOf records, rfl⟩, fun last hlast => ?_⟩
  rw [verify_eq_ok_iff, checkHead_some_eq_ok_iff]
  exact ⟨chain_chainOf records, last, hlast, rfl⟩

end Audit

namespace Coordinator

open Audit Domain

/-- Reading back what was written, element by element. -/
theorem mapM_map_of_inverse {A B Err : Type} {write : A → B} {read : B → Except Err A}
    (h : ∀ a, read (write a) = .ok a) (l : List A) : (l.map write).mapM read = .ok l := by
  induction l with
  | nil => rfl
  | cons a l ih =>
      rw [List.map_cons, List.mapM_cons, h, ih]
      rfl

/-- How many entries a log can hold: neither a vector nor a table has room for half of the
sequence numbers. -/
structure RowLimit where
  rows : Nat
  rows_le : rows ≤ 2 ^ 63

/-! ## The log in memory -/

namespace MemoryAuditLog

/-- {lit}`MemoryAuditLog::append`: the mutex is the lock, and pushing onto a full vector
panics. -/
def append (limit : RowLimit) : Program AuditRecord AuditEntry Unit Unit where
  pins := true
  plan record entries := .ok (.adds (nextEntry entries record) ())
  clash _ _ := false
  capacity := limit.rows
  refused := ()

/-- {lit}`MemoryAuditLog::export`. -/
def exportEntries (entries : List AuditEntry) : Except PortError (List AuditEntry) :=
  .ok entries

/-- The log in memory holds the chain of the records appended. -/
theorem entries_of_history {limit : RowLimit} {entries : List AuditEntry}
    {returned : List (Return AuditRecord Unit)} (h : History (append limit) entries returned) :
    entries = chainOf (returned.map Return.input) ∧ entries.length ≤ 2 ^ 63 := by
  induction h with
  | nil => simp
  | found _ _ hplan _ => cases hplan
  | @added entries seen returned i record row out _ hsees hplan _ hroom ih =>
      obtain rfl := hsees.2 rfl
      obtain ⟨rfl, -⟩ := Plan.adds.inj (Except.ok.inj hplan)
      have hroom : seen.length < limit.rows := hroom
      refine ⟨?_, ?_⟩
      · rw [List.map_append, List.map_singleton, chainOf_concat, ← ih.1]
      · have := limit.rows_le
        simp only [List.length_append, List.length_singleton]
        omega

end MemoryAuditLog

/-! ## The log in Postgres -/

/-- A row of {lit}`audit_log`. -/
structure AuditRow where
  seq : Int64
  tsUnix : Int64
  subject : Str
  kind : Str
  target : Str
  runAs : Str
  decision : String
  prevHash : Bytes
  hash : Bytes
deriving DecidableEq

/-- The row an entry is stored in. -/
def AuditRow.ofEntry (e : AuditEntry) : AuditRow where
  seq := e.seq.toInt64
  tsUnix := e.record.tsUnix
  subject := e.record.subject
  kind := e.record.kind
  target := e.record.target
  runAs := e.record.runAs
  decision := e.record.decision.asStr.text
  prevHash := e.prevHash.bytes
  hash := e.hash.bytes

/-- {lit}`hash_from_row`. -/
def hashFromRow (bytes : Bytes) : Except PortError Hash :=
  if h : bytes.length = 32 then .ok ⟨bytes, h⟩
  else .error (.backend "audit row has a malformed hash")

@[simp] theorem hashFromRow_bytes (hash : Hash) : hashFromRow hash.bytes = .ok hash :=
  dif_pos hash.length_eq

/-- The entry in a row. -/
def AuditRow.toEntry (row : AuditRow) : Except PortError AuditEntry :=
  match Decision.parse row.decision with
  | none => .error (.backend "audit row has an unknown decision")
  | some decision =>
      match hashFromRow row.prevHash with
      | .error e => .error e
      | .ok prevHash =>
          match hashFromRow row.hash with
          | .error e => .error e
          | .ok hash =>
              .ok ⟨row.seq.toUInt64,
                ⟨row.tsUnix, row.subject, row.kind, row.target, row.runAs, decision⟩,
                prevHash, hash⟩

@[simp] theorem AuditRow.toEntry_ofEntry (e : AuditEntry) :
    (AuditRow.ofEntry e).toEntry = .ok e := by
  simp [AuditRow.toEntry, AuditRow.ofEntry]

namespace PgAuditLog

/-- What {lit}`PgAuditLog::append` decides between its read of the head and its insert. -/
def appendPlan (record : AuditRecord) (rows : List AuditRow) :
    Except PortError (Plan AuditRow Unit) :=
  match (orderBy (fun row => -row.seq.toInt) rows).head? with
  | some row =>
      match hashFromRow row.hash with
      | .error e => .error e
      | .ok prev =>
          .ok (.adds (.ofEntry (AuditEntry.seal (row.seq.toUInt64 + 1) record prev)) ())
  | none => .ok (.adds (.ofEntry (AuditEntry.seal 0 record genesisPrev)) ())

theorem appendPlan_ne_found (record : AuditRecord) (rows : List AuditRow) (out : Unit) :
    appendPlan record rows ≠ .ok (.found out) := by
  unfold appendPlan
  split
  · split <;> simp
  · simp

/-- {lit}`PgAuditLog::append`: the sequence number is the primary key. -/
def append (limit : RowLimit) (refused : String) :
    Program AuditRecord AuditRow Unit PortError where
  pins := true
  plan := appendPlan
  clash row row' := row.seq = row'.seq
  capacity := limit.rows
  refused := .backend refused

/-- {lit}`PgAuditLog::export` of the committed rows. -/
def exportEntries (rows : List AuditRow) : Except PortError (List AuditEntry) :=
  (orderBy (fun row => row.seq.toInt) rows).mapM AuditRow.toEntry

/-- The rows of a chain are numbered from zero. -/
theorem map_seq_rows {records : List AuditRecord} (hlen : records.length ≤ 2 ^ 63) :
    ((chainOf records).map AuditRow.ofEntry).map (fun row => row.seq.toInt) =
      (List.range records.length).map Int.ofNat := by
  have hseq : ((chainOf records).map AuditRow.ofEntry).map (fun row => row.seq.toInt) =
      ((chainOf records).map AuditEntry.seq).map (fun seq => seq.toInt64.toInt) := by
    simp [AuditRow.ofEntry]
  rw [hseq, map_seq_chainOf, List.map_map]
  refine List.map_congr_left fun i hi => ?_
  have hi : i < 2 ^ 63 := by
    have := List.mem_range.mp hi
    omega
  rw [Function.comp_apply, UInt64.toInt64_ofNat', Int64.toInt_ofNat_of_lt hi]
  rfl

theorem rows_increasing {records : List AuditRecord} (hlen : records.length ≤ 2 ^ 63) :
    ((chainOf records).map AuditRow.ofEntry).Pairwise
      fun row row' => row.seq.toInt < row'.seq.toInt := by
  rw [← List.pairwise_map (f := fun row : AuditRow => row.seq.toInt), map_seq_rows hlen,
    List.pairwise_map]
  exact List.pairwise_lt_range.imp fun h => Int.ofNat_lt.mpr h

/-- The head that is read is the last entry of the chain. -/
theorem head_rows {records : List AuditRecord} (hlen : records.length ≤ 2 ^ 63) :
    (orderBy (fun row => -row.seq.toInt) ((chainOf records).map AuditRow.ofEntry)).head? =
      (chainOf records).getLast?.map AuditRow.ofEntry := by
  have hsorted : ((chainOf records).map AuditRow.ofEntry).reverse.Pairwise
      fun row row' => -row.seq.toInt < -row'.seq.toInt := by
    rw [List.pairwise_reverse]
    exact (rows_increasing hlen).imp fun h => neg_lt_neg h
  rw [orderBy_eq (List.reverse_perm _) hsorted, List.head?_reverse, List.getLast?_map]

/-- On the rows of a chain an append adds the row of the next entry. -/
theorem appendPlan_rows {records : List AuditRecord} (hlen : records.length < 2 ^ 63)
    (record : AuditRecord) :
    appendPlan record ((chainOf records).map AuditRow.ofEntry) =
      .ok (.adds (.ofEntry (nextEntry (chainOf records) record)) ()) := by
  unfold appendPlan
  rw [head_rows hlen.le]
  rcases List.eq_nil_or_concat records with rfl | ⟨front, last, rfl⟩
  · rfl
  · rw [List.concat_eq_append, chainOf_concat, List.getLast?_concat, Option.map_some]
    simp [AuditRow.ofEntry, nextEntry, AuditEntry.seal, lastHash]

/-- The log in Postgres holds the chain of the records appended. -/
theorem rows_of_history {limit : RowLimit} {refused : String} {rows : List AuditRow}
    {returned : List (Return AuditRecord Unit)}
    (h : History (append limit refused) rows returned) :
    rows = (chainOf (returned.map Return.input)).map AuditRow.ofEntry ∧
      rows.length ≤ 2 ^ 63 := by
  induction h with
  | nil => simp
  | @found rows seen returned i record out _ _ hplan _ =>
      exact absurd hplan (appendPlan_ne_found record seen out)
  | @added rows seen returned i record row out _ hsees hplan _ hroom ih =>
      obtain rfl := hsees.2 rfl
      have hroom : seen.length < limit.rows := hroom
      have hlen : (returned.map Return.input).length < 2 ^ 63 := by
        have := limit.rows_le
        have := congrArg List.length ih.1
        simp only [List.length_map, length_chainOf] at this ⊢
        omega
      have hplan : appendPlan record seen = .ok (.adds row out) := hplan
      rw [ih.1, appendPlan_rows hlen] at hplan
      obtain ⟨rfl, -⟩ := Plan.adds.inj (Except.ok.inj hplan)
      refine ⟨?_, ?_⟩
      · rw [List.map_append, List.map_singleton, chainOf_concat, List.map_append,
          List.map_singleton, ← ih.1]
      · have := limit.rows_le
        simp only [List.length_append, List.length_singleton]
        omega

/-- The export reads the chain back. -/
theorem exportEntries_chainOf {records : List AuditRecord} (hlen : records.length ≤ 2 ^ 63) :
    exportEntries ((chainOf records).map AuditRow.ofEntry) = .ok (chainOf records) := by
  rw [exportEntries, orderBy_eq (List.Perm.refl _) (rows_increasing hlen)]
  exact mapM_map_of_inverse AuditRow.toEntry_ofEntry _

end PgAuditLog

/-! ## The export call -/

/-- The message {lit}`osa_proto::v1::AuditEntry`. -/
structure AuditEntryMessage where
  seq : UInt64
  tsUnix : Int64
  subject : Str
  kind : Str
  target : Str
  runAs : Str
  decision : Str
  prevHash : Blob
  hash : Blob
deriving DecidableEq

/-- {lit}`to_vec` of a hash. -/
def hashToVec (hash : Hash) : Blob :=
  ⟨hash.bytes, by rw [hash.length_eq]; decide⟩

/-- The message an entry is exported in. -/
def AuditEntryMessage.ofEntry (e : AuditEntry) : AuditEntryMessage where
  seq := e.seq
  tsUnix := e.record.tsUnix
  subject := e.record.subject
  kind := e.record.kind
  target := e.record.target
  runAs := e.record.runAs
  decision := e.record.decision.asStr
  prevHash := hashToVec e.prevHash
  hash := hashToVec e.hash

/-- {lit}`export_audit`, given the answer of the log. -/
def exportAudit (exported : Except PortError (List AuditEntry)) :
    Except Status (List AuditEntryMessage) :=
  match exported with
  | .error _ => .error ⟨.internal, "audit log unavailable"⟩
  | .ok entries => .ok (entries.map AuditEntryMessage.ofEntry)

end Coordinator
end OpenSsmAgent
