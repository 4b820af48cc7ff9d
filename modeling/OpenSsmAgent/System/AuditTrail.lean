import OpenSsmAgent.Coordinator.AuditStore

/-!
# The audit trail, from the appends to the verifier

The command line rebuilds the exported entries, {lit}`to_audit_entry` of
{lit}`osa-cli/src/main.rs`, and verifies them.  This module follows a chain all the way:
from the interleaved appends of any number of replicas over the export call to the entries
that the command line hands to the verifier.

Main results:

- Theorem {lit}`Cli.toAuditEntry_ofEntry`: the command line rebuilds every exported entry.
- Theorem {lit}`Trail.ofChain`: what follows for a log that holds the chain of its records.
- Theorem {lit}`audit_never_forks`: both logs hold one chain of exactly the records whose
  append succeeded, and it arrives and verifies.
-/

open Framing LockedTransactions

namespace OpenSsmAgent

open Audit Coordinator

namespace Cli

/-- The closure {lit}`hash32` of {lit}`to_audit_entry`. -/
def hash32 (seq : UInt64) (field : String) (bytes : Blob) : Except String Hash :=
  if h : bytes.bytes.length = 32 then .ok ⟨bytes.bytes, h⟩
  else .error ("audit entry " ++ toString seq ++ " has a malformed " ++ field ++ " hash")

/-- {lit}`to_audit_entry`. -/
def toAuditEntry (e : AuditEntryMessage) : Except String AuditEntry :=
  match Decision.parse e.decision.text with
  | none => .error ("audit entry " ++ toString e.seq ++ " has an unknown decision")
  | some decision =>
      match hash32 e.seq "prev_hash" e.prevHash with
      | .error message => .error message
      | .ok prevHash =>
          match hash32 e.seq "hash" e.hash with
          | .error message => .error message
          | .ok hash =>
              .ok ⟨e.seq, ⟨e.tsUnix, e.subject, e.kind, e.target, e.runAs, decision⟩,
                prevHash, hash⟩

@[simp] theorem hash32_hashToVec (seq : UInt64) (field : String) (hash : Hash) :
    hash32 seq field (hashToVec hash) = .ok hash :=
  dif_pos hash.length_eq

/-- The command line rebuilds every exported entry. -/
theorem toAuditEntry_ofEntry (e : AuditEntry) : toAuditEntry (.ofEntry e) = .ok e := by
  simp [toAuditEntry, AuditEntryMessage.ofEntry]

end Cli

/-- A log with the given answer to an export holds one chain of the given records, which
arrives at the command line and verifies there. -/
structure Trail (records : List AuditRecord) (entries : List AuditEntry)
    (exported : Except PortError (List AuditEntry)) : Prop where
  exported_eq : exported = .ok entries
  arrives : ∃ messages, exportAudit exported = .ok messages ∧
    messages.mapM Cli.toAuditEntry = .ok entries
  records_eq : entries.map AuditEntry.record = records
  numbered : entries.map (fun e => e.seq.toNat) = List.range records.length
  verifies : verify entries none = .ok ()
  anchored : ∀ last, entries.getLast? = some last → verify entries (some last.hash) = .ok ()

theorem seq_toNat_chainOf {records : List AuditRecord} (hlen : records.length ≤ 2 ^ 63) :
    (chainOf records).map (fun e => e.seq.toNat) = List.range records.length := by
  have hseq : (chainOf records).map (fun e => e.seq.toNat) =
      ((chainOf records).map AuditEntry.seq).map UInt64.toNat := by simp
  rw [hseq, map_seq_chainOf, List.map_map]
  conv_rhs => rw [← List.map_id (List.range records.length)]
  refine List.map_congr_left fun i hi => ?_
  have hi : i < 2 ^ 64 := by
    have := List.mem_range.mp hi
    omega
  exact UInt64.toNat_ofNat_of_lt' hi

/-- A log that exports the chain of its records. -/
theorem Trail.ofChain {records : List AuditRecord} (hlen : records.length ≤ 2 ^ 63) :
    Trail records (chainOf records) (.ok (chainOf records)) where
  exported_eq := rfl
  arrives := ⟨_, rfl, mapM_map_of_inverse Cli.toAuditEntry_ofEntry _⟩
  records_eq := map_record_chainOf records
  numbered := seq_toNat_chainOf hlen
  verifies := (verify_chainOf records).1
  anchored := (verify_chainOf records).2

/-- The records whose append succeeded, in the order of the commits. -/
def appended {Row Err : Type} (w : World AuditRecord Row Unit Err) : List AuditRecord :=
  w.returned.map Return.input

/-- Exactly the appends that succeeded are listed, each once. -/
def ListsSuccesses {Row Err : Type} (w : World AuditRecord Row Unit Err) : Prop :=
  (∀ (i : Nat) (record : AuditRecord), ⟨i, record, ()⟩ ∈ w.returned ↔
      ∃ tx : Tx AuditRecord Row Unit Err,
        w.txs[i]? = some tx ∧ tx.input = record ∧ tx.phase = .committed ()) ∧
    (w.returned.map Return.call).Nodup

theorem listsSuccesses_run {Row Err : Type} (p : Program AuditRecord Row Unit Err)
    (events : List (Event AuditRecord Err)) : ListsSuccesses (World.run p events) :=
  ⟨fun i record => mem_returned_run_iff p events i record (), (inv_run p events).once⟩

/-- The audit chain never forks and always verifies: for every interleaving of appends,
each possibly failing at any statement, the table and the vector hold one chain of exactly
the records whose append succeeded in the order of the commits, and the entries that the
command line rebuilds from an export are that chain and verify. -/
theorem audit_never_forks (limit vectorLimit : RowLimit) (refused : String)
    (events : List (Event AuditRecord PortError)) (calls : List (Event AuditRecord Unit)) :
    (let w := World.run (PgAuditLog.append limit refused) events;
      ListsSuccesses w ∧ ∃ entries, w.rows = entries.map AuditRow.ofEntry ∧
        Trail (appended w) entries (PgAuditLog.exportEntries w.rows)) ∧
      (let w := World.run (MemoryAuditLog.append vectorLimit) calls;
        ListsSuccesses w ∧ Trail (appended w) w.rows (MemoryAuditLog.exportEntries w.rows)) := by
  constructor
  · intro w
    obtain ⟨hrows, hlen⟩ := PgAuditLog.rows_of_history (history_run _ events)
    have hrows : w.rows = (chainOf (appended w)).map AuditRow.ofEntry := hrows
    have hlen : (appended w).length ≤ 2 ^ 63 := by
      have hlen : w.rows.length ≤ 2 ^ 63 := hlen
      simpa [hrows] using hlen
    refine ⟨listsSuccesses_run _ events, chainOf (appended w), hrows, ?_⟩
    rw [hrows, PgAuditLog.exportEntries_chainOf hlen]
    exact Trail.ofChain hlen
  · intro w
    obtain ⟨hrows, hlen⟩ := MemoryAuditLog.entries_of_history (history_run _ calls)
    have hrows : w.rows = chainOf (appended w) := hrows
    have hlen : (appended w).length ≤ 2 ^ 63 := by
      have hlen : w.rows.length ≤ 2 ^ 63 := hlen
      simpa [hrows] using hlen
    refine ⟨listsSuccesses_run _ calls, ?_⟩
    rw [hrows]
    exact Trail.ofChain hlen

/-- Two replicas append under a cluster default that fixes snapshots, the second waiting for
the lock of the first, and a third append fails after its insert. -/
def sampleAppends : List (Event AuditRecord PortError) :=
  [.start (sampleRecord .allow) .fixed, .start (sampleRecord .deny) .fixed, .step 0, .step 1,
    .step 0, .step 1, .step 0, .step 1, .step 0, .step 0, .step 0, .step 1,
    .start (sampleRecord .allow) .fixed, .step 1, .step 1, .step 1,
    .step 2, .step 2, .step 2, .step 2, .step 2, .fail 2 (.backend "connection closed")]

def sampleLimit : RowLimit := ⟨1000, by decide⟩

/-- The two records that were committed arrive and verify. -/
theorem audit_never_forks_sample :
    ∃ entries, Trail [sampleRecord .allow, sampleRecord .deny] entries
      (PgAuditLog.exportEntries
        (World.run (PgAuditLog.append sampleLimit "duplicate key") sampleAppends).rows) := by
  have happended : appended (World.run (PgAuditLog.append sampleLimit "duplicate key")
      sampleAppends) = [sampleRecord .allow, sampleRecord .deny] := by decide +kernel
  obtain ⟨-, entries, -, htrail⟩ := (audit_never_forks sampleLimit sampleLimit "duplicate key"
    sampleAppends []).1
  exact ⟨entries, happended ▸ htrail⟩

end OpenSsmAgent
