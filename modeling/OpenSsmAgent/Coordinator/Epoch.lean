import OpenSsmAgent.Lib.GuardedTables
import OpenSsmAgent.Lib.Fallible
import OpenSsmAgent.Coordinator.Intake

/-!
# The session-epoch store

The two adapters of {lit}`osa-coordinator/src/epoch.rs`: the in-memory registry and
the Postgres table, whose conditional UPSERT may run or not and whose answer may be
lost.  Both are high-water marks.

Main results:

- Theorems {lit}`Epochs.admit_of_takes` and {lit}`Epochs.admit_of_not_takes`: an
  admit raises the mark of its host to an epoch above it, or leaves the store alone.
- Theorem {lit}`handleClientHello_of_admitCall_none`: a hello that does not reach
  the store changes nothing.
-/

open Framing SymbolicCrypto Fallible

namespace OpenSsmAgent
namespace Coordinator

open Seal Wire Domain Hs Proto

/-! ## The adapters -/

/-- {lit}`EpochRegistry::admit`. -/
def EpochRegistry.admitEpoch (marks : Table HostId UInt64) (host : HostId) (epoch : UInt64) :
    Except PortError Bool × Table HostId UInt64 :=
  match marks.lookup host with
  | some high => if epoch ≤ high then (.ok false, marks) else (.ok true, marks.put host epoch)
  | none => (.ok true, marks.put host epoch)

/-- {lit}`to_bigint`. -/
def toBigint (epoch : UInt64) : Except PortError Int :=
  if epoch.toNat < 2 ^ 63 then .ok epoch.toNat
  else .error (.backend "session epoch out of range")

/-- The conditional UPSERT: the rows affected and the table after it. -/
def PgEpochs.upsert (rows : Table HostId Int) (host : HostId) (epoch : Int) :
    Nat × Table HostId Int :=
  match rows.lookup host with
  | none => (1, rows.put host epoch)
  | some stored => if epoch > stored then (1, rows.put host epoch) else (0, rows)

/-- {lit}`PgEpochs::admit`. -/
def PgEpochs.admitEpoch (fate : CallFate) (rows : Table HostId Int) (host : HostId)
    (epoch : UInt64) :
    Except PortError Bool × Table HostId Int :=
  match toBigint epoch with
  | .error e => (.error e, rows)
  | .ok n =>
      match fate with
      | .answered => (.ok ((upsert rows host n).1 = 1), (upsert rows host n).2)
      | .lost message => (.error (.backend message), (upsert rows host n).2)
      | .failed message => (.error (.backend message), rows)

/-- The registry is a high-water store. -/
theorem EpochRegistry.admitEpoch_eq (marks : Table HostId UInt64) (host : HostId) (epoch : UInt64) :
    EpochRegistry.admitEpoch marks host epoch =
      (.ok (HighWater.raise marks host epoch).1, (HighWater.raise marks host epoch).2) := by
  unfold EpochRegistry.admitEpoch HighWater.raise
  cases marks.lookup host with
  | none => rfl
  | some high =>
      dsimp only
      split <;> rfl

/-- The table is a high-water store. -/
theorem PgEpochs.upsert_eq (rows : Table HostId Int) (host : HostId) (epoch : Int) :
    upsert rows host epoch =
      (if (HighWater.raise rows host epoch).1 then 1 else 0,
        (HighWater.raise rows host epoch).2) := by
  unfold upsert HighWater.raise
  cases rows.lookup host with
  | none => rfl
  | some stored =>
      dsimp only
      by_cases hle : epoch ≤ stored
      · simp [hle]
      · simp [hle, not_le.mp hle]

/-! ## Either adapter -/

/-- The epoch store of a deployment. -/
inductive Epochs where
  | registry (marks : Table HostId UInt64)
  | pg (rows : Table HostId Int)

namespace Epochs

/-- {lit}`Epochs::admit`: only the database can fail. -/
def admitEpoch (fate : CallFate) (store : Epochs) (host : HostId) (epoch : UInt64) :
    Except PortError Bool × Epochs :=
  match store with
  | registry marks =>
      ((EpochRegistry.admitEpoch marks host epoch).1,
        registry (EpochRegistry.admitEpoch marks host epoch).2)
  | pg rows =>
      ((PgEpochs.admitEpoch fate rows host epoch).1,
        pg (PgEpochs.admitEpoch fate rows host epoch).2)

/-- The high-water mark of a host. -/
def mark (store : Epochs) (host : HostId) : Option Int :=
  match store with
  | registry marks => (marks.lookup host).map (fun m => (m.toNat : Int))
  | pg rows => rows.lookup host

/-- The store takes an epoch: it lies above the mark and, with the database, the
statement can be bound and runs. -/
def Takes (store : Epochs) (fate : CallFate) (host : HostId) (epoch : UInt64) : Prop :=
  match store with
  | registry marks => HighWater.Above marks host epoch
  | pg rows => epoch.toNat < 2 ^ 63 ∧ fate.ran = true ∧ HighWater.Above rows host epoch.toNat

variable {store : Epochs} {fate : CallFate} {host : HostId} {epoch : UInt64}

/-- An epoch that is taken lies above the mark. -/
theorem Takes.above (h : store.Takes fate host epoch) :
    ∀ m, store.mark host = some m → m < epoch.toNat := by
  intro m hm
  cases store with
  | registry marks =>
      obtain ⟨high, hget, rfl⟩ := Option.map_eq_some_iff.mp hm
      exact_mod_cast UInt64.lt_iff_toNat_lt.mp (h high hget)
  | pg rows => exact h.2.2 m hm

/-- What is not taken leaves the store alone. -/
theorem admit_of_not_takes (h : ¬ store.Takes fate host epoch) :
    (store.admitEpoch fate host epoch).2 = store ∧
    (store.admitEpoch fate host epoch).1 ≠ .ok true := by
  cases store with
  | registry marks =>
      have hadmit := HighWater.raise_of_not_above h
      simp [admitEpoch, EpochRegistry.admitEpoch_eq, hadmit]
  | pg rows =>
      simp only [admitEpoch, PgEpochs.admitEpoch, toBigint]
      by_cases hfits : epoch.toNat < 2 ^ 63
      · rw [if_pos hfits]
        cases fate with
        | failed message => simp
        | answered =>
            have hadmit := HighWater.raise_of_not_above fun habove => h ⟨hfits, rfl, habove⟩
            simp [PgEpochs.upsert_eq, hadmit]
        | lost message =>
            have hadmit := HighWater.raise_of_not_above fun habove => h ⟨hfits, rfl, habove⟩
            simp [PgEpochs.upsert_eq, hadmit]
      · rw [if_neg hfits]
        simp

/-- What is taken becomes the mark of its host and of no other. -/
theorem admit_of_takes (h : store.Takes fate host epoch) (other : HostId) :
    (store.admitEpoch fate host epoch).2.mark other =
      if other = host then some (epoch.toNat : Int) else store.mark other := by
  cases store with
  | registry marks =>
      have hadmit := HighWater.raise_of_above h
      simp only [admitEpoch, EpochRegistry.admitEpoch_eq, hadmit, mark, Table.lookup_put]
      split <;> rfl
  | pg rows =>
      obtain ⟨hfits, hran, habove⟩ := h
      have hadmit := HighWater.raise_of_above habove
      simp only [admitEpoch, PgEpochs.admitEpoch, toBigint, if_pos hfits]
      cases fate with
      | failed message => cases hran
      | answered => simp only [PgEpochs.upsert_eq, hadmit, mark, Table.lookup_put]
      | lost message => simp only [PgEpochs.upsert_eq, hadmit, mark, Table.lookup_put]

/-- An admit leaves the marks of all other hosts alone. -/
theorem mark_admit_ne (store : Epochs) (fate : CallFate) (epoch : UInt64) {other : HostId}
    (h : other ≠ host) : (store.admitEpoch fate host epoch).2.mark other = store.mark other := by
  by_cases htakes : store.Takes fate host epoch
  · rw [admit_of_takes htakes, if_neg h]
  · rw [(admit_of_not_takes htakes).1]

end Epochs

/-! ## A turn with its store -/

/-- The step environment in which admits are answered by a store. -/
def StepEnv.withEpochs (env : StepEnv) (fate : CallFate) (store : Epochs) : StepEnv :=
  { env with
    admitEpoch := fun host epoch => (store.admitEpoch fate host epoch).1.mapError fun _ => () }

/-- The admit that {lit}`handle_client_hello` gets to ask for. -/
def admitCall {fromDer : FromDer} (ca : EmbeddedCa fromDer) (env : StepEnv) (b : Bridge)
    (tenant : String) (payload : Payload) : Option (HostId × UInt64) :=
  match checkHello ca env.utcNow tenant payload b.sessions with
  | none => none
  | some c =>
      match env.isRevoked c.host.hostId, c.respond ca env.eph with
      | .ok false, .ok _ => some (c.host.hostId, c.hello.epoch)
      | _, _ => none

/-- A hello that does not reach the store changes nothing, whatever the store
would answer. -/
theorem handleClientHello_of_admitCall_none {fromDer : FromDer} {ca : EmbeddedCa fromDer}
    {env : StepEnv} {b : Bridge} {tenant : String} {payload : Payload}
    (h : admitCall ca env b tenant payload = none) (admitEpoch : HostId → UInt64 → StoreAnswer) :
    handleClientHello ca { env with admitEpoch := admitEpoch } b tenant payload =
      (b, [], none) := by
  rcases handleClientHello_cases ca { env with admitEpoch := admitEpoch } b tenant payload with
    hignored | ⟨c, resp, hadmitted, -⟩
  · exact hignored
  · have hcheck : checkHello ca env.utcNow tenant payload b.sessions = some c := hadmitted.checked
    have hrevoked : env.isRevoked c.host.hostId = .ok false := hadmitted.unrevoked
    have hrespond : c.respond ca env.eph = .ok resp := hadmitted.responded
    simp [admitCall, hcheck, hrevoked, hrespond] at h

/-- The admit a turn asks for. -/
def BridgeEvent.admitCall {fromDer : FromDer} (cfg : BridgeConfig fromDer) (env : StepEnv)
    (b : Bridge) : BridgeEvent → Option (HostId × UInt64)
  | .message topic payload =>
      match Topics.tenantFromHeartbeat topic, Topics.tenantFromHsUp topic with
      | none, some tenant => Coordinator.admitCall cfg.ca env b tenant payload
      | _, _ => none
  | _ => none

/-- One turn of the bridge together with its epoch store. -/
def stepStored {fromDer : FromDer} (cfg : BridgeConfig fromDer) (env : StepEnv) (fate : CallFate)
    (b : Bridge) (store : Epochs) (ev : BridgeEvent) : (Bridge × List Effect) × Epochs :=
  (step cfg (env.withEpochs fate store) b ev,
    match ev.admitCall cfg env b with
    | none => store
    | some (host, epoch) => (store.admitEpoch fate host epoch).2)

end Coordinator
end OpenSsmAgent
