import OpenSsmAgent.Coordinator.Issuance
import OpenSsmAgent.Lib.LockedTransactions

/-!
# The certificate authority shared by the replicas

Loading or generating the authority of {lit}`osa-coordinator/src/ca.rs`: each replica runs
one transaction under an advisory lock that reads the stored certificate and key, or
generates and stores them.  The transaction does not pin its isolation level, so a replica
may decide on a snapshot taken before the lock was granted; the table's singleton index
then refuses its row.  The readers of keys and PEM texts are parameters, and what the key
generator and the certificate writer return are arguments of the call.

Main results:

- Theorem {lit}`fromMaterial_eq_ok`: what a rebuilt authority was built from.
- Theorem {lit}`one_row_of_history`: the table holds one row at most, and every answer is
  rebuilt from it.
- Theorem {lit}`shared_ca`: the same for every interleaving of the replicas' statements,
  with the row never changing.
-/

open Framing SymbolicCrypto LockedTransactions

namespace OpenSsmAgent
namespace Coordinator

open Domain Hs

/-! ## Stored material -/

/-- {lit}`CaMaterial`. -/
structure CaMaterial where
  certPem : String
  keyPem : String
deriving DecidableEq

/-- The library readers that {lit}`from_material` and {lit}`generate` call, with the texts of
their errors. -/
structure CaReaders where
  keyFromPem : String → Except String SigningKey
  serializePem : SigningKey → String
  parsePem : String → Except String Blob
  derError : Bytes → String
  issuerFromCaCertPem : String → SigningKey → Except String Unit

/-- The authority that {lit}`from_material` builds. -/
structure StoredCa (fromDer : FromDer) where
  certDer : Blob
  root : Certificate
  key : SigningKey
  certPem : String
  keyPem : String
  certTtl : Int
  parses : fromDer certDer.bytes = some root
  matches_key : root.publicKey.key = key.verifyingKey
deriving DecidableEq

variable {fromDer : FromDer}

/-- {lit}`from_material`. -/
def fromMaterial (fromDer : FromDer) (readers : CaReaders) (certPem keyPem : String)
    (certTtl : Int) : Except PortError (StoredCa fromDer) :=
  if certTtl ≤ 0 then .error (.invalid "cert_ttl must be positive")
  else
    match readers.keyFromPem keyPem with
    | .error e => .error (.invalid ("stored CA key is unusable: " ++ e))
    | .ok key =>
        match readers.parsePem certPem with
        | .error e => .error (.invalid ("stored CA cert is not valid PEM: " ++ e))
        | .ok certDer =>
            match parses : fromDer certDer.bytes with
            | none =>
                .error (.invalid
                  ("stored CA cert could not be parsed: " ++ readers.derError certDer.bytes))
            | some root =>
                if matches_key : root.publicKey.key = key.verifyingKey then
                  match readers.issuerFromCaCertPem certPem key with
                  | .error e => .error (.invalid ("stored CA cert is unusable: " ++ e))
                  | .ok () =>
                      .ok ⟨certDer, root, key, certPem, keyPem, certTtl, parses, matches_key⟩
                else .error (.invalid "stored CA key does not match the stored CA cert")

/-- {lit}`generate`, given the key drawn and the certificate written for it. -/
def generate (fromDer : FromDer) (readers : CaReaders) (certTtl : Int)
    (drawn : Except String SigningKey) (selfSigned : Except String String) :
    Except PortError (StoredCa fromDer × CaMaterial) :=
  if certTtl ≤ 0 then .error (.invalid "cert_ttl must be positive")
  else
    match drawn with
    | .error e => .error (.backend e)
    | .ok key =>
        match selfSigned with
        | .error e => .error (.backend e)
        | .ok certPem =>
            match fromMaterial fromDer readers certPem (readers.serializePem key) certTtl with
            | .error e => .error e
            | .ok ca => .ok (ca, ⟨certPem, readers.serializePem key⟩)

/-- What a rebuilt authority was built from. -/
theorem fromMaterial_eq_ok {readers : CaReaders} {certPem keyPem : String} {certTtl : Int}
    {ca : StoredCa fromDer} (h : fromMaterial fromDer readers certPem keyPem certTtl = .ok ca) :
    ca.certPem = certPem ∧ ca.keyPem = keyPem ∧ ca.certTtl = certTtl ∧
      readers.parsePem certPem = .ok ca.certDer ∧ readers.keyFromPem keyPem = .ok ca.key := by
  unfold fromMaterial at h
  split_ifs at h
  split at h
  · cases h
  · rename_i key hkey
    split at h
    · cases h
    · rename_i certDer hder
      split at h
      · cases h
      · split_ifs at h
        split at h
        · cases h
        · obtain rfl := Except.ok.inj h
          exact ⟨rfl, rfl, rfl, hder, hkey⟩

/-- A generated authority is the one rebuilt from the material to be stored. -/
theorem fromMaterial_of_generate {readers : CaReaders} {certTtl : Int}
    {drawn : Except String SigningKey} {selfSigned : Except String String}
    {ca : StoredCa fromDer} {material : CaMaterial}
    (h : generate fromDer readers certTtl drawn selfSigned = .ok (ca, material)) :
    fromMaterial fromDer readers material.certPem material.keyPem certTtl = .ok ca := by
  unfold generate at h
  split_ifs at h
  split at h
  · cases h
  · split at h
    · cases h
    · split at h
      · cases h
      · rename_i hmaterial
        cases h
        exact hmaterial

/-! ## The transaction -/

/-- A row of {lit}`ca_identity`. -/
structure CaRow where
  id : Int64
  certPem : String
  keyPem : String
  createdAtUnix : Int64
deriving DecidableEq

/-- How {lit}`load_or_generate` fails. -/
inductive LoadError where
  | sqlx (message : String)
  | port (error : PortError)
deriving DecidableEq

/-- A call of {lit}`load_or_generate`, with what its environment answers: the key drawn, the
certificate written, the clock, and the next value of the table's identity column. -/
structure LoadCall where
  certTtl : Int
  drawn : Except String SigningKey
  selfSigned : Except String String
  nowUnix : Int64
  nextId : Int64

/-- What {lit}`load_or_generate` decides between its read and its insert. -/
def loadPlan (fromDer : FromDer) (readers : CaReaders) (call : LoadCall) (rows : List CaRow) :
    Except LoadError (Plan CaRow (StoredCa fromDer)) :=
  match (orderBy (fun row => row.id.toInt) rows).head? with
  | some row =>
      match fromMaterial fromDer readers row.certPem row.keyPem call.certTtl with
      | .error e => .error (.port e)
      | .ok ca => .ok (.found ca)
  | none =>
      match generate fromDer readers call.certTtl call.drawn call.selfSigned with
      | .error e => .error (.port e)
      | .ok (ca, material) =>
          .ok (.adds ⟨call.nextId, material.certPem, material.keyPem, call.nowUnix⟩ ca)

/-- {lit}`load_or_generate` on the migrated table: its index is unique over a constant, so any
two rows clash. -/
def loadOrGenerate (fromDer : FromDer) (readers : CaReaders) (capacity : Nat) (refused : String) :
    Program LoadCall CaRow (StoredCa fromDer) LoadError where
  pins := false
  plan := loadPlan fromDer readers
  clash _ _ := true
  capacity := capacity
  refused := .sqlx refused

/-- An authority that was found was rebuilt from a row that was read. -/
theorem loadPlan_eq_found {readers : CaReaders} {call : LoadCall} {rows : List CaRow}
    {ca : StoredCa fromDer} (h : loadPlan fromDer readers call rows = .ok (.found ca)) :
    ∃ row ∈ rows,
      fromMaterial fromDer readers row.certPem row.keyPem call.certTtl = .ok ca := by
  unfold loadPlan at h
  split at h
  · rename_i row hrow
    split at h
    · cases h
    · rename_i hca
      cases h
      exact ⟨row, mem_orderBy.mp (List.mem_of_head? hrow), hca⟩
  · split at h <;> cases h

/-- An authority that was generated is the one rebuilt from the row to be inserted. -/
theorem loadPlan_eq_adds {readers : CaReaders} {call : LoadCall} {rows : List CaRow}
    {row : CaRow} {ca : StoredCa fromDer}
    (h : loadPlan fromDer readers call rows = .ok (.adds row ca)) :
    fromMaterial fromDer readers row.certPem row.keyPem call.certTtl = .ok ca := by
  unfold loadPlan at h
  split at h
  · split at h <;> cases h
  · split at h
    · cases h
    · rename_i hgenerate
      cases h
      exact fromMaterial_of_generate hgenerate

/-! ## One authority -/

/-- Every answer is rebuilt from the only row of the table. -/
def OneRow (fromDer : FromDer) (readers : CaReaders) (rows : List CaRow)
    (returned : List (Return LoadCall (StoredCa fromDer))) : Prop :=
  rows.length ≤ 1 ∧ ∀ answer ∈ returned, ∃ row, rows = [row] ∧
    fromMaterial fromDer readers row.certPem row.keyPem answer.input.certTtl = .ok answer.out

/-- The table holds one row at most, and every answer is rebuilt from it. -/
theorem one_row_of_history {readers : CaReaders} {capacity : Nat} {refused : String}
    {rows : List CaRow} {returned : List (Return LoadCall (StoredCa fromDer))}
    (h : History (loadOrGenerate fromDer readers capacity refused) rows returned) :
    OneRow fromDer readers rows returned := by
  induction h with
  | nil => exact ⟨by simp, by simp⟩
  | @found rows seen returned i call ca _ hsees hplan ih =>
      refine ⟨ih.1, fun answer hanswer => ?_⟩
      rcases List.mem_append.mp hanswer with hanswer | hanswer
      · exact ih.2 answer hanswer
      · obtain rfl := List.mem_singleton.mp hanswer
        obtain ⟨row, hrow, hca⟩ := loadPlan_eq_found hplan
        have hmem : row ∈ rows := hsees.1.subset hrow
        obtain ⟨other, hother⟩ := List.length_eq_one_iff.mp
          (Nat.le_antisymm ih.1 (List.length_pos_of_mem hmem))
        obtain rfl : row = other := by simpa [hother] using hmem
        exact ⟨row, hother, hca⟩
  | @added rows seen returned i call row ca _ _ hplan hclash _ ih =>
      -- Any committed row clashes, so the row goes into the empty table.
      have hempty : rows = [] := by
        rw [List.eq_nil_iff_forall_not_mem]
        intro other hother
        exact Bool.noConfusion (hclash other hother)
      subst hempty
      refine ⟨by simp, fun answer hanswer => ?_⟩
      rcases List.mem_append.mp hanswer with hanswer | hanswer
      · obtain ⟨other, hother, -⟩ := ih.2 answer hanswer
        cases hother
      · obtain rfl := List.mem_singleton.mp hanswer
        exact ⟨row, rfl, loadPlan_eq_adds hplan⟩

/-- One shared authority: whatever the replicas' statements interleave to, wherever they
fail and whichever snapshots they read, at most one row is committed, it never changes, and
every call that succeeds returns the authority rebuilt from its certificate and key. -/
theorem shared_ca (fromDer : FromDer) (readers : CaReaders) (capacity : Nat) (refused : String)
    (events : List (Event LoadCall LoadError)) :
    let program := loadOrGenerate fromDer readers capacity refused
    (World.run program events).rows.length ≤ 1 ∧
      (∀ row later, (World.run program events).rows = [row] →
        (World.run program (events ++ later)).rows = [row]) ∧
      ∀ (i : Nat) (tx : Tx LoadCall CaRow (StoredCa fromDer) LoadError) (ca : StoredCa fromDer),
        (World.run program events).txs[i]? = some tx → tx.phase = .committed ca →
        ∃ row, (World.run program events).rows = [row] ∧
          fromMaterial fromDer readers row.certPem row.keyPem tx.input.certTtl = .ok ca ∧
          ca.certPem = row.certPem ∧ ca.keyPem = row.keyPem ∧
          readers.parsePem row.certPem = .ok ca.certDer ∧
          readers.keyFromPem row.keyPem = .ok ca.key := by
  intro program
  have hone := one_row_of_history (history_run program events)
  refine ⟨hone.1, ?_, ?_⟩
  · intro row later hrow
    obtain ⟨more, hmore⟩ := rows_run_append program events later
    have hlater := (one_row_of_history (history_run program (events ++ later))).1
    rw [← hmore, hrow] at hlater ⊢
    have hnil : more = [] := by simpa using hlater
    simp [hnil]
  · intro i tx ca htx hphase
    have hmem := (mem_returned_run_iff program events i tx.input ca).mpr ⟨tx, htx, rfl, hphase⟩
    obtain ⟨row, hrow, hca⟩ := hone.2 _ hmem
    obtain ⟨hcert, hkey, -, hder, hsigning⟩ := fromMaterial_eq_ok hca
    exact ⟨row, hrow, hca, hcert, hkey, hder, hsigning⟩

/-! ## A sample race -/

/-- Readers that know one certificate and one key. -/
def sampleReaders : CaReaders where
  keyFromPem text := if text = "key" then .ok ⟨0⟩ else .error "no key"
  serializePem _ := "key"
  parsePem text := if text = "cert" then .ok sampleRootDer else .error "no certificate"
  derError _ := "no certificate"
  issuerFromCaCertPem _ _ := .ok ()

def sampleLoad (nextId : Int64) : LoadCall where
  certTtl := 86400
  drawn := .ok ⟨0⟩
  selfSigned := .ok "cert"
  nowUnix := 1700000000
  nextId := nextId

/-- Two replicas race, the second on the snapshot from before it got the lock; a third comes
after them. -/
def sampleLoads : List (Event LoadCall LoadError) :=
  [.start (sampleLoad 1) .perStatement, .start (sampleLoad 2) .fixed, .step 0, .step 1, .step 0,
    .step 1, .step 0, .step 0, .step 0, .step 1, .step 1, .step 1,
    .start (sampleLoad 3) .fixed, .step 2, .step 2, .step 2, .step 2]

/-- The authority both successful replicas end with. -/
def sampleStored : StoredCa sampleDer where
  certDer := sampleRootDer
  root := sampleRoot
  key := ⟨0⟩
  certPem := "cert"
  keyPem := "key"
  certTtl := 86400
  parses := sampleCa.parses
  matches_key := rfl

/-- The first replica generates the authority, the index stops the second, and the third
finds the row. -/
theorem shared_ca_race :
    (∃ row, (World.run (loadOrGenerate sampleDer sampleReaders 10 "duplicate key")
        sampleLoads).rows = [row] ∧ sampleStored.certPem = row.certPem) ∧
      (World.run (loadOrGenerate sampleDer sampleReaders 10 "duplicate key") sampleLoads).txs.map
        Tx.phase = [.committed sampleStored, .failed (.sqlx "duplicate key"),
          .committed sampleStored] := by
  have hphases : (World.run (loadOrGenerate sampleDer sampleReaders 10 "duplicate key")
      sampleLoads).txs.map Tx.phase = [.committed sampleStored, .failed (.sqlx "duplicate key"),
        .committed sampleStored] := by decide +kernel
  refine ⟨?_, hphases⟩
  have hthird := congrArg (fun phases => phases[2]?) hphases
  rw [List.getElem?_map] at hthird
  obtain ⟨tx, htx, hphase⟩ := Option.map_eq_some_iff.mp hthird
  obtain ⟨row, hrow, -, hcert, -⟩ := (shared_ca sampleDer sampleReaders 10 "duplicate key"
    sampleLoads).2.2 2 tx sampleStored htx hphase
  exact ⟨row, hrow, hcert⟩

end Coordinator
end OpenSsmAgent
