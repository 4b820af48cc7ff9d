import OpenSsmAgent.Agent.Report
import OpenSsmAgent.Agent.Session
import OpenSsmAgent.Coordinator.Bridge
import OpenSsmAgent.System.Fleet

/-!
# Uplink messages on the wrong topic

An agent seals its session acknowledgement and its job results under one key, in
one direction and with one kind, and the associated data names no topic.  Whether
the broker can pass one off as another therefore rests on the plaintexts: each
handler of the bridge reads the plaintext with its own decoder.

Every plaintext is refused by the decoders it was not meant for, except one
family.  A job result is field 1 (the job id) and field 3 (the outcome); an
inventory is field 1 (the serial) and field 3 (an interface).  An outcome that is
an error text is field 3 of its message, and so are the addresses of an
interface.

Main results:

- Theorem {lit}`inventory_decode_report`: how the inventory decoder reads a job's
  report.
- Theorem {lit}`neverMisread_iff`: the payloads that no other handler reads.
-/

open Framing Proto3 SymbolicCrypto

namespace OpenSsmAgent
namespace System

open Seal Wire Domain Proto Coordinator Agent

/-! ## Plaintexts under the wrong decoder -/

/-- The acknowledgement starts with a byte that is no field key. -/
theorem decodeKey_ctrlSessionAck : decodeKey ctrlSessionAck = none := by
  decide +kernel

theorem jobResult_decode_ack : JobResult.decode ctrlSessionAck = none :=
  decodeMessage_of_decodeKey_eq_none (by decide) decodeKey_ctrlSessionAck

theorem inventory_decode_ack : Inventory.decode ctrlSessionAck = none :=
  decodeMessage_of_decodeKey_eq_none (by decide) decodeKey_ctrlSessionAck

/-- A job result is never the acknowledgement: one decodes, the other does not. -/
theorem encode_jobResult_ne_ack {m : JobResult} (hsize : m.encode.length < 2 ^ 64) :
    m.encode ≠ ctrlSessionAck := by
  intro heq
  have hdecode := JobResult.decode_encode hsize
  rw [heq, jobResult_decode_ack] at hdecode
  exact Option.some_ne_none _ hdecode.symm

/-- The serial an inventory reads from a job id; an empty id is not written. -/
def serialOf (jobId : Str) : Option Str :=
  if jobId.text = "" then none else some jobId

theorem foldlM_merge_jobId (jobId : Str) :
    (stringField 1 jobId).foldlM Inventory.merge Inventory.empty =
      some { Inventory.empty with dmiSerial := serialOf jobId } := by
  unfold stringField serialOf
  split_ifs
  · rfl
  · simp [Inventory.merge]

/-- A chunk's stream number is no host name. -/
theorem readMessage_system_chunk (init : InventorySystem) {c : OutputChunk}
    (hstream : c.stream ≠ 0) :
    readMessage recursionLimit InventorySystem.merge init
      (.lengthDelimited (encodeFields c.fields)) = none := by
  rw [readMessage_encodeFields (by decide) c.fields_wellFormed]
  simp [OutputChunk.fields, int32Field, hstream, InventorySystem.merge, int32Value, readString]

/-- An exit code or a signal is no interface name or address, while an error text
is an address. -/
theorem readMessage_interface_outcome (o : FinalOutcome) :
    readMessage recursionLimit InventoryInterface.merge ⟨default, default, []⟩
      (.lengthDelimited (encodeFields o.toProto.fields)) =
      match o.terminal with
      | .error msg => some ⟨default, default, [msg]⟩
      | _ => none := by
  rw [readMessage_encodeFields (by decide) o.toProto.fields_wellFormed]
  rcases o with ⟨n | n | msg, truncated, timedOut⟩
  · simp [FinalOutcome.toProto, JobOutcome.fields, JobOutcome.terminalFields,
      InventoryInterface.merge, int32Value, readString]
  · simp [FinalOutcome.toProto, JobOutcome.fields, JobOutcome.terminalFields,
      InventoryInterface.merge, int32Value, readString]
  · cases truncated <;> cases timedOut <;>
      simp [FinalOutcome.toProto, JobOutcome.fields, JobOutcome.terminalFields,
        InventoryInterface.merge, boolField]

/-- How the inventory decoder reads a job's report. -/
theorem inventory_decode_report {jobId : Str} {r : Report}
    (hsize : (r.result jobId).encode.length < 2 ^ 64) :
    Inventory.decode (r.result jobId).encode =
      match r with
      | .outcome ⟨.error msg, _, _⟩ =>
          some ⟨serialOf jobId, none, [⟨default, default, [msg]⟩], []⟩
      | _ => none := by
  rw [Inventory.decode, JobResult.encode,
    decodeMessage_encodeFields (JobResult.fields_wellFormed hsize)]
  rcases r with (data | data) | o
  all_goals simp only [JobResult.fields, Report.result, JobResult.bodyFields, List.foldlM_append,
    foldlM_merge_jobId, Option.bind_eq_bind, Option.bind_some, List.foldlM_cons, Inventory.merge]
  · rw [readMessage_system_chunk _ (show stdout ≠ 0 by decide)]
    rfl
  · rw [readMessage_system_chunk _ (show stderr ≠ 0 by decide)]
    rfl
  · rw [readMessage_interface_outcome]
    rcases o with ⟨n | n | msg, truncated, timedOut⟩ <;> rfl

/-! ## Deliveries on the three uplink topics -/

/-- What an agent seals on the uplink of its session. -/
inductive UplinkPayload where
  | ack
  | report (jobId : Str) (report : Report)
deriving DecidableEq

/-- The uplink topics that share the session's keys. -/
inductive UplinkTopic where
  | ctrl
  | result
  | inventory
deriving DecidableEq

namespace UplinkPayload

def plaintext : UplinkPayload → Bytes
  | .ack => ctrlSessionAck
  | .report jobId r => (r.result jobId).encode

/-- The topic a payload is meant for. -/
def topic : UplinkPayload → UplinkTopic
  | .ack => .ctrl
  | .report _ _ => .result

/-- Whether a payload reports an outcome that is an error text. -/
def isErrorOutcome : UplinkPayload → Bool
  | .report _ (.outcome ⟨.error _, _, _⟩) => true
  | _ => false

end UplinkPayload

/-- The handler of a topic reads a delivery as a message of its own kind: the
session is confirmed, a job hears of a result, a snapshot is decoded. -/
def ReadAs (topic : UplinkTopic) (env : StepEnv) (b : Bridge) (tenant : String)
    (payload : Payload) : Prop :=
  match topic with
  | .ctrl => (handleCtrlAck b payload).2 ≠ []
  | .result =>
      (handleResult env b tenant payload).2 ≠ [] ∨
        (handleResult env b tenant payload).1.pending ≠ b.pending
  | .inventory => (decodeInventory b.sessions tenant payload).1 ≠ none

/-- A payload is read by no handler but its own, whatever session it was sealed
in, whatever the state of the bridge and under whatever tenant it arrives. -/
def NeverMisread (m : UplinkPayload) : Prop :=
  ∀ (keys : SessionKeys) (count : Nat) (hostId sid : Str) (env : StepEnv) (b : Bridge)
    (tenant : String) (payload : Payload) (topic : UplinkTopic),
    payload.envelope = some (sealUplink keys count hostId sid m.plaintext).1 →
    topic ≠ m.topic → ¬ ReadAs topic env b tenant payload

/-- Whether the decoder of a topic takes a plaintext. -/
def UplinkTopic.accepts : UplinkTopic → Bytes → Bool
  | .ctrl, p => p = ctrlSessionAck
  | .result, p => (JobResult.decode p).isSome
  | .inventory, p => (Inventory.decode p).isSome

/-- What a session opens is the plaintext that was sealed. -/
theorem eq_of_openUplink_sealUplink {session : Session} {keys : SessionKeys} {count : Nat}
    {hostId sid : Str} {p q : Bytes}
    (hopen : (session.openUplink (sealUplink keys count hostId sid p).1).1 = some q) : q = p := by
  have hauth := (ReplayGuard.guardedOpen_fst_eq_some_iff.mp hopen).1
  have hct := openEnvelope_eq_some_iff.mp hauth
  simp only [sealUplink, sealEnvelope, SessionKeys.seal, Ciphertext.sealed.injEq] at hct
  exact hct.2.2.2.symm

/-- A handler reads only what one of the bridge's sessions opens and its own
decoder takes. -/
theorem accepts_of_readAs {topic : UplinkTopic} {env : StepEnv} {b : Bridge} {tenant : String}
    {payload : Payload} {e : Envelope} (henv : payload.envelope = some e)
    (hread : ReadAs topic env b tenant payload) :
    ∃ (session : Session) (p : Bytes),
      (session.openUplink e).1 = some p ∧ topic.accepts p = true := by
  cases topic with
  | ctrl =>
      unfold ReadAs handleCtrlAck at hread
      simp only [henv] at hread
      split at hread <;> try exact absurd rfl hread
      split at hread <;> try exact absurd rfl hread
      rename_i session _
      split at hread <;> try exact absurd rfl hread
      by_cases hack : (session.openUplink e).1 = some ctrlSessionAck
      · exact ⟨session, ctrlSessionAck, hack, by simp [UplinkTopic.accepts]⟩
      · simp [hack] at hread
  | result =>
      unfold ReadAs handleResult at hread
      simp only [henv] at hread
      split at hread <;> try exact absurd rfl (hread.resolve_right (by simp))
      split at hread <;> try exact absurd rfl (hread.resolve_right (by simp))
      rename_i session _
      rcases hopen : (session.openUplink e).1 with _ | p
      · simp [hopen, Bridge.setSession] at hread
      · refine ⟨session, p, hopen, ?_⟩
        rcases hdecode : JobResult.decode p with _ | r
        · simp [hopen, hdecode, Bridge.setSession] at hread
        · simp [UplinkTopic.accepts, hdecode]
  | inventory =>
      unfold ReadAs decodeInventory at hread
      simp only [henv] at hread
      split at hread <;> try exact absurd rfl hread
      split at hread <;> try exact absurd rfl hread
      rename_i session _
      rcases hopen : (session.openUplink e).1 with _ | p
      · simp [hopen] at hread
      · refine ⟨session, p, hopen, ?_⟩
        rcases hdecode : Inventory.decode p with _ | inv
        · simp [hopen, hdecode] at hread
        · simp [UplinkTopic.accepts, hdecode]

/-- Apart from error outcomes under the inventory decoder, only the decoder of its
own topic takes a payload. -/
theorem accepts_plaintext {m : UplinkPayload} (hsize : m.plaintext.length < 2 ^ 64)
    {topic : UplinkTopic} (htopic : topic ≠ m.topic) (herror : m.isErrorOutcome = false) :
    topic.accepts m.plaintext = false := by
  cases m with
  | ack =>
      cases topic with
      | ctrl => exact absurd rfl htopic
      | result => simp [UplinkTopic.accepts, UplinkPayload.plaintext, jobResult_decode_ack]
      | inventory => simp [UplinkTopic.accepts, UplinkPayload.plaintext, inventory_decode_ack]
  | report jobId r =>
      cases topic with
      | ctrl =>
          exact decide_eq_false (encode_jobResult_ne_ack hsize)
      | result => exact absurd rfl htopic
      | inventory =>
          simp only [UplinkTopic.accepts, UplinkPayload.plaintext,
            inventory_decode_report hsize]
          rcases r with c | ⟨n | n | msg, truncated, timedOut⟩
          · rfl
          · rfl
          · rfl
          · simp [UplinkPayload.isErrorOutcome] at herror

/-- A store that holds one session decodes whatever snapshot was sealed first in
that session. -/
theorem decodeInventory_first (store : SessionStore) (host : HostId) (keys : SessionKeys)
    (hostId sid : Str) (p : Bytes) (clientHello : Option ClientHello)
    (serverHello : Option ServerHello) :
    (decodeInventory (store.set host (Session.start sid keys))
      (Topics.tenant host.toStr.text)
      ⟨clientHello, serverHello, some (sealUplink keys 0 hostId sid p).1⟩).1 =
      (Inventory.decode p).map (fun inv => (host, inv)) := by
  have hopen : ((Session.start sid keys).openUplink (sealUplink keys 0 hostId sid p).1).1 =
      some p :=
    ReplayGuard.guardedOpen_fst_eq_some_iff.mpr ⟨openEnvelope_sealEnvelope _ _ _ _ _ _ _, rfl⟩
  simp [decodeInventory, hopen]

def sampleSession : Session := Session.start sampleSid sampleKeys

def sampleBridge : Bridge :=
  Bridge.new.setSession sampleHost sampleSession

/-- The first envelope of the sample session, around a payload. -/
def sampleDelivery (m : UplinkPayload) : Payload where
  clientHello := none
  serverHello := none
  envelope :=
    some (sealUplink sampleSession.keys 0 sampleHost.toStr sampleSession.sid m.plaintext).1

theorem decodeInventory_sampleDelivery (m : UplinkPayload) :
    (decodeInventory sampleBridge.sessions (Topics.tenant sampleHost.toStr.text)
      (sampleDelivery m)).1 = (Inventory.decode m.plaintext).map (fun inv => (sampleHost, inv)) :=
  decodeInventory_first SessionStore.new sampleHost sampleSession.keys sampleHost.toStr
    sampleSession.sid m.plaintext none none

/-- The payloads that no other handler reads: all but the outcomes that are an
error text. -/
theorem neverMisread_iff (m : UplinkPayload) (hsize : m.plaintext.length < 2 ^ 64) :
    NeverMisread m ↔ m.isErrorOutcome = false := by
  constructor
  · intro hnever
    have hunread := hnever sampleSession.keys 0 sampleHost.toStr sampleSession.sid
      (StepEnv.smooth 0 0 sampleServerEph) sampleBridge (Topics.tenant sampleHost.toStr.text)
      (sampleDelivery m) .inventory rfl
    rcases m with _ | ⟨jobId, c | ⟨n | n | msg, truncated, timedOut⟩⟩
    · rfl
    · rfl
    · rfl
    · rfl
    · refine absurd ?_ (hunread (by simp [UplinkPayload.topic]))
      unfold ReadAs
      rw [decodeInventory_sampleDelivery, UplinkPayload.plaintext, inventory_decode_report hsize]
      simp
  · intro herror keys count hostId sid env b tenant payload topic henv htopic hread
    obtain ⟨session, p, hopen, haccepts⟩ := accepts_of_readAs henv hread
    obtain rfl := eq_of_openUplink_sealUplink hopen
    rw [accepts_plaintext hsize htopic herror] at haccepts
    exact Bool.false_ne_true haccepts

/-- An exit code reported on the result topic is no acknowledgement and no
inventory. -/
theorem neverMisread_exitCode :
    NeverMisread (.report (Str.lit "job-1") (.outcome ⟨.exitCode 0, false, false⟩)) :=
  (neverMisread_iff _ (by decide)).mpr rfl

def sampleError : Str := Str.lit "agent job store unavailable"

/-- A refused job, delivered on the inventory topic, is a snapshot whose serial is
the job id and whose only address is the error text. -/
theorem refused_job_read_as_inventory :
    (decodeInventory sampleBridge.sessions (Topics.tenant sampleHost.toStr.text)
      (sampleDelivery (.report (Str.lit "job-1") (.outcome (failed sampleError))))).1 =
      some (sampleHost,
        ⟨some (Str.lit "job-1"), none, [⟨default, default, [sampleError]⟩], []⟩) := by
  rw [decodeInventory_sampleDelivery, UplinkPayload.plaintext,
    inventory_decode_report (by decide)]
  rfl

end System
end OpenSsmAgent
