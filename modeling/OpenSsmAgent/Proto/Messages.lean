import OpenSsmAgent.Lib.Proto3

/-!
# Sealed message bodies

The messages of {lit}`osa-proto/proto/osa.proto` that travel inside sealed
envelopes, with the field-by-field reader and writer that the generated code
has for each: unknown tags are skipped, a known tag with another wire type is an
error, a repeated scalar or oneof member overwrites, a repeated message member
of a oneof is merged.

Main results:

- Theorem {lit}`StreamFrame.decode_encode`: stream frames round-trip.
- Theorems {lit}`JobOutcome.decode_encode` and {lit}`JobResult.decode_encode`:
  job outcomes and results round-trip.
-/

open Framing Proto3

namespace OpenSsmAgent
namespace Proto

/-! ## Stream frames -/

/-- One frame of an interactive stream. -/
structure StreamFrame where
  data : Blob
  eof : Bool
deriving DecidableEq, Inhabited

namespace StreamFrame

/-- Read one field. -/
def merge (m : StreamFrame) (f : Field) : Option StreamFrame :=
  match f.tag with
  | 1 => (readBytes f.value).map (fun b => { m with data := b })
  | 2 => (readBool f.value).map (fun b => { m with eof := b })
  | _ => some m

/-- The fields on the wire. -/
def fields (m : StreamFrame) : List Field :=
  bytesField 1 m.data ++ boolField 2 m.eof

/-- {lit}`encode_to_vec`. -/
def encode (m : StreamFrame) : Bytes :=
  encodeFields m.fields

/-- {lit}`decode`. -/
def decode (b : Bytes) : Option StreamFrame :=
  decodeMessage recursionLimit merge ⟨default, false⟩ b

/-- Its fields are well formed. -/
theorem fields_wellFormed (m : StreamFrame) : ∀ f ∈ m.fields, f.WellFormed := by
  intro f hf
  rcases List.mem_append.mp hf with hf | hf
  · exact bytesField_wellFormed (by decide) m.data f hf
  · exact boolField_wellFormed (by decide) m.eof f hf

/-- Stream frames round-trip. -/
@[simp] theorem decode_encode (m : StreamFrame) : decode m.encode = some m := by
  rw [decode, encode, decodeMessage_encodeFields m.fields_wellFormed]
  obtain ⟨⟨data, hdata⟩, eof⟩ := m
  cases data <;> cases eof <;> simp [fields, bytesField, boolField, merge] <;> rfl

end StreamFrame

/-! ## Job results -/

/-- One ordered slice of a job's output; the stream is an open enumeration. -/
structure OutputChunk where
  stream : Int32
  data : Blob
deriving DecidableEq, Inhabited

/-- {lit}`STDOUT` of the output streams. -/
def stdout : Int32 := 1

/-- {lit}`STDERR` of the output streams. -/
def stderr : Int32 := 2

/-- How a job ended. -/
inductive Terminal where
  | exitCode (code : Int32)
  | signal (signal : Int32)
  | error (message : Str)
deriving DecidableEq

/-- A job's terminal status. -/
structure JobOutcome where
  terminal : Option Terminal
  outputTruncated : Bool
  timedOut : Bool
deriving DecidableEq, Inhabited

/-- The body of a job result. -/
inductive ResultBody where
  | chunk (chunk : OutputChunk)
  | outcome (outcome : JobOutcome)
deriving DecidableEq

/-- One message of a job: an output chunk or its outcome. -/
structure JobResult where
  jobId : Str
  body : Option ResultBody
deriving DecidableEq, Inhabited

namespace OutputChunk

/-- Read one field. -/
def merge (m : OutputChunk) (f : Field) : Option OutputChunk :=
  match f.tag with
  | 1 => (readInt32 f.value).map (fun n => { m with stream := n })
  | 2 => (readBytes f.value).map (fun b => { m with data := b })
  | _ => some m

/-- The fields on the wire. -/
def fields (m : OutputChunk) : List Field :=
  int32Field 1 m.stream ++ bytesField 2 m.data

/-- The message without fields. -/
def empty : OutputChunk := ⟨0, default⟩

/-- Its fields are well formed. -/
theorem fields_wellFormed (m : OutputChunk) : ∀ f ∈ m.fields, f.WellFormed := by
  intro f hf
  rcases List.mem_append.mp hf with hf | hf
  · exact int32Field_wellFormed (by decide) m.stream f hf
  · exact bytesField_wellFormed (by decide) m.data f hf

/-- Reading its fields gives it back. -/
theorem foldlM_merge_fields (m : OutputChunk) : m.fields.foldlM merge empty = some m := by
  obtain ⟨stream, ⟨data, hdata⟩⟩ := m
  have hempty : ∀ h, (⟨[], h⟩ : Blob) = default := fun _ => rfl
  by_cases hstream : stream = 0
  · subst hstream
    cases data <;> simp [fields, int32Field, bytesField, merge, empty, hempty]
  · cases data <;> simp [fields, int32Field, bytesField, merge, empty, hstream, hempty]

end OutputChunk

namespace JobOutcome

/-- Read one field. -/
def merge (m : JobOutcome) (f : Field) : Option JobOutcome :=
  match f.tag with
  | 1 => (readInt32 f.value).map (fun n => { m with terminal := some (.exitCode n) })
  | 2 => (readInt32 f.value).map (fun n => { m with terminal := some (.signal n) })
  | 3 => (readString f.value).map (fun s => { m with terminal := some (.error s) })
  | 4 => (readBool f.value).map (fun b => { m with outputTruncated := b })
  | 5 => (readBool f.value).map (fun b => { m with timedOut := b })
  | _ => some m

/-- A oneof member is written even when it holds its default value. -/
def terminalFields : Option Terminal → List Field
  | none => []
  | some (.exitCode n) => [⟨1, int32Value n⟩]
  | some (.signal n) => [⟨2, int32Value n⟩]
  | some (.error s) => [⟨3, stringValue s⟩]

/-- The fields on the wire. -/
def fields (m : JobOutcome) : List Field :=
  terminalFields m.terminal ++ boolField 4 m.outputTruncated ++ boolField 5 m.timedOut

/-- The message without fields. -/
def empty : JobOutcome := ⟨none, false, false⟩

/-- {lit}`encode_to_vec`. -/
def encode (m : JobOutcome) : Bytes :=
  encodeFields m.fields

/-- {lit}`decode`. -/
def decode (b : Bytes) : Option JobOutcome :=
  decodeMessage recursionLimit merge empty b

/-- So are those of a status. -/
theorem terminalFields_wellFormed (t : Option Terminal) :
    ∀ f ∈ terminalFields t, f.WellFormed := by
  intro f hf
  rcases t with _ | (n | n | s)
  · simp [terminalFields] at hf
  · obtain rfl := List.mem_singleton.mp hf
    exact wellFormed_int32 (by decide) n
  · obtain rfl := List.mem_singleton.mp hf
    exact wellFormed_int32 (by decide) n
  · obtain rfl := List.mem_singleton.mp hf
    exact wellFormed_string (by decide) s

/-- Its fields are well formed. -/
theorem fields_wellFormed (m : JobOutcome) : ∀ f ∈ m.fields, f.WellFormed := by
  intro f hf
  simp only [fields, List.mem_append] at hf
  rcases hf with (hf | hf) | hf
  · exact terminalFields_wellFormed m.terminal f hf
  · exact boolField_wellFormed (by decide) m.outputTruncated f hf
  · exact boolField_wellFormed (by decide) m.timedOut f hf

/-- Reading its fields gives it back. -/
theorem foldlM_merge_fields (m : JobOutcome) : m.fields.foldlM merge empty = some m := by
  obtain ⟨terminal, truncated, timedOut⟩ := m
  rcases terminal with _ | (n | n | s) <;> cases truncated <;> cases timedOut <;>
    simp [fields, terminalFields, boolField, merge, empty]

/-- Job outcomes round-trip. -/
@[simp] theorem decode_encode (m : JobOutcome) : decode m.encode = some m := by
  rw [decode, encode, decodeMessage_encodeFields m.fields_wellFormed, foldlM_merge_fields]

end JobOutcome

namespace JobResult

/-- Read one field. -/
def merge (m : JobResult) (f : Field) : Option JobResult :=
  match f.tag with
  | 1 => (readString f.value).map (fun s => { m with jobId := s })
  | 2 =>
      let init := match m.body with
        | some (.chunk c) => c
        | _ => OutputChunk.empty
      (readMessage recursionLimit OutputChunk.merge init f.value).map
        (fun c => { m with body := some (.chunk c) })
  | 3 =>
      let init := match m.body with
        | some (.outcome o) => o
        | _ => JobOutcome.empty
      (readMessage recursionLimit JobOutcome.merge init f.value).map
        (fun o => { m with body := some (.outcome o) })
  | _ => some m

/-- The fields of a body. -/
def bodyFields : Option ResultBody → List Field
  | none => []
  | some (.chunk c) => [⟨2, .lengthDelimited (encodeFields c.fields)⟩]
  | some (.outcome o) => [⟨3, .lengthDelimited (encodeFields o.fields)⟩]

/-- The fields on the wire. -/
def fields (m : JobResult) : List Field :=
  stringField 1 m.jobId ++ bodyFields m.body

/-- The message without fields. -/
def empty : JobResult := ⟨default, none⟩

/-- {lit}`encode_to_vec`. -/
def encode (m : JobResult) : Bytes :=
  encodeFields m.fields

/-- {lit}`decode`. -/
def decode (b : Bytes) : Option JobResult :=
  decodeMessage recursionLimit merge empty b

/-- A body is no longer than its message. -/
theorem length_bodyFields_le (m : JobResult) :
    (encodeFields (bodyFields m.body)).length ≤ m.encode.length := by
  simp [encode, fields, encodeFields]

/-- The body of a result that fits a byte vector fits its length prefix. -/
theorem fields_wellFormed {m : JobResult} (hsize : m.encode.length < 2 ^ 64) :
    ∀ f ∈ m.fields, f.WellFormed := by
  intro f hf
  have hbody := lt_of_le_of_lt m.length_bodyFields_le hsize
  rcases List.mem_append.mp hf with hf | hf
  · exact stringField_wellFormed (by decide) m.jobId f hf
  · rcases hm : m.body with _ | (c | o)
    · simp [hm, bodyFields] at hf
    all_goals
      rw [hm] at hf hbody
      obtain rfl := List.mem_singleton.mp hf
      refine wellFormed_message (by decide) ?_
      simp only [bodyFields, encodeFields, List.flatMap_cons, List.flatMap_nil, List.append_nil,
        encodeField, List.length_append] at hbody ⊢
      omega

/-- Reading its fields gives it back. -/
theorem foldlM_merge_fields (m : JobResult) : m.fields.foldlM merge empty = some m := by
  obtain ⟨jobId, body⟩ := m
  have hchunk : ∀ c : OutputChunk, readMessage recursionLimit OutputChunk.merge OutputChunk.empty
      (.lengthDelimited (encodeFields c.fields)) = some c := by
    intro c
    rw [readMessage_encodeFields (by decide) c.fields_wellFormed, c.foldlM_merge_fields]
  have houtcome : ∀ o : JobOutcome, readMessage recursionLimit JobOutcome.merge JobOutcome.empty
      (.lengthDelimited (encodeFields o.fields)) = some o := by
    intro o
    rw [readMessage_encodeFields (by decide) o.fields_wellFormed, o.foldlM_merge_fields]
  by_cases hid : jobId.text = ""
  · obtain rfl : jobId = default := Str.ext_text hid
    rcases body with _ | (c | o) <;>
      simp [fields, bodyFields, merge, empty, hchunk, houtcome]
  · rcases body with _ | (c | o) <;>
      simp [fields, stringField, hid, bodyFields, merge, empty, hchunk, houtcome]

/-- Job results round-trip. -/
theorem decode_encode {m : JobResult} (hsize : m.encode.length < 2 ^ 64) :
    decode m.encode = some m := by
  rw [decode, encode, decodeMessage_encodeFields (fields_wellFormed hsize), foldlM_merge_fields]

end JobResult

/-! ## Dispatches -/

/-- The shell capability's parameters. -/
structure ShellParams where
  rows : UInt32
  cols : UInt32
deriving DecidableEq, Inhabited

namespace ShellParams

/-- Read one field. -/
def merge (m : ShellParams) (f : Field) : Option ShellParams :=
  match f.tag with
  | 1 => (readUInt32 f.value).map (fun n => { m with rows := n })
  | 2 => (readUInt32 f.value).map (fun n => { m with cols := n })
  | _ => some m

/-- The fields on the wire. -/
def fields (m : ShellParams) : List Field :=
  uint32Field 1 m.rows ++ uint32Field 2 m.cols

/-- A number takes few bytes. -/
theorem length_uint32Field_le (tag : Nat) (n : UInt32) :
    (encodeFields (uint32Field tag n)).length ≤ 20 := by
  have hkey := length_encodeVarint_le (tag * 8 + WireType.varint.code)
  have hvalue := length_encodeVarint_le n.toNat
  unfold uint32Field
  split_ifs
  · simp [encodeFields]
  · simp only [encodeFields, List.flatMap_cons, List.flatMap_nil, List.append_nil, encodeField,
      uint32Value, encodeKey, List.length_append]
    omega

/-- The encoding is a few bytes long. -/
def encode (m : ShellParams) : Blob where
  bytes := encodeFields m.fields
  length_lt := by
    have hrows := length_uint32Field_le 1 m.rows
    have hcols := length_uint32Field_le 2 m.cols
    simp only [encodeFields, fields, List.flatMap_append, List.length_append] at hrows hcols ⊢
    omega

/-- {lit}`decode`. -/
def decode (b : Bytes) : Option ShellParams :=
  decodeMessage recursionLimit merge ⟨0, 0⟩ b

end ShellParams

/-- The exec capability's parameters. -/
structure ExecParams where
  argv : List Str
deriving DecidableEq, Inhabited

namespace ExecParams

/-- Read one field. -/
def merge (m : ExecParams) (f : Field) : Option ExecParams :=
  match f.tag with
  | 1 => (readString f.value).map (fun s => { m with argv := m.argv ++ [s] })
  | _ => some m

/-- {lit}`decode`. -/
def decode (b : Bytes) : Option ExecParams :=
  decodeMessage recursionLimit merge ⟨[]⟩ b

end ExecParams

/-- A sealed action for the agent. -/
structure Dispatch where
  jobId : Str
  kind : Str
  runAs : Str
  params : Blob
deriving DecidableEq, Inhabited

namespace Dispatch

/-- Read one field. -/
def merge (m : Dispatch) (f : Field) : Option Dispatch :=
  match f.tag with
  | 1 => (readString f.value).map (fun s => { m with jobId := s })
  | 2 => (readString f.value).map (fun s => { m with kind := s })
  | 3 => (readString f.value).map (fun s => { m with runAs := s })
  | 4 => (readBytes f.value).map (fun b => { m with params := b })
  | _ => some m

/-- The fields on the wire. -/
def fields (m : Dispatch) : List Field :=
  stringField 1 m.jobId ++ stringField 2 m.kind ++ stringField 3 m.runAs ++ bytesField 4 m.params

/-- The message without fields. -/
def empty : Dispatch := ⟨default, default, default, default⟩

/-- {lit}`encode_to_vec`. -/
def encode (m : Dispatch) : Bytes :=
  encodeFields m.fields

/-- {lit}`decode`. -/
def decode (b : Bytes) : Option Dispatch :=
  decodeMessage recursionLimit merge empty b

/-- Its fields are well formed. -/
theorem fields_wellFormed (m : Dispatch) : ∀ f ∈ m.fields, f.WellFormed := by
  intro f hf
  simp only [fields, List.mem_append] at hf
  rcases hf with ((hf | hf) | hf) | hf
  · exact stringField_wellFormed (by decide) m.jobId f hf
  · exact stringField_wellFormed (by decide) m.kind f hf
  · exact stringField_wellFormed (by decide) m.runAs f hf
  · exact bytesField_wellFormed (by decide) m.params f hf

/-- Reading its fields gives it back. -/
theorem foldlM_merge_fields (m : Dispatch) : m.fields.foldlM merge empty = some m := by
  obtain ⟨jobId, kind, runAs, params⟩ := m
  have hstring : ∀ (tag : Nat) (s : Str) (init : Dispatch) (set : Str → Dispatch),
      (∀ value, merge init ⟨tag, value⟩ = (readString value).map set) → set default = init →
      (stringField tag s).foldlM merge init = some (set s) := by
    intro tag s init set hmerge hdefault
    by_cases hs : s.text = ""
    · obtain rfl : s = default := Str.ext_text hs
      simp [hdefault]
    · simp [stringField, hs, hmerge]
  have hbytes : (bytesField 4 params).foldlM merge ⟨jobId, kind, runAs, default⟩ =
      some ⟨jobId, kind, runAs, params⟩ := by
    obtain ⟨data, hdata⟩ := params
    cases data with
    | nil =>
        simp [bytesField]
        rfl
    | cons byte bytes => simp [bytesField, merge]
  rw [fields, List.foldlM_append, List.foldlM_append, List.foldlM_append,
    hstring 1 jobId empty (fun s => ⟨s, default, default, default⟩) (fun _ => rfl) rfl]
  simp only [Option.bind_eq_bind, Option.bind_some]
  rw [hstring 2 kind _ (fun s => ⟨jobId, s, default, default⟩) (fun _ => rfl) rfl]
  simp only [Option.bind_some]
  rw [hstring 3 runAs _ (fun s => ⟨jobId, kind, s, default⟩) (fun _ => rfl) rfl]
  exact hbytes

/-- Dispatches round-trip. -/
@[simp] theorem decode_encode (m : Dispatch) : decode m.encode = some m := by
  rw [decode, encode, decodeMessage_encodeFields m.fields_wellFormed, foldlM_merge_fields]

end Dispatch

/-! ## Inventories -/

/-- Core system facts of an inventory. -/
structure InventorySystem where
  hostname : Str
  os : Str
  kernel : Str
  cpuCount : UInt64
  memoryBytes : UInt64
deriving DecidableEq, Inhabited

/-- One network interface of an inventory. -/
structure InventoryInterface where
  name : Str
  mac : Str
  ipAddresses : List Str
deriving DecidableEq, Inhabited

/-- A fact collection could not obtain. -/
structure InventoryGap where
  field : Str
  reason : Str
deriving DecidableEq, Inhabited

/-- The observed inventory of a host. -/
structure Inventory where
  dmiSerial : Option Str
  system : Option InventorySystem
  interfaces : List InventoryInterface
  gaps : List InventoryGap
deriving DecidableEq, Inhabited

/-- Read one field. -/
def InventorySystem.merge (m : InventorySystem) (f : Field) : Option InventorySystem :=
  match f.tag with
  | 1 => (readString f.value).map (fun s => { m with hostname := s })
  | 2 => (readString f.value).map (fun s => { m with os := s })
  | 3 => (readString f.value).map (fun s => { m with kernel := s })
  | 4 => (readUInt64 f.value).map (fun n => { m with cpuCount := n })
  | 5 => (readUInt64 f.value).map (fun n => { m with memoryBytes := n })
  | _ => some m

/-- Read one field. -/
def InventoryInterface.merge (m : InventoryInterface) (f : Field) : Option InventoryInterface :=
  match f.tag with
  | 1 => (readString f.value).map (fun s => { m with name := s })
  | 2 => (readString f.value).map (fun s => { m with mac := s })
  | 3 => (readString f.value).map (fun s => { m with ipAddresses := m.ipAddresses ++ [s] })
  | _ => some m

/-- Read one field. -/
def InventoryGap.merge (m : InventoryGap) (f : Field) : Option InventoryGap :=
  match f.tag with
  | 1 => (readString f.value).map (fun s => { m with field := s })
  | 2 => (readString f.value).map (fun s => { m with reason := s })
  | _ => some m

namespace Inventory

/-- A singular message member is merged into, a repeated one appended. -/
def merge (m : Inventory) (f : Field) : Option Inventory :=
  match f.tag with
  | 1 => (readString f.value).map (fun s => { m with dmiSerial := some s })
  | 2 =>
      (readMessage recursionLimit InventorySystem.merge
        (m.system.getD ⟨default, default, default, 0, 0⟩) f.value).map
        (fun s => { m with system := some s })
  | 3 =>
      (readMessage recursionLimit InventoryInterface.merge ⟨default, default, []⟩ f.value).map
        (fun i => { m with interfaces := m.interfaces ++ [i] })
  | 4 =>
      (readMessage recursionLimit InventoryGap.merge ⟨default, default⟩ f.value).map
        (fun g => { m with gaps := m.gaps ++ [g] })
  | _ => some m

/-- The message without fields. -/
def empty : Inventory := ⟨none, none, [], []⟩

/-- {lit}`decode`. -/
def decode (b : Bytes) : Option Inventory :=
  decodeMessage recursionLimit merge empty b

end Inventory
end Proto
end OpenSsmAgent
