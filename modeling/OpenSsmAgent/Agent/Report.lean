import OpenSsmAgent.Proto.Messages

/-!
# What a job reports

The messages {lit}`run_job` of {lit}`osa-agent/src/dispatch.rs` sends: output
chunks of the two streams, and outcomes.  Every outcome it sends has a terminal
status, whether it was just computed or read back from the job store, so here an
outcome carries one.
-/

open Framing Proto3

namespace OpenSsmAgent
namespace Agent

open Proto

/-- One slice of a running job's output. -/
inductive Chunk where
  | stdout (data : Blob)
  | stderr (data : Blob)
deriving DecidableEq

/-- An outcome with a terminal status. -/
structure FinalOutcome where
  terminal : Terminal
  outputTruncated : Bool
  timedOut : Bool
deriving DecidableEq

/-- The outcome message. -/
def FinalOutcome.toProto (o : FinalOutcome) : JobOutcome :=
  ⟨some o.terminal, o.outputTruncated, o.timedOut⟩

/-- The final outcome an outcome message stands for, if it has a terminal
status. -/
def FinalOutcome.ofProto (o : JobOutcome) : Option FinalOutcome :=
  o.terminal.map (fun t => ⟨t, o.outputTruncated, o.timedOut⟩)

@[simp] theorem FinalOutcome.ofProto_toProto (o : FinalOutcome) :
    FinalOutcome.ofProto o.toProto = some o :=
  rfl

/-- {lit}`failed`. -/
def failed (msg : Str) : FinalOutcome :=
  ⟨.error msg, false, false⟩

/-- One message of a job. -/
inductive Report where
  | chunk (chunk : Chunk)
  | outcome (outcome : FinalOutcome)
deriving DecidableEq

/-- {lit}`JobChannel::chunk` and {lit}`JobChannel::outcome`. -/
def Report.result (jobId : Str) : Report → JobResult
  | .chunk (.stdout data) => ⟨jobId, some (.chunk ⟨stdout, data⟩)⟩
  | .chunk (.stderr data) => ⟨jobId, some (.chunk ⟨stderr, data⟩)⟩
  | .outcome o => ⟨jobId, some (.outcome o.toProto)⟩

end Agent
end OpenSsmAgent
