import OpenSsmAgent.Core.Wire
import OpenSsmAgent.Proto.Messages

/-!
# Agent shell streams

The agent's side of an interactive shell, {lit}`osa-agent/src/shell_stream.rs`:
the stream subkey, the guarded downlink, and the uplink pump with its own
sequence counter.
-/

open Framing SymbolicCrypto

namespace OpenSsmAgent
namespace Agent

open Seal Wire Proto

/-- A live shell stream: the stream subkey and the downlink guard. -/
structure ShellStream where
  streamKeys : SessionKeys
  recvHigh : Option UInt64
deriving DecidableEq

/-- The uplink pump of a stream with the value of its counter. -/
structure UplinkPump where
  keys : SessionKeys
  hostId : Str
  sid : Str
  seq : Nat
deriving DecidableEq

namespace ShellStream

/-- {lit}`ShellStream::open` once the PTY was spawned: the stream and its pump. -/
def «open» (sessionKeys : SessionKeys) (streamId hostId sid : Str) : ShellStream × UplinkPump :=
  let streamKeys := sessionKeys.deriveStream streamId.bytes
  (⟨streamKeys, none⟩, ⟨streamKeys, hostId, sid, 0⟩)

/-- {lit}`ShellStream::open_downlink`. -/
def openDownlink (s : ShellStream) (env : Envelope) : Option Bytes × ShellStream :=
  let r := openGuarded s.streamKeys .coordToAgent s.recvHigh env
  (r.1, { s with recvHigh := r.2 })

/-- {lit}`ShellStream::route_downlink`: the bytes for the PTY, whether the stream
goes on, and the advanced guard. -/
def routeDownlink (s : ShellStream) (env : Envelope) : Option Blob × Bool × ShellStream :=
  match s.openDownlink env with
  | (none, s) => (none, true, s)
  | (some plaintext, s) =>
      match StreamFrame.decode plaintext with
      | none => (none, true, s)
      | some frame => if frame.eof then (none, false, s) else (some frame.data, true, s)

end ShellStream

namespace UplinkPump

/-- {lit}`seal_frame` with the pump's next sequence number. -/
def sealFrame (p : UplinkPump) (frame : StreamFrame) : Envelope × UplinkPump :=
  (sealEnvelope p.keys .agentToCoord p.hostId p.sid (wireSeq p.seq) .stream frame.encode,
    { p with seq := p.seq + 1 })

/-- The call of {lit}`seal` that the next {lit}`seal_frame` makes. -/
def sealCall (p : UplinkPump) : SealCall :=
  ⟨p.keys.key .agentToCoord, p.seq⟩

end UplinkPump
end Agent
end OpenSsmAgent
