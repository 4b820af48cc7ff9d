import OpenSsmAgent.Agent.Session
import OpenSsmAgent.Agent.ShellStream
import OpenSsmAgent.Core.Allowlist
import OpenSsmAgent.Core.Topics
import OpenSsmAgent.Lib.Table

/-!
# The agent's control channel

The connection loop of {lit}`osa-agent/src/control_channel.rs`: one connection at
a time, with its handshake, its session, its shell and the stream ids it has
used, and the tasks spawned along the way.  Job tasks and uplink pumps outlive
the session they were spawned under; each is a task that may seal at any time.

What the loop does not decide itself is an argument of the step: the results of
the MQTT client, of the PTY spawn and of the epoch file, and the entropy drawn.
-/

open Framing SymbolicCrypto

namespace OpenSsmAgent
namespace Agent

open Seal Wire Proto Hs

/-! ## State -/

/-- What the loop owns for the life of one connection. -/
structure Connection where
  id : AgentIdentity
  handshaking : Option Handshaking
  session : Option Established
  activeStream : Option ShellStream
  usedStreamIds : List Str
deriving DecidableEq

/-- A connection before its broker has answered. -/
def Connection.new (id : AgentIdentity) : Connection :=
  ⟨id, none, none, none, []⟩

/-- The session of the later connection, if it has one, is that of the earlier. -/
def Connection.SameSession (conn conn' : Connection) : Prop :=
  ∀ est', conn'.session = some est' → ∃ est, conn.session = some est ∧ est.Same est'

/-- A connection keeps its session when it is left alone. -/
theorem Connection.SameSession.of_eq {conn conn' : Connection}
    (h : conn'.session = conn.session) : conn.SameSession conn' :=
  fun est' hest' => ⟨est', h ▸ hest', .refl est'⟩

/-- A connection keeps its session when the session receives. -/
theorem Connection.SameSession.of_same {conn conn' : Connection} {est est' : Established}
    (hest : conn.session = some est) (hest' : conn'.session = some est') (h : est.Same est') :
    conn.SameSession conn' := by
  intro other hother
  obtain rfl := Option.some.inj (hest'.symm.trans hother)
  exact ⟨est, hest, h⟩

/-- How a job task reports: clones of the session's keys and allocator. -/
structure JobChannel where
  keys : SessionKeys
  cell : Nat
  hostId : Str
  sid : Str
deriving DecidableEq

/-- The agent process: the allocator cells of all its sessions, the connection,
the spawned tasks, and what each job task has sealed and is handing to the
results channel. -/
structure Process where
  cells : List Nat
  conn : Option Connection
  jobs : Table Nat JobChannel
  sending : Table Nat Envelope
  pumps : Table Nat UplinkPump
  nextTask : Nat

/-- The process as it starts. -/
def Process.new : Process := ⟨[], none, ∅, ∅, ∅, 0⟩

/-- What is fixed for the life of the process. -/
structure AgentConfig where
  hostId : Str
  backstop : LocalAllowlist

def maxStreamIdLen : Nat := 256

def maxShellsPerSession : Nat := 4096

def maxConcurrentJobs : Nat := 16

def defaultRows : UInt16 := 24

def defaultCols : UInt16 := 80

namespace Process

def setConn (a : Process) (conn : Connection) : Process :=
  { a with conn := some conn }

/-- The value of an allocator cell. -/
def count (a : Process) (cell : Nat) : Nat :=
  a.cells.getD cell 0

def setCount (a : Process) (cell count : Nat) : Process :=
  { a with cells := a.cells.set cell count }

/-- Spawn a job task. -/
def spawnJob (a : Process) (job : JobChannel) : Process :=
  { a with jobs := a.jobs.put a.nextTask job, nextTask := a.nextTask + 1 }

/-- Spawn an uplink pump. -/
def spawnPump (a : Process) (pump : UplinkPump) : Process :=
  { a with pumps := a.pumps.put a.nextTask pump, nextTask := a.nextTask + 1 }

end Process

/-! ## Effects and the environment of a step -/

/-- What a step does to the outside; {lit}`queued` is a sealed envelope handed to
the publisher of a topic. -/
inductive AgentEffect where
  | sealed (call : SealCall)
  | published (topic : String) (message : Message) (ok : Bool)
  | jobSpawned (dispatch : Dispatch)
  | ptySpawned (streamId runAs : Str) (rows cols : UInt16) (ok : Bool)
  | ptyInput (data : Blob)
  | queued (topic : String) (env : Envelope)
deriving DecidableEq

/-- What a step meets: the MQTT client's answers, the PTY spawn, the queue of the
PTY write pump and whether the results channel still has its publisher. -/
structure AgentEnv where
  subscribe : String → Bool
  publish : String → Message → Bool
  spawnPty : Str → UInt16 → UInt16 → Bool
  ptyQueue : Bool
  resultsOpen : Bool

/-- Hand a message to the MQTT client. -/
def AgentEnv.publishTo (env : AgentEnv) (topic : String) (m : Message) : AgentEffect :=
  .published topic m (env.publish topic m)

/-! ## The handshake -/

/-- {lit}`begin_handshake`: subscribe to the downlinks, then send a hello. -/
def beginHandshake (cfg : AgentConfig) (env : AgentEnv) (id : AgentIdentity) (epoch : UInt64)
    (sid : Str) (eph : Option Point) : Option Handshaking × List AgentEffect :=
  let host := cfg.hostId.text
  if env.subscribe (Topics.hsDown host) ∧ env.subscribe (Topics.ctrlDown host) ∧
      env.subscribe (Topics.dispatchDown host) ∧ env.subscribe (Topics.streamDown host) then
    match startHandshake id epoch sid eph with
    | .error _ => (none, [])
    | .ok (hs, hello) =>
        let sent := env.publishTo (Topics.hsUp host) (.clientHello hello)
        if env.publish (Topics.hsUp host) (.clientHello hello) then (some hs, [sent])
        else (none, [sent])
  else (none, [])

/-- The branch of {lit}`on_publish` for the handshake downlink.  The handshake is
taken before the answer is checked. -/
def onServerHello (a : Process) (conn : Connection) (payload : Payload) :
    Process × List AgentEffect :=
  match conn.handshaking with
  | none => (a, [])
  | some hs =>
      match finishHandshake hs conn.id payload a.cells.length with
      | .error _ => (a.setConn { conn with handshaking := none }, [])
      | .ok est =>
          ({ a with cells := a.cells ++ [0] }.setConn
            { conn with handshaking := none, session := some est }, [])

/-- The branch for the control downlink. -/
def onBeacon (cfg : AgentConfig) (env : AgentEnv) (a : Process) (conn : Connection)
    (payload : Payload) : Process × List AgentEffect :=
  match conn.session with
  | none => (a, [])
  | some est =>
      match confirmSession est (a.count est.cell) conn.id payload with
      | (.error _, est, _) => (a.setConn { conn with session := some est }, [])
      | (.ok ack, est, count) =>
          ((a.setCount est.cell count).setConn { conn with session := some est },
            [.sealed (sealUplinkCall est.keys (a.count est.cell)),
              env.publishTo (Topics.ctrlUp cfg.hostId.text) (.envelope ack)])

/-! ## Dispatches -/

/-- {lit}`open_dispatch`. -/
def openDispatch (est : Established) (payload : Payload) : Option Dispatch × Established :=
  match payload.envelope with
  | none => (none, est)
  | some env =>
      match est.openDownlink env with
      | (none, est) => (none, est)
      | (some plaintext, est) => (Dispatch.decode plaintext, est)

/-- Opening a dispatch stays in the session. -/
theorem openDispatch_same (est : Established) (payload : Payload) :
    est.Same (openDispatch est payload).2 := by
  unfold openDispatch
  split
  · exact .refl est
  · rename_i e _
    have hsame := est.openDownlink_same e
    split <;> rename_i hopen <;> rw [hopen] at hsame <;> exact hsame

/-- {lit}`handle_job`: shed at the cap, else spawn a task. -/
def handleJob (a : Process) (conn : Connection) (est : Established) (dispatch : Dispatch) :
    Process × List AgentEffect :=
  if a.jobs.size < maxConcurrentJobs then
    (a.spawnJob ⟨est.keys, est.cell, conn.id.hostId, est.sid⟩, [.jobSpawned dispatch])
  else (a, [])

/-- {lit}`clamp_dim`. -/
def clampDim (v : UInt32) (default : UInt16) : UInt16 :=
  if v = 0 then default else UInt16.ofNat (min v.toNat 65535)

/-- The kind of an interactive shell. -/
def shellKind : String := "shell"

/-- {lit}`handle_shell_open`. -/
def handleShellOpen (cfg : AgentConfig) (env : AgentEnv) (a : Process) (conn : Connection)
    (est : Established) (dispatch : Dispatch) : Process × List AgentEffect :=
  if dispatch.jobId.text = "" ∨ maxStreamIdLen < dispatch.jobId.bytes.length then (a, [])
  else if dispatch.jobId ∈ conn.usedStreamIds then (a, [])
  else if maxShellsPerSession ≤ conn.usedStreamIds.length then (a, [])
  else
    match cfg.backstop.permits ⟨dispatch.kind, default, dispatch.runAs, default⟩ with
    | .error _ => (a, [])
    | .ok () =>
        let params := (ShellParams.decode dispatch.params.bytes).getD ⟨0, 0⟩
        let rows := clampDim params.rows defaultRows
        let cols := clampDim params.cols defaultCols
        let spawned := env.spawnPty dispatch.runAs rows cols
        let effect := AgentEffect.ptySpawned dispatch.jobId dispatch.runAs rows cols spawned
        if spawned then
          let opened := ShellStream.open est.keys dispatch.jobId conn.id.hostId est.sid
          ((a.spawnPump opened.2).setConn
            { conn with
              activeStream := some opened.1
              usedStreamIds := dispatch.jobId :: conn.usedStreamIds },
            [effect])
        else (a, [effect])

/-- The branch of {lit}`on_publish` for the dispatch downlink: one guarded open,
then route by capability. -/
def onDispatch (cfg : AgentConfig) (env : AgentEnv) (a : Process) (conn : Connection)
    (payload : Payload) : Process × List AgentEffect :=
  match conn.session with
  | none => (a, [])
  | some est =>
      match openDispatch est payload with
      | (none, est) => (a.setConn { conn with session := some est }, [])
      | (some dispatch, est) =>
          let conn := { conn with session := some est }
          if dispatch.kind.text = shellKind then
            handleShellOpen cfg env (a.setConn conn) conn est dispatch
          else handleJob (a.setConn conn) conn est dispatch

/-- The branch for the stream downlink. -/
def onStreamDown (env : AgentEnv) (a : Process) (conn : Connection) (payload : Payload) :
    Process × List AgentEffect :=
  match conn.activeStream with
  | none => (a, [])
  | some stream =>
      match payload.envelope with
      | none => (a, [])
      | some e =>
          match stream.routeDownlink e with
          | (_, false, _) => (a.setConn { conn with activeStream := none }, [])
          | (none, true, stream) => (a.setConn { conn with activeStream := some stream }, [])
          | (some data, true, stream) =>
              (a.setConn { conn with activeStream := some stream },
                if env.ptyQueue then [.ptyInput data] else [])

/-- {lit}`on_publish`. -/
def onPublish (cfg : AgentConfig) (env : AgentEnv) (a : Process) (conn : Connection)
    (topic : String) (payload : Payload) : Process × List AgentEffect :=
  if topic = Topics.hsDown cfg.hostId.text then onServerHello a conn payload
  else if topic = Topics.ctrlDown cfg.hostId.text then onBeacon cfg env a conn payload
  else if topic = Topics.dispatchDown cfg.hostId.text then onDispatch cfg env a conn payload
  else if topic = Topics.streamDown cfg.hostId.text then onStreamDown env a conn payload
  else (a, [])

/-! ## The process -/

/-- What can happen to the agent process: its connection loop advances, or one of
its tasks sends or ends, or the process starts again. -/
inductive AgentEvent where
  | connect (id : AgentIdentity)
  | connAck (epoch : Option UInt64) (sid : Str) (eph : Option Point)
  | publish (topic : String) (payload : Payload)
  | disconnect
  | jobSeals (task : Nat) (result : JobResult)
  | jobEnqueues (task : Nat)
  | jobEnds (task : Nat)
  | pumpSends (task : Nat) (frame : StreamFrame)
  | pumpEnds (task : Nat)
  | restart

/-- The first half of {lit}`JobChannel::send` by a job task: take a sequence number
and seal. -/
def jobSeals (a : Process) (task : Nat) (result : JobResult) : Process × List AgentEffect :=
  match a.jobs.lookup task, a.sending.lookup task with
  | some job, none =>
      let sealed := sealUplink job.keys (a.count job.cell) job.hostId job.sid result.encode
      ({ a.setCount job.cell sealed.2 with sending := a.sending.put task sealed.1 },
        [.sealed (sealUplinkCall job.keys (a.count job.cell))])
  | _, _ => (a, [])

/-- The second half: {lit}`results.send(bytes).await`.  Other tasks may seal and
send before it. -/
def jobEnqueues (cfg : AgentConfig) (env : AgentEnv) (a : Process) (task : Nat) :
    Process × List AgentEffect :=
  match a.sending.lookup task with
  | none => (a, [])
  | some e =>
      ({ a with sending := a.sending.drop task },
        if env.resultsOpen then [.queued (Topics.resultUp cfg.hostId.text) e] else [])

/-- A job task returns, which it does not do in the middle of a send. -/
def jobEnds (a : Process) (task : Nat) : Process × List AgentEffect :=
  match a.sending.lookup task with
  | none => ({ a with jobs := a.jobs.drop task }, [])
  | some _ => (a, [])

/-- One frame of an uplink pump.  A pump is the only sender under its keys, so
sealing and queueing are one step. -/
def pumpSends (cfg : AgentConfig) (a : Process) (task : Nat) (frame : StreamFrame) :
    Process × List AgentEffect :=
  match a.pumps.lookup task with
  | none => (a, [])
  | some pump =>
      let sealed := pump.sealFrame frame
      ({ a with pumps := a.pumps.put task sealed.2 },
        [.sealed pump.sealCall, .queued (Topics.streamUp cfg.hostId.text) sealed.1])

/-- One step of the agent process. -/
def agentStep (cfg : AgentConfig) (env : AgentEnv) (a : Process) :
    AgentEvent → Process × List AgentEffect
  | .connect id =>
      match a.conn with
      | none => (a.setConn (Connection.new id), [])
      | some _ => (a, [])
  | .connAck epoch sid eph =>
      match a.conn, epoch with
      | some conn, some epoch =>
          let started := beginHandshake cfg env conn.id epoch sid eph
          (a.setConn { conn with handshaking := started.1 }, started.2)
      | _, _ => (a, [])
  | .publish topic payload =>
      match a.conn with
      | none => (a, [])
      | some conn => onPublish cfg env a conn topic payload
  | .disconnect => ({ a with conn := none }, [])
  | .jobSeals task result => jobSeals a task result
  | .jobEnqueues task => jobEnqueues cfg env a task
  | .jobEnds task => jobEnds a task
  | .pumpSends task frame => pumpSends cfg a task frame
  | .pumpEnds task => ({ a with pumps := a.pumps.drop task }, [])
  | .restart => (Process.new, [])

/-- A run of the agent process: the last state and all effects in order. -/
def agentRun (cfg : AgentConfig) (a : Process) :
    List (AgentEnv × AgentEvent) → Process × List AgentEffect
  | [] => (a, [])
  | (env, ev) :: turns =>
      let here := agentStep cfg env a ev
      let later := agentRun cfg here.1 turns
      (later.1, here.2 ++ later.2)

end Agent
end OpenSsmAgent
