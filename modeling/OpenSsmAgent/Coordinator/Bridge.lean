import OpenSsmAgent.Coordinator.Ca
import OpenSsmAgent.Coordinator.Session
import OpenSsmAgent.Core.Topics
import OpenSsmAgent.Proto.Messages

/-!
# The coordinator bridge

The bridge task of {lit}`osa-coordinator/src/broker.rs`: one loop that owns the
session store, the pending jobs, the shell routes and the heartbeat table, and
that handles broker messages, operator commands and the sweep one after the
other.  Everything the loop does not decide itself is an argument of the step:
whether a publish succeeds, whether an operator channel has room, the clocks, the
ephemeral drawn, and the answers of the revocation and epoch stores.

A handler returns the new state and the effects it had, in order.
-/

open Framing SymbolicCrypto

namespace OpenSsmAgent
namespace Coordinator

open Seal Wire Domain Hs Proto

/-! ## State -/

/-- An operator channel. -/
abbrev Channel := Nat

/-- One live interactive shell.  The allocator counts its calls. -/
structure ShellRoute where
  streamId : Str
  streamKeys : SessionKeys
  sid : Str
  sendSeq : Nat
  recvHigh : Option UInt64
  output : Channel
deriving DecidableEq

namespace ShellRoute

/-- {lit}`ShellRoute::seal_downlink`. -/
def sealDownlink (r : ShellRoute) (hostStr : Str) (frame : StreamFrame) : Envelope × ShellRoute :=
  (sealEnvelope r.streamKeys .coordToAgent hostStr r.sid (wireSeq r.sendSeq) .stream frame.encode,
    { r with sendSeq := r.sendSeq + 1 })

/-- The call of {lit}`seal` that the next {lit}`seal_downlink` makes. -/
def sealCall (r : ShellRoute) : SealCall :=
  ⟨r.streamKeys.key .coordToAgent, r.sendSeq⟩

/-- {lit}`ShellRoute::open_uplink`: the guard advances before the body is
decoded. -/
def openUplink (r : ShellRoute) (env : Envelope) : Option StreamFrame × ShellRoute :=
  let o := openGuarded r.streamKeys .agentToCoord r.recvHigh env
  (o.1.bind StreamFrame.decode, { r with recvHigh := o.2 })

end ShellRoute

/-- A monotonic instant in nanoseconds. -/
abbrev Instant := Nat

def seconds (n : Nat) : Nat := n * 1000000000

/-- One in-flight dispatched job. -/
structure PendingJob where
  events : Channel
  deadline : Instant
deriving DecidableEq

def maxPendingJobs : Nat := 4096

def pendingTtl : Nat := seconds 600

def onlineAfterGap : Nat := seconds 90

def maxTrackedHosts : Nat := 50000

/-- What the bridge task owns. -/
structure Bridge where
  sessions : SessionStore
  lastSeen : Table String Instant
  pending : Table (HostId × Str) PendingJob
  shells : Table HostId ShellRoute

namespace Bridge

def new : Bridge where
  sessions := SessionStore.new
  lastSeen := ∅
  pending := ∅
  shells := ∅

def setSession (b : Bridge) (host : HostId) (s : Session) : Bridge :=
  { b with sessions := b.sessions.set host s }

def setRoute (b : Bridge) (host : HostId) (r : ShellRoute) : Bridge :=
  { b with shells := b.shells.put host r }

def dropRoute (b : Bridge) (host : HostId) : Bridge :=
  { b with shells := b.shells.drop host }

def addPending (b : Bridge) (key : HostId × Str) (job : PendingJob) : Bridge :=
  { b with pending := b.pending.put key job }

def dropPending (b : Bridge) (key : HostId × Str) : Bridge :=
  { b with pending := b.pending.drop key }

@[simp] theorem dropRoute_setRoute (b : Bridge) (host : HostId) (r : ShellRoute) :
    (b.setRoute host r).dropRoute host = b.dropRoute host := by
  simp only [setRoute, dropRoute, Table.drop_put]

end Bridge

/-! ## Effects and the environment of a step -/

/-- The result of {lit}`try_send` on an operator channel. -/
inductive SendResult where
  | ok
  | full
  | closed
deriving DecidableEq

/-- What a step does to the outside; {lit}`confirmed` is the report that an agent
confirmed its session. -/
inductive Effect where
  | sealed (call : SealCall)
  | published (topic : String) (message : Message) (ok : Bool)
  | event (channel : Channel) (host : HostId) (result : JobResult) (sent : SendResult)
  | frame (channel : Channel) (frame : StreamFrame) (sent : SendResult)
  | hosts (channel : Channel) (hosts : List HostId)
  | confirmed (host : HostId)
  | upsert (host : HostId) (inventory : Inventory)
deriving DecidableEq

/-- A store answered, or failed. -/
abbrev StoreAnswer := Except Unit Bool

/-- What a step meets: the link to the broker, the operator channels, the clocks,
the entropy source, the stores and the upsert slots. -/
structure StepEnv where
  publish : String → Message → Bool
  sendEvent : Channel → HostId → JobResult → SendResult
  sendFrame : Channel → StreamFrame → SendResult
  now : Instant
  utcNow : Int
  eph : Option Point
  isRevoked : HostId → StoreAnswer
  admitEpoch : HostId → UInt64 → StoreAnswer
  slot : Bool

namespace StepEnv

/-- Send an event to an operator. -/
def eventTo (env : StepEnv) (ch : Channel) (host : HostId) (r : JobResult) : Effect :=
  .event ch host r (env.sendEvent ch host r)

/-- Send a frame to an operator. -/
def frameTo (env : StepEnv) (ch : Channel) (f : StreamFrame) : Effect :=
  .frame ch f (env.sendFrame ch f)

/-- Hand a message to the broker. -/
def publishTo (env : StepEnv) (topic : String) (m : Message) : Effect :=
  .published topic m (env.publish topic m)

/-- An environment in which nothing fails or is refused. -/
def smooth (now : Instant) (utcNow : Int) (eph : Point) : StepEnv where
  publish := fun _ _ => true
  sendEvent := fun _ _ _ => .ok
  sendFrame := fun _ _ => .ok
  now := now
  utcNow := utcNow
  eph := some eph
  isRevoked := fun _ => .ok false
  admitEpoch := fun _ _ => .ok true
  slot := true

end StepEnv

/-- What is fixed for the life of the bridge. -/
structure BridgeConfig (fromDer : FromDer) where
  ca : EmbeddedCa fromDer
  inventorySink : Bool

/-! ## Small helpers of the source -/

/-- {lit}`error_result`. -/
def errorResult (jobId msg : Str) : JobResult where
  jobId := jobId
  body := some (.outcome ⟨some (.error msg), false, false⟩)

/-- {lit}`eof_frame`. -/
def eofFrame : StreamFrame := ⟨default, true⟩

/-- {lit}`record_heartbeat`: prune, refresh or add up to the cap. -/
def recordHeartbeat (lastSeen : Table String Instant) (hostId : String) (now : Instant)
    (cap : Nat) : Table String Instant × Bool :=
  let kept := lastSeen.retain (fun _ t => now - t ≤ onlineAfterGap)
  if (kept.lookup hostId).isSome then (kept.put hostId now, false)
  else if cap ≤ kept.size then (kept, false)
  else (kept.put hostId now, true)

/-- {lit}`purge_host_jobs`: fail and forget every pending job of a host. -/
def purgeHostJobs (env : StepEnv) (b : Bridge) (host : HostId) : Bridge × List Effect :=
  ({ b with pending := b.pending.retain (fun k _ => k.1 ≠ host) },
    (b.pending.entries.filter (fun e => e.1.1 = host)).map (fun e =>
      env.eventTo e.2.events host
        (errorResult e.1.2 (Str.lit "host reconnected; job interrupted"))))

/-- {lit}`reap_stale_jobs`: fail and forget every job past its deadline. -/
def reapStaleJobs (env : StepEnv) (b : Bridge) : Bridge × List Effect :=
  ({ b with pending := b.pending.retain (fun _ job => env.now < job.deadline) },
    (b.pending.entries.filter (fun e => e.2.deadline ≤ env.now)).map (fun e =>
      env.eventTo e.2.events e.1.1
        (errorResult e.1.2 (Str.lit "no result from host (timed out)"))))

/-! ## The handshake -/

/-- A hello that passed every check before the stores are asked. -/
structure CheckedHello where
  hello : ClientHello
  clientEph : Point
  host : VerifiedHost
deriving DecidableEq

/-- The checks of {lit}`handle_client_hello` up to the replay guard, in order. -/
def checkHello {fromDer : FromDer} (ca : EmbeddedCa fromDer) (utcNow : Int) (tenant : String)
    (payload : Payload) (sessions : SessionStore) : Option CheckedHello :=
  match payload.clientHello with
  | none => none
  | some hello =>
      match toPoint hello.clientEph with
      | none => none
      | some clientEph =>
          if hello.sid.bytes = [] ∨ 128 < hello.sid.bytes.length then none
          else
            match ca.verifyHostCert utcNow hello.certDer with
            | .error _ => none
            | .ok verified =>
                if Topics.tenant verified.hostId.toStr.text ≠ tenant then none
                else if (sessions.get verified.hostId).any (fun s => s.sid = hello.sid) then none
                else some ⟨hello, clientEph, verified⟩

/-- {lit}`respond_handshake` on a checked hello. -/
def CheckedHello.respond {fromDer : FromDer} (c : CheckedHello) (ca : EmbeddedCa fromDer)
    (eph : Option Point) : Except HsError ServerResponse :=
  ca.respondHandshake c.hello.sid.asBytes c.hello.epoch c.clientEph c.hello.sig
    c.host.publicKeySec1 c.hello.certDer eph

theorem CheckedHello.sessionKeysOf {fromDer : FromDer} {c : CheckedHello}
    {ca : EmbeddedCa fromDer} {eph : Option Point} {resp : ServerResponse}
    (h : c.respond ca eph = .ok resp) : SessionKeysOf c.clientEph resp.serverEph resp.keys := by
  unfold CheckedHello.respond EmbeddedCa.respondHandshake at h
  exact sessionKeysOf_respond h

/-- The tail of {lit}`handle_client_hello` after the epoch was admitted: store the
session, publish the answer, seal and publish the beacon. -/
def establish (env : StepEnv) (b : Bridge) (c : CheckedHello) (resp : ServerResponse) :
    Bridge × List Effect × Option HostId :=
  let host := c.host.hostId
  let hostStr := host.toStr
  match b.sessions.insert host c.hello.sid resp.keys with
  | (false, _) => (b, [], none)
  | (true, sessions) =>
      let b := { b with sessions := sessions }
      let answer := Message.serverHello ⟨c.hello.sid, ofPoint resp.serverEph, resp.sig⟩
      let topic := Topics.hsDown hostStr.text
      if env.publish topic answer then
        let session := Session.start c.hello.sid resp.keys
        let beacon := session.sealDownlink hostStr ctrlSessionReady
        (b.setSession host beacon.2,
          [env.publishTo topic answer, .sealed session.sealCall,
            env.publishTo (Topics.ctrlDown hostStr.text) (.envelope beacon.1)],
          some host)
      else (b, [env.publishTo topic answer], none)

/-- {lit}`handle_client_hello`. -/
def handleClientHello {fromDer : FromDer} (ca : EmbeddedCa fromDer) (env : StepEnv) (b : Bridge)
    (tenant : String) (payload : Payload) : Bridge × List Effect × Option HostId :=
  match checkHello ca env.utcNow tenant payload b.sessions with
  | none => (b, [], none)
  | some c =>
      match env.isRevoked c.host.hostId with
      | .error _ => (b, [], none)
      | .ok true => (b, [], none)
      | .ok false =>
          match c.respond ca env.eph with
          | .error _ => (b, [], none)
          | .ok resp =>
              match env.admitEpoch c.host.hostId c.hello.epoch with
              | .error _ => (b, [], none)
              | .ok false => (b, [], none)
              | .ok true => establish env b c resp

/-- The hello branch of {lit}`run_bridge`: an established session fails the host's
pending jobs and drops its shell route. -/
def onHello {fromDer : FromDer} (ca : EmbeddedCa fromDer) (env : StepEnv) (b : Bridge)
    (tenant : String) (payload : Payload) : Bridge × List Effect :=
  match handleClientHello ca env b tenant payload with
  | (b, effects, none) => (b, effects)
  | (b, effects, some host) =>
      let purged := purgeHostJobs env b host
      (purged.1.dropRoute host, effects ++ purged.2)

/-- {lit}`handle_ctrl_ack`: whatever the plaintext turns out to be, only the replay
guard moves. -/
def handleCtrlAck (b : Bridge) (payload : Payload) : Bridge × List Effect :=
  match payload.envelope with
  | none => (b, [])
  | some env =>
      match HostId.parse env.hostId.text with
      | none => (b, [])
      | some host =>
          match b.sessions.get host with
          | none => (b, [])
          | some session =>
              if session.sid ≠ env.sid then (b, [])
              else
                let opened := session.openUplink env
                (b.setSession host opened.2,
                  if opened.1 = some ctrlSessionAck then [.confirmed host] else [])

/-! ## Operator commands -/

/-- A command of the operator service. -/
inductive BridgeCommand where
  | dispatch (host : HostId) (dispatch : Dispatch) (events : Channel)
  | onlineHosts (reply : Channel)
  | openShell (host : HostId) (streamId runAs : Str) (rows cols : UInt32) (output : Channel)
  | shellInput (host : HostId) (streamId : Str) (data : Blob)
  | shellClose (host : HostId) (streamId : Str)
deriving DecidableEq

/-- Seal a payload on a host's session and hand it to the broker on the dispatch
downlink.  The session is replaced by its advanced allocator. -/
def sealDispatch (env : StepEnv) (b : Bridge) (host : HostId) (session : Session)
    (payload : Bytes) : Bridge × List Effect × Bool :=
  let sealed := session.sealDownlink host.toStr payload
  let topic := Topics.dispatchDown host.toStr.text
  (b.setSession host sealed.2,
    [.sealed session.sealCall, env.publishTo topic (.envelope sealed.1)],
    env.publish topic (.envelope sealed.1))

/-- The dispatch branch of {lit}`handle_command`. -/
def handleDispatch (env : StepEnv) (b : Bridge) (host : HostId) (dispatch : Dispatch)
    (events : Channel) : Bridge × List Effect :=
  let key := (host, dispatch.jobId)
  let refuse (msg : Str) := env.eventTo events host (errorResult dispatch.jobId msg)
  if (b.pending.lookup key).isSome then (b, [refuse (Str.lit "duplicate job_id")])
  else if maxPendingJobs ≤ b.pending.size then
    (b, [refuse (Str.lit "coordinator at job capacity")])
  else
    match b.sessions.get host with
    | none => (b, [refuse (Str.lit "host is not connected")])
    | some session =>
        match sealDispatch env b host session dispatch.encode with
        | (b, effects, true) => (b.addPending key ⟨events, env.now + pendingTtl⟩, effects)
        | (b, effects, false) => (b, effects ++ [refuse (Str.lit "failed to reach the host")])

/-- {lit}`open_shell`. -/
def openShell (env : StepEnv) (b : Bridge) (host : HostId) (streamId runAs : Str)
    (rows cols : UInt32) (output : Channel) : Bridge × List Effect :=
  match b.sessions.get host with
  | none => (b, [env.frameTo output eofFrame])
  | some session =>
      let dispatch : Dispatch :=
        ⟨streamId, Str.lit "shell", runAs, ShellParams.encode ⟨rows, cols⟩⟩
      match sealDispatch env b host session dispatch.encode with
      | (b, effects, false) => (b, effects ++ [env.frameTo output eofFrame])
      | (b, effects, true) =>
          (b.setRoute host
            ⟨streamId, session.deriveStreamKeys streamId.bytes, session.sid, 0, none, output⟩,
            effects)

/-- Seal a frame on a shell route and hand it to the broker on the stream
downlink: the effects, the advanced route and whether the publish succeeded. -/
def sealFrame (env : StepEnv) (host : HostId) (route : ShellRoute) (frame : StreamFrame) :
    List Effect × ShellRoute × Bool :=
  let sealed := route.sealDownlink host.toStr frame
  let topic := Topics.streamDown host.toStr.text
  ([.sealed route.sealCall, env.publishTo topic (.envelope sealed.1)], sealed.2,
    env.publish topic (.envelope sealed.1))

/-- {lit}`shell_input`. -/
def shellInput (env : StepEnv) (b : Bridge) (host : HostId) (streamId : Str) (data : Blob) :
    Bridge × List Effect :=
  match b.shells.lookup host with
  | none => (b, [])
  | some route =>
      if route.streamId ≠ streamId then (b, [])
      else
        match sealFrame env host route ⟨data, false⟩ with
        | (effects, route, true) => (b.setRoute host route, effects)
        | (effects, _, false) => (b.dropRoute host, effects)

/-- {lit}`shell_close`. -/
def shellClose (env : StepEnv) (b : Bridge) (host : HostId) (streamId : Str) :
    Bridge × List Effect :=
  match b.shells.lookup host with
  | none => (b, [])
  | some route =>
      if route.streamId ≠ streamId then (b, [])
      else (b.dropRoute host, (sealFrame env host route eofFrame).1)

/-- {lit}`handle_command`. -/
def handleCommand (env : StepEnv) (b : Bridge) : BridgeCommand → Bridge × List Effect
  | .dispatch host dispatch events => handleDispatch env b host dispatch events
  | .onlineHosts reply => (b, [.hosts reply b.sessions.hostIds])
  | .openShell host streamId runAs rows cols output =>
      openShell env b host streamId runAs rows cols output
  | .shellInput host streamId data => shellInput env b host streamId data
  | .shellClose host streamId => shellClose env b host streamId

/-! ## Sealed uplinks -/

/-- {lit}`handle_stream_up`. -/
def handleStreamUp (env : StepEnv) (b : Bridge) (tenant : String) (payload : Payload) :
    Bridge × List Effect :=
  match HostId.parse tenant with
  | none => (b, [])
  | some host =>
      match b.shells.lookup host with
      | none => (b, [])
      | some route =>
          match payload.envelope with
          | none => (b, [])
          | some e =>
              match route.openUplink e with
              | (none, route) => (b.setRoute host route, [])
              | (some frame, route) =>
                  let sent := env.frameTo route.output frame
                  match env.sendFrame route.output frame with
                  | .ok =>
                      if frame.eof then
                        (b.dropRoute host, sent :: (sealFrame env host route eofFrame).1)
                      else (b.setRoute host route, [sent])
                  | .full => (b.setRoute host route, [sent])
                  | .closed => (b.dropRoute host, sent :: (sealFrame env host route eofFrame).1)

/-- Whether a result ends its job. -/
def JobResult.isTerminal (r : JobResult) : Bool :=
  match r.body with
  | some (.outcome _) => true
  | _ => false

/-- {lit}`handle_result`. -/
def handleResult (env : StepEnv) (b : Bridge) (tenant : String) (payload : Payload) :
    Bridge × List Effect :=
  match HostId.parse tenant with
  | none => (b, [])
  | some host =>
      match payload.envelope with
      | none => (b, [])
      | some e =>
          match b.sessions.get host with
          | none => (b, [])
          | some session =>
              let b := b.setSession host (session.openUplink e).2
              match (session.openUplink e).1.bind JobResult.decode with
              | none => (b, [])
              | some result =>
                  match b.pending.lookup (host, result.jobId) with
                  | none => (b, [])
                  | some job =>
                      let sent := env.eventTo job.events host result
                      match env.sendEvent job.events host result with
                      | .ok =>
                          if JobResult.isTerminal result then
                            (b.dropPending (host, result.jobId), [sent])
                          else (b, [sent])
                      | .closed => (b.dropPending (host, result.jobId), [sent])
                      | .full => (b.dropPending (host, result.jobId), [sent])

/-- {lit}`decode_inventory`: the snapshot, and the sessions with the advanced
guard. -/
def decodeInventory (sessions : SessionStore) (tenant : String) (payload : Payload) :
    Option (HostId × Inventory) × SessionStore :=
  match HostId.parse tenant with
  | none => (none, sessions)
  | some host =>
      match payload.envelope with
      | none => (none, sessions)
      | some e =>
          match sessions.get host with
          | none => (none, sessions)
          | some session =>
              (((session.openUplink e).1.bind Inventory.decode).map (fun inv => (host, inv)),
                sessions.set host (session.openUplink e).2)

/-- The inventory branch of {lit}`run_bridge`: only with a sink is the message
opened at all, and only with a free slot is the upsert started. -/
def onInventory (sink : Bool) (env : StepEnv) (b : Bridge) (tenant : String)
    (payload : Payload) : Bridge × List Effect :=
  if sink then
    let r := decodeInventory b.sessions tenant payload
    ({ b with sessions := r.2 },
      match r.1 with
      | none => []
      | some (host, inv) => if env.slot then [.upsert host inv] else [])
  else (b, [])

/-! ## The loop -/

/-- What wakes the loop. -/
inductive BridgeEvent where
  | message (topic : String) (payload : Payload)
  | command (cmd : BridgeCommand)
  | sweep

/-- Route a forwarded message by its topic. -/
def onMessage {fromDer : FromDer} (cfg : BridgeConfig fromDer) (env : StepEnv) (b : Bridge)
    (topic : String) (payload : Payload) : Bridge × List Effect :=
  match Topics.tenantFromHeartbeat topic with
  | some tenant =>
      ({ b with lastSeen := (recordHeartbeat b.lastSeen tenant env.now maxTrackedHosts).1 }, [])
  | none =>
      match Topics.tenantFromHsUp topic with
      | some tenant => onHello cfg.ca env b tenant payload
      | none =>
          match Topics.tenantFromCtrlUp topic with
          | some _ => handleCtrlAck b payload
          | none =>
              match Topics.tenantFromResultUp topic with
              | some tenant => handleResult env b tenant payload
              | none =>
                  match Topics.tenantFromStreamUp topic with
                  | some tenant => handleStreamUp env b tenant payload
                  | none =>
                      match Topics.tenantFromInventoryUp topic with
                      | some tenant => onInventory cfg.inventorySink env b tenant payload
                      | none => (b, [])

/-- One turn of {lit}`run_bridge`. -/
def step {fromDer : FromDer} (cfg : BridgeConfig fromDer) (env : StepEnv) (b : Bridge) :
    BridgeEvent → Bridge × List Effect
  | .message topic payload => onMessage cfg env b topic payload
  | .command cmd => handleCommand env b cmd
  | .sweep => reapStaleJobs env b

/-- A run of the loop: the last state and all effects in order. -/
def run {fromDer : FromDer} (cfg : BridgeConfig fromDer) (b : Bridge) :
    List (StepEnv × BridgeEvent) → Bridge × List Effect
  | [] => (b, [])
  | (env, ev) :: turns =>
      let here := step cfg env b ev
      let later := run cfg here.1 turns
      (later.1, here.2 ++ later.2)

theorem run_append {fromDer : FromDer} (cfg : BridgeConfig fromDer) (b : Bridge)
    (turns turns' : List (StepEnv × BridgeEvent)) :
    run cfg b (turns ++ turns') =
      ((run cfg (run cfg b turns).1 turns').1,
        (run cfg b turns).2 ++ (run cfg (run cfg b turns).1 turns').2) := by
  induction turns generalizing b with
  | nil => rfl
  | cons turn turns ih => simp [run, ih]

/-! ## A sample session

One enrolled host and the messages of an undisturbed handshake. -/

def samplePoint (n : Nat) : Point := ⟨List.replicate 32 (UInt8.ofNat n), by simp⟩

def sampleClientEph : Point := samplePoint 9

def sampleServerEph : Point := samplePoint 16

def sampleSid : Str := Str.lit "s"

def sampleCfg : BridgeConfig sampleDer := ⟨sampleCa, true⟩

/-- A turn in which nothing fails. -/
def sampleEnv : StepEnv := StepEnv.smooth 0 10 sampleServerEph

def sampleHello : ClientHello :=
  ⟨sampleSid, ofPoint sampleClientEph, sampleCertDer,
    .signed ⟨1⟩ (clientTranscript sampleSid.asBytes.bytes 1 sampleClientEph) 0, 1⟩

def sampleAnswer : ServerHello :=
  ⟨sampleSid, ofPoint sampleServerEph,
    .signed ⟨0⟩ (serverTranscript sampleSid.asBytes.bytes sampleClientEph sampleServerEph) 0⟩

def sampleKeys : SessionKeys :=
  SessionKeys.fromShared (diffieHellman sampleClientEph sampleServerEph)
    (Handshake.transcript sampleClientEph sampleServerEph
      (sessionBinding sampleSid.asBytes.bytes sampleClientEph sampleServerEph
        sampleCertDer.bytes))

/-- A payload that is nothing but an envelope. -/
def envelopePayload (env : Envelope) : Payload := ⟨none, none, some env⟩

/-- What the coordinator seals on the sample session with a count. -/
def sampleDownlink (count : Nat) (plaintext : Bytes) : Envelope :=
  ({ Session.start sampleSid sampleKeys with sendSeq := count }.sealDownlink sampleHost.toStr
    plaintext).1

/-- The turn that answers the sample hello. -/
def sampleHelloTurn : StepEnv × BridgeEvent :=
  (sampleEnv, .message (Topics.hsUp sampleHost.toStr.text) ⟨some sampleHello, none, none⟩)

example : ((run sampleCfg Bridge.new [sampleHelloTurn]).1.sessions.get sampleHost).map (·.keys) =
    some sampleKeys := by
  decide +kernel

end Coordinator
end OpenSsmAgent
