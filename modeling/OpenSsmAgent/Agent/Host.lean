import OpenSsmAgent.Agent.JobTraces
import OpenSsmAgent.Agent.Nonces

/-!
# The agent on its host

The agent process as a whole: its control channel, which opens dispatches and spawns job
tasks and shells, together with the job runner, which runs the tasks.  A host keeps a
record of the envelopes it has opened under the key of a session, and of the processes it
has started, each with the envelope that caused it.

Main results:

- Theorem {lit}`agentStep_cases`: what a step of the control channel does to the session,
  and what it starts.
-/

open Framing SymbolicCrypto RemoteCalls CrashStore

namespace OpenSsmAgent
namespace Agent

open Seal Wire Proto Hs

/-! ## State -/

/-- An envelope that was opened under the keys of the session. -/
structure Opening where
  keys : SessionKeys
  env : Envelope
  plaintext : Bytes

/-- A process that was started: a command or a shell. -/
inductive Started where
  | exec (argv : List Str)
  | pty (rows cols : UInt16) (ok : Bool)

/-- A process with its kind and user, and the opening that caused it. -/
structure Start where
  cause : Nat
  kind : Str
  runAs : Str
  process : Started

/-- What is fixed for the host. -/
structure HostConfig where
  agent : AgentConfig
  texts : JobTexts

/-- The configuration of its job runner. -/
def HostConfig.jobs (cfg : HostConfig) : JobConfig :=
  ⟨cfg.agent.hostId, cfg.agent.backstop, cfg.texts⟩

/-- The control channel and the job runner; {lit}`runs` joins the tasks of the two, and
{lit}`causes` holds the opening behind each job task. -/
structure Host where
  process : Process
  jobs : Jobs
  runs : List (Nat × Nat)
  causes : List Nat
  openings : List Opening
  starts : List Start
  effects : List AgentEffect

/-- The host as its agent starts for the first time. -/
def Host.new (disk : Disk String) (pid : String) : Host :=
  ⟨Process.new, Jobs.new disk pid, [], [], [], [], []⟩

/-- What happens to the host: a step of the control channel, a step of a job task, or the
start of the process after a crash. -/
inductive HostEvent where
  | control (env : AgentEnv) (event : AgentEvent)
  | job (task : Nat) (choice : JobChoice)
  | restart (pick : String → Nat) (torn : String → Bytes) (dirLost : Bool) (pid : String)
      (stale removable : String → Bool)

/-! ## Steps -/

/-- The dispatches that were handed to job tasks. -/
def jobsSpawned (es : List AgentEffect) : List Dispatch :=
  es.filterMap fun
    | .jobSpawned dispatch => some dispatch
    | _ => none

/-- The shells that were started. -/
def ptyStarts (cause : Nat) (es : List AgentEffect) : List Start :=
  es.filterMap fun
    | .ptySpawned _ runAs rows cols ok => some ⟨cause, Str.lit shellKind, runAs, .pty rows cols ok⟩
    | _ => none

/-- The commands that were started. -/
def execStarts (cause : Nat) (acts : List JobAct) : List Start :=
  acts.filterMap fun
    | .executed kind runAs argv => some ⟨cause, kind, runAs, .exec argv⟩
    | _ => none

/-- The envelope that a publish has opened, a beacon or a dispatch. -/
def openedBy (cfg : AgentConfig) (a : Process) (topic : String) (payload : Payload) :
    List Opening :=
  match a.conn.bind Connection.session, payload.envelope with
  | some est, some env =>
      if topic = Topics.hsDown cfg.hostId.text then []
      else if topic = Topics.ctrlDown cfg.hostId.text ∧ env.sid ≠ est.sid then []
      else if topic = Topics.ctrlDown cfg.hostId.text ∨
          topic = Topics.dispatchDown cfg.hostId.text then
        (est.openDownlink env).1.toList.map fun plaintext => ⟨est.keys, env, plaintext⟩
      else []
  | _, _ => []

/-- The envelope that an event has opened. -/
def openedIn (cfg : AgentConfig) (a : Process) : AgentEvent → List Opening
  | .publish topic payload => openedBy cfg a topic payload
  | _ => []

/-- Whether a job task has returned. -/
def JobPhase.isEnded : JobPhase → Bool
  | .ended => true
  | _ => false

/-- A job task gives its permit back when {lit}`run_job` has returned. -/
def Host.allows (h : Host) : AgentEvent → Bool
  | .jobEnds task => h.runs.any fun run =>
      run.1 = task && (h.jobs.tasks[run.2]?).any fun job => job.phase.isEnded
  | .restart => false
  | _ => true

/-- {lit}`next_epoch` syncs the state directory. -/
def Host.syncEpoch (cfg : HostConfig) (h : Host) : AgentEvent → Jobs
  | .connAck (some _) _ _ =>
      if h.process.conn.isSome then h.jobs.next cfg.jobs .epoch else h.jobs
  | _ => h.jobs

/-- One step of the host. -/
def Host.next (cfg : HostConfig) (h : Host) : HostEvent → Host
  | .control env event =>
      if h.allows event then
        let out := agentStep cfg.agent env h.process event
        let spawned := jobsSpawned out.2
        { process := out.1
          jobs := spawned.foldl (fun jobs dispatch => jobs.next cfg.jobs (.spawn dispatch))
            (h.syncEpoch cfg event)
          runs := h.runs ++ spawned.map fun _ => (h.process.nextTask, h.jobs.tasks.length)
          causes := h.causes ++ spawned.map fun _ => h.openings.length
          openings := h.openings ++ openedIn cfg.agent h.process event
          starts := h.starts ++ ptyStarts h.openings.length out.2
          effects := h.effects ++ out.2 }
      else h
  | .job i choice =>
      let jobs := h.jobs.next cfg.jobs (.step i choice)
      let acts := (jobs.log.drop h.jobs.log.length).map JobEntry.act
      { h with jobs := jobs, starts := h.starts ++ execStarts (h.causes.getD i 0) acts }
  | .restart pick torn dirLost pid stale removable =>
      { h with
        process := Process.new
        jobs := h.jobs.restart pick torn dirLost pid stale removable
        runs := [] }

/-- A run of the host. -/
def Host.run (cfg : HostConfig) (h : Host) (events : List HostEvent) : Host :=
  events.foldl (Host.next cfg) h

/-! ## What the control channel does -/

/-- What an opened envelope starts: nothing, a job task, or a shell that the backstop
permits. -/
inductive Causes (cfg : AgentConfig) (a : Process) (plaintext : Bytes) : List AgentEffect → Prop
  | nothing (es : List AgentEffect) : jobsSpawned es = [] → (∀ cause, ptyStarts cause es = []) →
      helloEphs es = [] → Causes cfg a plaintext es
  | job (dispatch : Dispatch) : Dispatch.decode plaintext = some dispatch →
      dispatch.kind.text ≠ shellKind → a.jobs.size < maxConcurrentJobs →
      Causes cfg a plaintext [.jobSpawned dispatch]
  | shell (dispatch : Dispatch) (rows cols : UInt16) (ok : Bool) :
      Dispatch.decode plaintext = some dispatch → dispatch.kind.text = shellKind →
      cfg.backstop.permits ⟨dispatch.kind, default, dispatch.runAs, default⟩ = .ok () →
      Causes cfg a plaintext [.ptySpawned dispatch.jobId dispatch.runAs rows cols ok]

/-- What a step of the control channel does to the handshake and the session, what it
opens and what it starts. -/
inductive ChannelMove (cfg : AgentConfig) (a : Process) (event : AgentEvent) :
    Process → List AgentEffect → List Opening → Prop
  | quiet (a' : Process) (es : List AgentEffect) : jobsSpawned es = [] →
      (∀ cause, ptyStarts cause es = []) → helloEphs es = [] →
      (∀ conn', a'.conn = some conn' → (conn'.session = none ∧ conn'.handshaking = none) ∨
        ∃ conn, a.conn = some conn ∧ conn'.session = conn.session ∧
          (conn'.handshaking = none ∨ conn'.handshaking = conn.handshaking)) →
      ChannelMove cfg a event a' es []
  | hello (conn : Connection) (handshaking : Option Handshaking) (es : List AgentEffect) :
      (∃ epoch sid eph, event = .connAck (some epoch) sid eph) → a.conn = some conn →
      jobsSpawned es = [] → (∀ cause, ptyStarts cause es = []) →
      (∀ hs, handshaking = some hs → ofPoint hs.initiator.eph.public ∈ helloEphs es) →
      ChannelMove cfg a event (a.setConn { conn with handshaking := handshaking }) es []
  | finish (a' : Process) (conn : Connection) (hs : Handshaking) (serverEph : Point)
      (est : Established) : a.conn = some conn → conn.handshaking = some hs →
      SessionKeysOf hs.initiator.eph.public serverEph est.keys → est.recvHigh = none →
      a'.conn = some { conn with handshaking := none, session := some est } →
      ChannelMove cfg a event a' [] []
  | opens (a' : Process) (conn conn' : Connection) (est : Established) (env : Envelope)
      (plaintext : Bytes) (es : List AgentEffect) :
      (∃ topic payload, event = .publish topic payload ∧ payload.envelope = some env) →
      a.conn = some conn → conn.session = some est →
      openEnvelope est.keys .coordToAgent env = some plaintext →
      ReplayGuard.stale est.recvHigh env.seq = false → a'.conn = some conn' →
      conn'.session = some { est with recvHigh := some env.seq } →
      conn'.handshaking = conn.handshaking → Causes cfg a plaintext es →
      ChannelMove cfg a event a' es [⟨est.keys, env, plaintext⟩]

section Steps

variable {cfg : AgentConfig} {env : AgentEnv} {a : Process} {conn : Connection} {event : AgentEvent}

/-- A downlink envelope changes nothing, or opens and advances the guard. -/
theorem openDownlink_cases (est : Established) (e : Envelope) :
    est.openDownlink e = (none, est) ∨
    ∃ plaintext, openEnvelope est.keys .coordToAgent e = some plaintext ∧
      ReplayGuard.stale est.recvHigh e.seq = false ∧
      est.openDownlink e = (some plaintext, { est with recvHigh := some e.seq }) := by
  unfold Established.openDownlink Established.acceptRecv
  cases hopen : openEnvelope est.keys .coordToAgent e with
  | none => exact Or.inl rfl
  | some plaintext =>
      cases hstale : ReplayGuard.stale est.recvHigh e.seq with
      | true => exact Or.inl (by simp)
      | false => exact Or.inr ⟨plaintext, rfl, rfl, by simp⟩

/-- A step that leaves the connection's handshake and session as they are. -/
theorem quiet_of_conn_eq {a' : Process} {es : List AgentEffect} (hjobs : jobsSpawned es = [])
    (hptys : ∀ cause, ptyStarts cause es = []) (hhellos : helloEphs es = [])
    (hconn : a'.conn = a.conn) : ChannelMove cfg a event a' es [] := by
  refine .quiet a' es hjobs hptys hhellos ?_
  intro conn' hconn'
  exact Or.inr ⟨conn', hconn ▸ hconn', rfl, Or.inr rfl⟩

theorem quiet_idle : ChannelMove cfg a event a [] [] :=
  quiet_of_conn_eq rfl (fun _ => rfl) rfl rfl

theorem onServerHello_cases (hc : a.conn = some conn) (payload : Payload) :
    ChannelMove cfg a event (onServerHello a conn payload).1
      (onServerHello a conn payload).2 [] := by
  unfold onServerHello
  split
  · exact quiet_idle
  · rename_i hs hhs
    split
    · refine .quiet _ [] rfl (fun _ => rfl) rfl ?_
      intro conn' hconn'
      obtain rfl := Option.some.inj hconn'
      exact Or.inr ⟨conn, hc, rfl, Or.inl rfl⟩
    · rename_i est hfinish
      obtain ⟨sh, serverEph, keys, -, -, -, hkeys, rfl⟩ := finishHandshake_eq_ok_iff.mp hfinish
      exact .finish _ conn hs serverEph _ hc hhs (sessionKeysOf_finish hkeys) rfl rfl

theorem openedBy_of_session_none (hc : a.conn = some conn) (hsession : conn.session = none)
    (topic : String) (payload : Payload) : openedBy cfg a topic payload = [] := by
  simp [openedBy, hc, hsession]

/-- Only beacons and dispatches are opened. -/
theorem openedBy_of_topic {topic : String} (payload : Payload)
    (h : topic = Topics.hsDown cfg.hostId.text ∨
      topic ≠ Topics.ctrlDown cfg.hostId.text ∧ topic ≠ Topics.dispatchDown cfg.hostId.text) :
    openedBy cfg a topic payload = [] := by
  unfold openedBy
  split
  · rcases h with hhs | ⟨hctrl, hdispatch⟩
    · rw [if_pos hhs]
    · simp [hctrl, hdispatch]
  · rfl

/-- The connection with its session as it was. -/
theorem quiet_session {est : Established} (hc : a.conn = some conn)
    (hsession : conn.session = some est) :
    ChannelMove cfg a event (a.setConn { conn with session := some est }) [] [] := by
  refine .quiet _ [] rfl (fun _ => rfl) rfl ?_
  intro conn' hconn'
  obtain rfl := Option.some.inj hconn'
  exact Or.inr ⟨conn, hc, hsession.symm, Or.inr rfl⟩

theorem onBeacon_cases (hc : a.conn = some conn) {topic : String} (payload : Payload)
    (hhs : topic ≠ Topics.hsDown cfg.hostId.text)
    (htopic : topic = Topics.ctrlDown cfg.hostId.text) :
    ChannelMove cfg a (.publish topic payload) (onBeacon cfg env a conn payload).1
      (onBeacon cfg env a conn payload).2
      (openedBy cfg a topic payload) := by
  subst htopic
  unfold onBeacon
  cases hsession : conn.session with
  | none =>
      rw [openedBy_of_session_none hc hsession]
      exact quiet_idle
  | some est =>
      have hopened : ∀ e, payload.envelope = some e → e.sid = est.sid →
          openedBy cfg a (Topics.ctrlDown cfg.hostId.text) payload =
            (est.openDownlink e).1.toList.map fun plaintext => ⟨est.keys, e, plaintext⟩ := by
        intro e he hsid
        simp [openedBy, hc, hsession, he, hhs, hsid]
      cases he : payload.envelope with
      | none =>
          have hnone : openedBy cfg a (Topics.ctrlDown cfg.hostId.text) payload = [] := by
            simp [openedBy, he]
          simp only [confirmSession, he, hnone]
          exact quiet_session hc hsession
      | some e =>
          by_cases hsid : e.sid = est.sid
          · rw [hopened e he hsid]
            rcases openDownlink_cases est e with hopen | ⟨plaintext, hplain, hfresh, hopen⟩
            · simp only [confirmSession, he, hsid, hopen, ne_eq, not_true_eq_false, if_false,
                Option.toList_none, List.map_nil]
              exact quiet_session hc hsession
            · by_cases hready : plaintext = ctrlSessionReady
              · simp only [confirmSession, he, hsid, hopen, hready, ne_eq, not_true_eq_false,
                  if_false, Option.toList_some, List.map_cons, List.map_nil]
                exact .opens _ conn _ est e _ _ ⟨_, _, rfl, he⟩ hc hsession
                  (hready ▸ hplain) hfresh rfl rfl rfl (.nothing _ rfl (fun _ => rfl) rfl)
              · simp only [confirmSession, he, hsid, hopen, hready, ne_eq, not_true_eq_false,
                  not_false_eq_true, if_false, if_true, Option.toList_some, List.map_cons,
                  List.map_nil]
                exact .opens _ conn _ est e _ _ ⟨_, _, rfl, he⟩ hc hsession hplain hfresh rfl rfl
                  rfl (.nothing _ rfl (fun _ => rfl) rfl)
          · have hnone : openedBy cfg a (Topics.ctrlDown cfg.hostId.text) payload = [] := by
              simp [openedBy, hc, hsession, he, hsid]
            simp only [confirmSession, he, hnone, ne_eq, hsid, not_false_eq_true, if_true]
            exact quiet_session hc hsession

/-- A shell is refused, or the backstop permits it; the session stays. -/
theorem handleShellOpen_cases (cfg : AgentConfig) (env : AgentEnv) (a a' : Process)
    (conn' : Connection) (est : Established)
    {dispatch : Dispatch} {plaintext : Bytes} (hdecode : Dispatch.decode plaintext = some dispatch)
    (hkind : dispatch.kind.text = shellKind) (hc : a'.conn = some conn') :
    Causes cfg a plaintext (handleShellOpen cfg env a' conn' est dispatch).2 ∧
    ∃ conn'', (handleShellOpen cfg env a' conn' est dispatch).1.conn = some conn'' ∧
      conn''.session = conn'.session ∧ conn''.handshaking = conn'.handshaking := by
  have hnone : Causes cfg a plaintext [] := .nothing [] rfl (fun _ => rfl) rfl
  unfold handleShellOpen
  split_ifs
  · exact ⟨hnone, conn', hc, rfl, rfl⟩
  · exact ⟨hnone, conn', hc, rfl, rfl⟩
  · exact ⟨hnone, conn', hc, rfl, rfl⟩
  · split
    · exact ⟨hnone, conn', hc, rfl, rfl⟩
    · rename_i hpermits
      dsimp only
      split_ifs with hspawned
      · rw [hspawned]
        exact ⟨.shell dispatch _ _ _ hdecode hkind hpermits, _, rfl, rfl, rfl⟩
      · exact ⟨.shell dispatch _ _ _ hdecode hkind hpermits, conn', hc, rfl, rfl⟩

/-- A dispatch that opens starts a task, a shell or nothing; any other payload on its topic
changes nothing. -/
theorem onDispatch_cases (hc : a.conn = some conn) {topic : String} (payload : Payload)
    (hhs : topic ≠ Topics.hsDown cfg.hostId.text) (hctrl : topic ≠ Topics.ctrlDown cfg.hostId.text)
    (htopic : topic = Topics.dispatchDown cfg.hostId.text) :
    ChannelMove cfg a (.publish topic payload) (onDispatch cfg env a conn payload).1
      (onDispatch cfg env a conn payload).2 (openedBy cfg a topic payload) := by
  subst htopic
  unfold onDispatch
  cases hsession : conn.session with
  | none =>
      rw [openedBy_of_session_none hc hsession]
      exact quiet_idle
  | some est =>
      cases he : payload.envelope with
      | none =>
          have hnone : openedBy cfg a (Topics.dispatchDown cfg.hostId.text) payload = [] := by
            simp [openedBy, he]
          simp only [openDispatch, he, hnone]
          exact quiet_session hc hsession
      | some e =>
          have hopened : openedBy cfg a (Topics.dispatchDown cfg.hostId.text) payload =
              (est.openDownlink e).1.toList.map fun plaintext => ⟨est.keys, e, plaintext⟩ := by
            simp [openedBy, hc, hsession, he, hhs, hctrl]
          rw [hopened]
          rcases openDownlink_cases est e with hopen | ⟨plaintext, hplain, hfresh, hopen⟩
          · simp only [openDispatch, he, hopen, Option.toList_none, List.map_nil]
            exact quiet_session hc hsession
          · simp only [openDispatch, he, hopen, Option.toList_some, List.map_cons, List.map_nil]
            have hopens : ∀ {a' : Process} {es : List AgentEffect} {conn' : Connection},
                a'.conn = some conn' →
                conn'.session = some { est with recvHigh := some e.seq } →
                conn'.handshaking = conn.handshaking → Causes cfg a plaintext es →
                ChannelMove cfg a (.publish (Topics.dispatchDown cfg.hostId.text) payload) a' es
                  [⟨est.keys, e, plaintext⟩] :=
              .opens _ conn _ est e plaintext _ ⟨_, _, rfl, he⟩ hc hsession hplain hfresh
            cases hdecode : Dispatch.decode plaintext with
            | none => exact hopens rfl rfl rfl (.nothing [] rfl (fun _ => rfl) rfl)
            | some dispatch =>
                dsimp only
                split_ifs with hkind
                · obtain ⟨hcauses, conn', hconn', hsession', hhandshaking'⟩ :=
                    handleShellOpen_cases cfg env a
                      (a.setConn { conn with session := some { est with recvHigh := some e.seq } })
                      { conn with session := some { est with recvHigh := some e.seq } }
                      { est with recvHigh := some e.seq } hdecode hkind rfl
                  exact hopens hconn' hsession' hhandshaking' hcauses
                · unfold handleJob
                  split_ifs with hcap
                  · exact hopens rfl rfl rfl (.job dispatch hdecode hkind hcap)
                  · exact hopens rfl rfl rfl (.nothing [] rfl (fun _ => rfl) rfl)

theorem onStreamDown_cases (hc : a.conn = some conn) (payload : Payload) :
    ChannelMove cfg a event (onStreamDown env a conn payload).1
      (onStreamDown env a conn payload).2 [] := by
  have hstream : ∀ (stream : Option ShellStream) (es : List AgentEffect), jobsSpawned es = [] →
      (∀ cause, ptyStarts cause es = []) → helloEphs es = [] →
      ChannelMove cfg a event (a.setConn { conn with activeStream := stream }) es [] := by
    intro stream es hjobs hptys hhellos
    refine .quiet _ es hjobs hptys hhellos ?_
    intro conn' hconn'
    obtain rfl := Option.some.inj hconn'
    exact Or.inr ⟨conn, hc, rfl, Or.inr rfl⟩
  unfold onStreamDown
  split
  · exact quiet_idle
  · split
    · exact quiet_idle
    · split
      · exact hstream none [] rfl (fun _ => rfl) rfl
      · exact hstream _ [] rfl (fun _ => rfl) rfl
      · split_ifs
        · exact hstream _ _ rfl (fun _ => rfl) rfl
        · exact hstream _ [] rfl (fun _ => rfl) rfl

theorem beginHandshake_starts (cfg : AgentConfig) (env : AgentEnv) (id : AgentIdentity)
    (epoch : UInt64) (sid : Str) (eph : Option Point) :
    jobsSpawned (beginHandshake cfg env id epoch sid eph).2 = [] ∧
      ∀ cause, ptyStarts cause (beginHandshake cfg env id epoch sid eph).2 = [] := by
  unfold beginHandshake
  dsimp only
  split_ifs
  · split
    · exact ⟨rfl, fun _ => rfl⟩
    · split_ifs <;> exact ⟨rfl, fun _ => rfl⟩
  · exact ⟨rfl, fun _ => rfl⟩

/-- What a step of the control channel does, for every event of a running process. -/
theorem agentStep_cases (event : AgentEvent) (hrunning : event ≠ .restart) :
    ChannelMove cfg a event (agentStep cfg env a event).1 (agentStep cfg env a event).2
      (openedIn cfg a event) := by
  cases event with
  | connect id =>
      simp only [agentStep, openedIn]
      split
      · refine .quiet _ [] rfl (fun _ => rfl) rfl ?_
        intro conn' hconn'
        obtain rfl := Option.some.inj hconn'
        exact Or.inl ⟨rfl, rfl⟩
      · exact quiet_idle
  | connAck epoch sid eph =>
      simp only [agentStep, openedIn]
      split
      · rename_i conn epoch hc
        obtain ⟨-, hephs⟩ := beginHandshake_effects cfg env conn.id epoch sid eph
        obtain ⟨hjobs, hptys⟩ := beginHandshake_starts cfg env conn.id epoch sid eph
        exact .hello conn _ _ ⟨epoch, sid, eph, rfl⟩ hc hjobs hptys hephs
      · exact quiet_idle
  | publish topic payload =>
      simp only [agentStep, openedIn]
      cases hc : a.conn with
      | none =>
          have hnone : openedBy cfg a topic payload = [] := by simp [openedBy, hc]
          rw [hnone]
          exact quiet_idle
      | some conn =>
          dsimp only
          unfold onPublish
          split_ifs with hhs hctrl hdispatch hstream
          · rw [openedBy_of_topic payload (.inl hhs)]
            exact onServerHello_cases hc payload
          · exact onBeacon_cases hc payload hhs hctrl
          · exact onDispatch_cases hc payload hhs hctrl hdispatch
          · rw [openedBy_of_topic payload (.inr ⟨hctrl, hdispatch⟩)]
            exact onStreamDown_cases hc payload
          · rw [openedBy_of_topic payload (.inr ⟨hctrl, hdispatch⟩)]
            exact quiet_idle
  | disconnect =>
      refine .quiet _ [] rfl (fun _ => rfl) rfl ?_
      intro conn' hconn'
      cases hconn'
  | jobSeals task result =>
      simp only [agentStep, jobSeals, openedIn]
      split
      · exact quiet_of_conn_eq rfl (fun _ => rfl) rfl rfl
      · exact quiet_idle
  | jobEnqueues task =>
      simp only [agentStep, jobEnqueues, openedIn]
      split
      · exact quiet_idle
      · split_ifs <;> exact quiet_of_conn_eq rfl (fun _ => rfl) rfl rfl
  | jobEnds task =>
      simp only [agentStep, jobEnds, openedIn]
      split
      · exact quiet_of_conn_eq rfl (fun _ => rfl) rfl rfl
      · exact quiet_idle
  | pumpSends task frame =>
      simp only [agentStep, pumpSends, openedIn]
      split
      · exact quiet_idle
      · exact quiet_of_conn_eq rfl (fun _ => rfl) rfl rfl
  | pumpEnds task => exact quiet_of_conn_eq rfl (fun _ => rfl) rfl rfl
  | restart => exact absurd rfl hrunning

end Steps

end Agent
end OpenSsmAgent
