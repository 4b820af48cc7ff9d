import OpenSsmAgent.Agent.ControlChannel

/-!
# What a step of the agent process can do

A step of the control channel returns early wherever something is missing or fails a
check.  {lit}`AgentMove` lists what is left.  Most of it concerns the connection, of
which there is one at a time: a step makes a new one, begins a handshake in it,
finishes the handshake, or keeps its identity, its handshake and the keys of its
session; a failed handshake is dropped.

Main results:

- Theorem {lit}`agentStep_move`: every step is one of the moves.
- Theorem {lit}`agentStep_connMove`: what a step does to the connection.
- Theorem {lit}`agentStep_jobKeys`: job tasks have the keys of a session.
- Theorem {lit}`beginHandshake_eq_some`: what a handshake begins with.
-/

open Framing SymbolicCrypto

namespace OpenSsmAgent
namespace Agent

open Seal Hs Wire Proto

/-! ## Moves -/

/-- What a step of the agent process can do. -/
inductive AgentMove (cfg : AgentConfig) (env : AgentEnv) (a : Process) :
    AgentEvent → Process × List AgentEffect → Prop
  | idle {ev : AgentEvent} : AgentMove cfg env a ev (a, [])
  | connected {id : AgentIdentity} :
      AgentMove cfg env a (.connect id) (a.setConn (Connection.new id), [])
  | greeted {conn : Connection} {epoch : UInt64} {sid : Str} {eph : Option Point}
      (hconn : a.conn = some conn) :
      AgentMove cfg env a (.connAck (some epoch) sid eph)
        (a.setConn
            { conn with handshaking := (beginHandshake cfg env conn.id epoch sid eph).1 },
          (beginHandshake cfg env conn.id epoch sid eph).2)
  /-- An answer fails its check, and the handshake is gone. -/
  | spoiled {conn : Connection} {payload : Payload} (hconn : a.conn = some conn) :
      AgentMove cfg env a (.publish (Topics.hsDown cfg.hostId.text) payload)
        (a.setConn { conn with handshaking := none }, [])
  | finished {conn : Connection} {hs : Handshaking} {payload : Payload} {est : Established}
      (hconn : a.conn = some conn) (hhs : conn.handshaking = some hs)
      (hfinish : finishHandshake hs conn.id payload a.cells.length = .ok est) :
      AgentMove cfg env a (.publish (Topics.hsDown cfg.hostId.text) payload)
        ({ a with cells := a.cells ++ [0] }.setConn
          { conn with handshaking := none, session := some est }, [])
  /-- An envelope is read on the session and leads to nothing. -/
  | read {conn : Connection} {est est' : Established} {topic : String} {payload : Payload}
      (hconn : a.conn = some conn) (hest : conn.session = some est) (hsame : est.Same est') :
      AgentMove cfg env a (.publish topic payload)
        (a.setConn { conn with session := some est' }, [])
  /-- A beacon is acknowledged. -/
  | confirmed {conn : Connection} {est est' : Established} {payload : Payload} {ack : Envelope}
      (hconn : a.conn = some conn) (hest : conn.session = some est) (hsame : est.Same est')
      (hack : ack.ciphertext.keyNonce =
        some (sealUplinkCall est.keys (a.count est.cell)).keyNonce) :
      AgentMove cfg env a (.publish (Topics.ctrlDown cfg.hostId.text) payload)
        ((a.setCount est.cell (a.count est.cell + 1)).setConn { conn with session := some est' },
          [.sealed (sealUplinkCall est.keys (a.count est.cell)),
            env.publishTo (Topics.ctrlUp cfg.hostId.text) (.envelope ack)])
  | jobStarted {conn : Connection} {est est' : Established} {payload : Payload}
      {dispatch : Dispatch} (hconn : a.conn = some conn) (hest : conn.session = some est)
      (hsame : est.Same est') (hroom : a.jobs.size < maxConcurrentJobs) :
      AgentMove cfg env a (.publish (Topics.dispatchDown cfg.hostId.text) payload)
        ((a.setConn { conn with session := some est' }).spawnJob
            ⟨est'.keys, est'.cell, conn.id.hostId, est'.sid⟩,
          [.jobSpawned dispatch])
  /-- No terminal for a shell. -/
  | shellFailed {conn : Connection} {est est' : Established} {payload : Payload}
      {streamId runAs : Str} {rows cols : UInt16} (hconn : a.conn = some conn)
      (hest : conn.session = some est) (hsame : est.Same est') :
      AgentMove cfg env a (.publish (Topics.dispatchDown cfg.hostId.text) payload)
        (a.setConn { conn with session := some est' },
          [.ptySpawned streamId runAs rows cols false])
  | shellOpened {conn : Connection} {est est' : Established} {payload : Payload}
      {streamId runAs : Str} {rows cols : UInt16} (hconn : a.conn = some conn)
      (hest : conn.session = some est) (hsame : est.Same est')
      (hunused : streamId ∉ conn.usedStreamIds)
      (hroom : conn.usedStreamIds.length < maxShellsPerSession) :
      AgentMove cfg env a (.publish (Topics.dispatchDown cfg.hostId.text) payload)
        ((a.spawnPump (ShellStream.open est'.keys streamId conn.id.hostId est'.sid).2).setConn
            { conn with
              session := some est'
              activeStream :=
                some (ShellStream.open est'.keys streamId conn.id.hostId est'.sid).1
              usedStreamIds := streamId :: conn.usedStreamIds },
          [.ptySpawned streamId runAs rows cols true])
  /-- An envelope is read on the shell: it ends it, or holds input or nothing. -/
  | streamed {conn : Connection} {payload : Payload} {stream : Option ShellStream}
      {effects : List AgentEffect} (hconn : a.conn = some conn)
      (heffects : effects = [] ∨ ∃ data, effects = [.ptyInput data]) :
      AgentMove cfg env a (.publish (Topics.streamDown cfg.hostId.text) payload)
        (a.setConn { conn with activeStream := stream }, effects)
  | disconnected : AgentMove cfg env a .disconnect ({ a with conn := none }, [])
  | jobSealed {task : Nat} {result : JobResult} {job : JobChannel}
      (hjob : a.jobs.lookup task = some job) (hfree : a.sending.lookup task = none) :
      AgentMove cfg env a (.jobSeals task result)
        ({ a.setCount job.cell (a.count job.cell + 1) with
            sending := a.sending.put task
              (sealUplink job.keys (a.count job.cell) job.hostId job.sid result.encode).1 },
          [.sealed (sealUplinkCall job.keys (a.count job.cell))])
  | jobEnqueued {task : Nat} {e : Envelope} (hheld : a.sending.lookup task = some e) :
      AgentMove cfg env a (.jobEnqueues task)
        ({ a with sending := a.sending.drop task },
          if env.resultsOpen then [.queued (Topics.resultUp cfg.hostId.text) e] else [])
  | jobEnded {task : Nat} :
      AgentMove cfg env a (.jobEnds task) ({ a with jobs := a.jobs.drop task }, [])
  | pumpSent {task : Nat} {frame : StreamFrame} {pump : UplinkPump}
      (hpump : a.pumps.lookup task = some pump) :
      AgentMove cfg env a (.pumpSends task frame)
        ({ a with pumps := a.pumps.put task (pump.sealFrame frame).2 },
          [.sealed pump.sealCall,
            .queued (Topics.streamUp cfg.hostId.text) (pump.sealFrame frame).1])
  | pumpEnded {task : Nat} :
      AgentMove cfg env a (.pumpEnds task) ({ a with pumps := a.pumps.drop task }, [])
  | restarted : AgentMove cfg env a .restart (Process.new, [])

section Moves

variable {cfg : AgentConfig} {env : AgentEnv} {a : Process} {conn : Connection}
  {ev : AgentEvent}

/-! ## Every step is one of the moves -/

/-- An answer to the hello. -/
theorem onServerHello_move (hconn : a.conn = some conn) (payload : Payload) :
    AgentMove cfg env a (.publish (Topics.hsDown cfg.hostId.text) payload)
      (onServerHello a conn payload) := by
  unfold onServerHello
  split
  · exact .idle
  · rename_i hs hhs
    split
    · exact .spoiled hconn
    · rename_i est hfinish
      exact .finished hconn hhs hfinish

/-- A beacon. -/
theorem onBeacon_move (hconn : a.conn = some conn) (payload : Payload) :
    AgentMove cfg env a (.publish (Topics.ctrlDown cfg.hostId.text) payload)
      (onBeacon cfg env a conn payload) := by
  unfold onBeacon
  split
  · exact .idle
  · rename_i est hest
    obtain ⟨hsame, hack⟩ := confirmSession_spec est (a.count est.cell) conn.id payload
    split <;> rename_i hconfirm <;> rw [hconfirm] at hsame hack
    · exact .read hconn hest hsame
    · rename_i ack est' count
      obtain ⟨hnext, hsealed⟩ := hack ack rfl
      have hcell : est'.cell = est.cell := hsame.cell
      have hkeys : est'.keys = est.keys := hsame.keys
      have hcount : count = a.count est.cell + 1 := hnext
      rw [hcell, hkeys, hcount]
      exact .confirmed hconn hest hsame hsealed

/-- A dispatch opens, and is refused, shed or started. -/
theorem onDispatch_move (hconn : a.conn = some conn) (payload : Payload) :
    AgentMove cfg env a (.publish (Topics.dispatchDown cfg.hostId.text) payload)
      (onDispatch cfg env a conn payload) := by
  unfold onDispatch
  split
  · exact .idle
  · rename_i est hest
    have hsame := openDispatch_same est payload
    split <;> rename_i hopen <;> rw [hopen] at hsame
    · exact .read hconn hest hsame
    · dsimp only
      split
      · unfold handleShellOpen
        split
        · exact .read hconn hest hsame
        split
        · exact .read hconn hest hsame
        rename_i hunused
        split
        · exact .read hconn hest hsame
        rename_i hroom
        split
        · exact .read hconn hest hsame
        · dsimp only
          split
          · rename_i hspawned
            rw [hspawned]
            exact .shellOpened hconn hest hsame hunused (not_le.mp hroom)
          · rename_i hspawned
            rw [Bool.eq_false_iff.mpr hspawned]
            exact .shellFailed hconn hest hsame
      · unfold handleJob
        split
        · rename_i hroom
          exact .jobStarted hconn hest hsame hroom
        · exact .read hconn hest hsame

/-- A frame for the shell. -/
theorem onStreamDown_move (hconn : a.conn = some conn) (payload : Payload) :
    AgentMove cfg env a (.publish (Topics.streamDown cfg.hostId.text) payload)
      (onStreamDown env a conn payload) := by
  unfold onStreamDown
  split
  · exact .idle
  split
  · exact .idle
  split
  · exact .streamed hconn (Or.inl rfl)
  · exact .streamed hconn (Or.inl rfl)
  · refine .streamed hconn ?_
    split
    · exact Or.inr ⟨_, rfl⟩
    · exact Or.inl rfl

/-- What arrives on the dispatch downlink goes to its branch. -/
theorem onPublish_dispatchDown (payload : Payload) :
    onPublish cfg env a conn (Topics.dispatchDown cfg.hostId.text) payload =
      onDispatch cfg env a conn payload := by
  have hne : ∀ tail, "/down/dispatch" ≠ tail →
      Topics.dispatchDown cfg.hostId.text ≠ Topics.topic cfg.hostId.text tail :=
    fun tail htail heq => htail (Topics.topic_tail_inj heq)
  exact (if_neg (hne "/down/hs" (by decide))).trans
    ((if_neg (hne "/down/ctrl" (by decide))).trans (if_pos rfl))

/-- And so does what arrives on the stream downlink. -/
theorem onPublish_streamDown (payload : Payload) :
    onPublish cfg env a conn (Topics.streamDown cfg.hostId.text) payload =
      onStreamDown env a conn payload := by
  have hne : ∀ tail, "/down/stream" ≠ tail →
      Topics.streamDown cfg.hostId.text ≠ Topics.topic cfg.hostId.text tail :=
    fun tail htail heq => htail (Topics.topic_tail_inj heq)
  exact (if_neg (hne "/down/hs" (by decide))).trans
    ((if_neg (hne "/down/ctrl" (by decide))).trans
      ((if_neg (hne "/down/dispatch" (by decide))).trans (if_pos rfl)))

/-- Every step of the agent process is one of the moves. -/
theorem agentStep_move (cfg : AgentConfig) (env : AgentEnv) (a : Process) (ev : AgentEvent) :
    AgentMove cfg env a ev (agentStep cfg env a ev) := by
  cases ev with
  | connect id =>
      simp only [agentStep]
      split
      · exact .connected
      · exact .idle
  | connAck epoch sid eph =>
      simp only [agentStep]
      split
      · rename_i conn epoch hconn
        exact .greeted hconn
      · exact .idle
  | publish topic payload =>
      simp only [agentStep]
      split
      · exact .idle
      · rename_i conn hconn
        unfold onPublish
        split_ifs with hhs hctrl hdispatch hstream
        · exact hhs ▸ onServerHello_move hconn payload
        · exact hctrl ▸ onBeacon_move hconn payload
        · exact hdispatch ▸ onDispatch_move hconn payload
        · exact hstream ▸ onStreamDown_move hconn payload
        · exact .idle
  | disconnect => exact .disconnected
  | jobSeals task result =>
      simp only [agentStep, jobSeals]
      split
      · rename_i job hjob hfree
        exact .jobSealed hjob hfree
      · exact .idle
  | jobEnqueues task =>
      simp only [agentStep, jobEnqueues]
      split
      · exact .idle
      · rename_i e hheld
        exact .jobEnqueued hheld
  | jobEnds task =>
      simp only [agentStep, jobEnds]
      split
      · exact .jobEnded
      · exact .idle
  | pumpSends task frame =>
      simp only [agentStep, pumpSends]
      split
      · exact .idle
      · rename_i pump hpump
        exact .pumpSent hpump
  | pumpEnds task => exact .pumpEnded
  | restart => exact .restarted

/-! ## The connection -/

/-- What a connection keeps while no handshake begins or ends well in it. -/
structure Connection.Keeps (conn conn' : Connection) : Prop where
  id : conn'.id = conn.id
  handshaking : conn'.handshaking = none ∨ conn'.handshaking = conn.handshaking
  session : conn.SameSession conn'

/-- What a step does to the connection of an agent. -/
inductive ConnMove (cfg : AgentConfig) (env : AgentEnv) (a : Process) :
    AgentEvent → Option Connection → Prop
  | connected (id : AgentIdentity) : ConnMove cfg env a (.connect id) (some (Connection.new id))
  | greeted {conn : Connection} {epoch : UInt64} {sid : Str} {eph : Option Point}
      (hconn : a.conn = some conn) :
      ConnMove cfg env a (.connAck (some epoch) sid eph)
        (some { conn with handshaking := (beginHandshake cfg env conn.id epoch sid eph).1 })
  | finished {conn : Connection} {hs : Handshaking} {payload : Payload} {est : Established}
      (hconn : a.conn = some conn) (hhs : conn.handshaking = some hs)
      (hfinish : finishHandshake hs conn.id payload a.cells.length = .ok est) :
      ConnMove cfg env a (.publish (Topics.hsDown cfg.hostId.text) payload)
        (some { conn with handshaking := none, session := some est })
  | kept {ev : AgentEvent} {out : Option Connection}
      (hkept : ∀ conn', out = some conn' → ∃ conn, a.conn = some conn ∧ conn.Keeps conn') :
      ConnMove cfg env a ev out

/-- The connection is kept. -/
theorem ConnMove.of_keeps {conn' : Connection} (hconn : a.conn = some conn)
    (h : conn.Keeps conn') : ConnMove cfg env a ev (some conn') := by
  refine .kept ?_
  intro other heq
  obtain rfl := Option.some.inj heq
  exact ⟨conn, hconn, h⟩

/-- Every step of an agent does one of these to its connection. -/
theorem agentStep_connMove (cfg : AgentConfig) (env : AgentEnv) (a : Process) (ev : AgentEvent) :
    ConnMove cfg env a ev (agentStep cfg env a ev).1.conn := by
  -- the session is left alone, or has received
  have hread : ∀ {conn conn' : Connection} {est est' : Established}, a.conn = some conn →
      conn'.id = conn.id → conn'.handshaking = conn.handshaking → conn.session = some est →
      conn'.session = some est' → est.Same est' → ConnMove cfg env a ev (some conn') :=
    fun hconn hid hhs hest hest' hsame =>
      .of_keeps hconn ⟨hid, Or.inr hhs, .of_same hest hest' hsame⟩
  have hmove := agentStep_move cfg env a ev
  generalize agentStep cfg env a ev = out at hmove ⊢
  cases hmove with
  | connected => exact .connected _
  | greeted hconn => exact .greeted hconn
  | spoiled hconn => exact .of_keeps hconn ⟨rfl, Or.inl rfl, .of_eq rfl⟩
  | finished hconn hhs hfinish => exact .finished hconn hhs hfinish
  | read hconn hest hsame => exact hread hconn rfl rfl hest rfl hsame
  | confirmed hconn hest hsame hack => exact hread hconn rfl rfl hest rfl hsame
  | jobStarted hconn hest hsame hroom => exact hread hconn rfl rfl hest rfl hsame
  | shellFailed hconn hest hsame => exact hread hconn rfl rfl hest rfl hsame
  | shellOpened hconn hest hsame => exact hread hconn rfl rfl hest rfl hsame
  | streamed hconn heffects => exact .of_keeps hconn ⟨rfl, Or.inr rfl, .of_eq rfl⟩
  | disconnected => exact .kept nofun
  | restarted => exact .kept nofun
  | _ => exact .kept fun conn hconn => ⟨conn, hconn, rfl, Or.inr rfl, .of_eq rfl⟩

/-- A step gives a job task the keys of the session, or leaves it as it was. -/
theorem agentStep_jobKeys {task : Nat} {job : JobChannel}
    (h : (agentStep cfg env a ev).1.jobs.lookup task = some job) :
    a.jobs.lookup task = some job ∨
      ∃ conn est, a.conn = some conn ∧ conn.session = some est ∧ job.keys = est.keys := by
  have hmove := agentStep_move cfg env a ev
  generalize agentStep cfg env a ev = out at hmove h
  cases hmove with
  | jobStarted hconn hest hsame hroom =>
      simp only [Process.spawnJob, Table.lookup_put] at h
      split at h
      · obtain rfl := Option.some.inj h
        exact .inr ⟨_, _, hconn, hest, hsame.keys⟩
      · exact .inl h
  | jobEnded =>
      simp only [Table.lookup_drop] at h
      split at h
      · cases h
      · exact .inl h
  | restarted => cases h
  | _ => exact .inl h

end Moves

/-! ## The beginning of a handshake -/

/-- A handshake begins with the ephemeral drawn for it, under the identity's
certificate. -/
theorem beginHandshake_eq_some {cfg : AgentConfig} {env : AgentEnv} {id : AgentIdentity}
    {epoch : UInt64} {sid : Str} {eph : Option Point} {hs : Handshaking}
    (h : (beginHandshake cfg env id epoch sid eph).1 = some hs) :
    eph = some hs.initiator.eph.public ∧ hs.initiator.sid = hs.sid.asBytes ∧
      hs.initiator.certDer = id.certDer := by
  unfold beginHandshake at h
  dsimp only at h
  split at h
  · split at h
    · cases h
    · rename_i hs' hello hstart
      obtain ⟨p, key, rfl, -, rfl, -⟩ := startHandshake_eq_ok_iff.mp hstart
      split at h
      · obtain rfl := Option.some.inj h
        exact ⟨rfl, rfl, rfl⟩
      · cases h
  · cases h

end Agent
end OpenSsmAgent
