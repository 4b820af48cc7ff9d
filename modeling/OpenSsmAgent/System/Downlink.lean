import OpenSsmAgent.System.Fleet

/-!
# What the broker can do with downlink messages

The agent authenticates every envelope before it advances anything.  The answer to
its hello is the exception: the handshake in flight is taken out of its slot before
the answer is checked, so that an answer that fails the check leaves the agent
without the handshake that the genuine answer would finish.

Main results:

- Theorem {lit}`unauthentic_unchanged_iff`: what fails authentication leaves the
  agent unchanged, unless it is on the handshake topic while a handshake is in
  flight.
- Theorem {lit}`forged_answer_wedges`: garbage on that topic, after which the genuine
  answer is ignored.
-/

open Framing SymbolicCrypto

namespace OpenSsmAgent
namespace System

open Seal Wire Domain Hs Proto Coordinator Agent

/-! ## Authentication -/

/-- A payload authenticates on a downlink topic: it finishes the handshake in flight,
or it opens with a fresh count on the session or on the live shell. -/
inductive Authentic (cfg : AgentConfig) (conn : Connection) (topic : String)
    (payload : Payload) : Prop
  | serverHello {hs : Handshaking} {cell : Nat} {est : Established}
      (htopic : topic = Topics.hsDown cfg.hostId.text) (hhs : conn.handshaking = some hs)
      (hfinish : finishHandshake hs conn.id payload cell = .ok est)
  | beacon {est : Established} {e : Envelope} {p : Bytes}
      (htopic : topic = Topics.ctrlDown cfg.hostId.text) (hsession : conn.session = some est)
      (henv : payload.envelope = some e) (hsid : e.sid = est.sid)
      (hopen : (est.openDownlink e).1 = some p)
  | dispatch {est : Established} {e : Envelope} {p : Bytes}
      (htopic : topic = Topics.dispatchDown cfg.hostId.text)
      (hsession : conn.session = some est) (henv : payload.envelope = some e)
      (hopen : (est.openDownlink e).1 = some p)
  | frame {stream : ShellStream} {e : Envelope} {p : Bytes}
      (htopic : topic = Topics.streamDown cfg.hostId.text)
      (hstream : conn.activeStream = some stream) (henv : payload.envelope = some e)
      (hopen : (stream.openDownlink e).1 = some p)

/-- Undecodable bytes authenticate nowhere. -/
theorem not_authentic_of_undecodable (cfg : AgentConfig) (conn : Connection) (topic : String) :
    ¬ Authentic cfg conn topic ⟨none, none, none⟩ := by
  intro h
  cases h with
  | serverHello htopic hhs hfinish => cases hfinish
  | beacon htopic hsession henv hsid hopen => cases henv
  | dispatch htopic hsession henv hopen => cases henv
  | frame htopic hstream henv hopen => cases henv

section Unauthentic

variable {cfg : AgentConfig} {env : AgentEnv} {a : Process} {conn : Connection} {topic : String}
  {payload : Payload}

theorem Process.setConn_of_conn (h : a.conn = some conn) : a.setConn conn = a := by
  cases a
  simp_all [Process.setConn]

/-- What does not open leaves the session as it was. -/
theorem openDownlink_of_none {est : Established} {e : Envelope}
    (h : (est.openDownlink e).1 = none) : est.openDownlink e = (none, est) := by
  rw [Established.openDownlink_eq] at h ⊢
  have hhigh : (openGuarded est.keys .coordToAgent est.recvHigh e).2 = est.recvHigh :=
    ReplayGuard.guardedOpen_reject h
  rw [hhigh]
  exact Prod.ext h rfl

/-- What does not open leaves the shell as it was. -/
theorem stream_openDownlink_of_none {stream : ShellStream} {e : Envelope}
    (h : (stream.openDownlink e).1 = none) : stream.openDownlink e = (none, stream) := by
  have hhigh : (openGuarded stream.streamKeys .coordToAgent stream.recvHigh e).2 =
      stream.recvHigh := ReplayGuard.guardedOpen_reject h
  refine Prod.ext h ?_
  simp only [ShellStream.openDownlink, hhigh]

theorem onBeacon_of_not_authentic (hconn : a.conn = some conn)
    (htopic : topic = Topics.ctrlDown cfg.hostId.text)
    (h : ¬ Authentic cfg conn topic payload) : onBeacon cfg env a conn payload = (a, []) := by
  unfold onBeacon
  split
  · rfl
  · rename_i est hsession
    have hsame : a.setConn { conn with session := some est } = a := by
      rw [← hsession]
      exact Process.setConn_of_conn hconn
    have hconfirm : ∃ message, confirmSession est (a.count est.cell) conn.id payload =
        (.error message, est, a.count est.cell) := by
      unfold confirmSession
      split
      · exact ⟨_, rfl⟩
      · rename_i e henv
        split
        · exact ⟨_, rfl⟩
        · rename_i hsid
          have hnone : (est.openDownlink e).1 = none := by
            refine Option.eq_none_iff_forall_ne_some.mpr fun p hopen => h ?_
            exact .beacon htopic hsession henv (not_not.mp hsid) hopen
          rw [openDownlink_of_none hnone]
          exact ⟨_, rfl⟩
    obtain ⟨message, hconfirm⟩ := hconfirm
    rw [hconfirm]
    simp only [hsame]

theorem onDispatch_of_not_authentic (hconn : a.conn = some conn)
    (htopic : topic = Topics.dispatchDown cfg.hostId.text)
    (h : ¬ Authentic cfg conn topic payload) : onDispatch cfg env a conn payload = (a, []) := by
  unfold onDispatch
  split
  · rfl
  · rename_i est hsession
    have hsame : a.setConn { conn with session := some est } = a := by
      rw [← hsession]
      exact Process.setConn_of_conn hconn
    have hopen : openDispatch est payload = (none, est) := by
      unfold openDispatch
      split
      · rfl
      · rename_i e henv
        have hnone : (est.openDownlink e).1 = none := by
          refine Option.eq_none_iff_forall_ne_some.mpr fun p hopen => h ?_
          exact .dispatch htopic hsession henv hopen
        rw [openDownlink_of_none hnone]
    rw [hopen]
    simp only [hsame]

theorem onStreamDown_of_not_authentic (hconn : a.conn = some conn)
    (htopic : topic = Topics.streamDown cfg.hostId.text)
    (h : ¬ Authentic cfg conn topic payload) : onStreamDown env a conn payload = (a, []) := by
  unfold onStreamDown
  split
  · rfl
  · rename_i stream hstream
    split
    · rfl
    · rename_i e henv
      have hnone : (stream.openDownlink e).1 = none := by
        refine Option.eq_none_iff_forall_ne_some.mpr fun p hopen => h ?_
        exact .frame htopic hstream henv hopen
      have hroute : stream.routeDownlink e = (none, true, stream) := by
        simp only [ShellStream.routeDownlink, stream_openDownlink_of_none hnone]
      rw [hroute]
      dsimp only
      rw [← hstream, Process.setConn_of_conn hconn]

/-- An answer that fails the check costs the agent its handshake. -/
theorem onServerHello_of_not_authentic {hs : Handshaking} (hhs : conn.handshaking = some hs)
    (htopic : topic = Topics.hsDown cfg.hostId.text) (h : ¬ Authentic cfg conn topic payload) :
    onServerHello a conn payload = (a.setConn { conn with handshaking := none }, []) := by
  unfold onServerHello
  rw [hhs]
  dsimp only
  split
  · rfl
  · rename_i est hfinish
    exact absurd (.serverHello htopic hhs hfinish) h

/-- A payload that fails authentication leaves the agent unchanged, exactly if it
does not meet a handshake in flight on the handshake topic. -/
theorem unauthentic_unchanged_iff (cfg : AgentConfig) (env : AgentEnv) (a : Process)
    (conn : Connection) (topic : String) (payload : Payload) (hconn : a.conn = some conn)
    (h : ¬ Authentic cfg conn topic payload) :
    agentStep cfg env a (.publish topic payload) = (a, []) ↔
      ¬ (topic = Topics.hsDown cfg.hostId.text ∧ conn.handshaking.isSome) := by
  simp only [agentStep, hconn, onPublish]
  by_cases hhs : topic = Topics.hsDown cfg.hostId.text
  · rw [if_pos hhs]
    cases hslot : conn.handshaking with
    | none => simp [onServerHello, hslot]
    | some hs =>
        rw [onServerHello_of_not_authentic hslot hhs h]
        simp only [hhs, Option.isSome_some, and_self, not_true_eq_false, iff_false]
        intro hsame
        have hconn' : some { conn with handshaking := none } = some conn :=
          (congrArg Process.conn (congrArg Prod.fst hsame)).trans hconn
        have hempty := congrArg Connection.handshaking (Option.some.inj hconn')
        rw [hslot] at hempty
        cases hempty
  · rw [if_neg hhs]
    simp only [hhs, false_and, not_false_eq_true, iff_true]
    split
    · rename_i htopic
      exact onBeacon_of_not_authentic hconn htopic h
    split
    · rename_i htopic
      exact onDispatch_of_not_authentic hconn htopic h
    split
    · rename_i htopic
      exact onStreamDown_of_not_authentic hconn htopic h
    · rfl

end Unauthentic

/-- The sample agent with its hello sent. -/
def sampleWaiting : Process :=
  (agentRun sampleAgentCfg Process.new
    [(sampleAgentEnv, .connect sampleIdentity),
      (sampleAgentEnv, .connAck (some 1) sampleSid (some sampleClientEph))]).1

/-- The broker hands the sample agent a payload on its handshake topic. -/
def sampleAnswerTurn (payload : Payload) : AgentEnv × AgentEvent :=
  (sampleAgentEnv, .publish (Topics.hsDown sampleHost.toStr.text) payload)

/-- Undecodable bytes on the handshake topic change the agent, and the genuine
answer that follows is ignored, while without them it opens the session. -/
theorem forged_answer_wedges :
    (∃ conn, sampleWaiting.conn = some conn ∧
      ¬ Authentic sampleAgentCfg conn (Topics.hsDown sampleHost.toStr.text) ⟨none, none, none⟩) ∧
    (agentStep sampleAgentCfg sampleAgentEnv sampleWaiting
      (sampleAnswerTurn ⟨none, none, none⟩).2).1.conn ≠ sampleWaiting.conn ∧
    ((agentRun sampleAgentCfg sampleWaiting
      [sampleAnswerTurn ⟨none, none, none⟩,
        sampleAnswerTurn ⟨none, some sampleAnswer, none⟩]).1.conn.bind (·.session)) = none ∧
    ((agentRun sampleAgentCfg sampleWaiting
      [sampleAnswerTurn ⟨none, some sampleAnswer, none⟩]).1.conn.bind (·.session)).map (·.keys) =
      some sampleKeys := by
  refine ⟨?_, by decide +kernel, by decide +kernel, by decide +kernel⟩
  have hconn : sampleWaiting.conn.isSome = true := by decide +kernel
  obtain ⟨conn, hconn⟩ := Option.isSome_iff_exists.mp hconn
  exact ⟨conn, hconn, not_authentic_of_undecodable _ _ _⟩

/-- The sample agent with its session open. -/
def sampleOpen : Process :=
  (agentRun sampleAgentCfg sampleWaiting [sampleAnswerTurn ⟨none, some sampleAnswer, none⟩]).1

/-- A beacon that is not an envelope leaves the session as it was. -/
theorem unauthentic_unchanged_garbled_beacon :
    ∃ conn, sampleOpen.conn = some conn ∧
      agentStep sampleAgentCfg sampleAgentEnv sampleOpen
        (.publish (Topics.ctrlDown sampleHost.toStr.text) ⟨none, none, none⟩) =
        (sampleOpen, []) := by
  have hconn : sampleOpen.conn.isSome = true := by decide +kernel
  obtain ⟨conn, hconn⟩ := Option.isSome_iff_exists.mp hconn
  refine ⟨conn, hconn, ?_⟩
  refine (unauthentic_unchanged_iff sampleAgentCfg sampleAgentEnv sampleOpen conn _ _ hconn
    (not_authentic_of_undecodable _ _ _)).mpr ?_
  rintro ⟨htopic, -⟩
  have hne : Topics.ctrlDown sampleHost.toStr.text ≠ Topics.hsDown sampleHost.toStr.text := by
    decide +kernel
  exact hne htopic

end System
end OpenSsmAgent
