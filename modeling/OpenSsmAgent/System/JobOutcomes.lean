import OpenSsmAgent.Agent.Moves
import OpenSsmAgent.Agent.Nonces
import OpenSsmAgent.Coordinator.JobEvents
import OpenSsmAgent.Lib.Logs
import OpenSsmAgent.System.ResultOrder
import OpenSsmAgent.System.Splice

/-!
# What an operator hears of a job

Over a whole run of the fleet, restarts of both ends included, the operator of a
job that is dispatched once is sent chunks and then at most one outcome.  What
comes from the agent is a subsequence of what its job task sealed: within a
session the replay guard keeps the order, and a new session has new keys, under
which nothing older opens.

Main results:

- Theorem {lit}`jobPhase_run`: a job over a whole run.
- Theorem {lit}`RelayInv.step`: what is relayed stays behind the agent's log.
- Theorem {lit}`job_events_orderly`: the events of every job of every run.
-/

open Framing SymbolicCrypto

namespace OpenSsmAgent
namespace System

open Seal Wire Domain Hs Proto Coordinator Agent

/-! ## Where an agent's keys come from -/

/-- The ephemerals of the answers that a step of the agent is handed. -/
def shownEphs : AgentEvent → List Point
  | .publish _ payload => (payload.serverHello.bind fun sh => toPoint sh.serverEph).toList
  | _ => []

/-- Session keys that go back to an ephemeral the agent was shown. -/
def KeysFrom (shown : List Point) (keys : SessionKeys) : Prop :=
  ∃ p, ∃ q ∈ shown, SessionKeysOf p q keys

/-- The session and the job tasks of an agent hold such keys. -/
structure KeysShown (shown : List Point) (a : Process) : Prop where
  session : ∀ conn est, a.conn = some conn → conn.session = some est → KeysFrom shown est.keys
  jobs : ∀ task job, a.jobs.lookup task = some job → KeysFrom shown job.keys

section Keys

variable {shown shown' : List Point} {a : Process}

theorem KeysFrom.mono {keys : SessionKeys} (h : KeysFrom shown keys) (hsub : shown ⊆ shown') :
    KeysFrom shown' keys := by
  obtain ⟨p, q, hq, hkeys⟩ := h
  exact ⟨p, q, hsub hq, hkeys⟩

theorem KeysShown.mono (h : KeysShown shown a) (hsub : shown ⊆ shown') : KeysShown shown' a :=
  ⟨fun conn est hconn hest => (h.session conn est hconn hest).mono hsub,
    fun task job hjob => (h.jobs task job hjob).mono hsub⟩

theorem keysShown_new (shown : List Point) : KeysShown shown Process.new :=
  ⟨nofun, nofun⟩

/-- One step of the agent: keys come from the answers it is handed. -/
theorem agentStep_keysShown (cfg : AgentConfig) (env : AgentEnv) (h : KeysShown shown a)
    (ev : AgentEvent) : KeysShown (shown ++ shownEphs ev) (agentStep cfg env a ev).1 := by
  have hold := h.mono (List.subset_append_left shown (shownEphs ev))
  refine ⟨?_, ?_⟩
  · intro conn' est' hconn' hest'
    have hmove := agentStep_connMove cfg env a ev
    rw [hconn'] at hmove
    cases hmove with
    | connected id => cases hest'
    | greeted hconn => exact hold.session _ est' hconn hest'
    | finished hconn hhs hfinish =>
        obtain ⟨sh, serverEph, keys, hsh, -, heph, hkeys, rfl⟩ :=
          finishHandshake_eq_ok_iff.mp hfinish
        obtain rfl := Option.some.inj hest'
        refine ⟨_, serverEph, ?_, sessionKeysOf_finish hkeys⟩
        simp [shownEphs, hsh, heph]
    | kept hkept =>
        obtain ⟨conn, hconn, hkeeps⟩ := hkept conn' rfl
        obtain ⟨est, hest, hsame⟩ := hkeeps.session est' hest'
        rw [hsame.keys]
        exact hold.session conn est hconn hest
  · intro task job hjob
    rcases agentStep_jobKeys hjob with hjob | ⟨conn, est, hconn, hest, hkeys⟩
    · exact hold.jobs task job hjob
    · rw [hkeys]
      exact hold.session conn est hconn hest

end Keys

/-! ## What an agent seals for its jobs -/

/-- A result that a job task sealed, and under which number. -/
structure ResultSeal where
  job : JobChannel
  count : Nat
  result : JobResult
deriving DecidableEq

namespace ResultSeal

def key (x : ResultSeal) : Key :=
  x.job.keys.key .agentToCoord

def seq (x : ResultSeal) : UInt64 :=
  wireSeq x.count

/-- The sealed envelope. -/
def env (x : ResultSeal) : Envelope :=
  (sealUplink x.job.keys x.count x.job.hostId x.job.sid x.result.encode).1

/-- Whatever a session opens it with, it opens to the result. -/
theorem of_openEnvelope {x : ResultSeal} {keys : SessionKeys} {p : Bytes}
    (h : openEnvelope keys .agentToCoord x.env = some p) :
    x.key = keys.key .agentToCoord ∧ p = x.result.encode := by
  have hct := openEnvelope_eq_some_iff.mp h
  simp only [env, sealUplink, sealEnvelope, SessionKeys.seal, Ciphertext.sealed.injEq] at hct
  exact ⟨hct.1, hct.2.2.2.symm⟩

end ResultSeal

/-- The result that a step of an agent seals. -/
def stepSeals (a : Process) : AgentEvent → List ResultSeal
  | .jobSeals task result =>
      match a.jobs.lookup task, a.sending.lookup task with
      | some job, none => [⟨job, a.count job.cell, result⟩]
      | _, _ => []
  | _ => []

/-- The results an agent sealed: each was a call of {lit}`seal` under keys that go
back to an answer it was shown, and under one key the numbers increase. -/
structure SealLog (es : List AgentEffect) (shown : List Point) (log : List ResultSeal)
    (a : Process) : Prop where
  nonces : ∃ keysOf, NonceInv es keysOf a
  keys : KeysShown shown a
  called : ∀ x ∈ log, (x.key, x.count) ∈ (Agent.sealCalls es).map SealCall.pair
  origin : ∀ x ∈ log, KeysFrom shown x.job.keys
  order : log.Pairwise (fun x y => x.key = y.key → x.count < y.count)

section Log

variable {es : List AgentEffect} {shown : List Point} {log : List ResultSeal} {a : Process}

theorem sealLog_new : SealLog [] [] [] Process.new where
  nonces := ⟨fun _ => SessionKeys.fromShared s(0, 0) [], nonceInv_new _⟩
  keys := keysShown_new _
  called := nofun
  origin := nofun
  order := List.Pairwise.nil

theorem SealLog.step (h : SealLog es shown log a) (cfg : AgentConfig) (env : AgentEnv)
    (ev : AgentEvent) (hnew : (Agent.helloEphs (es ++ (agentStep cfg env a ev).2)).Nodup) :
    SealLog (es ++ (agentStep cfg env a ev).2) (shown ++ shownEphs ev) (log ++ stepSeals a ev)
      (agentStep cfg env a ev).1 := by
  obtain ⟨keysOf, hnonces⟩ := h.nonces
  -- what the step seals, it seals as a call that is ahead of the log under its key
  have hseal : ∀ x ∈ stepSeals a ev, KeysFrom shown x.job.keys ∧
      sealUplinkCall x.job.keys x.count ∈ Agent.sealCalls (agentStep cfg env a ev).2 ∧
      ∀ y ∈ log, y.key = x.key → y.count < x.count := by
    intro x hx
    cases ev with
    | jobSeals task result =>
        simp only [stepSeals] at hx
        split at hx
        · rename_i job hjob hsending
          obtain rfl := List.mem_singleton.mp hx
          obtain ⟨hlt, hkeys⟩ := hnonces.jobs task job hjob
          refine ⟨h.keys.jobs task job hjob, ?_, ?_⟩
          · simp [agentStep, jobSeals, hjob, hsending, Agent.sealCalls]
          · intro y hy hkey
            have hcalled := h.called y hy
            rw [hkey] at hcalled
            refine hnonces.ledger.ahead (allocators_cell hlt) ?_
            rw [hkeys]
            exact hcalled
        · cases hx
    | _ => cases hx
  have hsingle : (stepSeals a ev).length ≤ 1 := by
    unfold stepSeals
    split
    · split <;> simp
    · simp
  refine ⟨agentStep_nonceInv hnonces ev hnew, agentStep_keysShown cfg env h.keys ev, ?_, ?_, ?_⟩
  · rw [Agent.sealCalls_append, List.map_append]
    intro x hx
    rcases List.mem_append.mp hx with hx | hx
    · exact List.mem_append_left _ (h.called x hx)
    · exact List.mem_append_right _ (List.mem_map_of_mem (hseal x hx).2.1)
  · intro x hx
    rcases List.mem_append.mp hx with hx | hx
    · exact (h.origin x hx).mono (List.subset_append_left _ _)
    · exact (hseal x hx).1.mono (List.subset_append_left _ _)
  · refine List.pairwise_append.mpr ⟨h.order, ?_, ?_⟩
    · cases hlist : stepSeals a ev with
      | nil => exact List.Pairwise.nil
      | cons x rest =>
          have hrest : rest = [] := by
            rw [hlist] at hsingle
            simpa using hsingle
          rw [hrest]
          exact List.pairwise_singleton _ _
    · exact fun y hy x hx => (hseal x hx).2.2 y hy

/-- Below the end of the sequence space the log is in sequence order. -/
theorem SealLog.inOrder (h : SealLog es shown log a)
    (hcount : ∀ c ∈ Agent.sealCalls es, c.count < 2 ^ 64) :
    LogCut.InOrder ResultSeal.key ResultSeal.seq log := by
  have hbound : ∀ x ∈ log, x.count < 2 ^ 64 := by
    intro x hx
    obtain ⟨c, hc, hpair⟩ := List.mem_map.mp (h.called x hx)
    have hbelow := hcount c hc
    rwa [(Prod.mk.inj hpair).2] at hbelow
  refine (List.pairwise_iff_forall_sublist.mpr ?_)
  intro x y hsub hkey
  have hlt := List.pairwise_iff_forall_sublist.mp h.order hsub hkey
  have hx := hbound x (hsub.subset (by simp))
  have hy := hbound y (hsub.subset (by simp))
  rw [UInt64.lt_iff_toNat_lt, ResultSeal.seq, ResultSeal.seq, toNat_wireSeq hx, toNat_wireSeq hy]
  exact hlt

end Log

/-! ## What is relayed of it -/

/-- What a turn of the coordinator takes for granted about an honest host: whatever
authenticates on the host's session its agent sealed, as an acknowledgement or as
the result of a job, and an ephemeral that is drawn to answer a hello was never
shown to the agent before. -/
def HonestTurn (host : HostId) (log : List ResultSeal) (shown : List Point) (env : StepEnv)
    (b : Bridge) : BridgeEvent → Prop
  | .message _ payload =>
      (∀ e ∈ payload.envelope, ∀ s ∈ b.sessions.get host,
        ∀ p ∈ openEnvelope s.keys .agentToCoord e,
          p = ctrlSessionAck ∨ ∃ x ∈ log, x.env = e) ∧
      (payload.clientHello ≠ none → ∀ q ∈ env.eph, q ∉ shown)
  | _ => True

/-- The reader of a host's uplink: the key of its session and the replay mark. -/
def uplinkReader (b : Bridge) (host : HostId) : Option (Key × Option UInt64) :=
  (b.sessions.get host).map fun s => (s.keys.key .agentToCoord, s.recvHigh)

/-- What was relayed of a job are results the agent sealed for it, and the bridge
takes nothing again that was sealed before the last of them. -/
def Relayed (host : HostId) (jobId : Str) (log : List ResultSeal) (relayed : List JobEvent)
    (b : Bridge) : Prop :=
  ∃ taken : List ResultSeal, relayed.map JobEvent.result = taken.map ResultSeal.result ∧
    (∀ x ∈ taken, x.result.jobId = jobId) ∧
    LogCut.Behind ResultSeal.key ResultSeal.seq log taken (uplinkReader b host)

section Relay

variable {host : HostId} {jobId : Str} {log : List ResultSeal} {shown : List Point}
  {relayed relayed' : List JobEvent} {env : StepEnv} {b : Bridge} {ev : BridgeEvent}
  {out : Bridge × List Effect}

theorem relayed_empty (host : HostId) (jobId : Str) (b : Bridge) :
    Relayed host jobId [] [] b :=
  ⟨[], rfl, nofun, LogCut.behind_empty⟩

/-- A turn of the coordinator. -/
theorem Relayed.turn (h : Relayed host jobId log relayed b)
    (hturn : SessionTurn host jobId env b ev out relayed')
    (hhonest : HonestTurn host log shown env b ev)
    (horder : LogCut.InOrder ResultSeal.key ResultSeal.seq log)
    (horigin : ∀ x ∈ log, KeysFrom shown x.job.keys)
    (hsize : ∀ x ∈ log, x.result.encode.length < 2 ^ 64) :
    Relayed host jobId log (relayed ++ relayed') out.1 := by
  obtain ⟨taken, hresults, hjob, hbehind⟩ := h
  cases hturn with
  | kept hkept hrelayed =>
      subst hrelayed
      refine ⟨taken, by simpa using hresults, hjob, ?_⟩
      unfold uplinkReader at hbehind ⊢
      cases hget : out.1.sessions.get host with
      | none => exact hbehind.lose
      | some s' =>
          obtain ⟨s, hs, hsame, hhigh⟩ := hkept s' hget
          rw [hs] at hbehind
          rw [Option.map_some, hhigh, hsame.2]
          exact hbehind
  | @read topic payload e s p hev hopens hsession hrelayed =>
      subst hev
      obtain ⟨hauth, hfresh⟩ := ReplayGuard.guardedOpen_fst_eq_some_iff.mp hopens.opens
      have hmark : (s.openUplink e).2.recvHigh = some e.seq :=
        ReplayGuard.guardedOpen_accept hopens.opens
      have hreader : uplinkReader out.1 host = some (s.keys.key .agentToCoord, some e.seq) := by
        rw [uplinkReader, hsession, Option.map_some, hmark, Session.openUplink_keys]
      rw [uplinkReader, hopens.session, Option.map_some] at hbehind
      rcases hhonest.1 e hopens.envelope s hopens.session p hauth with rfl | ⟨x, hx, rfl⟩
      · -- an acknowledgement moves the mark and is no result
        have hnone : relayed' = [] := by
          refine hrelayed.resolve_right ?_
          rintro ⟨event, -, hdecode, -⟩
          rw [jobResult_decode_ack] at hdecode
          cases hdecode
        subst hnone
        refine ⟨taken, by simpa using hresults, hjob, ?_⟩
        rw [hreader]
        exact hbehind.advance hfresh
      · obtain ⟨hkey, rfl⟩ := ResultSeal.of_openEnvelope hauth
        have hread := hbehind.read horder hx hkey hfresh
        rcases hrelayed with rfl | ⟨event, rfl, hdecode, hid⟩
        · refine ⟨taken, by simpa using hresults, hjob, ?_⟩
          rw [hreader]
          exact hread.forget (List.sublist_append_left _ _)
        · rw [JobResult.decode_encode (hsize x hx)] at hdecode
          have hevent : x.result = event.result := Option.some.inj hdecode
          refine ⟨taken ++ [x], by simp [hresults, hevent], ?_, ?_⟩
          · intro y hy
            rcases List.mem_append.mp hy with hy | hy
            · exact hjob y hy
            · rw [List.mem_singleton.mp hy, hevent]
              exact hid
          · rw [hreader]
            exact hread
  | @replaced s' topic payload p q hev hhello hsession heph hkeys hrelayed =>
      subst hev hrelayed
      refine ⟨taken, by simpa using hresults, hjob, ?_⟩
      rw [uplinkReader, hsession, Option.map_some]
      refine hbehind.rekey _ _ ?_
      -- a key of the log goes back to an ephemeral that was shown
      intro x hx hkey
      obtain ⟨p', q', hshown, hkeys'⟩ := horigin x hx
      obtain ⟨-, rfl, -⟩ := hkeys'.key_inj hkeys hkey
      exact hhonest.2 hhello q' heph hshown

theorem Relayed.extend (h : Relayed host jobId log relayed b) (more : List ResultSeal) :
    Relayed host jobId (log ++ more) relayed b := by
  obtain ⟨taken, hresults, hjob, hbehind⟩ := h
  exact ⟨taken, hresults, hjob, hbehind.extend more⟩

/-- The coordinator starts again without a session. -/
theorem Relayed.restart (h : Relayed host jobId log relayed b) :
    Relayed host jobId log relayed Bridge.new := by
  obtain ⟨taken, hresults, hjob, hbehind⟩ := h
  exact ⟨taken, hresults, hjob, hbehind.lose⟩

/-- What was relayed is a subsequence of what was sealed for the job. -/
theorem Relayed.sublist (h : Relayed host jobId log relayed b) :
    List.Sublist (relayed.map JobEvent.result)
      ((log.filter (·.result.jobId = jobId)).map ResultSeal.result) := by
  obtain ⟨taken, hresults, hjob, hbehind⟩ := h
  have hsub := hbehind.sublist.filter (·.result.jobId = jobId)
  rw [List.filter_eq_self.mpr (fun x hx => decide_eq_true (hjob x hx))] at hsub
  rw [hresults]
  exact hsub.map _

end Relay

/-! ## Runs of the fleet -/

/-- The channel of a step's dispatch of a job. -/
def FleetEvent.dispatchedOn (host : HostId) (jobId : Str) : FleetEvent → List Channel
  | .coordinator _ ev => ev.dispatchedOn host jobId
  | _ => []

/-- The channels on which a job was dispatched, once for each time. -/
def dispatchChannels (host : HostId) (jobId : Str) (events : List FleetEvent) : List Channel :=
  events.flatMap (FleetEvent.dispatchedOn host jobId)

/-- The jobs that were dispatched, once for each time. -/
def dispatchKeys (events : List FleetEvent) : List (HostId × Str) :=
  events.filterMap (fun
    | .coordinator _ ev => ev.dispatches.map Prod.fst
    | _ => none)

/-- The result that a step seals at an agent. -/
def fleetSeals (i : Nat) (s : Fleet) : FleetEvent → List ResultSeal
  | .agent j _ ev => if j = i then stepSeals (s.agents i) ev else []
  | _ => []

/-- The ephemerals of the answers that a step hands to an agent. -/
def fleetShown (i : Nat) : FleetEvent → List Point
  | .agent j _ ev => if j = i then shownEphs ev else []
  | _ => []

/-- A step of the fleet that is an {lit}`HonestTurn` if the coordinator takes it. -/
def HonestStep (host : HostId) (log : List ResultSeal) (shown : List Point) (s : Fleet) :
    FleetEvent → Prop
  | .coordinator env ev => HonestTurn host log shown env s.bridge ev
  | _ => True

section Runs

variable {fromDer : FromDer} (cfg : BridgeConfig fromDer) (agentCfg : Nat → AgentConfig)

/-- The results an agent seals in a run. -/
def sealedResults (i : Nat) (s : Fleet) : List FleetEvent → List ResultSeal
  | [] => []
  | ev :: events =>
      fleetSeals i s ev ++ sealedResults i (fleetStep cfg agentCfg s ev).1 events

/-- The events of a job that a step relays from the job's host. -/
def fleetRelays (host : HostId) (jobId : Str) (s : Fleet) : FleetEvent → List JobEvent
  | .coordinator env ev => relays cfg env s.bridge ev host jobId
  | _ => []

/-- The events of a job that a run relays from the job's host. -/
def relayedEvents (host : HostId) (jobId : Str) (s : Fleet) : List FleetEvent → List JobEvent
  | [] => []
  | ev :: events =>
      fleetRelays cfg host jobId s ev ++
        relayedEvents host jobId (fleetStep cfg agentCfg s ev).1 events

/-- The events of a job that a run sends to operators. -/
def jobEvents (host : HostId) (jobId : Str) (s : Fleet) (events : List FleetEvent) :
    List JobEvent :=
  eventsFor host jobId (bridgeEffects (fleetRun cfg agentCfg s events).2)

/-- Every turn of the coordinator in a run is an {lit}`HonestTurn`. -/
def HonestRun (i : Nat) (host : HostId) (s : Fleet) (log : List ResultSeal)
    (shown : List Point) : List FleetEvent → Prop
  | [] => True
  | ev :: events =>
      HonestStep host log shown s ev ∧
      HonestRun i host (fleetStep cfg agentCfg s ev).1 (log ++ fleetSeals i s ev)
        (shown ++ fleetShown i ev) events

/-- Agent {lit}`i` is the honest agent of a host over a run: its draws are new, its
allocators do not wrap, its job tasks send chunks and outcomes, and nobody else
seals on the sessions of the host. -/
structure HonestAgent (i : Nat) (host : HostId) (events : List FleetEvent) : Prop where
  turns : HonestRun cfg agentCfg i host Fleet.new [] [] events
  ephs : (Agent.helloEphs (agentEffects i (fleetRun cfg agentCfg Fleet.new events).2)).Nodup
  counts : ∀ c ∈ Agent.sealCalls (agentEffects i (fleetRun cfg agentCfg Fleet.new events).2),
    c.count < 2 ^ 64
  reports : ∀ x ∈ sealedResults cfg agentCfg i Fleet.new events,
    x.result.body ≠ none ∧ x.result.encode.length < 2 ^ 64

end Runs

section Proofs

variable {fromDer : FromDer} {cfg : BridgeConfig fromDer} {agentCfg : Nat → AgentConfig}
  {host : HostId} {jobId : Str} {s : Fleet} {i : Nat} {events : List FleetEvent}

theorem length_dispatchChannels (host : HostId) (jobId : Str) (events : List FleetEvent) :
    (dispatchChannels host jobId events).length = (dispatchKeys events).count (host, jobId) := by
  induction events with
  | nil => rfl
  | cons ev events ih =>
      have hcons : (dispatchChannels host jobId (ev :: events)).length =
          (ev.dispatchedOn host jobId).length + (dispatchChannels host jobId events).length := by
        simp [dispatchChannels]
      rw [hcons, ih]
      cases ev with
      | coordinator env ev =>
          simp only [FleetEvent.dispatchedOn, BridgeEvent.dispatchedOn, dispatchKeys,
            List.filterMap_cons]
          cases ev.dispatches with
          | none => simp
          | some dispatched =>
              obtain ⟨key, ch⟩ := dispatched
              by_cases hkey : key = (host, jobId)
              · simp [hkey, Nat.add_comm]
              · simp [hkey]
      | _ => simp [FleetEvent.dispatchedOn, dispatchKeys]

theorem dispatchChannels_once (h : (dispatchKeys events).Nodup) (host : HostId)
    (jobId : Str) : (dispatchChannels host jobId events).length ≤ 1 := by
  rw [length_dispatchChannels]
  exact List.nodup_iff_count_le_one.mp h _

theorem jobEvents_cons (ev : FleetEvent) (events : List FleetEvent) :
    jobEvents cfg agentCfg host jobId s (ev :: events) =
      eventsFor host jobId (bridgeEffects (fleetStep cfg agentCfg s ev).2) ++
        jobEvents cfg agentCfg host jobId (fleetStep cfg agentCfg s ev).1 events := by
  rw [jobEvents, fleetRun, bridgeEffects_append, eventsFor_append]
  rfl

/-- One step of the fleet moves a job on. -/
theorem jobPhase_fleetStep {chs : List Channel} {es : List JobEvent}
    (h : JobPhase chs es (s.bridge.pending.lookup (host, jobId))) (ev : FleetEvent)
    (honce : (chs ++ ev.dispatchedOn host jobId).length ≤ 1) :
    JobPhase (chs ++ ev.dispatchedOn host jobId)
      (es ++ eventsFor host jobId (bridgeEffects (fleetStep cfg agentCfg s ev).2))
      ((fleetStep cfg agentCfg s ev).1.bridge.pending.lookup (host, jobId)) := by
  cases ev with
  | coordinator env ev =>
      simp only [fleetStep, bridgeEffects_coordinator]
      exact h.step (step_jobStep cfg env s.bridge ev host jobId) honce
  | coordinatorRestart =>
      -- what was pending is forgotten without an event
      simp only [FleetEvent.dispatchedOn, fleetStep, List.append_nil]
      have hnone : Bridge.new.pending.lookup (host, jobId) = none := rfl
      rw [hnone]
      generalize s.bridge.pending.lookup (host, jobId) = entry at h
      change JobPhase chs (es ++ []) none
      rw [List.append_nil]
      cases h with
      | fresh => exact .fresh
      | live hchannel hopen =>
          exact .finished hchannel fun e he => hopen e (List.mem_of_mem_dropLast he)
      | finished hchannel hopen => exact .finished hchannel hopen
  | agent j env ev =>
      simp only [FleetEvent.dispatchedOn, fleetStep, bridgeEffects_agent, List.append_nil]
      change JobPhase chs (es ++ []) _
      rw [List.append_nil]
      exact h

/-- A job over a whole run. -/
theorem jobPhase_run {chs : List Channel} {es : List JobEvent}
    (h : JobPhase chs es (s.bridge.pending.lookup (host, jobId)))
    (honce : (chs ++ dispatchChannels host jobId events).length ≤ 1) :
    JobPhase (chs ++ dispatchChannels host jobId events)
      (es ++ jobEvents cfg agentCfg host jobId s events)
      ((fleetRun cfg agentCfg s events).1.bridge.pending.lookup (host, jobId)) := by
  induction events generalizing s chs es with
  | nil => simpa [dispatchChannels, jobEvents, fleetRun, bridgeEffects, eventsFor] using h
  | cons ev events ih =>
      have hcons : dispatchChannels host jobId (ev :: events) =
          ev.dispatchedOn host jobId ++ dispatchChannels host jobId events := rfl
      rw [hcons, ← List.append_assoc] at honce ⊢
      have hhere : (chs ++ ev.dispatchedOn host jobId).length ≤ 1 := by
        rw [List.length_append] at honce
        omega
      rw [jobEvents_cons, ← List.append_assoc]
      exact ih (jobPhase_fleetStep h ev hhere) honce

/-- A job that is not pending and not dispatched again stays silent. -/
theorem jobEvents_of_none (hnone : s.bridge.pending.lookup (host, jobId) = none)
    (hdispatch : dispatchChannels host jobId events = []) :
    jobEvents cfg agentCfg host jobId s events = [] := by
  induction events generalizing s with
  | nil => rfl
  | cons ev events ih =>
      obtain ⟨hhere, hlater⟩ := List.append_eq_nil_iff.mp
        (show ev.dispatchedOn host jobId ++ dispatchChannels host jobId events = [] from hdispatch)
      have hstep : eventsFor host jobId (bridgeEffects (fleetStep cfg agentCfg s ev).2) = [] ∧
          (fleetStep cfg agentCfg s ev).1.bridge.pending.lookup (host, jobId) = none := by
        cases ev with
        | coordinator env ev =>
            simp only [fleetStep, bridgeEffects_coordinator]
            exact (step_jobStep cfg env s.bridge ev host jobId).silent_of_none hnone hhere
        | coordinatorRestart => exact ⟨rfl, rfl⟩
        | agent j env ev =>
            simp only [fleetStep, bridgeEffects_agent]
            exact ⟨rfl, hnone⟩
      rw [jobEvents_cons, hstep.1, ih hstep.2 hlater]
      rfl

/-- An event that is no outcome was relayed from the host. -/
theorem mem_relayedEvents {e : JobEvent} (he : e ∈ jobEvents cfg agentCfg host jobId s events)
    (hopen : JobResult.isTerminal e.result = false) :
    e ∈ relayedEvents cfg agentCfg host jobId s events := by
  induction events generalizing s with
  | nil => cases he
  | cons ev events ih =>
      rw [jobEvents_cons] at he
      rcases List.mem_append.mp he with he | he
      · refine List.mem_append_left _ ?_
        cases ev with
        | coordinator env ev =>
            simp only [fleetStep, bridgeEffects_coordinator] at he
            exact (step_jobStep cfg env s.bridge ev host jobId).mem_relays he hopen
        | coordinatorRestart => cases he
        | agent j env ev =>
            simp only [fleetStep, bridgeEffects_agent] at he
            cases he
      · exact List.mem_append_right _ (ih he)

/-- What was relayed of a job stays behind what the agent has sealed. -/
structure RelayInv (i : Nat) (host : HostId) (jobId : Str) (deeds : List Deed)
    (shown : List Point) (log : List ResultSeal) (relayed : List JobEvent) (s : Fleet) : Prop where
  agent : SealLog (agentEffects i deeds) shown log (s.agents i)
  relays : Relayed host jobId log relayed s.bridge

variable {deeds : List Deed} {shown : List Point} {log : List ResultSeal}
  {relayed : List JobEvent}

theorem RelayInv.step (h : RelayInv i host jobId deeds shown log relayed s) (ev : FleetEvent)
    (hhonest : ∀ env bridgeEvent, ev = .coordinator env bridgeEvent →
      HonestTurn host log shown env s.bridge bridgeEvent)
    (hephs : (Agent.helloEphs
      (agentEffects i (deeds ++ (fleetStep cfg agentCfg s ev).2))).Nodup)
    (hcount : ∀ c ∈ Agent.sealCalls (agentEffects i deeds), c.count < 2 ^ 64)
    (hsize : ∀ x ∈ log, x.result.encode.length < 2 ^ 64) :
    RelayInv i host jobId (deeds ++ (fleetStep cfg agentCfg s ev).2) (shown ++ fleetShown i ev)
      (log ++ fleetSeals i s ev) (relayed ++ fleetRelays cfg host jobId s ev)
      (fleetStep cfg agentCfg s ev).1 := by
  rw [agentEffects_append] at hephs
  cases ev with
  | coordinator env ev =>
      simp only [fleetShown, fleetSeals, fleetRelays, List.append_nil]
      refine ⟨?_, ?_⟩
      · rw [agentEffects_append, fleetStep, agentEffects_coordinator, List.append_nil]
        exact h.agent
      · exact h.relays.turn (step_sessionTurn cfg env s.bridge ev host jobId)
          (hhonest env ev rfl) (h.agent.inOrder hcount) h.agent.origin hsize
  | coordinatorRestart =>
      simp only [fleetShown, fleetSeals, fleetRelays, List.append_nil]
      refine ⟨?_, h.relays.restart⟩
      rw [agentEffects_append, fleetStep]
      simpa [agentEffects] using h.agent
  | agent j env ev =>
      simp only [fleetRelays, List.append_nil]
      refine ⟨?_, h.relays.extend _⟩
      rw [agentEffects_append]
      simp only [fleetStep, agentEffects_agent, fleetShown, fleetSeals] at hephs ⊢
      by_cases hj : j = i
      · subst hj
        simp only [if_pos, Function.update_self] at hephs ⊢
        exact h.agent.step (agentCfg j) env ev hephs
      · simp only [if_neg hj, List.append_nil, Function.update_of_ne (Ne.symm hj)]
        exact h.agent

/-- The first deeds of a run draw no more than the whole run does. -/
theorem nodup_helloEphs_left {deeds later : List Deed}
    (h : (Agent.helloEphs (agentEffects i (deeds ++ later))).Nodup) :
    (Agent.helloEphs (agentEffects i deeds)).Nodup := by
  rw [agentEffects_append, Agent.helloEphs_append] at h
  exact (List.nodup_append.mp h).1

theorem RelayInv.run (h : RelayInv i host jobId deeds shown log relayed s)
    (hhonest : HonestRun cfg agentCfg i host s log shown events) (hephs : (Agent.helloEphs
      (agentEffects i (deeds ++ (fleetRun cfg agentCfg s events).2))).Nodup)
    (hcount : ∀ c ∈ Agent.sealCalls (agentEffects i (deeds ++ (fleetRun cfg agentCfg s events).2)),
      c.count < 2 ^ 64)
    (hsize : ∀ x ∈ log ++ sealedResults cfg agentCfg i s events,
      x.result.encode.length < 2 ^ 64) :
    List.Sublist ((relayed ++ relayedEvents cfg agentCfg host jobId s events).map JobEvent.result)
      (((log ++ sealedResults cfg agentCfg i s events).filter (·.result.jobId = jobId)).map
        ResultSeal.result) := by
  induction events generalizing s deeds shown log relayed with
  | nil => simpa [relayedEvents, sealedResults] using h.relays.sublist
  | cons ev events ih =>
      simp only [fleetRun, ← List.append_assoc] at hephs hcount
      simp only [sealedResults, relayedEvents, ← List.append_assoc] at hsize ⊢
      obtain ⟨hturn, hrest⟩ := hhonest
      refine ih (h.step ev ?_ (nodup_helloEphs_left hephs) ?_ ?_) hrest hephs hcount hsize
      · rintro env bridgeEvent rfl
        exact hturn
      · intro c hc
        refine hcount c ?_
        rw [List.append_assoc, agentEffects_append, Agent.sealCalls_append]
        exact List.mem_append_left _ hc
      · exact fun x hx => hsize x (List.mem_append_left _ (List.mem_append_left _ hx))

end Proofs

/-! ## The events of a job -/

/-- What an operator hears of one job in a run. -/
structure OrderlyEvents {fromDer : FromDer} (cfg : BridgeConfig fromDer)
    (agentCfg : Nat → AgentConfig) (events : List FleetEvent) (host : HostId) (jobId : Str) :
    Prop where
  /-- Chunks, then at most one outcome. -/
  outcome_last : ∃ (chunks : List JobEvent) (outcome : Option JobEvent),
    jobEvents cfg agentCfg host jobId Fleet.new events = chunks ++ outcome.toList ∧
      (∀ e ∈ chunks, JobResult.isTerminal e.result = false) ∧
      ∀ e ∈ outcome, JobResult.isTerminal e.result = true
  /-- Only if the job was dispatched to that host, and only on the channel of the dispatch. -/
  dispatched : ∀ e ∈ jobEvents cfg agentCfg host jobId Fleet.new events,
    dispatchChannels host jobId events = [e.channel]
  /-- Nothing once the entry of the job is gone. -/
  silent : ∀ before after, events = before ++ after →
    dispatchChannels host jobId before ≠ [] →
    (fleetRun cfg agentCfg Fleet.new before).1.bridge.pending.lookup (host, jobId) = none →
      jobEvents cfg agentCfg host jobId (fleetRun cfg agentCfg Fleet.new before).1 after = []
  /-- What comes from an honest host is what its agent sealed for the job, in that order, and
  every event before the outcome is a chunk. -/
  from_agent : ∀ i, HonestAgent cfg agentCfg i host events →
    List.Sublist ((relayedEvents cfg agentCfg host jobId Fleet.new events).map JobEvent.result)
      (((sealedResults cfg agentCfg i Fleet.new events).filter (·.result.jobId = jobId)).map
        ResultSeal.result) ∧
    ∀ e ∈ jobEvents cfg agentCfg host jobId Fleet.new events,
      JobResult.isTerminal e.result = false → ∃ chunk, e.result.body = some (.chunk chunk)

/-- The events of a job that are no outcomes, up to the last one. -/
theorem exists_chunks_outcome {es : List JobEvent}
    (hopen : ∀ e ∈ es.dropLast, JobResult.isTerminal e.result = false) :
    ∃ (chunks : List JobEvent) (outcome : Option JobEvent), es = chunks ++ outcome.toList ∧
      (∀ e ∈ chunks, JobResult.isTerminal e.result = false) ∧
      ∀ e ∈ outcome, JobResult.isTerminal e.result = true := by
  rcases List.eq_nil_or_concat es with rfl | ⟨front, last, rfl⟩
  · exact ⟨[], none, rfl, nofun, nofun⟩
  · rw [List.concat_eq_append, List.dropLast_concat] at hopen
    rw [List.concat_eq_append]
    cases hlast : JobResult.isTerminal last.result with
    | true => exact ⟨front, some last, rfl, hopen, fun e he => Option.some.inj he ▸ hlast⟩
    | false =>
        refine ⟨front ++ [last], none, by simp, ?_, nofun⟩
        intro e he
        rcases List.mem_append.mp he with he | he
        · exact hopen e he
        · rw [List.mem_singleton.mp he]
          exact hlast

/-- In every run in which no job is dispatched twice, the operator of a job hears
chunks and then at most one outcome, all on the channel and for the host of the
dispatch and nothing after the job is gone; what comes from an honest host is a
subsequence of what its agent sealed. -/
theorem job_events_orderly {fromDer : FromDer} (cfg : BridgeConfig fromDer)
    (agentCfg : Nat → AgentConfig) (events : List FleetEvent)
    (hdistinct : (dispatchKeys events).Nodup) (host : HostId) (jobId : Str) :
    OrderlyEvents cfg agentCfg events host jobId := by
  have hphase : ∀ before after, events = before ++ after →
      (dispatchChannels host jobId before ++ dispatchChannels host jobId after).length ≤ 1 ∧
      JobPhase (dispatchChannels host jobId before)
        (jobEvents cfg agentCfg host jobId Fleet.new before)
        ((fleetRun cfg agentCfg Fleet.new before).1.bridge.pending.lookup (host, jobId)) := by
    rintro before after rfl
    have honce := dispatchChannels_once hdistinct host jobId
    rw [dispatchChannels, List.flatMap_append] at honce
    refine ⟨honce, ?_⟩
    have hbefore : ([] ++ dispatchChannels host jobId before).length ≤ 1 := by
      rw [List.length_append] at honce
      exact le_of_add_le_left honce
    have hfresh : JobPhase [] [] (Fleet.new.bridge.pending.lookup (host, jobId)) := .fresh
    exact jobPhase_run hfresh hbefore
  obtain ⟨-, hwhole⟩ := hphase events [] (List.append_nil _).symm
  refine ⟨?_, ?_, ?_, ?_⟩
  · exact exists_chunks_outcome hwhole.open_of_mem_dropLast
  · exact fun e he => hwhole.channel_of_mem he
  · intro before after hsplit hdispatched hnone
    obtain ⟨honce, -⟩ := hphase before after hsplit
    refine jobEvents_of_none hnone ?_
    have hpos := List.length_pos_iff.mpr hdispatched
    rw [List.length_append] at honce
    exact List.eq_nil_of_length_eq_zero (by omega)
  · intro i hagent
    have hinit : RelayInv i host jobId [] [] [] [] Fleet.new :=
      ⟨sealLog_new, relayed_empty host jobId _⟩
    have hsub := hinit.run hagent.turns hagent.ephs hagent.counts
      fun x hx => (hagent.reports x hx).2
    refine ⟨hsub, ?_⟩
    intro e he hopen
    -- an event that is no outcome was relayed, so an agent's task sealed it
    have hmem := hsub.subset (List.mem_map_of_mem (mem_relayedEvents he hopen))
    obtain ⟨x, hx, hresult⟩ := List.mem_map.mp hmem
    have hbody := (hagent.reports x (List.mem_of_mem_filter hx)).1
    rw [hresult] at hbody
    unfold JobResult.isTerminal at hopen
    rcases hcase : e.result.body with _ | chunk | outcome
    · exact absurd hcase hbody
    · exact ⟨chunk, rfl⟩
    · rw [hcase] at hopen
      cases hopen

def decideHonestTurn (host : HostId) (log : List ResultSeal) (shown : List Point) (env : StepEnv)
    (b : Bridge) : (ev : BridgeEvent) → Decidable (HonestTurn host log shown env b ev)
  | .message _ payload =>
      inferInstanceAs (Decidable ((∀ e ∈ payload.envelope, ∀ s ∈ b.sessions.get host,
        ∀ p ∈ openEnvelope s.keys .agentToCoord e,
          p = ctrlSessionAck ∨ ∃ x ∈ log, x.env = e) ∧
        (payload.clientHello ≠ none → ∀ q ∈ env.eph, q ∉ shown)))
  | .command _ => isTrue trivial
  | .sweep => isTrue trivial

instance (host : HostId) (log : List ResultSeal) (shown : List Point) (s : Fleet) :
    (ev : FleetEvent) → Decidable (HonestStep host log shown s ev)
  | .coordinator env ev => decideHonestTurn host log shown env s.bridge ev
  | .coordinatorRestart => isTrue trivial
  | .agent _ _ _ => isTrue trivial

def decideHonestRun {fromDer : FromDer} (cfg : BridgeConfig fromDer)
    (agentCfg : Nat → AgentConfig) (i : Nat) (host : HostId) : (s : Fleet) →
    (log : List ResultSeal) → (shown : List Point) → (events : List FleetEvent) →
    Decidable (HonestRun cfg agentCfg i host s log shown events)
  | _, _, _, [] => isTrue trivial
  | s, log, shown, ev :: events =>
      have := decideHonestRun cfg agentCfg i host (fleetStep cfg agentCfg s ev).1
        (log ++ fleetSeals i s ev) (shown ++ fleetShown i ev) events
      inferInstanceAs (Decidable (HonestStep host log shown s ev ∧ _))

instance {fromDer : FromDer} (cfg : BridgeConfig fromDer) (agentCfg : Nat → AgentConfig) (i : Nat)
    (host : HostId) (s : Fleet) (log : List ResultSeal) (shown : List Point)
    (events : List FleetEvent) :
    Decidable (HonestRun cfg agentCfg i host s log shown events) :=
  decideHonestRun cfg agentCfg i host s log shown events

/-- The delivery of a result that the sample session's agent sealed. -/
def sampleResultTurn (count : Nat) (r : JobResult) : FleetEvent :=
  smoothTurn (.message (Topics.resultUp sampleHost.toStr.text) (envelopePayload
    (sealUplink sampleKeys count sampleHost.toStr sampleSid r.encode).1))

def sampleChunk (jobId : Str) : JobResult :=
  Report.result jobId (.chunk (.stdout default))

/-- A job that prints and exits; the broker repeats the outcome and then the output. -/
def sampleJobRun : List FleetEvent :=
  let a := Str.lit "a"
  sampleHandshake ++
    [smoothTurn (.command (.dispatch sampleHost (sampleDispatch a) 0)),
      smoothAgentTurn (.publish (Topics.dispatchDown sampleHost.toStr.text)
        (envelopePayload (sampleDownlink 1 (sampleDispatch a).encode))),
      smoothAgentTurn (.jobSeals 0 (sampleChunk a)),
      smoothAgentTurn (.jobEnqueues 0),
      sampleResultTurn 1 (sampleChunk a),
      smoothAgentTurn (.jobSeals 0 (sampleResult a)),
      smoothAgentTurn (.jobEnqueues 0),
      sampleResultTurn 2 (sampleResult a),
      sampleResultTurn 2 (sampleResult a),
      sampleResultTurn 1 (sampleChunk a)]

theorem honestAgent_sampleJobRun :
    HonestAgent sampleCfg (fun _ => sampleAgentCfg) 0 sampleHost sampleJobRun := by
  have hlog : let log := (fleetRun sampleCfg (fun _ => sampleAgentCfg) Fleet.new sampleJobRun).2
      (Agent.helloEphs (agentEffects 0 log)).Nodup ∧
      (∀ c ∈ Agent.sealCalls (agentEffects 0 log), c.count < 2 ^ 64) ∧
      ∀ x ∈ sealedResults sampleCfg (fun _ => sampleAgentCfg) 0 Fleet.new sampleJobRun,
        x.result.body ≠ none ∧ x.result.encode.length < 2 ^ 64 := by
    decide +kernel
  exact ⟨by decide +kernel, hlog.1, hlog.2.1, hlog.2.2⟩

/-- The sample job: its operator hears the chunk and the outcome, once each. -/
theorem job_events_orderly_sample :
    (dispatchKeys sampleJobRun).Nodup ∧
    HonestAgent sampleCfg (fun _ => sampleAgentCfg) 0 sampleHost sampleJobRun ∧
    (jobEvents sampleCfg (fun _ => sampleAgentCfg) sampleHost (Str.lit "a") Fleet.new
      sampleJobRun).map (·.result) = [sampleChunk (Str.lit "a"), sampleResult (Str.lit "a")] ∧
    OrderlyEvents sampleCfg (fun _ => sampleAgentCfg) sampleJobRun sampleHost (Str.lit "a") :=
  have hkeys : (dispatchKeys sampleJobRun).Nodup := by decide +kernel
  ⟨hkeys, honestAgent_sampleJobRun, by decide +kernel,
    job_events_orderly sampleCfg (fun _ => sampleAgentCfg) sampleJobRun hkeys
      sampleHost (Str.lit "a")⟩

end System
end OpenSsmAgent
