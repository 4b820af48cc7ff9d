import OpenSsmAgent.Agent.Moves
import OpenSsmAgent.Coordinator.Coherence

/-!
# Bounded state of the two loops

What {lit}`run_bridge` and the connection loop of the agent hold is bounded, whatever
messages and commands arrive.  The collections of the bridge are capped one by one, and
the routes by the sessions they need; the agent sheds jobs and refuses shells.  A cap
stands in the way of new entries only.

Main results:

- Theorem {lit}`Bridge.Bounded.step`: a turn of the bridge keeps its bounds.
- Theorem {lit}`Process.Bounded.step`: a step of the agent keeps its bounds.
- Theorem {lit}`bounded_state`: the bounds hold in every state reached, and at a cap a
  host that is known still gets its new session and its heartbeat.
-/

open Framing SymbolicCrypto

namespace OpenSsmAgent

open Seal Wire Domain Hs Proto

/-! ## The bridge -/

namespace Coordinator

/-- What the bridge holds at most. -/
structure Bridge.Bounded (b : Bridge) : Prop where
  pending : b.pending.size ≤ maxPendingJobs
  cap : b.sessions.cap = maxSessions
  sessions : b.sessions.byHost.size ≤ maxSessions
  tracked : b.lastSeen.size ≤ maxTrackedHosts
  jobSession : ∀ host jobId job, b.pending.lookup (host, jobId) = some job →
    (b.sessions.get host).isSome
  routeSession : ∀ host r, b.shells.lookup host = some r → (b.sessions.get host).isSome

theorem Bridge.bounded_new : Bridge.new.Bounded where
  pending := Nat.zero_le _
  cap := rfl
  sessions := Nat.zero_le _
  tracked := Nat.zero_le _
  jobSession := nofun
  routeSession := nofun

section Acts

variable {fromDer : FromDer} {cfg : BridgeConfig fromDer} {env : StepEnv} {ev : BridgeEvent}
  {flag : Bool} {b b' : Bridge} {es : List Effect} {host : HostId}

/-- Jobs and routes have their sessions, and the jobs are within their cap. -/
structure Bridge.Anchored (b : Bridge) : Prop where
  pending : b.pending.size ≤ maxPendingJobs
  job : ∀ key job, b.pending.lookup key = some job → (b.sessions.get key.1).isSome
  route : ∀ host r, b.shells.lookup host = some r → (b.sessions.get host).isSome

theorem isSome_get_set {sessions : SessionStore} {other : HostId} (s : Session)
    (h : (sessions.get host).isSome) : ((sessions.set other s).get host).isSome := by
  rw [SessionStore.get_set]
  split
  · rfl
  · exact h

/-- Storing a session takes none away. -/
theorem Bridge.Anchored.setSession (h : b.Anchored) (host : HostId) (s : Session) :
    (b.setSession host s).Anchored where
  pending := h.pending
  job key job hget := isSome_get_set s (h.job key job hget)
  route host r hget := isSome_get_set s (h.route host r hget)

/-- A route is stored for a host with a session. -/
theorem Bridge.Anchored.setRoute (h : b.Anchored) (hsession : (b.sessions.get host).isSome)
    (r : ShellRoute) : (b.setRoute host r).Anchored where
  pending := h.pending
  job := h.job
  route other r' hget := by
    simp only [Bridge.setRoute, Table.lookup_put] at hget
    split at hget
    · rename_i heq
      exact heq ▸ hsession
    · exact h.route other r' hget

/-- Fewer jobs. -/
theorem Bridge.Anchored.fewerJobs (h : b.Anchored) {pending : Table (HostId × Str) PendingJob}
    (hsize : pending.size ≤ b.pending.size)
    (hjobs : ∀ key job, pending.lookup key = some job → b.pending.lookup key = some job) :
    Bridge.Anchored { b with pending := pending } where
  pending := hsize.trans h.pending
  job key job hget := h.job key job (hjobs key job hget)
  route := h.route

theorem Bridge.Anchored.act (h : b.Anchored) (hact : Act b es b') : b'.Anchored := by
  cases hact with
  | tell => exact h
  | beat lastSeen => exact ⟨h.pending, h.job, h.route⟩
  | @addJob key job s hfree hroom hsession =>
      refine ⟨?_, ?_, h.route⟩
      · change (b.pending.put key job).size ≤ maxPendingJobs
        rw [Table.size_put, hfree]
        exact hroom
      · intro key' job' hget
        simp only [Bridge.addPending, Table.lookup_put] at hget
        split at hget
        · rename_i heq
          subst heq
          exact Option.isSome_iff_exists.mpr ⟨s, hsession⟩
        · exact h.job key' job' hget
  | dropJob key =>
      refine h.fewerJobs (Table.size_drop_le _ _) ?_
      intro key' job hget
      rw [Table.lookup_drop] at hget
      split at hget
      · cases hget
      · exact hget
  | retainJobs keep =>
      refine h.fewerJobs (Table.size_retain_le _ _) ?_
      intro key job hget
      rw [Table.lookup_retain, Option.filter_eq_some_iff] at hget
      exact hget.1
  | sealSession hget => exact h.setSession _ _
  | readSession hget e => exact h.setSession _ _
  | sealRoute hget => exact h.setRoute (h.route _ _ hget) _
  | readRoute hget e => exact h.setRoute (h.route _ _ hget) _
  | dropRoute host =>
      refine ⟨h.pending, h.job, ?_⟩
      intro other r hget
      simp only [Bridge.dropRoute, Table.lookup_drop] at hget
      split at hget
      · cases hget
      · exact h.route other r hget

theorem Bridge.Anchored.acts (h : b.Anchored) (hacts : Acts cfg env ev flag b es b') :
    b'.Anchored := by
  induction hacts with
  | nil => exact h
  | act hact _ ih => exact ih (h.act hact)
  | birth hbirth _ ih =>
      cases hbirth with
      | session hcheck hresp => exact ih (h.setSession _ _)
      | route hsession =>
          exact ih (h.setRoute (Option.isSome_iff_exists.mpr ⟨_, hsession⟩) _)

/-- The sessions stay within their cap. -/
def WithinCap (b b' : Bridge) : Prop :=
  b'.sessions.cap = b.sessions.cap ∧
  (b.sessions.byHost.size ≤ b.sessions.cap → b'.sessions.byHost.size ≤ b.sessions.cap)

/-- A session is stored for a host that has one or finds room. -/
theorem withinCap_setSession
    (hroom : b.sessions.get host = none → b.sessions.byHost.size < b.sessions.cap)
    (s : Session) : WithinCap b (b.setSession host s) := by
  refine ⟨rfl, fun hsize => ?_⟩
  change (b.sessions.byHost.put host s).size ≤ b.sessions.cap
  rw [Table.size_put]
  split_ifs with hknown
  · exact hsize
  · exact hroom (Option.not_isSome_iff_eq_none.mp hknown)

theorem Act.withinCap (h : Act b es b') : WithinCap b b' := by
  cases h with
  | sealSession hget => exact withinCap_setSession (fun hnone => by simp [hget] at hnone) _
  | readSession hget e => exact withinCap_setSession (fun hnone => by simp [hget] at hnone) _
  | _ => exact ⟨rfl, id⟩

theorem Acts.withinCap (h : Acts cfg env ev flag b es b') : WithinCap b b' := by
  have htrans : ∀ {b b' b'' : Bridge}, WithinCap b b' → WithinCap b' b'' → WithinCap b b'' := by
    rintro b b' b'' ⟨hcap, hsize⟩ ⟨hcap', hsize'⟩
    rw [hcap] at hcap' hsize'
    exact ⟨hcap', hsize' ∘ hsize⟩
  induction h with
  | nil => exact ⟨rfl, id⟩
  | act hact _ ih => exact htrans hact.withinCap ih
  | birth hbirth _ ih =>
      cases hbirth with
      | session hcheck hresp hroom => exact htrans (withinCap_setSession hroom _) ih
      | route hsession => exact ih

end Acts

section Turn

variable {fromDer : FromDer} {cfg : BridgeConfig fromDer} {env : StepEnv} {b : Bridge}
  {host : HostId}

/-- The heartbeat table grows to its cap at most. -/
theorem size_recordHeartbeat {lastSeen : Table String Instant} {cap : Nat}
    (h : lastSeen.size ≤ cap) (hostId : String) (now : Instant) :
    (recordHeartbeat lastSeen hostId now cap).1.size ≤ cap := by
  have hkept := Table.size_retain_le lastSeen (fun _ t => now - t ≤ onlineAfterGap)
  unfold recordHeartbeat
  dsimp only
  split_ifs with hknown hfull
  · rw [Table.size_put, if_pos hknown]
    exact hkept.trans h
  · exact hkept.trans h
  · rw [Table.size_put, if_neg hknown]
    exact not_le.mp hfull

/-- A tracked host is refreshed.  If its entry is stale it is swept first, and has thereby
made the room that it needs. -/
theorem lookup_recordHeartbeat {lastSeen : Table String Instant} {cap : Nat}
    (h : lastSeen.size ≤ cap) {hostId : String} {t : Instant}
    (htracked : lastSeen.lookup hostId = some t) (now : Instant) :
    (recordHeartbeat lastSeen hostId now cap).1.lookup hostId = some now := by
  unfold recordHeartbeat
  dsimp only
  split_ifs with hknown hfull
  · exact Table.lookup_put_self _ _ _
  · have hstale : decide (now - t ≤ onlineAfterGap) = false := by
      rw [Table.lookup_retain, htracked, Option.filter_some] at hknown
      split at hknown
      · exact absurd rfl hknown
      · rename_i hnot
        exact Bool.eq_false_iff.mpr hnot
    have hless : (lastSeen.retain fun _ t => now - t ≤ onlineAfterGap).size < lastSeen.size :=
      Table.size_retain_lt htracked hstale
    omega
  · exact Table.lookup_put_self _ _ _

theorem handleCommand_lastSeen (cmd : BridgeCommand) :
    (handleCommand env b cmd).1.lastSeen = b.lastSeen := by
  have hhandled := handleCommand_handled env b cmd
  generalize handleCommand env b cmd = out at hhandled ⊢
  cases hhandled <;> rfl

/-- The heartbeat table changes by a heartbeat only. -/
theorem step_lastSeen (cfg : BridgeConfig fromDer) (env : StepEnv) (b : Bridge)
    (ev : BridgeEvent) :
    (step cfg env b ev).1.lastSeen = b.lastSeen ∨
    ∃ tenant, (step cfg env b ev).1.lastSeen =
      (recordHeartbeat b.lastSeen tenant env.now maxTrackedHosts).1 := by
  cases ev with
  | message topic payload =>
      have hintake := onMessage_intake cfg env b topic payload
      change (onMessage cfg env b topic payload).1.lastSeen = _ ∨
        ∃ tenant, (onMessage cfg env b topic payload).1.lastSeen = _
      generalize onMessage cfg env b topic payload = out at hintake ⊢
      cases hintake with
      | heartbeat htopic => exact Or.inr ⟨_, rfl⟩
      | result =>
          left
          dsimp only
          split <;> rfl
      | _ => exact Or.inl rfl
  | command cmd => exact Or.inl (handleCommand_lastSeen cmd)
  | sweep => exact Or.inl rfl

/-- One turn of the bridge. -/
theorem Bridge.Bounded.step (h : b.Bounded) (cfg : BridgeConfig fromDer) (env : StepEnv)
    (ev : BridgeEvent) : (step cfg env b ev).1.Bounded := by
  have hanchored : b.Anchored :=
    ⟨h.pending, fun key job hget => h.jobSession key.1 key.2 job hget, h.routeSession⟩
  have hanchored' := hanchored.acts (step_acts cfg env b ev)
  obtain ⟨hcap, hsessions⟩ := (step_acts cfg env b ev).withinCap
  rw [h.cap] at hcap hsessions
  refine ⟨hanchored'.pending, hcap, hsessions h.sessions, ?_, ?_, hanchored'.route⟩
  · rcases step_lastSeen cfg env b ev with hsame | ⟨tenant, hbeat⟩
    · exact hsame ▸ h.tracked
    · exact hbeat ▸ size_recordHeartbeat h.tracked tenant env.now
  · exact fun host jobId job hget => hanchored'.job (host, jobId) job hget

theorem bounded_reached (cfg : BridgeConfig fromDer) (turns : List (StepEnv × BridgeEvent)) :
    (reached cfg turns).Bounded := by
  induction turns using List.reverseRecOn with
  | nil => exact Bridge.bounded_new
  | append_singleton turns turn ih =>
      rw [reached_snoc]
      exact ih.step cfg turn.1 turn.2

/-- There is at most one route for each session. -/
theorem Bridge.Bounded.routes_le (h : b.Bounded) : b.shells.size ≤ b.sessions.byHost.size := by
  refine (b.shells.keys_nodup.subperm ?_).length_le
  intro host hhost
  obtain ⟨r, hr⟩ := Table.mem_keys_iff.mp hhost
  exact Table.mem_keys_iff.mpr (Option.isSome_iff_exists.mp (h.routeSession host r hr))

/-- An admitted hello of a host with a session replaces it, at any load. -/
theorem onHello_replaces {tenant : String} {payload : Payload} {c : CheckedHello}
    {resp : ServerResponse} (hadmitted : Admitted cfg.ca env b tenant payload c resp) {s : Session}
    (hknown : b.sessions.get c.host.hostId = some s) :
    ∃ s', (onHello cfg.ca env b tenant payload).1.sessions.get c.host.hostId = some s' ∧
      s'.sid = c.hello.sid ∧ s'.keys = resp.keys := by
  have hhello : handleClientHello cfg.ca env b tenant payload = establish env b c resp := by
    simp [handleClientHello, hadmitted.checked, hadmitted.unrevoked, hadmitted.responded,
      hadmitted.admitted]
  have hinsert : b.sessions.insert c.host.hostId c.hello.sid resp.keys =
      (true, b.sessions.set c.host.hostId (Session.start c.hello.sid resp.keys)) := by
    simp [SessionStore.insert, hknown]
  simp only [onHello, hhello, establish, hinsert]
  split_ifs
  · exact ⟨_, SessionStore.get_set_self _ _ _, rfl, rfl⟩
  · exact ⟨_, SessionStore.get_set_self _ _ _, rfl, rfl⟩

end Turn

end Coordinator

/-! ## The agent -/

namespace Agent

/-- The shells of the process; a stream owns its PTY child and kills it when it is
dropped. -/
def Process.shells (a : Process) : List ShellStream :=
  (a.conn.bind Connection.activeStream).toList

/-- What the agent process holds at most. -/
structure Process.Bounded (a : Process) : Prop where
  jobs : a.jobs.size ≤ maxConcurrentJobs
  shells : a.shells.length ≤ 1
  streamIds : ∀ conn, a.conn = some conn → conn.usedStreamIds.Nodup ∧
    conn.usedStreamIds.length ≤ maxShellsPerSession

theorem Process.length_shells_le (a : Process) : a.shells.length ≤ 1 := by
  unfold shells
  cases a.conn.bind Connection.activeStream with
  | none => exact Nat.zero_le 1
  | some stream => exact le_refl 1

section Steps

variable {cfg : AgentConfig} {env : AgentEnv} {a a' : Process} {conn : Connection}

theorem Process.bounded_new : Process.new.Bounded :=
  ⟨Nat.zero_le _, Process.length_shells_le _, nofun⟩

/-- A step that spawns no job task and uses no stream id. -/
theorem Process.Bounded.keep (h : a.Bounded) (hjobs : a'.jobs.size ≤ a.jobs.size)
    (hconn : ∀ conn', a'.conn = some conn' → conn'.usedStreamIds = [] ∨
      ∃ conn, a.conn = some conn ∧ conn'.usedStreamIds = conn.usedStreamIds) : a'.Bounded where
  jobs := hjobs.trans h.jobs
  shells := Process.length_shells_le _
  streamIds conn' hconn' := by
    rcases hconn conn' hconn' with hnone | ⟨conn, hc, hsame⟩
    · rw [hnone]
      exact ⟨List.nodup_nil, Nat.zero_le _⟩
    · rw [hsame]
      exact h.streamIds conn hc

/-- The connection changes, but not its stream ids. -/
theorem Process.Bounded.setConn (h : a.Bounded) (hc : a.conn = some conn) (hjobs : a'.jobs = a.jobs)
    {conn' : Connection} (hc' : a'.conn = some conn')
    (hsame : conn'.usedStreamIds = conn.usedStreamIds) : a'.Bounded := by
  refine h.keep (hjobs ▸ le_refl _) ?_
  intro found hfound
  obtain rfl := Option.some.inj (hc'.symm.trans hfound)
  exact Or.inr ⟨conn, hc, hsame⟩

/-- One step of the agent process: a job is shed at the cap, and a shell is refused when
its id was used or too many were. -/
theorem Process.Bounded.step (h : a.Bounded) (cfg : AgentConfig) (env : AgentEnv)
    (event : AgentEvent) : (agentStep cfg env a event).1.Bounded := by
  have hsame : ∀ {a' : Process}, a'.jobs.size ≤ a.jobs.size → a'.conn = a.conn → a'.Bounded := by
    intro a' hjobs hconn
    exact h.keep hjobs fun conn' hc => Or.inr ⟨conn', hconn ▸ hc, rfl⟩
  have hmove := agentStep_move cfg env a event
  generalize agentStep cfg env a event = out at hmove ⊢
  cases hmove with
  | connected =>
      refine h.keep (le_refl _) ?_
      intro conn' hconn'
      obtain rfl := Option.some.inj hconn'
      exact Or.inl rfl
  | greeted hc => exact h.setConn hc rfl rfl rfl
  | spoiled hc => exact h.setConn hc rfl rfl rfl
  | finished hc => exact h.setConn hc rfl rfl rfl
  | read hc => exact h.setConn hc rfl rfl rfl
  | confirmed hc => exact h.setConn hc rfl rfl rfl
  | @jobStarted conn est est' payload dispatch hc hest hsession hroom =>
      refine ⟨?_, Process.length_shells_le _, ?_⟩
      · change (a.jobs.put _ _).size ≤ maxConcurrentJobs
        rw [Table.size_put]
        split_ifs
        · exact h.jobs
        · exact hroom
      · intro conn' hconn'
        obtain rfl := Option.some.inj hconn'
        exact h.streamIds conn hc
  | shellFailed hc => exact h.setConn hc rfl rfl rfl
  | shellOpened hc hest hsession hunused hroom =>
      refine ⟨h.jobs, Process.length_shells_le _, ?_⟩
      intro conn' hconn'
      obtain rfl := Option.some.inj hconn'
      exact ⟨List.nodup_cons.mpr ⟨hunused, (h.streamIds _ hc).1⟩, hroom⟩
  | streamed hc => exact h.setConn hc rfl rfl rfl
  | disconnected =>
      refine h.keep (le_refl _) ?_
      intro conn' hconn'
      cases hconn'
  | jobEnded => exact hsame (Table.size_drop_le _ _) rfl
  | restarted => exact Process.bounded_new
  | _ => exact hsame (le_refl _) rfl

theorem Process.Bounded.run (h : a.Bounded) (cfg : AgentConfig)
    (turns : List (AgentEnv × AgentEvent)) : (agentRun cfg a turns).1.Bounded := by
  induction turns generalizing a with
  | nil => exact h
  | cons turn turns ih => exact ih (h.step cfg turn.1 turn.2)

end Steps

end Agent

/-! ## Both loops -/

open Coordinator Agent

/-- In every state that the two loops reach, what they hold is within its bounds; there,
whatever the load, an admitted hello replaces the session of a host that has one, and a
heartbeat refreshes a host that is tracked. -/
theorem bounded_state {fromDer : FromDer} (cfg : BridgeConfig fromDer)
    (turns : List (StepEnv × BridgeEvent)) (agentCfg : AgentConfig)
    (steps : List (AgentEnv × AgentEvent)) :
    (reached cfg turns).Bounded ∧
    (reached cfg turns).shells.size ≤ (reached cfg turns).sessions.byHost.size ∧
    (agentRun agentCfg Process.new steps).1.Bounded ∧
    (∀ env tenant payload c resp s,
      Admitted cfg.ca env (reached cfg turns) tenant payload c resp →
      (reached cfg turns).sessions.get c.host.hostId = some s →
      ∃ s', (onHello cfg.ca env (reached cfg turns) tenant payload).1.sessions.get
          c.host.hostId = some s' ∧ s'.sid = c.hello.sid ∧ s'.keys = resp.keys) ∧
    (∀ env topic payload tenant t, Topics.tenantFromHeartbeat topic = some tenant →
      (reached cfg turns).lastSeen.lookup tenant = some t →
      (step cfg env (reached cfg turns) (.message topic payload)).1.lastSeen.lookup tenant =
        some env.now) := by
  have hbounded := bounded_reached cfg turns
  refine ⟨hbounded, hbounded.routes_le, Process.bounded_new.run agentCfg steps, ?_, ?_⟩
  · exact fun env tenant payload c resp s hadmitted hknown => onHello_replaces hadmitted hknown
  · intro env topic payload tenant t htopic htracked
    have hstep : (step cfg env (reached cfg turns) (.message topic payload)).1.lastSeen =
        (recordHeartbeat (reached cfg turns).lastSeen tenant env.now maxTrackedHosts).1 := by
      simp only [step, onMessage, htopic]
    rw [hstep]
    exact lookup_recordHeartbeat hbounded.tracked htracked env.now

/-- The sample host has a session and has been heard. -/
def sampleHeard : List (StepEnv × BridgeEvent) :=
  [sampleHelloTurn,
    (sampleEnv, .message (Topics.heartbeat sampleHost.toStr.text) ⟨none, none, none⟩)]

/-- It opens another session, and is heard again two minutes later. -/
theorem bounded_state_reconnect :
    (∃ s', (onHello sampleCfg.ca sampleEnv (reached sampleCfg sampleHeard)
        (Topics.tenant sampleHost.toStr.text)
        ⟨some sampleReconnect, none, none⟩).1.sessions.get sampleHost = some s' ∧
      s'.sid = Str.lit "t") ∧
    (step sampleCfg { sampleEnv with now := seconds 120 } (reached sampleCfg sampleHeard)
      (.message (Topics.heartbeat sampleHost.toStr.text) ⟨none, none, none⟩)).1.lastSeen.lookup
        (Topics.tenant sampleHost.toStr.text) = some (seconds 120) := by
  obtain ⟨-, -, -, hreplaces, hrefreshes⟩ :=
    bounded_state sampleCfg sampleHeard ⟨default, ⟨[], []⟩⟩ []
  constructor
  · let c : CheckedHello := ⟨sampleReconnect, sampleClientEph, ⟨sampleHost, .ofKey ⟨1⟩⟩⟩
    have hrespond : (c.respond sampleCfg.ca sampleEnv.eph).isOk = true := by decide +kernel
    have hheard : let sessions := (reached sampleCfg sampleHeard).sessions
        (sessions.get sampleHost).isSome = true ∧
          checkHello sampleCfg.ca sampleEnv.utcNow (Topics.tenant sampleHost.toStr.text)
            ⟨some sampleReconnect, none, none⟩ sessions = some c := by
      decide +kernel
    obtain ⟨hsession, hcheck⟩ := hheard
    obtain ⟨s, hs⟩ := Option.isSome_iff_exists.mp hsession
    cases hresp : c.respond sampleCfg.ca sampleEnv.eph with
    | error e =>
        rw [hresp] at hrespond
        exact absurd hrespond Bool.false_ne_true
    | ok resp =>
        obtain ⟨s', hs', hsid, -⟩ :=
          hreplaces sampleEnv _ _ c resp s ⟨hcheck, rfl, hresp, rfl⟩ hs
        exact ⟨s', hs', hsid⟩
  · exact hrefreshes { sampleEnv with now := seconds 120 } _ _ _ 0 (by decide +kernel)
      (by decide +kernel)

end OpenSsmAgent
