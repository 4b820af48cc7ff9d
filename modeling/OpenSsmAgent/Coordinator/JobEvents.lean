import OpenSsmAgent.Coordinator.Coherence

/-!
# The events of a job

Four operations of the bridge finish a pending job: its result, the reconnect of
its host, the sweep, and the refusal of its dispatch.  Each removes the entry
together with the event it sends, so that the operator of a job is sent chunks and
then at most one outcome.

Main results:

- Theorem {lit}`step_jobStep`: what a turn does to one job.
- Theorem {lit}`JobPhase.step`: a job is dispatched once, lives, and is finished.
-/

open Framing SymbolicCrypto

namespace OpenSsmAgent
namespace Coordinator

open Seal Wire Domain Hs Proto

/-! ## Events and dispatches of a job -/

/-- An event offered to an operator. -/
structure JobEvent where
  channel : Channel
  result : JobResult
  sent : SendResult
deriving DecidableEq

/-- The events of a host's job among some effects. -/
def eventsFor (host : HostId) (jobId : Str) (es : List Effect) : List JobEvent :=
  es.filterMap (fun
    | .event ch tagged r sent =>
        if tagged = host ∧ r.jobId = jobId then some ⟨ch, r, sent⟩ else none
    | _ => none)

/-- The event that an attempt to send a result amounts to. -/
def StepEnv.offer (env : StepEnv) (ch : Channel) (host : HostId) (r : JobResult) : JobEvent :=
  ⟨ch, r, env.sendEvent ch host r⟩

/-- The job a turn dispatches, with its operator channel. -/
def BridgeEvent.dispatches : BridgeEvent → Option ((HostId × Str) × Channel)
  | .command (.dispatch host dispatch events) => some ((host, dispatch.jobId), events)
  | _ => none

/-- Whether a turn handles a message on a result topic. -/
def BridgeEvent.isResult : BridgeEvent → Bool
  | .message topic _ => (Topics.tenantFromResultUp topic).isSome
  | _ => false

/-- The channel of a turn's dispatch of a job. -/
def BridgeEvent.dispatchedOn (host : HostId) (jobId : Str) (ev : BridgeEvent) : List Channel :=
  (ev.dispatches.bind fun (key, ch) => if key = (host, jobId) then some ch else none).toList

section Lists

variable {host : HostId} {jobId : Str}

theorem eventsFor_append (es es' : List Effect) :
    eventsFor host jobId (es ++ es') = eventsFor host jobId es ++ eventsFor host jobId es' :=
  List.filterMap_append

theorem eventsFor_eq_nil {es : List Effect}
    (h : ∀ e ∈ es, ∀ ch r sent, e = .event ch host r sent → r.jobId ≠ jobId) :
    eventsFor host jobId es = [] := by
  refine List.filterMap_eq_nil_iff.mpr ?_
  intro e he
  cases e with
  | event ch tagged r sent =>
      refine if_neg ?_
      rintro ⟨rfl, hid⟩
      exact h _ he ch r sent rfl hid
  | _ => rfl

theorem eventsFor_singleton (env : StepEnv) (ch : Channel) (tagged : HostId) (r : JobResult) :
    eventsFor host jobId [env.eventTo ch tagged r] =
      if tagged = host ∧ r.jobId = jobId then [env.offer ch host r] else [] := by
  simp only [eventsFor, StepEnv.eventTo, List.filterMap_cons, List.filterMap_nil]
  split <;> rename_i h <;> split at h <;> simp_all [StepEnv.offer]

/-- One event for each entry of a table that passes a test: a job has at most one. -/
theorem eventsFor_entries (m : Table (HostId × Str) PendingJob)
    (keep : HostId × Str → PendingJob → Bool) (env : StepEnv) (msg : Str) :
    eventsFor host jobId ((m.entries.filter (fun e => !keep e.1 e.2)).map fun e =>
        env.eventTo e.2.events e.1.1 (errorResult e.1.2 msg)) =
      match m.lookup (host, jobId) with
      | none => []
      | some job =>
          if keep (host, jobId) job then []
          else [env.offer job.events host (errorResult jobId msg)] := by
  have hpick : eventsFor host jobId ((m.entries.filter (fun e => !keep e.1 e.2)).map fun e =>
      env.eventTo e.2.events e.1.1 (errorResult e.1.2 msg)) =
      m.entries.filterMap (fun e => if e.1 = (host, jobId) then
        (if keep (host, jobId) e.2 then none else
          some (env.offer e.2.events host (errorResult jobId msg))) else none) := by
    simp only [eventsFor, List.filterMap_map, List.filterMap_filter]
    refine List.filterMap_congr ?_
    rintro ⟨⟨tagged, id⟩, job⟩ -
    by_cases hkey : tagged = host ∧ id = jobId
    · obtain ⟨rfl, rfl⟩ := hkey
      cases keep (tagged, id) job <;> simp [StepEnv.eventTo, StepEnv.offer, errorResult]
    · have hne : ¬ (tagged, id) = (host, jobId) := fun heq => hkey (Prod.mk.inj heq)
      simp [StepEnv.eventTo, errorResult, hkey, hne]
  rw [hpick, Table.filterMap_entries m (host, jobId) fun job =>
    if keep (host, jobId) job then none else
      some (env.offer job.events host (errorResult jobId msg))]
  cases m.lookup (host, jobId) with
  | none => rfl
  | some job => cases hkeep : keep (host, jobId) job <;> simp [hkeep]

end Lists

/-! ## What a turn does to one job -/

/-- What a turn does to one job. -/
inductive JobStep (host : HostId) (jobId : Str) (env : StepEnv) (b : Bridge) (ev : BridgeEvent)
    (out : Bridge × List Effect) : Prop
  /-- Nothing. -/
  | silent (hdispatch : ∀ ch, ev.dispatches ≠ some ((host, jobId), ch))
      (hevents : eventsFor host jobId out.2 = [])
      (hpending : out.1.pending.lookup (host, jobId) = b.pending.lookup (host, jobId))
  /-- It is recorded. -/
  | recorded {ch : Channel} {deadline : Instant}
      (hdispatch : ev.dispatches = some ((host, jobId), ch))
      (hfree : b.pending.lookup (host, jobId) = none) (hevents : eventsFor host jobId out.2 = [])
      (hpending : out.1.pending.lookup (host, jobId) = some ⟨ch, deadline⟩)
  /-- Its dispatch is refused. -/
  | refused {ch : Channel} {r : JobResult}
      (hdispatch : ev.dispatches = some ((host, jobId), ch))
      (hevents : eventsFor host jobId out.2 = [env.offer ch host r])
      (hterminal : JobResult.isTerminal r = true)
      (hpending : out.1.pending.lookup (host, jobId) = b.pending.lookup (host, jobId))
  /-- A result that does not end it reaches its operator. -/
  | relayed {job : PendingJob} {r : JobResult} (hresult : ev.isResult = true)
      (hdispatch : ∀ ch, ev.dispatches ≠ some ((host, jobId), ch))
      (hjob : b.pending.lookup (host, jobId) = some job)
      (hevents : eventsFor host jobId out.2 = [env.offer job.events host r])
      (hsent : env.sendEvent job.events host r = .ok)
      (hterminal : JobResult.isTerminal r = false)
      (hpending : out.1.pending.lookup (host, jobId) = some job)
  /-- It ends: with an outcome, or because its operator does not take a result. -/
  | ended {job : PendingJob} {r : JobResult}
      (hdispatch : ∀ ch, ev.dispatches ≠ some ((host, jobId), ch))
      (hjob : b.pending.lookup (host, jobId) = some job)
      (hevents : eventsFor host jobId out.2 = [env.offer job.events host r])
      (hterminal : JobResult.isTerminal r = true ∨
        ev.isResult = true ∧ env.sendEvent job.events host r ≠ .ok)
      (hpending : out.1.pending.lookup (host, jobId) = none)

section Turn

variable {fromDer : FromDer} {cfg : BridgeConfig fromDer} {env : StepEnv} {b b' : Bridge}
  {host target : HostId} {jobId : Str} {topic : String} {payload : Payload} {ev : BridgeEvent}
  {es : List Effect} {out : Bridge × List Effect} {dispatch : Dispatch} {events : Channel}

/-- Failing all entries that do not pass a test. -/
theorem JobStep.retain (env : StepEnv) (hdispatch : ∀ ch, ev.dispatches ≠ some ((host, jobId), ch))
    (keep : HostId × Str → PendingJob → Bool)
    (msg : Str) (hevents : eventsFor host jobId es = eventsFor host jobId
      ((b.pending.entries.filter (fun e => !keep e.1 e.2)).map fun e =>
        env.eventTo e.2.events e.1.1 (errorResult e.1.2 msg)))
    (hpending : b'.pending = b.pending.retain keep) : JobStep host jobId env b ev (b', es) := by
  rw [eventsFor_entries] at hevents
  have hlookup : b'.pending.lookup (host, jobId) =
      (b.pending.lookup (host, jobId)).filter (keep (host, jobId)) := by
    rw [hpending, Table.lookup_retain]
  cases hjob : b.pending.lookup (host, jobId) with
  | none =>
      rw [hjob] at hevents hlookup
      exact .silent hdispatch hevents (by rw [hjob]; exact hlookup)
  | some job =>
      rw [hjob] at hevents hlookup
      by_cases hkeep : keep (host, jobId) job = true
      · dsimp only at hevents
        rw [if_pos hkeep] at hevents
        rw [Option.filter_some_pos hkeep] at hlookup
        exact .silent hdispatch hevents (by rw [hjob]; exact hlookup)
      · dsimp only at hevents
        rw [if_neg hkeep] at hevents
        rw [Option.filter_some_neg (Bool.eq_false_iff.mpr hkeep)] at hlookup
        exact .ended hdispatch hjob hevents (Or.inl rfl) hlookup

/-- Whether an effect is an event for an operator. -/
def Effect.isEvent : Effect → Bool
  | .event _ _ _ _ => true
  | _ => false

/-- A turn without an event and with the job table as it was. -/
theorem JobStep.of_quiet (hdispatch : ∀ ch, ev.dispatches ≠ some ((host, jobId), ch))
    (hquiet : ∀ e ∈ out.2, e.isEvent = false)
    (hpending : out.1.pending.lookup (host, jobId) = b.pending.lookup (host, jobId)) :
    JobStep host jobId env b ev out := by
  refine .silent hdispatch (eventsFor_eq_nil ?_) hpending
  rintro e he ch r sent rfl
  cases hquiet _ he

theorem Intake.jobStep (h : Intake cfg env b topic payload out) :
    JobStep host jobId env b (.message topic payload) out := by
  have hmessage : ∀ ch, (BridgeEvent.message topic payload).dispatches ≠
      some ((host, jobId), ch) := fun _ h => by cases h
  cases h with
  | ignored => exact .of_quiet hmessage (by simp) rfl
  | heartbeat htopic => exact .of_quiet hmessage (by simp) rfl
  | unanswered htopic hadmitted hpublish =>
      exact .of_quiet hmessage (by simp [StepEnv.publishTo, Effect.isEvent]) rfl
  | established htopic hadmitted hpublish hroom =>
      rename_i tenant c resp
      refine .retain env hmessage (fun k _ => k.1 ≠ c.host.hostId)
        (Str.lit "host reconnected; job interrupted") ?_ rfl
      rw [eventsFor_append]
      have hfront : eventsFor host jobId
          [env.publishTo (Topics.hsDown c.host.hostId.toStr.text) (c.answer resp),
            .sealed (c.session resp).sealCall,
            env.publishTo (Topics.ctrlDown c.host.hostId.toStr.text)
              (.envelope ((c.session resp).sealDownlink c.host.hostId.toStr
                ctrlSessionReady).1)] = [] := rfl
      rw [hfront, List.nil_append]
      congr 1
      simp only [purgeHostJobs, ne_eq, decide_not, Bool.not_not]
      refine List.map_congr_left ?_
      intro e he
      have htagged : e.1.1 = c.host.hostId := by simpa using (List.mem_filter.mp he).2
      rw [htagged]
  | control htopic hhost hopens hsid =>
      refine .of_quiet hmessage ?_ rfl
      intro e he
      dsimp only at he
      split at he
      · rw [List.mem_singleton.mp he]
        rfl
      · cases he
  | unclaimed htopic hhost hopens => exact .of_quiet hmessage (by simp) rfl
  | result htopic hhost hopens hdecode hjob =>
      rename_i tenant target e s p r job
      by_cases hkey : target = host ∧ r.jobId = jobId
      · obtain ⟨rfl, rfl⟩ := hkey
        have hresult : (BridgeEvent.message topic payload).isResult = true := by
          simp [BridgeEvent.isResult, htopic]
        have hevents : eventsFor target r.jobId [env.eventTo job.events target r] =
            [env.offer job.events target r] := by
          rw [eventsFor_singleton, if_pos ⟨rfl, rfl⟩]
        by_cases hkeep : env.sendEvent job.events target r = .ok ∧ JobResult.isTerminal r = false
        · rw [if_pos hkeep]
          exact .relayed hresult hmessage hjob hevents hkeep.1 hkeep.2 hjob
        · rw [if_neg hkeep]
          refine .ended hmessage hjob hevents ?_ ?_
          · by_cases hsent : env.sendEvent job.events target r = .ok
            · exact Or.inl (Bool.not_eq_false _ ▸ fun hterminal => hkeep ⟨hsent, hterminal⟩)
            · exact Or.inr ⟨hresult, hsent⟩
          · simp [Bridge.dropPending, Table.lookup_drop]
      · refine .silent hmessage ?_ ?_
        · rw [eventsFor_singleton, if_neg hkey]
        · have hne : ¬ (host, jobId) = (target, r.jobId) := fun heq =>
            hkey ⟨(Prod.mk.inj heq).1.symm, (Prod.mk.inj heq).2.symm⟩
          dsimp only
          split
          · rfl
          · simp [Bridge.dropPending, Table.lookup_drop, hne, Bridge.setSession]
  | garbled htopic hhost hopens => exact .of_quiet hmessage (by simp) rfl
  | frame htopic hhost hopens hdecode =>
      exact .of_quiet hmessage (by simp [StepEnv.frameTo, Effect.isEvent]) rfl
  | lastFrame htopic hhost hopens hdecode =>
      exact .of_quiet hmessage
        (by simp [StepEnv.frameTo, StepEnv.publishTo, sealFrame, Effect.isEvent]) rfl
  | inventory htopic hhost hopens heffects =>
      refine .of_quiet hmessage ?_ rfl
      intro e he
      obtain ⟨inv, -, rfl⟩ := heffects e he
      rfl

/-- A dispatch of another job. -/
theorem dispatches_ne (hkey : ¬ (target = host ∧ dispatch.jobId = jobId)) (ch : Channel) :
    (BridgeEvent.command (.dispatch target dispatch events)).dispatches ≠
      some ((host, jobId), ch) := by
  intro heq
  obtain ⟨rfl, rfl⟩ := Prod.mk.inj (Prod.mk.inj (Option.some.inj heq)).1
  exact hkey ⟨rfl, rfl⟩

/-- A dispatch that is refused with one event. -/
theorem JobStep.of_refusal {front : List Effect} (message : Str)
    (hquiet : ∀ e ∈ front, e.isEvent = false) (hpending : b'.pending = b.pending) :
    JobStep host jobId env b (.command (.dispatch target dispatch events))
      (b', front ++ [env.eventTo events target (errorResult dispatch.jobId message)]) := by
  have hfront : eventsFor host jobId front = [] := by
    refine eventsFor_eq_nil ?_
    rintro e he ch r sent rfl
    cases hquiet _ he
  by_cases hkey : target = host ∧ dispatch.jobId = jobId
  · obtain ⟨rfl, rfl⟩ := hkey
    refine .refused (r := errorResult dispatch.jobId message) rfl ?_ rfl (by rw [hpending])
    rw [eventsFor_append, hfront, eventsFor_singleton, if_pos ⟨rfl, rfl⟩, List.nil_append]
  · refine .silent (dispatches_ne hkey) ?_ (by rw [hpending])
    rw [eventsFor_append, hfront, eventsFor_singleton, List.nil_append]
    exact if_neg hkey

theorem Handled.jobStep {cmd : BridgeCommand}
    (h : Handled env b cmd out) : JobStep host jobId env b (.command cmd) out := by
  have hseal : ∀ {target : HostId} {s : Session} {plaintext : Bytes},
      ∀ e ∈ (sealDispatch env b target s plaintext).2.1, e.isEvent = false := by
    simp [sealDispatch, StepEnv.publishTo, Effect.isEvent]
  have hframe : ∀ {target : HostId} {r : ShellRoute} {f : StreamFrame},
      ∀ e ∈ (sealFrame env target r f).1, e.isEvent = false := by
    simp [sealFrame, StepEnv.publishTo, Effect.isEvent]
  cases h with
  | refused message => exact .of_refusal message (List.forall_mem_nil _) rfl
  | unreached message hget hsent => exact .of_refusal message hseal rfl
  | @dispatched target dispatch events s hfree hroom hget hsent =>
      by_cases hkey : target = host ∧ dispatch.jobId = jobId
      · obtain ⟨rfl, rfl⟩ := hkey
        refine .recorded rfl hfree (eventsFor_eq_nil ?_) (Table.lookup_put_self _ _ _)
        rintro e he ch r sent rfl
        cases hseal _ he
      · have hne : ¬ (host, jobId) = (target, dispatch.jobId) := fun heq =>
          hkey ⟨(Prod.mk.inj heq).1.symm, (Prod.mk.inj heq).2.symm⟩
        refine .of_quiet (dispatches_ne hkey) hseal ?_
        exact (Table.lookup_put _ _ _ _).trans (if_neg hne)
  | online => exact .of_quiet nofun (by simp [Effect.isEvent]) rfl
  | offline => exact .of_quiet nofun (by simp [StepEnv.frameTo, Effect.isEvent]) rfl
  | unopened hget hsent =>
      exact .of_quiet nofun
        (by simp [sealDispatch, StepEnv.publishTo, StepEnv.frameTo, Effect.isEvent]) rfl
  | opened hget hplain hsent => exact .of_quiet nofun hseal rfl
  | strayInput => exact .of_quiet nofun (by simp) rfl
  | typed hlookup hid hsent => exact .of_quiet nofun hframe rfl
  | cut hlookup hid hsent => exact .of_quiet nofun hframe rfl
  | strayClose => exact .of_quiet nofun (by simp) rfl
  | closed hlookup hid => exact .of_quiet nofun hframe rfl

/-- What a turn does to one job. -/
theorem step_jobStep (cfg : BridgeConfig fromDer) (env : StepEnv) (b : Bridge) (ev : BridgeEvent)
    (host : HostId) (jobId : Str) : JobStep host jobId env b ev (step cfg env b ev) := by
  cases ev with
  | message topic payload => exact (onMessage_intake cfg env b topic payload).jobStep
  | command cmd => exact (handleCommand_handled env b cmd).jobStep
  | sweep =>
      refine .retain env (fun _ hdispatch => by cases hdispatch)
        (fun _ job => env.now < job.deadline)
        (Str.lit "no result from host (timed out)") ?_ rfl
      congr 3
      funext e
      by_cases hlt : env.now < e.2.deadline
      · simp [hlt, not_le.mpr hlt]
      · simp [hlt, not_lt.mp hlt]

end Turn

/-! ## The life of a job -/

/-- Where a job stands: the channels it was dispatched on, the events sent for it
and its entry.  Only the last of its events may be an outcome. -/
inductive JobPhase : List Channel → List JobEvent → Option PendingJob → Prop
  | fresh : JobPhase [] [] none
  | live {job : PendingJob} {es : List JobEvent} (hchannel : ∀ e ∈ es, e.channel = job.events)
      (hopen : ∀ e ∈ es, JobResult.isTerminal e.result = false) :
      JobPhase [job.events] es (some job)
  | finished {ch : Channel} {es : List JobEvent} (hchannel : ∀ e ∈ es, e.channel = ch)
      (hopen : ∀ e ∈ es.dropLast, JobResult.isTerminal e.result = false) :
      JobPhase [ch] es none

section Life

variable {host : HostId} {jobId : Str} {env : StepEnv} {b : Bridge} {ev : BridgeEvent}
  {out : Bridge × List Effect} {chs : List Channel} {es : List JobEvent}

theorem BridgeEvent.dispatchedOn_of_some {ch : Channel}
    (h : ev.dispatches = some ((host, jobId), ch)) : ev.dispatchedOn host jobId = [ch] := by
  simp [BridgeEvent.dispatchedOn, h]

theorem BridgeEvent.dispatchedOn_of_ne (h : ∀ ch, ev.dispatches ≠ some ((host, jobId), ch)) :
    ev.dispatchedOn host jobId = [] := by
  unfold BridgeEvent.dispatchedOn
  cases hev : ev.dispatches with
  | none => rfl
  | some dispatched =>
      obtain ⟨key, ch⟩ := dispatched
      have hne : key ≠ (host, jobId) := fun heq => h ch (by rw [hev, heq])
      simp [hne]

/-- All events of a job but the last are no outcomes. -/
theorem JobPhase.open_of_mem_dropLast {entry : Option PendingJob} (h : JobPhase chs es entry) :
    ∀ e ∈ es.dropLast, JobResult.isTerminal e.result = false := by
  cases h with
  | fresh => nofun
  | live _ hopen => exact fun e he => hopen e (List.mem_of_mem_dropLast he)
  | finished _ hopen => exact hopen

/-- All events of a job are on the channel of its one dispatch. -/
theorem JobPhase.channel_of_mem {entry : Option PendingJob} (h : JobPhase chs es entry)
    {e : JobEvent} (he : e ∈ es) : chs = [e.channel] := by
  cases h with
  | fresh => cases he
  | live hchannel _ => rw [hchannel e he]
  | finished hchannel _ => rw [hchannel e he]

/-- One turn moves a job on, if it is dispatched at most once. -/
theorem JobPhase.step (h : JobPhase chs es (b.pending.lookup (host, jobId)))
    (hstep : JobStep host jobId env b ev out)
    (honce : (chs ++ ev.dispatchedOn host jobId).length ≤ 1) :
    JobPhase (chs ++ ev.dispatchedOn host jobId) (es ++ eventsFor host jobId out.2)
      (out.1.pending.lookup (host, jobId)) := by
  have hfirst : ∀ ch, ev.dispatches = some ((host, jobId), ch) → chs = [] := by
    intro ch hdispatch
    rw [BridgeEvent.dispatchedOn_of_some hdispatch] at honce
    exact List.eq_nil_of_length_eq_zero (by simpa using honce)
  cases hstep with
  | silent hdispatch hevents hpending =>
      rw [BridgeEvent.dispatchedOn_of_ne hdispatch, hevents, hpending, List.append_nil,
        List.append_nil]
      exact h
  | recorded hdispatch hfree hevents hpending =>
      obtain rfl := hfirst _ hdispatch
      rw [BridgeEvent.dispatchedOn_of_some hdispatch, hevents, hpending]
      rw [hfree] at h
      cases h
      rename_i ch deadline
      have hlive : JobPhase [(⟨ch, deadline⟩ : PendingJob).events] [] (some ⟨ch, deadline⟩) :=
        .live nofun nofun
      exact hlive
  | refused hdispatch hevents hterminal hpending =>
      obtain rfl := hfirst _ hdispatch
      rw [BridgeEvent.dispatchedOn_of_some hdispatch, hevents, hpending]
      generalize b.pending.lookup (host, jobId) = entry at h
      cases h
      exact .finished (by simp [StepEnv.offer]) nofun
  | relayed hresult hdispatch hjob hevents hsent hterminal hpending =>
      rw [BridgeEvent.dispatchedOn_of_ne hdispatch, hevents, hpending, List.append_nil]
      rw [hjob] at h
      cases h with
      | live hchannel hopen =>
          refine .live ?_ ?_ <;> intro e he <;> rcases List.mem_append.mp he with he | he
          · exact hchannel e he
          · rw [List.mem_singleton.mp he]
            rfl
          · exact hopen e he
          · rw [List.mem_singleton.mp he]
            exact hterminal
  | ended hdispatch hjob hevents hterminal hpending =>
      rw [BridgeEvent.dispatchedOn_of_ne hdispatch, hevents, hpending, List.append_nil]
      rw [hjob] at h
      cases h with
      | live hchannel hopen =>
          refine .finished ?_ (by simpa using hopen)
          intro e he
          rcases List.mem_append.mp he with he | he
          · exact hchannel e he
          · rw [List.mem_singleton.mp he]
            rfl

/-- A job without an entry that is not dispatched sends nothing. -/
theorem JobStep.silent_of_none (hstep : JobStep host jobId env b ev out)
    (hnone : b.pending.lookup (host, jobId) = none)
    (hdispatch : ev.dispatchedOn host jobId = []) :
    eventsFor host jobId out.2 = [] ∧ out.1.pending.lookup (host, jobId) = none := by
  cases hstep with
  | silent _ hevents hpending => exact ⟨hevents, hpending.trans hnone⟩
  | recorded hrecorded _ _ _ =>
      rw [BridgeEvent.dispatchedOn_of_some hrecorded] at hdispatch
      cases hdispatch
  | refused hrefused _ _ _ =>
      rw [BridgeEvent.dispatchedOn_of_some hrefused] at hdispatch
      cases hdispatch
  | relayed _ _ hjob _ _ _ _ =>
      rw [hnone] at hjob
      cases hjob
  | ended _ hjob _ _ _ =>
      rw [hnone] at hjob
      cases hjob

end Life

/-! ## What a turn reads on a host's session -/

/-- The events of a job that a turn relays from its host. -/
def relays {fromDer : FromDer} (cfg : BridgeConfig fromDer) (env : StepEnv) (b : Bridge)
    (ev : BridgeEvent) (host : HostId) (jobId : Str) : List JobEvent :=
  if ev.isResult then eventsFor host jobId (step cfg env b ev).2 else []

/-- The host's session keeps its keys and its replay guard. -/
def GuardKept (b b' : Bridge) (host : HostId) : Prop :=
  ∀ s', b'.sessions.get host = some s' →
    ∃ s, b.sessions.get host = some s ∧ s.Same s' ∧ s'.recvHigh = s.recvHigh

/-- What a turn does to the guard of a host's session, and what it relays. -/
inductive SessionTurn (host : HostId) (jobId : Str) (env : StepEnv) (b : Bridge)
    (ev : BridgeEvent) (out : Bridge × List Effect) (relayed : List JobEvent) : Prop
  /-- Nothing. -/
  | kept (hkept : GuardKept b out.1 host) (hrelayed : relayed = [])
  /-- A fresh envelope is read; at most the result it holds is relayed. -/
  | read {topic : String} {payload : Payload} {e : Envelope} {s : Session} {p : Bytes}
      (hev : ev = .message topic payload) (hopens : OpensOn b host payload e s p)
      (hsession : out.1.sessions.get host = some (s.openUplink e).2)
      (hrelayed : relayed = [] ∨ ∃ event : JobEvent, relayed = [event] ∧
        JobResult.decode p = some event.result ∧ event.result.jobId = jobId)
  /-- The session is replaced by one under the ephemeral drawn in the turn. -/
  | replaced {s' : Session} {topic : String} {payload : Payload} {p q : Point}
      (hev : ev = .message topic payload) (hhello : payload.clientHello ≠ none)
      (hsession : out.1.sessions.get host = some s')
      (heph : env.eph = some q) (hkeys : SessionKeysOf p q s'.keys) (hrelayed : relayed = [])

/-- An event that is no outcome is one that is relayed. -/
theorem JobStep.mem_relays {fromDer : FromDer} {cfg : BridgeConfig fromDer} {env : StepEnv}
    {b : Bridge} {ev : BridgeEvent} {host : HostId} {jobId : Str} {e : JobEvent}
    (h : JobStep host jobId env b ev (step cfg env b ev))
    (he : e ∈ eventsFor host jobId (step cfg env b ev).2)
    (hopen : JobResult.isTerminal e.result = false) : e ∈ relays cfg env b ev host jobId := by
  cases hresult : ev.isResult with
  | true => simpa [relays, hresult] using he
  | false =>
      have hterminal : ∀ {ch : Channel} {r : JobResult},
          eventsFor host jobId (step cfg env b ev).2 = [env.offer ch host r] →
          JobResult.isTerminal r ≠ true := by
        intro ch r hevents hr
        rw [hevents, List.mem_singleton] at he
        rw [he] at hopen
        exact Bool.false_ne_true (hopen.symm.trans hr)
      cases h with
      | silent _ hevents _ =>
          rw [hevents] at he
          cases he
      | recorded _ _ hevents _ =>
          rw [hevents] at he
          cases he
      | refused _ hevents hr _ => exact absurd hr (hterminal hevents)
      | relayed htrue _ _ _ _ _ _ => exact absurd (hresult.symm.trans htrue) Bool.false_ne_true
      | ended _ _ hevents hr _ =>
          rcases hr with hr | ⟨htrue, -⟩
          · exact absurd hr (hterminal hevents)
          · exact absurd (hresult.symm.trans htrue) Bool.false_ne_true

section Session

variable {fromDer : FromDer} {cfg : BridgeConfig fromDer} {env : StepEnv} {b b' : Bridge}
  {host target : HostId} {jobId : Str} {topic : String} {payload : Payload} {ev : BridgeEvent}
  {es : List Effect} {out : Bridge × List Effect}

theorem guardKept_refl (b : Bridge) (host : HostId) : GuardKept b b host :=
  fun s' hget => ⟨s', hget, ⟨rfl, rfl⟩, rfl⟩

theorem guardKept_of_ne (hne : host ≠ target) (s : Session) :
    GuardKept b (b.setSession target s) host := by
  intro s' hget
  rw [Bridge.setSession, SessionStore.get_set_ne _ _ hne] at hget
  exact ⟨s', hget, ⟨rfl, rfl⟩, rfl⟩

theorem sealDispatch_guardKept {s : Session} (env : StepEnv) (host : HostId)
    (hget : b.sessions.get target = some s) (plaintext : Bytes) :
    GuardKept b (sealDispatch env b target s plaintext).1 host := by
  by_cases heq : host = target
  · subst heq
    intro s' hget'
    simp only [sealDispatch, Bridge.setSession, SessionStore.get_set_self] at hget'
    obtain rfl := Option.some.inj hget'
    exact ⟨s, hget, ⟨rfl, rfl⟩, rfl⟩
  · exact guardKept_of_ne heq _

/-- Commands seal, they do not read. -/
theorem handleCommand_guardKept (env : StepEnv) (b : Bridge) (cmd : BridgeCommand)
    (host : HostId) : GuardKept b (handleCommand env b cmd).1 host := by
  have hhandled := handleCommand_handled env b cmd
  generalize handleCommand env b cmd = out at hhandled ⊢
  cases hhandled with
  | unreached message hget hsent => exact sealDispatch_guardKept env host hget _
  | dispatched hfree hroom hget hsent => exact sealDispatch_guardKept env host hget _
  | unopened hget hsent => exact sealDispatch_guardKept env host hget _
  | opened hget hplain hsent => exact sealDispatch_guardKept env host hget _
  | _ => exact guardKept_refl b host

/-- Without events nothing is relayed. -/
theorem relayed_eq_nil (h : ∀ effect ∈ es, effect.isEvent = false) :
    (if ev.isResult then eventsFor host jobId es else []) = [] := by
  have hnone : eventsFor host jobId es = [] := by
    refine eventsFor_eq_nil ?_
    rintro effect he ch r sent rfl
    cases h _ he
  rw [hnone, ite_self]

/-- A turn that leaves the sessions as they are. -/
theorem SessionTurn.of_same (hsessions : b'.sessions = b.sessions)
    (hquiet : ∀ effect ∈ es, effect.isEvent = false) :
    SessionTurn host jobId env b ev (b', es)
      (if ev.isResult then eventsFor host jobId es else []) := by
  refine .kept ?_ (relayed_eq_nil hquiet)
  intro s' hget
  rw [hsessions] at hget
  exact guardKept_refl b host s' hget

/-- A turn that reads an envelope on the session of some host. -/
theorem SessionTurn.of_read {e : Envelope} {s : Session} {p : Bytes} {relayed : List JobEvent}
    (hopens : OpensOn b target payload e s p)
    (hsessions : b'.sessions = (b.setSession target (s.openUplink e).2).sessions)
    (hrelayed : relayed = [] ∨ target = host ∧ ∃ event : JobEvent, relayed = [event] ∧
      JobResult.decode p = some event.result ∧ event.result.jobId = jobId) :
    SessionTurn host jobId env b (.message topic payload) (b', es) relayed := by
  by_cases heq : host = target
  · subst heq
    refine .read rfl hopens ?_ (hrelayed.imp_right And.right)
    rw [hsessions, Bridge.setSession, SessionStore.get_set_self]
  · refine .kept ?_ (hrelayed.resolve_right fun h => heq h.1.symm)
    intro s' hget
    rw [hsessions] at hget
    exact guardKept_of_ne heq _ s' hget

/-- A turn that opens a session for some host. -/
theorem SessionTurn.of_admitted {c : CheckedHello} {resp : ServerResponse} {tenant : String}
    {s' : Session} (hadmitted : Admitted cfg.ca env b tenant payload c resp)
    (htopic : Topics.tenantFromHsUp topic = some tenant)
    (hother : ∀ other, other ≠ c.host.hostId → b'.sessions.get other = b.sessions.get other)
    (hsession : b'.sessions.get c.host.hostId = some s') (hkeys : s'.keys = resp.keys) :
    SessionTurn host jobId env b (.message topic payload) (b', es)
      (if (BridgeEvent.message topic payload).isResult then eventsFor host jobId es else []) := by
  have hnone : Topics.tenantFromResultUp topic = none :=
    Topics.tenantForTail_of_ne htopic (by decide)
  have hresult : (BridgeEvent.message topic payload).isResult = false := by
    simp [BridgeEvent.isResult, hnone]
  rw [hresult]
  by_cases heq : host = c.host.hostId
  · subst heq
    have hresponded := hadmitted.responded
    unfold CheckedHello.respond EmbeddedCa.respondHandshake at hresponded
    have hkeysOf : SessionKeysOf c.clientEph resp.serverEph s'.keys :=
      hkeys ▸ CheckedHello.sessionKeysOf hadmitted.responded
    have hhello : payload.clientHello ≠ none := by
      rw [(checkHello_eq_some hadmitted.checked).1]
      exact Option.some_ne_none _
    exact .replaced rfl hhello hsession (respond_eq_ok_iff.mp hresponded).2.1 hkeysOf rfl
  · refine .kept ?_ rfl
    intro s' hget
    rw [hother host heq] at hget
    exact guardKept_refl b host s' hget

/-- What a message does to the guard of a host's session, and what it relays. -/
theorem Intake.sessionTurn (h : Intake cfg env b topic payload out) :
    SessionTurn host jobId env b (.message topic payload) out
      (if (BridgeEvent.message topic payload).isResult then eventsFor host jobId out.2
        else []) := by
  cases h with
  | ignored => exact .of_same rfl (by simp)
  | heartbeat htopic => exact .of_same rfl (by simp)
  | unanswered htopic hadmitted hpublish =>
      exact .of_admitted hadmitted htopic (fun _ hne => SessionStore.get_set_ne _ _ hne)
        (SessionStore.get_set_self _ _ _) rfl
  | established htopic hadmitted hpublish =>
      refine .of_admitted hadmitted htopic ?_ (SessionStore.get_set_self _ _ _) rfl
      intro other hne
      change ((b.sessions.set _ _).set _ _).get other = _
      rw [SessionStore.get_set_ne _ _ hne, SessionStore.get_set_ne _ _ hne]
  | control htopic hhost hopens hsid =>
      refine .of_read hopens rfl (.inl (relayed_eq_nil ?_))
      intro effect he
      split at he
      · rw [List.mem_singleton.mp he]
        rfl
      · cases he
  | unclaimed htopic hhost hopens => exact .of_read hopens rfl (.inl (relayed_eq_nil (by simp)))
  | result htopic hhost hopens hdecode hjob =>
      rename_i tenant target e s p r job
      refine .of_read hopens ?_ ?_
      · split <;> rfl
      · rw [show (BridgeEvent.message topic payload).isResult = true by
          simp [BridgeEvent.isResult, htopic], if_pos rfl, eventsFor_singleton]
        by_cases hfor : target = host ∧ r.jobId = jobId
        · rw [if_pos hfor]
          exact .inr ⟨hfor.1, _, rfl, hdecode, hfor.2⟩
        · rw [if_neg hfor]
          exact .inl rfl
  | garbled htopic hhost hopens => exact .of_same rfl (by simp)
  | frame htopic hhost hopens hdecode =>
      exact .of_same rfl (by simp [StepEnv.frameTo, Effect.isEvent])
  | lastFrame htopic hhost hopens hdecode =>
      exact .of_same rfl (by simp [StepEnv.frameTo, StepEnv.publishTo, sealFrame, Effect.isEvent])
  | inventory htopic hhost hopens heffects =>
      refine .of_read hopens rfl (.inl (relayed_eq_nil ?_))
      intro effect he
      obtain ⟨inv, -, rfl⟩ := heffects effect he
      rfl

/-- What a turn does to the guard of a host's session, and what it relays. -/
theorem step_sessionTurn (cfg : BridgeConfig fromDer) (env : StepEnv) (b : Bridge)
    (ev : BridgeEvent) (host : HostId) (jobId : Str) :
    SessionTurn host jobId env b ev (step cfg env b ev) (relays cfg env b ev host jobId) := by
  cases ev with
  | message topic payload => exact (onMessage_intake cfg env b topic payload).sessionTurn
  | command cmd => exact .kept (handleCommand_guardKept env b cmd host) rfl
  | sweep => exact .kept (guardKept_refl b host) rfl

end Session

end Coordinator
end OpenSsmAgent
