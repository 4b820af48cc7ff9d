import OpenSsmAgent.Coordinator.JobEvents
import OpenSsmAgent.Coordinator.Service
import OpenSsmAgent.Lib.Channels

/-!
# The reports of a fan-out

One {lit}`exec` call end to end inside the coordinator: the spawned fan-out, the queue
of commands it shares with other calls, the bridge, and the bounded channel of
events that the operator drains.  The fan-out waits for room when it reports; the
bridge does not, and drops what finds the channel full.

The stream of the operator ends when no one can send any more: the fan-out is over,
no command of the call is queued, no job of the call is pending.

Main results:

- Theorem {lit}`Accounted.step`: a step of an undisturbed call loses no host.
- Theorem {lit}`hosts_report`: in an undisturbed call every host has reported when the
  stream ends.
- Theorem {lit}`full_channel_loses_host`: a slow operator and 257 hosts.
-/

open Framing SymbolicCrypto

namespace OpenSsmAgent
namespace Coordinator

open Seal Wire Domain Hs Proto

/-! ## The call and its surroundings -/

def execEventQueue : Nat := 256

def bridgeCommandQueue : Nat := 256

/-- A send the bridge is about to make in the turn it is in, with the answer it will
get. -/
structure Offer where
  host : HostId
  result : JobResult
  sent : SendResult
deriving DecidableEq

/-- One fan-out, the queued commands, the bridge (until it stops) with the sends of
its current turn, and the events channel. -/
structure ExecRun where
  fan : FanOut
  commands : List BridgeCommand
  bridge : Option Bridge
  sending : List Offer
  events : Mailbox (HostId × JobResult)

/-- The sends on a channel among the effects of a turn. -/
def offersOn (ch : Channel) (es : List Effect) : List Offer :=
  es.filterMap (fun
    | .event on host r sent => if on = ch then some ⟨host, r, sent⟩ else none
    | _ => none)

/-- Whether a command hands the channel to the bridge. -/
def BridgeCommand.carries (ch : Channel) : BridgeCommand → Bool
  | .dispatch _ _ events => events = ch
  | _ => false

/-- What may happen next: the fan-out moves, another call sends a command, the bridge
takes a turn, makes one of its sends or stops, the operator takes an event or hangs
up. -/
inductive ExecEvent where
  | next
  | gate (input : GateInput) (jobId : Str)
  | fanSend
  | otherCommand (cmd : BridgeCommand)
  | handle (env : StepEnv)
  | arrive (env : StepEnv) (topic : String) (payload : Payload)
  | sweep (env : StepEnv)
  | send
  | stop
  | take
  | hangUp

namespace ExecRun

/-- The fan-out as it is spawned. -/
def start (call : ExecCall) (hosts : List HostId) (bridge : Option Bridge)
    (commands : List BridgeCommand) : ExecRun :=
  ⟨⟨call, hosts, none⟩, commands, bridge, [], Mailbox.new⟩

/-- The events channel of the call. -/
def channel (s : ExecRun) : Channel := s.fan.call.events

/-- The sends that wait for a slot of the events channel: that of the fan-out. -/
def waiting (s : ExecRun) : Nat :=
  match s.fan.doing with
  | some (.reporting _ _) => 1
  | _ => 0

/-- The answers {lit}`try_send` may get on the events channel.  A slot that was freed
goes to a send that waits, if there is one, before {lit}`try_send` can have it; which of
two possible answers it gets is decided outside. -/
def mayAnswer (s : ExecRun) : SendResult → Prop
  | .ok => s.events.attached = true ∧ s.events.HasRoom execEventQueue
  | .full => s.events.attached = true ∧ execEventQueue ≤ s.events.buffer.length + s.waiting
  | .closed => s.events.attached = false

instance (s : ExecRun) : DecidablePred s.mayAnswer
  | .ok => inferInstanceAs (Decidable (_ ∧ _))
  | .full => inferInstanceAs (Decidable (_ ∧ _))
  | .closed => inferInstanceAs (Decidable (_ = _))

/-- The pending send of the fan-out: to the bridge it fails when the bridge is gone, to
the operator when the operator is gone; otherwise it waits for room. -/
def fanSend (s : ExecRun) : ExecRun :=
  match s.fan.doing with
  | some (.dispatching host dispatch) =>
      if s.bridge.isNone then { s with fan := (s.fan.step (.bridgeSend false)).1 }
      else if s.commands.length < bridgeCommandQueue then
        { s with
          fan := (s.fan.step (.bridgeSend true)).1
          commands := s.commands ++ [.dispatch host dispatch s.channel] }
      else s
  | some (.reporting host msg) =>
      if s.events.attached then
        if s.events.HasRoom execEventQueue then
          { s with
            fan := (s.fan.step (.eventSend true)).1
            events := s.events.post (host, outcomeError msg) }
        else s
      else { s with fan := (s.fan.step (.eventSend false)).1 }
  | _ => s

variable {fromDer : FromDer} (cfg : BridgeConfig fromDer)

/-- A turn of the bridge; it is in no other one. -/
def turn (s : ExecRun) (env : StepEnv) (ev : BridgeEvent) : ExecRun :=
  match s.bridge, s.sending with
  | some b, [] =>
      { s with
        bridge := some (step cfg env b ev).1
        sending := offersOn s.channel (step cfg env b ev).2 }
  | _, _ => s

/-- One step.  What cannot happen changes nothing: a send takes place when the channel may
give the answer the turn was computed with. -/
def step (s : ExecRun) : ExecEvent → ExecRun
  | .next => { s with fan := (s.fan.step .next).1 }
  | .gate input jobId => { s with fan := (s.fan.step (.gate input jobId)).1 }
  | .fanSend => s.fanSend
  | .otherCommand cmd =>
      if s.bridge.isSome ∧ s.commands.length < bridgeCommandQueue ∧
          cmd.carries s.channel = false then
        { s with commands := s.commands ++ [cmd] }
      else s
  | .handle env =>
      match s.bridge, s.sending, s.commands with
      | some _, [], cmd :: rest => { s with commands := rest }.turn cfg env (.command cmd)
      | _, _, _ => s
  | .arrive env topic payload => s.turn cfg env (.message topic payload)
  | .sweep env => s.turn cfg env .sweep
  | .send =>
      match s.sending with
      | [] => s
      | offer :: rest =>
          if s.mayAnswer offer.sent then
            { s with
              sending := rest
              events :=
                if offer.sent = .ok then s.events.post (offer.host, offer.result)
                else s.events }
          else s
  | .stop => if s.sending = [] then { s with bridge := none, commands := [] } else s
  | .take => { s with events := s.events.take }
  | .hangUp => { s with events := s.events.detach }

/-- A run. -/
def run (s : ExecRun) : List ExecEvent → ExecRun
  | [] => s
  | ev :: events => (s.step cfg ev).run events

end ExecRun

/-! ## When the stream ends -/

/-- The host a step of the fan-out is about. -/
def FanStep.host : FanStep → HostId
  | .gated host _ => host
  | .dispatching host _ => host
  | .reporting host _ => host

/-- Nothing of the call is with the bridge: no queued command and no pending job. -/
structure ExecRun.BridgeClear (s : ExecRun) : Prop where
  queued : ∀ cmd ∈ s.commands, cmd.carries s.channel = false
  pending : ∀ b ∈ s.bridge, ∀ e ∈ b.pending.entries, e.2.events ≠ s.channel

/-- All senders of the events channel are gone. -/
structure ExecRun.SendersGone (s : ExecRun) : Prop extends s.BridgeClear where
  remaining : s.fan.remaining = []
  doing : s.fan.doing = none
  sending : s.sending = []

/-- The host has contributed an outcome to the operator's stream. -/
def ExecRun.Reported (s : ExecRun) (host : HostId) : Prop :=
  ∃ r, (host, r) ∈ s.events.stream ∧ JobResult.isTerminal r = true

/-- The operator stays, every send of the bridge gets the answer {lit}`Ok`, and the bridge
does not stop while it has something of the call. -/
def ExecRun.Undisturbed (s : ExecRun) : ExecEvent → Prop
  | .send => ∀ offer ∈ s.sending.head?, offer.sent = .ok
  | .stop => s.BridgeClear
  | .hangUp => False
  | _ => True

/-- Every step of a run is undisturbed. -/
def ExecRun.UndisturbedRun {fromDer : FromDer} (cfg : BridgeConfig fromDer) (s : ExecRun) :
    List ExecEvent → Prop
  | [] => True
  | ev :: events => s.Undisturbed ev ∧ (s.step cfg ev).UndisturbedRun cfg events

/-! ## No host is lost -/

/-- Where a host of the call is. -/
inductive ExecRun.Accounted (s : ExecRun) (host : HostId) : Prop
  | waiting (hhost : host ∈ s.fan.remaining)
  | inHand {doing : FanStep} (hdoing : s.fan.doing = some doing) (hhost : doing.host = host)
  | queued {dispatch : Dispatch} (hcmd : .dispatch host dispatch s.channel ∈ s.commands)
  | pending {b : Bridge} {jobId : Str} {job : PendingJob} (hbridge : s.bridge = some b)
      (hjob : b.pending.lookup (host, jobId) = some job) (hchannel : job.events = s.channel)
  | offered {offer : Offer} (hoffer : offer ∈ s.sending) (hhost : offer.host = host)
      (hlast : JobResult.isTerminal offer.result = true ∨ offer.sent ≠ .ok)
  | reported (hreported : s.Reported host)

section Steps

variable {fromDer : FromDer} {cfg : BridgeConfig fromDer} {env : StepEnv} {s : ExecRun}
  {b : Bridge} {ev : BridgeEvent} {host : HostId} {jobId : Str}

theorem FanOut.step_call (f : FanOut) (input : FanInput) : (f.step input).1.call = f.call := by
  cases input <;> simp only [FanOut.step] <;> repeat' split
  all_goals rfl

theorem mem_offersOn {ch : Channel} {es : List Effect} {r : JobResult}
    (h : eventsFor host jobId es = [env.offer ch host r]) :
    ⟨host, r, env.sendEvent ch host r⟩ ∈ offersOn ch es := by
  have hmem : env.offer ch host r ∈ eventsFor host jobId es := by
    rw [h]
    exact List.mem_singleton_self _
  obtain ⟨e, he, hpick⟩ := List.mem_filterMap.mp hmem
  refine List.mem_filterMap.mpr ⟨e, he, ?_⟩
  cases e with
  | event on tagged result sent =>
      obtain ⟨⟨rfl, -⟩, heq⟩ := Option.ite_some_none_eq_some.mp hpick
      obtain ⟨rfl, rfl, rfl⟩ := JobEvent.mk.inj heq
      exact if_pos rfl
  | _ => cases hpick

/-- A turn of the bridge on a pending job of the call. -/
theorem turn_pending (cfg : BridgeConfig fromDer) (env : StepEnv) (ev : BridgeEvent) {ch : Channel}
    {job : PendingJob} (hjob : b.pending.lookup (host, jobId) = some job)
    (hchannel : job.events = ch) :
    (step cfg env b ev).1.pending.lookup (host, jobId) = some job ∨
      ∃ offer ∈ offersOn ch (step cfg env b ev).2, offer.host = host ∧
        (JobResult.isTerminal offer.result = true ∨ offer.sent ≠ .ok) := by
  cases step_jobStep cfg env b ev host jobId with
  | silent hdispatch hevents hpending => exact .inl (hpending.trans hjob)
  | recorded hdispatch hfree hevents hpending =>
      rw [hjob] at hfree
      cases hfree
  | refused hdispatch hevents hterminal hpending => exact .inl (hpending.trans hjob)
  | relayed hresult hdispatch hjob' hevents hsent hterminal hpending =>
      exact .inl (hpending.trans (hjob'.symm.trans hjob))
  | ended hdispatch hjob' hevents hterminal hpending =>
      obtain rfl := Option.some.inj (hjob'.symm.trans hjob)
      subst hchannel
      refine .inr ⟨_, mem_offersOn hevents, rfl, ?_⟩
      exact hterminal.imp_right fun h => h.2

/-- A turn of the bridge on a dispatch of the call. -/
theorem turn_dispatch (cfg : BridgeConfig fromDer) (env : StepEnv) (b : Bridge) (host : HostId)
    (dispatch : Dispatch) (ch : Channel) :
    (∃ job, (step cfg env b (.command (.dispatch host dispatch ch))).1.pending.lookup
        (host, dispatch.jobId) = some job ∧ job.events = ch) ∨
      ∃ offer ∈ offersOn ch (step cfg env b (.command (.dispatch host dispatch ch))).2,
        offer.host = host ∧ (JobResult.isTerminal offer.result = true ∨ offer.sent ≠ .ok) := by
  cases step_jobStep cfg env b (.command (.dispatch host dispatch ch)) host dispatch.jobId with
  | silent hdispatch hevents hpending => exact absurd rfl (hdispatch ch)
  | recorded hdispatch hfree hevents hpending =>
      obtain rfl := (Prod.mk.inj (Option.some.inj hdispatch)).2
      exact .inl ⟨_, hpending, rfl⟩
  | refused hdispatch hevents hterminal hpending =>
      obtain rfl := (Prod.mk.inj (Option.some.inj hdispatch)).2
      exact .inr ⟨_, mem_offersOn hevents, rfl, .inl hterminal⟩
  | relayed hresult hdispatch hjob hevents hsent hterminal hpending =>
      exact absurd rfl (hdispatch ch)
  | ended hdispatch hjob hevents hterminal hpending => exact absurd rfl (hdispatch ch)

/-- The fan-out moves and nothing else does. -/
theorem ExecRun.Accounted.of_fan (h : s.Accounted host) {fan : FanOut}
    (hcall : fan.call = s.fan.call)
    (hremaining : host ∈ s.fan.remaining → host ∈ fan.remaining ∨
      ∃ doing, fan.doing = some doing ∧ doing.host = host)
    (hdoing : ∀ doing, s.fan.doing = some doing → doing.host = host →
      ∃ doing', fan.doing = some doing' ∧ doing'.host = host) :
    ExecRun.Accounted { s with fan := fan } host := by
  have hchannel : s.channel = ExecRun.channel { s with fan := fan } :=
    congrArg ExecCall.events hcall.symm
  cases h with
  | waiting hhost =>
      rcases hremaining hhost with hhost | ⟨doing, hdoing, hhost⟩
      · exact .waiting hhost
      · exact .inHand hdoing hhost
  | inHand hd hhost =>
      obtain ⟨doing', hd', hhost'⟩ := hdoing _ hd hhost
      exact .inHand hd' hhost'
  | queued hcmd => exact .queued (hchannel ▸ hcmd)
  | pending hbridge hjob hch => exact .pending hbridge hjob (hch.trans hchannel)
  | offered hoffer hhost hlast => exact .offered hoffer hhost hlast
  | reported hreported => exact .reported hreported

/-- Taking up the next host. -/
theorem ExecRun.Accounted.next (h : s.Accounted host) : (s.step cfg .next).Accounted host := by
  obtain ⟨⟨call, remaining, doing⟩, commands, bridge, sending, events⟩ := s
  refine h.of_fan (FanOut.step_call _ .next) ?_ ?_
  · intro hhost
    rcases doing with _ | doing
    · rcases remaining with _ | ⟨first, rest⟩
      · cases hhost
      · rcases List.mem_cons.mp hhost with rfl | hhost
        · exact .inr ⟨_, rfl, rfl⟩
        · exact .inl hhost
    · exact .inl hhost
  · intro doing hdoing hhost
    cases hdoing
    exact ⟨doing, rfl, hhost⟩

/-- An answer at the gate of the host in hand. -/
theorem ExecRun.Accounted.gate (h : s.Accounted host) (input : GateInput) (jobId : Str) :
    (s.step cfg (.gate input jobId)).Accounted host := by
  refine h.of_fan (s.fan.step_call _) ?_ ?_
  · intro hhost
    left
    simp only [FanOut.step]
    split <;> exact hhost
  · intro doing hdoing hhost
    simp only [FanOut.step, hdoing]
    cases doing with
    | gated target gate =>
        refine ⟨_, rfl, ?_⟩
        split <;> exact hhost
    | dispatching target dispatch => exact ⟨_, hdoing, hhost⟩
    | reporting target msg => exact ⟨_, hdoing, hhost⟩

/-- The fan-out hands over a dispatch or an event. -/
theorem ExecRun.Accounted.fanSend (h : s.Accounted host) (hattached : s.events.attached = true) :
    (s.step cfg .fanSend).Accounted host := by
  obtain ⟨⟨call, remaining, doing⟩, commands, bridge, sending, events⟩ := s
  simp only [ExecRun.step, ExecRun.fanSend]
  rcases doing with _ | (⟨target, gate⟩ | ⟨target, dispatch⟩ | ⟨target, msg⟩)
  · exact h
  · exact h
  · dsimp only
    split
    · exact h.of_fan rfl .inl fun doing hdoing hhost => by
        cases hdoing
        exact ⟨_, rfl, hhost⟩
    split
    · cases h with
      | waiting hhost => exact .waiting hhost
      | inHand hdoing hhost =>
          cases hdoing
          cases hhost
          exact .queued (List.mem_append_right _ (List.mem_singleton_self _))
      | queued hcmd => exact .queued (List.mem_append_left _ hcmd)
      | pending hbridge hjob hch => exact .pending hbridge hjob hch
      | offered hoffer hhost hlast => exact .offered hoffer hhost hlast
      | reported hreported => exact .reported hreported
    · exact h
  · dsimp only at hattached ⊢
    rw [if_pos hattached]
    split
    · cases h with
      | waiting hhost => exact .waiting hhost
      | inHand hdoing hhost =>
          cases hdoing
          cases hhost
          exact .reported ⟨outcomeError msg, Mailbox.mem_stream_post.mpr (.inr rfl), rfl⟩
      | queued hcmd => exact .queued hcmd
      | pending hbridge hjob hch => exact .pending hbridge hjob hch
      | offered hoffer hhost hlast => exact .offered hoffer hhost hlast
      | reported hreported =>
          obtain ⟨r, hmem, hterminal⟩ := hreported
          exact .reported ⟨r, Mailbox.mem_stream_post.mpr (.inl hmem), hterminal⟩
    · exact h

/-- The bridge takes a turn, on a command it took from the queue or on something
else. -/
theorem ExecRun.Accounted.turn (h : s.Accounted host) {commands : List BridgeCommand}
    (hqueued : ∀ dispatch, .dispatch host dispatch s.channel ∈ s.commands →
      .dispatch host dispatch s.channel ∈ commands ∨
        ev = .command (.dispatch host dispatch s.channel))
    (hbridge : s.bridge = some b) (hsending : s.sending = []) :
    (ExecRun.turn cfg { s with commands := commands } env ev).Accounted host := by
  obtain ⟨fan, queued, bridge, sending, events⟩ := s
  dsimp only at hbridge hsending
  subst hbridge hsending
  cases h with
  | waiting hhost => exact .waiting hhost
  | inHand hdoing hhost => exact .inHand hdoing hhost
  | queued hcmd =>
      rcases hqueued _ hcmd with hcmd | rfl
      · exact .queued hcmd
      · rcases turn_dispatch cfg env b host _ fan.call.events with
          ⟨job, hjob, hch⟩ | ⟨offer, hoffer, hhost, hlast⟩
        · exact .pending rfl hjob hch
        · exact .offered hoffer hhost hlast
  | pending hb hjob hch =>
      obtain rfl := Option.some.inj hb
      rcases turn_pending cfg env ev hjob hch with hjob | ⟨offer, hoffer, hhost, hlast⟩
      · exact .pending rfl hjob hch
      · exact .offered hoffer hhost hlast
  | offered hoffer hhost hlast => cases hoffer
  | reported hreported => exact .reported hreported

/-- The bridge makes a send, and it gets the answer {lit}`Ok`. -/
theorem ExecRun.Accounted.send (h : s.Accounted host)
    (hok : ∀ offer ∈ s.sending.head?, offer.sent = .ok) : (s.step cfg .send).Accounted host := by
  obtain ⟨fan, commands, bridge, sending, events⟩ := s
  rcases sending with _ | ⟨offer, rest⟩
  · exact h
  have hsent : offer.sent = .ok := hok offer rfl
  simp only [ExecRun.step, hsent]
  split
  · cases h with
    | waiting hhost => exact .waiting hhost
    | inHand hdoing hhost => exact .inHand hdoing hhost
    | queued hcmd => exact .queued hcmd
    | pending hbridge hjob hch => exact .pending hbridge hjob hch
    | offered hoffer hhost hlast =>
        rcases List.mem_cons.mp hoffer with rfl | hoffer
        · refine .reported ⟨_, ?_, hlast.resolve_right (not_not_intro hsent)⟩
          rw [← hhost]
          exact Mailbox.mem_stream_post.mpr (.inr rfl)
        · exact .offered hoffer hhost hlast
    | reported hreported =>
        obtain ⟨r, hmem, hterminal⟩ := hreported
        exact .reported ⟨r, Mailbox.mem_stream_post.mpr (.inl hmem), hterminal⟩
  · exact h

theorem ExecRun.Accounted.stop (h : s.Accounted host) (hclear : s.BridgeClear) :
    (s.step cfg .stop).Accounted host := by
  simp only [ExecRun.step]
  split
  · cases h with
    | waiting hhost => exact .waiting hhost
    | inHand hdoing hhost => exact .inHand hdoing hhost
    | queued hcmd =>
        have hcarries := hclear.queued _ hcmd
        simp [BridgeCommand.carries] at hcarries
    | pending hbridge hjob hch =>
        exact absurd hch (hclear.pending _ hbridge _ (Table.mem_entries_iff.mpr hjob))
    | offered hoffer hhost hlast => exact .offered hoffer hhost hlast
    | reported hreported => exact .reported hreported
  · exact h

/-- A step of an undisturbed call loses no host. -/
theorem ExecRun.Accounted.step (h : s.Accounted host) (hattached : s.events.attached = true)
    {ev : ExecEvent} (hev : s.Undisturbed ev) : (s.step cfg ev).Accounted host := by
  -- nothing the host's place depends on
  have hsame : ∀ {commands : List BridgeCommand} {events : Mailbox (HostId × JobResult)},
      s.commands ⊆ commands → events.stream = s.events.stream →
      ExecRun.Accounted { s with commands := commands, events := events } host := by
    intro commands events hcommands hstream
    cases h with
    | waiting hhost => exact .waiting hhost
    | inHand hdoing hhost => exact .inHand hdoing hhost
    | queued hcmd => exact .queued (hcommands hcmd)
    | pending hbridge hjob hch => exact .pending hbridge hjob hch
    | offered hoffer hhost hlast => exact .offered hoffer hhost hlast
    | reported hreported =>
        obtain ⟨r, hmem, hterminal⟩ := hreported
        exact .reported ⟨r, hstream ▸ hmem, hterminal⟩
  have hturn : ∀ env (bev : BridgeEvent), (s.turn cfg env bev).Accounted host := by
    intro env bev
    by_cases hbusy : ∃ b, s.bridge = some b ∧ s.sending = []
    · obtain ⟨b, hbridge, hsending⟩ := hbusy
      exact h.turn (fun _ hcmd => .inl hcmd) hbridge hsending
    · have hidle : s.turn cfg env bev = s := by
        unfold ExecRun.turn
        split
        · rename_i b hbridge hsending
          exact absurd ⟨b, hbridge, hsending⟩ hbusy
        · rfl
      rw [hidle]
      exact h
  cases ev with
  | next => exact h.next
  | gate input jobId => exact h.gate input jobId
  | fanSend => exact h.fanSend hattached
  | otherCommand cmd =>
      simp only [ExecRun.step]
      split
      · exact hsame (List.subset_append_left _ _) rfl
      · exact h
  | handle env =>
      simp only [ExecRun.step]
      split
      · rename_i b cmd rest hbridge hsending hcommands
        refine h.turn ?_ hbridge hsending
        intro dispatch hcmd
        rw [hcommands] at hcmd
        rcases List.mem_cons.mp hcmd with rfl | hcmd
        · exact .inr rfl
        · exact .inl hcmd
      · exact h
  | arrive env topic payload => exact hturn env _
  | sweep env => exact hturn env _
  | send => exact h.send hev
  | stop => exact h.stop hev
  | take => exact hsame (List.Subset.refl _) (Mailbox.stream_take _)
  | hangUp => exact hev.elim

/-- The operator of an undisturbed call stays. -/
theorem ExecRun.step_attached {ev : ExecEvent} (hev : s.Undisturbed ev) :
    (s.step cfg ev).events.attached = s.events.attached := by
  cases ev with
  | hangUp => exact hev.elim
  | take => exact Mailbox.attached_take _
  | next => rfl
  | gate input jobId => rfl
  | fanSend =>
      simp only [ExecRun.step, ExecRun.fanSend]
      repeat' split
      all_goals rfl
  | otherCommand cmd =>
      simp only [ExecRun.step]
      split <;> rfl
  | handle env =>
      simp only [ExecRun.step, ExecRun.turn]
      repeat' split
      all_goals rfl
  | arrive env topic payload =>
      simp only [ExecRun.step, ExecRun.turn]
      split <;> rfl
  | sweep env =>
      simp only [ExecRun.step, ExecRun.turn]
      split <;> rfl
  | send =>
      simp only [ExecRun.step]
      repeat' split
      all_goals rfl
  | stop =>
      simp only [ExecRun.step]
      split <;> rfl

theorem ExecRun.Accounted.run {events : List ExecEvent} (h : s.Accounted host)
    (hattached : s.events.attached = true) (hrun : s.UndisturbedRun cfg events) :
    (s.run cfg events).Accounted host := by
  induction events generalizing s with
  | nil => exact h
  | cons ev events ih =>
      obtain ⟨hev, hrest⟩ := hrun
      exact ih (h.step hattached hev) ((ExecRun.step_attached hev).trans hattached) hrest

/-- When the stream ends, a host that is accounted for has reported. -/
theorem ExecRun.Accounted.reported_of_gone (h : s.Accounted host) (hgone : s.SendersGone) :
    s.Reported host := by
  cases h with
  | waiting hhost =>
      rw [hgone.remaining] at hhost
      cases hhost
  | inHand hdoing hhost =>
      rw [hgone.doing] at hdoing
      cases hdoing
  | queued hcmd =>
      have hcarries := hgone.queued _ hcmd
      simp [BridgeCommand.carries] at hcarries
  | pending hbridge hjob hch =>
      exact absurd hch (hgone.pending _ hbridge _ (Table.mem_entries_iff.mpr hjob))
  | offered hoffer hhost hlast =>
      rw [hgone.sending] at hoffer
      cases hoffer
  | reported hreported => exact hreported

end Steps

/-- Every host of an undisturbed call has reported when the operator's stream ends.
The bridge and its queue are in any state when the call begins. -/
theorem hosts_report {fromDer : FromDer} (cfg : BridgeConfig fromDer) (call : ExecCall)
    (hosts : List HostId) (bridge : Option Bridge) (commands : List BridgeCommand)
    (events : List ExecEvent)
    (hrun : (ExecRun.start call hosts bridge commands).UndisturbedRun cfg events)
    (hgone : ((ExecRun.start call hosts bridge commands).run cfg events).SendersGone) :
    ∀ host ∈ hosts, ((ExecRun.start call hosts bridge commands).run cfg events).Reported host := by
  intro host hhost
  have hstart : (ExecRun.start call hosts bridge commands).Accounted host := .waiting hhost
  exact (hstart.run rfl hrun).reported_of_gone hgone

/-! ## A slow operator -/

def sampleCall : ExecCall :=
  ⟨Str.lit "operator", Str.lit "exec", Str.lit "root", default, default, 0⟩

/-- Distinct hosts. -/
def numberedHost (n : Fin 4096) : HostId :=
  ⟨⟨[Fin.ofNat 16 (n / 256), Fin.ofNat 16 (n / 16), Fin.ofNat 16 n] ++ List.replicate 29 0,
    by simp⟩⟩

def numberedHosts (n : Nat) : List HostId :=
  (List.range n).map fun i => numberedHost (Fin.ofNat 4096 i)

/-- The next host is denied and reported. -/
def denyNext : List ExecEvent :=
  [.next, .gate (.policy .denied) default, .gate (.append 0 true) default, .fanSend]

/-- The next host is allowed; the bridge refuses its dispatch and sends that. -/
def refuseNext (env : StepEnv) : List ExecEvent :=
  [.next, .gate (.policy .ok) (Str.lit "job"), .gate (.append 0 true) (Str.lit "job"), .fanSend,
    .handle env, .send]

/-- An operator who takes nothing and 257 hosts, all but the last of them denied; the
last one is offline. -/
def slowRun : ExecRun :=
  (ExecRun.start sampleCall (numberedHosts 257) (some Bridge.new) []).run sampleCfg
    ((List.replicate 256 denyNext).flatten ++
      refuseNext { sampleEnv with sendEvent := fun _ _ _ => .full })

/-- The bridge finds the channel full and drops the outcome of the last host. -/
theorem full_channel_loses_host :
    slowRun.SendersGone ∧ slowRun.events.buffer.length = execEventQueue ∧
      numberedHost 256 ∈ numberedHosts 257 ∧ ¬ slowRun.Reported (numberedHost 256) := by
  have hfan : slowRun.fan.remaining = [] ∧ slowRun.fan.doing = none ∧ slowRun.sending = [] ∧
      slowRun.commands = [] ∧ slowRun.bridge.map (·.pending.entries) = some [] ∧
      numberedHost 256 ∉ slowRun.events.stream.map Prod.fst := by
    decide +kernel
  obtain ⟨hremaining, hdoing, hsending, hcommands, hpending, hnone⟩ := hfan
  refine ⟨⟨⟨?_, ?_⟩, hremaining, hdoing, hsending⟩, by decide +kernel, by decide +kernel, ?_⟩
  · intro cmd hcmd
    rw [hcommands] at hcmd
    cases hcmd
  · intro b hb e he
    obtain ⟨b', hb', hentries⟩ := Option.map_eq_some_iff.mp hpending
    obtain rfl := Option.some.inj (hb'.symm.trans hb)
    rw [hentries] at he
    cases he
  · rintro ⟨r, hmem, -⟩
    exact hnone (List.mem_map.mpr ⟨_, hmem, rfl⟩)

/-- Two hosts, one denied and one offline, and an operator who waits. -/
def promptRun : List ExecEvent := denyNext ++ refuseNext sampleEnv

theorem hosts_report_two :
    (ExecRun.start sampleCall (numberedHosts 2) (some Bridge.new) []).UndisturbedRun sampleCfg
        promptRun ∧
      ∀ host ∈ numberedHosts 2, ((ExecRun.start sampleCall (numberedHosts 2) (some Bridge.new)
        []).run sampleCfg promptRun).Reported host := by
  have hrun : (ExecRun.start sampleCall (numberedHosts 2) (some Bridge.new) []).UndisturbedRun
      sampleCfg promptRun := by
    refine ⟨trivial, trivial, trivial, trivial, trivial, trivial, trivial, trivial, trivial, ?_,
      trivial⟩
    change ∀ offer ∈ (_ : Option Offer), offer.sent = .ok
    decide +kernel
  refine ⟨hrun, hosts_report sampleCfg sampleCall _ _ _ _ hrun ⟨⟨?_, ?_⟩, ?_, ?_, ?_⟩⟩
  · decide +kernel
  · intro b hb e he
    have hpending : ((ExecRun.start sampleCall (numberedHosts 2) (some Bridge.new) []).run
        sampleCfg promptRun).bridge.map (·.pending.entries) = some [] := by decide +kernel
    obtain ⟨b', hb', hentries⟩ := Option.map_eq_some_iff.mp hpending
    obtain rfl := Option.some.inj (hb'.symm.trans hb)
    rw [hentries] at he
    cases he
  · decide +kernel
  · decide +kernel
  · decide +kernel

end Coordinator
end OpenSsmAgent
