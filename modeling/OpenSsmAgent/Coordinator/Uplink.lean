import OpenSsmAgent.Coordinator.Epoch

/-!
# What the broker can do with uplink messages

The broker chooses topics and payloads freely.  What it cannot authenticate leaves
the coordinator as it was, and what arrives on a topic of one host leaves the other
hosts alone, with one exception: a control acknowledgement is taken for the host
that its envelope names, whatever the tenant of its topic.

Main results:

- Theorem {lit}`unauthenticated_unchanged`: without an admitted hello or a fresh
  envelope nothing changes and nothing is sent.
- Theorem {lit}`confined_iff`: a message on a topic of a host is confined to that
  host, unless it is a fresh acknowledgement of another one.
- Theorem {lit}`misdirected_ack_not_confined`: such an acknowledgement.
-/

open Framing SymbolicCrypto Fallible

namespace OpenSsmAgent
namespace Coordinator

open Seal Wire Domain Hs Proto

section Uplink

variable {fromDer : FromDer} {cfg : BridgeConfig fromDer} {env : StepEnv} {fate : CallFate}
  {b : Bridge} {store : Epochs} {topic tenant : String} {payload : Payload} {host : HostId}

/-! ## Authenticated input -/

/-- A hello that passed every check, up to and including the admit: the store took
its epoch. -/
def PassesHello (cfg : BridgeConfig fromDer) (env : StepEnv) (fate : CallFate) (b : Bridge)
    (store : Epochs) (topic : String) (payload : Payload) : Prop :=
  ∃ tenant host epoch, Topics.tenantFromHsUp topic = some tenant ∧
    admitCall cfg.ca env b tenant payload = some (host, epoch) ∧ store.Takes fate host epoch

/-- An envelope that opens with a fresh count under the keys of the host it is
addressed to: a control acknowledgement names the host itself, all others are
addressed by the tenant of their topic. -/
inductive FreshEnvelope (b : Bridge) (topic : String) (payload : Payload) : Prop
  | control {tenant : String} {host : HostId} {e : Envelope} {s : Session} {p : Bytes}
      (htopic : Topics.tenantFromCtrlUp topic = some tenant)
      (hhost : HostId.parse e.hostId.text = some host) (hopens : OpensOn b host payload e s p)
  | result {tenant : String} {host : HostId} {e : Envelope} {s : Session} {p : Bytes}
      (htopic : Topics.tenantFromResultUp topic = some tenant)
      (hhost : HostId.parse tenant = some host) (hopens : OpensOn b host payload e s p)
  | inventory {tenant : String} {host : HostId} {e : Envelope} {s : Session} {p : Bytes}
      (htopic : Topics.tenantFromInventoryUp topic = some tenant)
      (hhost : HostId.parse tenant = some host) (hopens : OpensOn b host payload e s p)
  | stream {tenant : String} {host : HostId} {e : Envelope} {r : ShellRoute} {p : Bytes}
      (htopic : Topics.tenantFromStreamUp topic = some tenant)
      (hhost : HostId.parse tenant = some host) (hopens : OpensOnShell b host payload e r p)

/-- A hello that the bridge goes on with passed the admit. -/
theorem passesHello_of_admitted {c : CheckedHello} {resp : ServerResponse}
    (htopic : Topics.tenantFromHsUp topic = some tenant)
    (h : Admitted cfg.ca (env.withEpochs fate store) b tenant payload c resp) :
    PassesHello cfg env fate b store topic payload := by
  obtain ⟨hcheck, hrevoked, hrespond, hadmitted⟩ := h
  refine ⟨tenant, c.host.hostId, c.hello.epoch, htopic, ?_, ?_⟩
  · have hcheck : checkHello cfg.ca env.utcNow tenant payload b.sessions = some c := hcheck
    have hrevoked : env.isRevoked c.host.hostId = .ok false := hrevoked
    have hrespond : c.respond cfg.ca env.eph = .ok resp := hrespond
    simp only [admitCall, hcheck, hrevoked, hrespond]
  · by_contra htakes
    have hrefused := (Epochs.admit_of_not_takes htakes).2
    change (store.admitEpoch fate c.host.hostId c.hello.epoch).1.mapError _ = .ok true at hadmitted
    cases hanswer : (store.admitEpoch fate c.host.hostId c.hello.epoch).1 with
    | error e =>
        rw [hanswer] at hadmitted
        cases hadmitted
    | ok answer =>
        rw [hanswer] at hadmitted hrefused
        cases hadmitted
        exact hrefused rfl

/-- The store changes only for a hello that passes. -/
theorem stepStored_store_of_not_passesHello
    (h : ¬ PassesHello cfg env fate b store topic payload) :
    (stepStored cfg env fate b store (.message topic payload)).2 = store := by
  simp only [stepStored, BridgeEvent.admitCall]
  split
  · rfl
  · rename_i host epoch hcall
    split at hcall
    · rename_i tenant _ htopic
      refine (Epochs.admit_of_not_takes fun htakes => h ?_).1
      exact ⟨tenant, host, epoch, htopic, hcall, htakes⟩
    · cases hcall

/-- Without a hello that the stores let through and without a fresh envelope, the
bridge stays as it was, up to the heartbeat table. -/
theorem Intake.unchanged {out : Bridge × List Effect} (h : Intake cfg env b topic payload out)
    (hhello : ∀ tenant c resp, Topics.tenantFromHsUp topic = some tenant →
      ¬ Admitted cfg.ca env b tenant payload c resp)
    (henvelope : ¬ FreshEnvelope b topic payload) :
    ∃ lastSeen, out = ({ b with lastSeen := lastSeen }, []) := by
  cases h with
  | ignored => exact ⟨b.lastSeen, rfl⟩
  | heartbeat htopic => exact ⟨_, rfl⟩
  | unanswered htopic hadmitted hpublish => exact absurd hadmitted (hhello _ _ _ htopic)
  | established htopic hadmitted hpublish => exact absurd hadmitted (hhello _ _ _ htopic)
  | control htopic hhost hopens hsid => exact absurd (.control htopic hhost hopens) henvelope
  | unclaimed htopic hhost hopens => exact absurd (.result htopic hhost hopens) henvelope
  | result htopic hhost hopens hdecode hjob =>
      exact absurd (.result htopic hhost hopens) henvelope
  | garbled htopic hhost hopens => exact absurd (.stream htopic hhost hopens) henvelope
  | frame htopic hhost hopens hdecode => exact absurd (.stream htopic hhost hopens) henvelope
  | lastFrame htopic hhost hopens hdecode => exact absurd (.stream htopic hhost hopens) henvelope
  | inventory htopic hhost hopens heffects =>
      exact absurd (.inventory htopic hhost hopens) henvelope

/-- A message that is neither a hello that passes nor a fresh envelope leaves
sessions, jobs, routes and epochs unchanged; nothing is published and nothing is
sent to an operator. -/
theorem unauthenticated_unchanged (cfg : BridgeConfig fromDer) (env : StepEnv) (fate : CallFate)
    (b : Bridge) (store : Epochs) (topic : String) (payload : Payload)
    (hhello : ¬ PassesHello cfg env fate b store topic payload)
    (henvelope : ¬ FreshEnvelope b topic payload) :
    let out := stepStored cfg env fate b store (.message topic payload)
    out.1.1.sessions = b.sessions ∧ out.1.1.pending = b.pending ∧ out.1.1.shells = b.shells ∧
      out.2 = store ∧ out.1.2 = [] := by
  intro out
  have hintake : Intake cfg (env.withEpochs fate store) b topic payload out.1 :=
    onMessage_intake cfg _ b topic payload
  obtain ⟨lastSeen, hout⟩ := hintake.unchanged
    (fun _ _ _ htopic hadmitted => hhello (passesHello_of_admitted htopic hadmitted)) henvelope
  refine ⟨?_, ?_, ?_, stepStored_store_of_not_passesHello hhello, ?_⟩ <;> rw [hout]

/-- The sample session's bridge. -/
def sampleOnline : Bridge :=
  (run sampleCfg Bridge.new [sampleHelloTurn]).1

/-- A replay of the hello that the live session answered. -/
theorem unauthenticated_unchanged_replay :
    let out := stepStored sampleCfg sampleEnv .answered sampleOnline (.pg ∅)
      (.message (Topics.hsUp sampleHost.toStr.text) ⟨some sampleHello, none, none⟩)
    out.1.1.sessions = sampleOnline.sessions ∧ out.1.1.pending = sampleOnline.pending ∧
      out.1.1.shells = sampleOnline.shells ∧ out.2 = .pg ∅ ∧ out.1.2 = [] := by
  refine unauthenticated_unchanged sampleCfg sampleEnv .answered sampleOnline (.pg ∅) _ _ ?_ ?_
  · rintro ⟨tenant, host, epoch, htopic, hcall, -⟩
    obtain rfl : Topics.tenant sampleHost.toStr.text = tenant := by
      simpa [Topics.tenantFromHsUp, Topics.hsUp, Topics.tenantForTail_topic] using htopic
    have hnone : admitCall sampleCfg.ca sampleEnv sampleOnline
        (Topics.tenant sampleHost.toStr.text) ⟨some sampleHello, none, none⟩ = none := by
      decide +kernel
    rw [hnone] at hcall
    cases hcall
  · intro hfresh
    cases hfresh with
    | control htopic hhost hopens => cases hopens.envelope
    | result htopic hhost hopens => cases hopens.envelope
    | inventory htopic hhost hopens => cases hopens.envelope
    | stream htopic hhost hopens => cases hopens.envelope

/-! ## Confinement to the host of the topic -/

/-- The tails of the uplink topics. -/
def uplinkTails : List String :=
  ["osa/v1/up/heartbeat", "osa/v1/up/hs", "osa/v1/up/ctrl", "osa/v1/up/result",
    "osa/v1/up/stream", "osa/v1/up/inventory"]

/-- The topic is an uplink topic whose tenant names a host. -/
def Names (topic : String) (host : HostId) : Prop :=
  ∃ tail ∈ uplinkTails, ∃ tenant, Topics.tenantForTail topic tail = some tenant ∧
    HostId.parse tenant = some host

/-- An effect that concerns one host: a publish under its tenant prefix, an event
tagged with it, a frame to the operator of its shell. -/
def Effect.ConfinedTo (host : HostId) (b : Bridge) : Effect → Prop
  | .published topic _ _ => ∃ rest, topic = Topics.tenantPrefix host.toStr.text ++ rest
  | .event _ tagged _ _ => tagged = host
  | .frame channel _ _ => ∃ r, b.shells.lookup host = some r ∧ channel = r.output
  | .confirmed acked => acked = host
  | .upsert reported _ => reported = host
  | .sealed _ => True
  | .hosts _ _ => True

/-- The sessions, jobs and routes of all hosts but one are as they were. -/
structure OthersKept (host : HostId) (b b' : Bridge) : Prop where
  session : ∀ other, other ≠ host → b'.sessions.get other = b.sessions.get other
  pending : ∀ other, other ≠ host → ∀ jobId,
    b'.pending.lookup (other, jobId) = b.pending.lookup (other, jobId)
  route : ∀ other, other ≠ host → b'.shells.lookup other = b.shells.lookup other

/-- A turn touches only one host. -/
structure Confined (host : HostId) (b : Bridge) (store : Epochs)
    (out : (Bridge × List Effect) × Epochs) : Prop where
  state : OthersKept host b out.1.1
  mark : ∀ other, other ≠ host → out.2.mark other = store.mark other
  effects : ∀ effect ∈ out.1.2, effect.ConfinedTo host b

/-- A control acknowledgement of another host than the topic's, fresh on that host's
session. -/
def Misdirected (host : HostId) (b : Bridge) (topic : String) (payload : Payload) : Prop :=
  ∃ tenant other e s p, Topics.tenantFromCtrlUp topic = some tenant ∧ other ≠ host ∧
    HostId.parse e.hostId.text = some other ∧ OpensOn b other payload e s p ∧ s.sid = e.sid

/-- A topic has one tenant. -/
theorem Names.parse_eq {tail : String} (h : Names topic host)
    (htopic : Topics.tenantForTail topic tail = some tenant) : HostId.parse tenant = some host := by
  obtain ⟨tail', -, tenant', htopic', hparse⟩ := h
  rwa [(Topics.tenantForTail_unique htopic htopic').2]

/-- A checked hello is of the host that its topic names. -/
theorem Names.host_eq {c : CheckedHello} (h : Names topic host)
    (htopic : Topics.tenantFromHsUp topic = some tenant)
    (hcheck : checkHello cfg.ca env.utcNow tenant payload b.sessions = some c) :
    c.host.hostId = host := by
  have hparse := h.parse_eq htopic
  obtain ⟨-, -, -, htenant, -⟩ := checkHello_eq_some hcheck
  rw [← htenant, Topics.parse_tenant] at hparse
  exact Option.some.inj hparse

/-- The store changes only for the host that the topic names. -/
theorem Names.mark_eq {other : HostId} (h : Names topic host) (hne : other ≠ host) :
    (stepStored cfg env fate b store (.message topic payload)).2.mark other =
      store.mark other := by
  simp only [stepStored, BridgeEvent.admitCall]
  split
  · rfl
  · rename_i target epoch hcall
    split at hcall
    · rename_i tenant _ htopic
      have htarget : target = host := by
        unfold admitCall at hcall
        split at hcall
        · cases hcall
        · rename_i c hcheck
          split at hcall
          · obtain ⟨rfl, -⟩ := Prod.mk.inj (Option.some.inj hcall)
            exact h.host_eq htopic hcheck
          · cases hcall
      rw [Epochs.mark_admit_ne _ _ _ (htarget ▸ hne)]
    · cases hcall

/-! ### The state of other hosts -/

theorem OthersKept.refl (host : HostId) (b : Bridge) : OthersKept host b b :=
  ⟨fun _ _ => rfl, fun _ _ _ => rfl, fun _ _ => rfl⟩

theorem OthersKept.setSession (host : HostId) (b : Bridge) (s : Session) :
    OthersKept host b (b.setSession host s) :=
  ⟨fun _ hne => SessionStore.get_set_ne _ _ hne, fun _ _ _ => rfl, fun _ _ => rfl⟩

theorem OthersKept.setRoute (host : HostId) (b : Bridge) (r : ShellRoute) :
    OthersKept host b (b.setRoute host r) :=
  ⟨fun _ _ => rfl, fun _ _ _ => rfl, fun _ hne => Table.lookup_put_ne _ _ hne⟩

theorem OthersKept.dropRoute (host : HostId) (b : Bridge) :
    OthersKept host b (b.dropRoute host) := by
  refine ⟨fun _ _ => rfl, fun _ _ _ => rfl, ?_⟩
  intro other hne
  simp [Bridge.dropRoute, Table.lookup_drop, hne]

theorem OthersKept.dropPending (host : HostId) (b : Bridge) (jobId : Str) :
    OthersKept host b (b.dropPending (host, jobId)) := by
  refine ⟨fun _ _ => rfl, ?_, fun _ _ => rfl⟩
  intro other hne jobId'
  simp [Bridge.dropPending, Table.lookup_drop, hne]

theorem OthersKept.purge (host : HostId) (b : Bridge) (env : StepEnv) :
    OthersKept host b (purgeHostJobs env b host).1 := by
  refine ⟨fun _ _ => rfl, ?_, fun _ _ => rfl⟩
  intro other hne jobId
  simp only [purgeHostJobs, Table.lookup_retain]
  cases b.pending.lookup (other, jobId) <;> simp [hne]

theorem OthersKept.trans {b b' b'' : Bridge} (h : OthersKept host b b')
    (h' : OthersKept host b' b'') : OthersKept host b b'' where
  session other hne := (h'.session other hne).trans (h.session other hne)
  pending other hne jobId := (h'.pending other hne jobId).trans (h.pending other hne jobId)
  route other hne := (h'.route other hne).trans (h.route other hne)

/-! ### The effects -/

theorem confinedTo_publish (env : StepEnv) (b : Bridge) (host : HostId) (tail : String)
    (m : Message) : (env.publishTo (Topics.topic host.toStr.text tail) m).ConfinedTo host b :=
  ⟨"osa/v1" ++ tail, String.append_assoc⟩

/-- A message on a topic of a host touches only that host, if it is not a
misdirected acknowledgement. -/
theorem Intake.confined {out : Bridge × List Effect} (h : Intake cfg env b topic payload out)
    (hnames : Names topic host) (hdirect : ¬ Misdirected host b topic payload) :
    OthersKept host b out.1 ∧ ∀ effect ∈ out.2, effect.ConfinedTo host b := by
  have hhost : ∀ {tail tenant : String} {target : HostId},
      Topics.tenantForTail topic tail = some tenant → HostId.parse tenant = some target →
      target = host := fun htopic htarget =>
    Option.some.inj (htarget.symm.trans (hnames.parse_eq htopic))
  cases h with
  | ignored => exact ⟨.refl host b, (by simp)⟩
  | heartbeat htopic => exact ⟨⟨fun _ _ => rfl, fun _ _ _ => rfl, fun _ _ => rfl⟩, (by simp)⟩
  | unanswered htopic hadmitted hpublish =>
      obtain rfl := hnames.host_eq htopic hadmitted.checked
      refine ⟨.setSession _ _ _, ?_⟩
      intro effect hmem
      rw [List.mem_singleton.mp hmem]
      exact confinedTo_publish env b _ _ _
  | established htopic hadmitted hpublish hroom =>
      rename_i tenant c resp
      obtain rfl := hnames.host_eq htopic hadmitted.checked
      constructor
      · refine OthersKept.trans ?_ (.dropRoute _ _)
        refine OthersKept.trans ?_ (.purge _ _ env)
        exact (OthersKept.setSession _ _ _).trans (.setSession _ _ _)
      · intro effect hmem
        rcases List.mem_append.mp hmem with hmem | hmem
        · simp only [List.mem_cons, List.not_mem_nil, or_false] at hmem
          rcases hmem with rfl | rfl | rfl
          · exact confinedTo_publish env b _ _ _
          · trivial
          · exact confinedTo_publish env b _ _ _
        · obtain ⟨entry, -, rfl⟩ := List.mem_map.mp hmem
          rfl
  | control htopic htarget hopens hsid =>
      rename_i tenant target e s p
      obtain rfl : target = host := by
        by_contra hne
        exact hdirect ⟨tenant, target, e, s, p, htopic, hne, htarget, hopens, hsid⟩
      refine ⟨.setSession _ _ _, ?_⟩
      intro effect hmem
      split at hmem
      · rw [List.mem_singleton.mp hmem]
        rfl
      · cases hmem
  | unclaimed htopic htarget hopens =>
      obtain rfl := hhost htopic htarget
      exact ⟨.setSession _ _ _, (by simp)⟩
  | result htopic htarget hopens hdecode hjob =>
      obtain rfl := hhost htopic htarget
      constructor
      · dsimp only
        split
        · exact .setSession _ _ _
        · exact (OthersKept.setSession _ _ _).trans (.dropPending _ _ _)
      · intro effect hmem
        rw [List.mem_singleton.mp hmem]
        rfl
  | garbled htopic htarget hopens =>
      obtain rfl := hhost htopic htarget
      exact ⟨.setRoute _ _ _, (by simp)⟩
  | frame htopic htarget hopens hdecode =>
      obtain rfl := hhost htopic htarget
      refine ⟨.setRoute _ _ _, ?_⟩
      intro effect hmem
      rw [List.mem_singleton.mp hmem]
      exact ⟨_, hopens.route, rfl⟩
  | lastFrame htopic htarget hopens hdecode =>
      obtain rfl := hhost htopic htarget
      refine ⟨.dropRoute _ _, ?_⟩
      intro effect hmem
      simp only [sealFrame, List.mem_cons, List.not_mem_nil, or_false] at hmem
      rcases hmem with rfl | rfl | rfl
      · exact ⟨_, hopens.route, rfl⟩
      · trivial
      · exact confinedTo_publish env b _ _ _
  | inventory htopic htarget hopens heffects =>
      obtain rfl := hhost htopic htarget
      refine ⟨.setSession _ _ _, ?_⟩
      intro effect hmem
      obtain ⟨inv, -, rfl⟩ := heffects effect hmem
      rfl

theorem onMessage_of_ctrl (h : Topics.tenantFromCtrlUp topic = some tenant) :
    onMessage cfg env b topic payload = handleCtrlAck b payload := by
  have hbeat : Topics.tenantFromHeartbeat topic = none :=
    Topics.tenantForTail_of_ne h (by decide)
  have hhello : Topics.tenantFromHsUp topic = none := Topics.tenantForTail_of_ne h (by decide)
  simp only [onMessage, hbeat, hhello, h]

/-- A misdirected acknowledgement moves the guard of the other host. -/
theorem Misdirected.not_kept (h : Misdirected host b topic payload) (cfg : BridgeConfig fromDer)
    (env : StepEnv) (fate : CallFate) (store : Epochs) :
    ¬ OthersKept host b (stepStored cfg env fate b store (.message topic payload)).1.1 := by
  obtain ⟨tenant, other, e, s, p, htopic, hne, hhost, hopens, hsid⟩ := h
  intro hkept
  have hsession := hkept.session other hne
  simp only [stepStored, step] at hsession
  rw [onMessage_of_ctrl htopic, hopens.session] at hsession
  simp only [handleCtrlAck, hopens.envelope, hhost, hopens.session, hsid, ne_eq,
    not_true_eq_false, if_false, Bridge.setSession, SessionStore.get_set_self,
    Option.some.injEq] at hsession
  -- The envelope was fresh, so the guard was not at its count before.
  have hmark := ReplayGuard.guardedOpen_accept hopens.opens
  have hfresh := (ReplayGuard.guardedOpen_fst_eq_some_iff.mp hopens.opens).2
  have hhigh : s.recvHigh = some e.seq := by
    rw [← congrArg Session.recvHigh hsession]
    exact hmark
  rw [hhigh] at hfresh
  simp at hfresh

/-- A message on a topic of a host is confined to that host, unless it is a fresh
acknowledgement of another host. -/
theorem confined_iff (cfg : BridgeConfig fromDer) (env : StepEnv) (fate : CallFate) (b : Bridge)
    (store : Epochs) (topic : String) (payload : Payload) (host : HostId)
    (hnames : Names topic host) :
    Confined host b store (stepStored cfg env fate b store (.message topic payload)) ↔
      ¬ Misdirected host b topic payload := by
  constructor
  · intro h hmisdirected
    exact hmisdirected.not_kept cfg env fate store h.state
  · intro hdirect
    obtain ⟨hstate, heffects⟩ :=
      (onMessage_intake cfg (env.withEpochs fate store) b topic payload).confined hnames hdirect
    exact ⟨hstate, fun _ hne => hnames.mark_eq hne, heffects⟩

end Uplink

/-- A host other than the sample host. -/
def sampleOther : HostId := ⟨.lit (List.replicate 32 8)⟩

/-- The sample host's acknowledgement of its session. -/
def sampleAck : Envelope :=
  sealEnvelope sampleKeys .agentToCoord sampleHost.toStr sampleSid 0 .control ctrlSessionAck

theorem names_ctrlUp (host : HostId) : Names (Topics.ctrlUp host.toStr.text) host := by
  refine ⟨"osa/v1/up/ctrl", by decide, Topics.tenant host.toStr.text, ?_, Topics.parse_tenant host⟩
  rw [Topics.ctrlUp, Topics.tenantForTail_topic, if_pos (by decide)]

theorem sampleAck_opens : ∃ s p, OpensOn sampleOnline sampleHost (envelopePayload sampleAck)
    sampleAck s p ∧ s.sid = sampleAck.sid := by
  have hread : ((sampleOnline.sessions.get sampleHost).map fun s =>
      (s.sid, (s.openUplink sampleAck).1)) = some (sampleSid, some ctrlSessionAck) := by
    decide +kernel
  obtain ⟨s, hget, hs⟩ := Option.map_eq_some_iff.mp hread
  obtain ⟨hsid, hopen⟩ := Prod.mk.inj hs
  exact ⟨s, ctrlSessionAck, ⟨rfl, hget, hopen⟩, hsid⟩

/-- The acknowledgement of one host, put on the topic of another, moves the replay
guard of the first. -/
theorem misdirected_ack_not_confined :
    Names (Topics.ctrlUp sampleOther.toStr.text) sampleOther ∧
    ¬ Confined sampleOther sampleOnline (.pg ∅)
      (stepStored sampleCfg sampleEnv .answered sampleOnline (.pg ∅)
        (.message (Topics.ctrlUp sampleOther.toStr.text) (envelopePayload sampleAck))) := by
  refine ⟨names_ctrlUp sampleOther, ?_⟩
  intro h
  obtain ⟨s, p, hopens, hsid⟩ := sampleAck_opens
  have hmisdirected : Misdirected sampleOther sampleOnline (Topics.ctrlUp sampleOther.toStr.text)
      (envelopePayload sampleAck) := by
    refine ⟨Topics.tenant sampleOther.toStr.text, sampleHost, sampleAck, s, p, ?_, by decide,
      HostId.parse_toStr sampleHost, hopens, hsid⟩
    rw [Topics.tenantFromCtrlUp, Topics.ctrlUp, Topics.tenantForTail_topic, if_pos (by decide)]
  exact hmisdirected.not_kept sampleCfg sampleEnv .answered (.pg ∅) h.state

/-- On its own topic it is confined to its host. -/
theorem confined_own_ack :
    Names (Topics.ctrlUp sampleHost.toStr.text) sampleHost ∧
    Confined sampleHost sampleOnline (.pg ∅)
      (stepStored sampleCfg sampleEnv .answered sampleOnline (.pg ∅)
        (.message (Topics.ctrlUp sampleHost.toStr.text) (envelopePayload sampleAck))) := by
  refine ⟨names_ctrlUp sampleHost, ?_⟩
  refine (confined_iff sampleCfg sampleEnv .answered sampleOnline (.pg ∅) _ _ sampleHost
    (names_ctrlUp sampleHost)).mpr ?_
  rintro ⟨tenant, other, e, s, p, -, hne, hhost, hopens, -⟩
  have henv : sampleAck = e := Option.some.inj hopens.envelope
  have hid : e.hostId = sampleHost.toStr := by rw [← henv]; rfl
  rw [hid, HostId.parse_toStr] at hhost
  exact hne (Option.some.inj hhost).symm

end Coordinator
end OpenSsmAgent
