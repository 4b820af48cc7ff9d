import OpenSsmAgent.Coordinator.Epoch
import OpenSsmAgent.Coordinator.BridgeActs
import OpenSsmAgent.Lib.Logs

/-!
# Admission of sessions by any number of replicas

A hello is handled with two awaits in between: the replica asks the revocation store, and
later the epoch store.  Meanwhile other replicas handle other hellos, identities are
revoked, and replicas are restarted.  This module runs the handler of
{lit}`osa-coordinator/src/broker.rs` await by await, on stores that all replicas share.

Every run keeps a log: which hello passed the checks, which was then cleared by the
revocation store, which epochs were put to the epoch store and taken, and which hellos
opened a session.

Main results:

- Theorem {lit}`Cluster.opens_cases`: a session is opened only where a hello resumes after
  a positive answer of the epoch store.
- Theorem {lit}`AdmissionInv.next`: what one event preserves.
- Theorem {lit}`session_admission`: the log of every run.
-/

open Framing SymbolicCrypto Journal Fallible

namespace OpenSsmAgent
namespace Coordinator

open Seal Wire Domain Hs Proto

/-! ## Replicas between two awaits -/

/-- A hello that passed the checks before the stores are asked, with the turn it came in. -/
structure HelloTurn where
  env : StepEnv
  tenant : String
  payload : Payload
  checked : CheckedHello

/-- Where {lit}`handle_client_hello` is suspended: before the revocation store has answered,
before the epoch store has run the admit, or before the bridge goes on with its answer. -/
inductive Awaiting where
  | revocation (turn : HelloTurn)
  | admission (turn : HelloTurn) (resp : ServerResponse)
  | resumption (turn : HelloTurn) (resp : ServerResponse) (answer : StoreAnswer)

/-- A replica: its bridge, and the hello in whose handler the bridge task is suspended. -/
structure Replica where
  bridge : Bridge
  awaiting : Option Awaiting

/-- What the log of a run records. -/
inductive AdmissionAct where
  | checked (i : Nat) (tenant : String) (utcNow : Int) (c : CheckedHello)
  | cleared (i : Nat) (c : CheckedHello)
  | asked (i : Nat) (c : CheckedHello)
  | taken (i : Nat) (c : CheckedHello)
  | opened (i : Nat) (c : CheckedHello)
  | revoked (host : HostId)
deriving DecidableEq

/-- The replicas of a deployment, its stores and the log. -/
structure Cluster where
  replicas : Nat → Replica
  epochs : Epochs
  revoked : List HostId
  log : List AdmissionAct

/-- A bridge takes up an event, a store answers a replica, a replica goes on, an identity is
revoked, or a replica is restarted. -/
inductive ClusterEvent where
  | turn (i : Nat) (env : StepEnv) (ev : BridgeEvent)
  | isRevoked (i : Nat) (fate : CallFate)
  | admitEpoch (i : Nat) (fate : CallFate)
  | resume (i : Nat)
  | revoke (host : HostId) (fate : CallFate)
  | restart (i : Nat)

/-- The environment of a turn whose stores have answered: not revoked, and the answer to the
admit. -/
def StepEnv.answering (env : StepEnv) (answer : StoreAnswer) : StepEnv :=
  { env with isRevoked := fun _ => .ok false, admitEpoch := fun _ _ => answer }

/-- The hello with which a turn goes to the stores. -/
def HelloTurn.start {fromDer : FromDer} (cfg : BridgeConfig fromDer) (env : StepEnv)
    (b : Bridge) : BridgeEvent → Option HelloTurn
  | .message topic payload =>
      match Topics.tenantFromHeartbeat topic, Topics.tenantFromHsUp topic with
      | none, some tenant =>
          (checkHello cfg.ca env.utcNow tenant payload b.sessions).map
            (⟨env, tenant, payload, ·⟩)
      | _, _ => none
  | _ => none

/-- Whether the revocation store and the handshake let a hello go on to the epoch store. -/
def HelloTurn.clear {fromDer : FromDer} (cfg : BridgeConfig fromDer) (turn : HelloTurn)
    (revoked : Except String Bool) : Option ServerResponse :=
  match revoked, turn.checked.respond cfg.ca turn.env.eph with
  | .ok false, .ok resp => some resp
  | _, _ => none

/-- Whether the session of a hello is inserted. -/
def HelloTurn.inserts (turn : HelloTurn) (b : Bridge) (resp : ServerResponse)
    (answer : StoreAnswer) : Bool :=
  match answer with
  | .ok true => (b.sessions.insert turn.checked.host.hostId turn.checked.hello.sid resp.keys).1
  | _ => false

namespace Cluster

/-- Before the first event; every replica starts with an empty bridge. -/
def new (epochs : Epochs) : Cluster where
  replicas := fun _ => ⟨Bridge.new, none⟩
  epochs := epochs
  revoked := []
  log := []

/-- Put a replica in its place. -/
def put (w : Cluster) (i : Nat) (r : Replica) : Cluster :=
  { w with replicas := Function.update w.replicas i r }

def record (w : Cluster) (acts : List AdmissionAct) : Cluster :=
  { w with log := w.log ++ acts }

/-- One event.  A suspended bridge takes up nothing, and a restart without a database loses
the stores. -/
def next {fromDer : FromDer} (cfg : BridgeConfig fromDer) (w : Cluster) :
    ClusterEvent → Cluster
  | .turn i env ev =>
      match (w.replicas i).awaiting with
      | some _ => w
      | none =>
          match HelloTurn.start cfg env (w.replicas i).bridge ev with
          | some turn =>
              (w.put i ⟨(w.replicas i).bridge, some (.revocation turn)⟩).record
                [.checked i turn.tenant turn.env.utcNow turn.checked]
          | none => w.put i ⟨(step cfg env (w.replicas i).bridge ev).1, none⟩
  | .isRevoked i fate =>
      match (w.replicas i).awaiting with
      | some (.revocation turn) =>
          let out := fate.statement
            (fun revoked => (decide (turn.checked.host.hostId ∈ revoked), revoked)) w.revoked
          match turn.clear cfg out.1 with
          | some resp =>
              (w.put i ⟨(w.replicas i).bridge, some (.admission turn resp)⟩).record
                [.cleared i turn.checked]
          | none => w.put i ⟨(w.replicas i).bridge, none⟩
      | _ => w
  | .admitEpoch i fate =>
      match (w.replicas i).awaiting with
      | some (.admission turn resp) =>
          let out := w.epochs.admitEpoch fate turn.checked.host.hostId turn.checked.hello.epoch
          ({ w with epochs := out.2 }.put i ⟨(w.replicas i).bridge,
              some (.resumption turn resp (out.1.mapError fun _ => ()))⟩).record
            (.asked i turn.checked ::
              match out.1 with
              | .ok true => [.taken i turn.checked]
              | _ => [])
      | _ => w
  | .resume i =>
      match (w.replicas i).awaiting with
      | some (.resumption turn resp answer) =>
          (w.put i ⟨(onHello cfg.ca (turn.env.answering answer) (w.replicas i).bridge
              turn.tenant turn.payload).1, none⟩).record
            (if turn.inserts (w.replicas i).bridge resp answer then [.opened i turn.checked]
              else [])
      | _ => w
  | .revoke host fate =>
      ({ w with revoked := (fate.statement (fun revoked => ((), host :: revoked)) w.revoked).2
        }).record (if fate.ran then [.revoked host] else [])
  | .restart i =>
      match w.epochs with
      | .pg _ => w.put i ⟨Bridge.new, none⟩
      | .registry _ =>
          { w.put i ⟨Bridge.new, none⟩ with epochs := .registry ∅, revoked := [] }

/-- A run of a deployment. -/
def run {fromDer : FromDer} (cfg : BridgeConfig fromDer) (epochs : Epochs)
    (events : List ClusterEvent) : Cluster :=
  events.foldl (next cfg) (new epochs)

end Cluster

/-! ## What an event can do -/

/-- The cases of an event. -/
inductive Happens {fromDer : FromDer} (cfg : BridgeConfig fromDer) (w : Cluster) :
    Cluster → Prop where
  | stay : Happens cfg w w
  | elsewhere {i : Nat} {env : StepEnv} {ev : BridgeEvent}
      (hstart : HelloTurn.start cfg env (w.replicas i).bridge ev = none) :
      Happens cfg w (w.put i ⟨(step cfg env (w.replicas i).bridge ev).1, none⟩)
  | checked {i : Nat} {turn : HelloTurn}
      (hcheck : checkHello cfg.ca turn.env.utcNow turn.tenant turn.payload
        (w.replicas i).bridge.sessions = some turn.checked) :
      Happens cfg w ((w.put i ⟨(w.replicas i).bridge, some (.revocation turn)⟩).record
        [.checked i turn.tenant turn.env.utcNow turn.checked])
  | dropped {i : Nat} : Happens cfg w (w.put i ⟨(w.replicas i).bridge, none⟩)
  | cleared {i : Nat} {turn : HelloTurn} {resp : ServerResponse}
      (hawaiting : (w.replicas i).awaiting = some (.revocation turn))
      (hrevoked : turn.checked.host.hostId ∉ w.revoked)
      (hrespond : turn.checked.respond cfg.ca turn.env.eph = .ok resp) :
      Happens cfg w ((w.put i ⟨(w.replicas i).bridge, some (.admission turn resp)⟩).record
        [.cleared i turn.checked])
  | taken {i : Nat} {turn : HelloTurn} {resp : ServerResponse} {fate : CallFate}
      (hawaiting : (w.replicas i).awaiting = some (.admission turn resp))
      (hanswer : (w.epochs.admitEpoch fate turn.checked.host.hostId
        turn.checked.hello.epoch).1 = .ok true) :
      Happens cfg w (({ w with epochs := (w.epochs.admitEpoch fate turn.checked.host.hostId
          turn.checked.hello.epoch).2 }.put i
            ⟨(w.replicas i).bridge, some (.resumption turn resp (.ok true))⟩).record
        [.asked i turn.checked, .taken i turn.checked])
  | refused {i : Nat} {turn : HelloTurn} {resp : ServerResponse} {fate : CallFate}
      {answer : StoreAnswer}
      (hawaiting : (w.replicas i).awaiting = some (.admission turn resp))
      (hanswer : answer ≠ .ok true) :
      Happens cfg w (({ w with epochs := (w.epochs.admitEpoch fate turn.checked.host.hostId
          turn.checked.hello.epoch).2 }.put i
            ⟨(w.replicas i).bridge, some (.resumption turn resp answer)⟩).record
        [.asked i turn.checked])
  | resumed {i : Nat} {turn : HelloTurn} {resp : ServerResponse} {answer : StoreAnswer}
      (hawaiting : (w.replicas i).awaiting = some (.resumption turn resp answer)) :
      Happens cfg w ((w.put i ⟨(onHello cfg.ca (turn.env.answering answer)
          (w.replicas i).bridge turn.tenant turn.payload).1, none⟩).record
        (if turn.inserts (w.replicas i).bridge resp answer then [.opened i turn.checked] else []))
  | revoked (host : HostId) :
      Happens cfg w ({ w with revoked := host :: w.revoked }.record [.revoked host])
  | restarted (i : Nat) : Happens cfg w (w.put i ⟨Bridge.new, none⟩)

/-- Whether the stores outlive their process. -/
def Epochs.durable : Epochs → Bool
  | .registry _ => false
  | .pg _ => true

theorem HelloTurn.start_eq_some {fromDer : FromDer} {cfg : BridgeConfig fromDer} {env : StepEnv}
    {b : Bridge} {ev : BridgeEvent} {turn : HelloTurn}
    (h : HelloTurn.start cfg env b ev = some turn) :
    checkHello cfg.ca turn.env.utcNow turn.tenant turn.payload b.sessions = some turn.checked := by
  cases ev with
  | message topic payload =>
      simp only [HelloTurn.start] at h
      split at h
      · obtain ⟨c, hcheck, rfl⟩ := Option.map_eq_some_iff.mp h
        exact hcheck
      · cases h
  | command cmd => cases h
  | sweep => cases h

theorem HelloTurn.clear_eq_some {fromDer : FromDer} {cfg : BridgeConfig fromDer}
    {turn : HelloTurn} {revoked : Except String Bool} {resp : ServerResponse}
    (h : turn.clear cfg revoked = some resp) :
    revoked = .ok false ∧ turn.checked.respond cfg.ca turn.env.eph = .ok resp := by
  unfold HelloTurn.clear at h
  split at h
  · rename_i hrespond
    exact ⟨rfl, Option.some.inj h ▸ hrespond⟩
  · cases h

/-- An event is one of the cases, unless it restarts a replica whose stores are in memory. -/
theorem Cluster.next_happens {fromDer : FromDer} (cfg : BridgeConfig fromDer) (w : Cluster)
    (event : ClusterEvent) (hlasting : w.epochs.durable = true ∨ ∀ i, event ≠ .restart i) :
    Happens cfg w (w.next cfg event) := by
  cases event with
  | turn i env ev =>
      simp only [Cluster.next]
      cases (w.replicas i).awaiting with
      | some a => exact .stay
      | none =>
          dsimp only
          cases hstart : HelloTurn.start cfg env (w.replicas i).bridge ev with
          | none => exact .elsewhere hstart
          | some turn => exact .checked (HelloTurn.start_eq_some hstart)
  | isRevoked i fate =>
      simp only [Cluster.next]
      cases hawaiting : (w.replicas i).awaiting with
      | none => exact .stay
      | some a =>
          cases a with
          | revocation turn =>
              dsimp only
              cases hclear : turn.clear cfg (fate.statement
                (fun revoked => (decide (turn.checked.host.hostId ∈ revoked), revoked))
                w.revoked).1 with
              | none => exact .dropped
              | some resp =>
                  obtain ⟨hanswer, hrespond⟩ := HelloTurn.clear_eq_some hclear
                  cases fate with
                  | answered =>
                      exact .cleared hawaiting (by simpa [CallFate.statement] using hanswer)
                        hrespond
                  | lost message => cases hanswer
                  | failed message => cases hanswer
          | admission turn resp => exact .stay
          | resumption turn resp answer => exact .stay
  | admitEpoch i fate =>
      simp only [Cluster.next]
      cases hawaiting : (w.replicas i).awaiting with
      | none => exact .stay
      | some a =>
          cases a with
          | revocation turn => exact .stay
          | admission turn resp =>
              dsimp only
              cases hanswer : (w.epochs.admitEpoch fate turn.checked.host.hostId
                turn.checked.hello.epoch).1 with
              | error e => exact .refused hawaiting nofun
              | ok answer =>
                  cases answer with
                  | false => exact .refused hawaiting nofun
                  | true => exact .taken hawaiting hanswer
          | resumption turn resp answer => exact .stay
  | resume i =>
      simp only [Cluster.next]
      cases hawaiting : (w.replicas i).awaiting with
      | none => exact .stay
      | some a =>
          cases a with
          | revocation turn => exact .stay
          | admission turn resp => exact .stay
          | resumption turn resp answer => exact .resumed hawaiting
  | revoke host fate =>
      cases fate with
      | answered => exact .revoked host
      | lost message => exact .revoked host
      | failed message =>
          have hstay : w.next cfg (.revoke host (.failed message)) = w := by
            simp [Cluster.next, CallFate.statement, CallFate.ran, Cluster.record]
          rw [hstay]
          exact .stay
  | restart i =>
      rcases hlasting with hdurable | hother
      · cases hepochs : w.epochs with
        | registry marks =>
            rw [hepochs] at hdurable
            cases hdurable
        | pg rows =>
            simp only [Cluster.next, hepochs]
            exact .restarted i
      · exact absurd rfl (hother i)

/-! ## Where sessions come from -/

/-- A turn opens a session of a host: one that is not a later state of the host's session
before it. -/
def Opens (b b' : Bridge) (host : HostId) (s : Session) : Prop :=
  b'.sessions.get host = some s ∧ ∀ s₀, b.sessions.get host = some s₀ → ¬ s₀.Same s

theorem not_opens_of_sessions {b b' : Bridge} (h : b'.sessions = b.sessions) (host : HostId)
    (s : Session) : ¬ Opens b b' host s := by
  rintro ⟨hget, hnew⟩
  exact hnew s (h ▸ hget) ⟨rfl, rfl⟩

section Turns

variable {fromDer : FromDer} {cfg : BridgeConfig fromDer} {env : StepEnv} {b b' : Bridge}
  {ev : BridgeEvent} {host : HostId} {s : Session}

/-- Without a message no session starts. -/
theorem Acts.session_of_local {flag : Bool} {es : List Effect}
    (h : Acts cfg env ev flag b es b') (hev : ∀ topic payload, ev ≠ .message topic payload)
    (hget : b'.sessions.get host = some s) :
    ∃ s₀, b.sessions.get host = some s₀ ∧ s₀.Same s := by
  induction h with
  | nil => exact ⟨s, hget, rfl, rfl⟩
  | act hact _ ih =>
      obtain ⟨s₁, hs₁, hsame⟩ := ih hget
      obtain ⟨s₀, hs₀, hsame'⟩ := hact.session_of hs₁
      exact ⟨s₀, hs₀, hsame'.trans hsame⟩
  | birth hbirth _ ih =>
      cases hbirth with
      | session hcheck hresp => exact absurd rfl (hev _ _)
      | route hsession => exact ih hget

theorem not_opens_setSession {s₀ : Session} (hget : b.sessions.get host = some s₀)
    (e : Envelope) (other : HostId) :
    ¬ Opens b (b.setSession host (s₀.openUplink e).2) other s := by
  rintro ⟨hafter, hnew⟩
  have hact : Act b [] (b.setSession host (s₀.openUplink e).2) := .readSession hget e
  obtain ⟨s₁, hs₁, hsame⟩ := hact.session_of hafter
  exact hnew s₁ hs₁ hsame

/-- A message that is no hello for the stores opens no session. -/
theorem Intake.not_opens {topic : String} {payload : Payload} {out : Bridge × List Effect}
    (h : Intake cfg env b topic payload out) (hhello : Topics.tenantFromHsUp topic = none) :
    ¬ Opens b out.1 host s := by
  have hsame := fun {b' : Bridge} (h : b'.sessions = b.sessions) =>
    not_opens_of_sessions h host s
  cases h with
  | ignored => exact hsame rfl
  | heartbeat htopic => exact hsame rfl
  | unanswered htopic hadmitted hpublish => simp [hhello] at htopic
  | established htopic hadmitted hpublish => simp [hhello] at htopic
  | control htopic hhost hopens hsid => exact not_opens_setSession hopens.session _ _
  | unclaimed htopic hhost hopens => exact not_opens_setSession hopens.session _ _
  | result htopic hhost hopens hdecode hjob =>
      split <;> exact not_opens_setSession hopens.session _ _
  | garbled htopic hhost hopens => exact hsame rfl
  | frame htopic hhost hopens hdecode => exact hsame rfl
  | lastFrame htopic hhost hopens hdecode => exact hsame rfl
  | inventory htopic hhost hopens heffects => exact not_opens_setSession hopens.session _ _

/-- A turn that does not go to the stores opens no session. -/
theorem not_opens_step (hstart : HelloTurn.start cfg env b ev = none) :
    ¬ Opens b (step cfg env b ev).1 host s := by
  cases ev with
  | message topic payload =>
      cases hbeat : Topics.tenantFromHeartbeat topic with
      | some tenant =>
          refine not_opens_of_sessions ?_ host s
          simp [step, onMessage, hbeat]
      | none =>
          cases hhello : Topics.tenantFromHsUp topic with
          | none => exact (onMessage_intake cfg env b topic payload).not_opens hhello
          | some tenant =>
              simp only [HelloTurn.start, hbeat, hhello, Option.map_eq_none_iff] at hstart
              refine not_opens_of_sessions ?_ host s
              simp [step, onMessage, hbeat, hhello, onHello, handleClientHello, hstart]
  | command cmd =>
      rintro ⟨hget, hnew⟩
      obtain ⟨s₀, hs₀, hsame⟩ :=
        (step_acts cfg env b (.command cmd)).session_of_local nofun hget
      exact hnew s₀ hs₀ hsame
  | sweep =>
      rintro ⟨hget, hnew⟩
      obtain ⟨s₀, hs₀, hsame⟩ := (step_acts cfg env b .sweep).session_of_local nofun hget
      exact hnew s₀ hs₀ hsame

/-- Without a positive answer of the epoch store a hello changes nothing. -/
theorem onHello_of_refused {answer : StoreAnswer} (hanswer : answer ≠ .ok true)
    (tenant : String) (payload : Payload) :
    (onHello cfg.ca (env.answering answer) b tenant payload).1 = b := by
  rcases handleClientHello_cases cfg.ca (env.answering answer) b tenant payload with
    hignored | ⟨c, resp, hadmitted, -⟩
  · simp only [onHello, hignored]
  · exact absurd hadmitted.admitted hanswer

end Turns

/-- What a hello leaves behind when it goes on with an answer of the epoch store: its
session, if it is inserted. -/
theorem HelloTurn.resume_sessions {fromDer : FromDer} {cfg : BridgeConfig fromDer}
    {turn : HelloTurn} {b : Bridge} {resp : ServerResponse} (answer : StoreAnswer)
    (hcheck : checkHello cfg.ca turn.env.utcNow turn.tenant turn.payload b.sessions =
      some turn.checked)
    (hrespond : turn.checked.respond cfg.ca turn.env.eph = .ok resp) :
    let b' := (onHello cfg.ca (turn.env.answering answer) b turn.tenant turn.payload).1
    if turn.inserts b resp answer then
      (∃ s, b'.sessions.get turn.checked.host.hostId = some s ∧
        (turn.checked.session resp).Same s) ∧
      ∀ other, other ≠ turn.checked.host.hostId → b'.sessions.get other = b.sessions.get other
    else b' = b := by
  intro b'
  by_cases hanswer : answer = .ok true
  · subst hanswer
    have hestablish : handleClientHello cfg.ca (turn.env.answering (.ok true)) b turn.tenant
        turn.payload = establish (turn.env.answering (.ok true)) b turn.checked resp := by
      simp [handleClientHello, StepEnv.answering, hcheck, hrespond]
    rcases b.sessions.insert_eq turn.checked.host.hostId turn.checked.hello.sid resp.keys with
      hinsert | ⟨hinsert, -⟩
    · have hrefused : turn.inserts b resp (.ok true) = false := by
        simp [HelloTurn.inserts, hinsert]
      rw [hrefused]
      simp [b', onHello, hestablish, establish, hinsert]
    · have hinserts : turn.inserts b resp (.ok true) = true := by
        simp [HelloTurn.inserts, hinsert]
      rw [if_pos hinserts]
      -- Whether or not the answer leaves, the session is stored; a beacon only counts on it.
      have hstored : ∃ s, (turn.checked.session resp).Same s ∧
          ∀ other, b'.sessions.get other =
            if other = turn.checked.host.hostId then some s else b.sessions.get other := by
        simp only [b', onHello, hestablish, establish, hinsert]
        split_ifs
        · refine ⟨{ turn.checked.session resp with sendSeq := 1 }, ⟨rfl, rfl⟩, fun other => ?_⟩
          change ((b.sessions.set _ _).set _ _).get other = _
          simp only [SessionStore.get_set]
          split_ifs <;> rfl
        · exact ⟨turn.checked.session resp, ⟨rfl, rfl⟩, fun other => SessionStore.get_set _ _ _ _⟩
      obtain ⟨s, hsame, hget⟩ := hstored
      refine ⟨⟨s, by rw [hget, if_pos rfl], hsame⟩, fun other hne => ?_⟩
      rw [hget, if_neg hne]
  · have hrefused : turn.inserts b resp answer = false := by
      unfold HelloTurn.inserts
      split
      · exact absurd rfl hanswer
      · rfl
    rw [hrefused]
    exact onHello_of_refused hanswer turn.tenant turn.payload

/-! ## The log -/

/-- The exact session id, epoch and ephemeral of a hello were signed with the certified key
of its host. -/
def CheckedHello.Signed (c : CheckedHello) : Prop :=
  toPoint c.hello.clientEph = some c.clientEph ∧
    ∃ key form, c.host.publicKeySec1 = .ofKey key ∧
      c.hello.sig = .signed key
        (clientTranscript c.hello.sid.asBytes.bytes c.hello.epoch c.clientEph) form

/-- The epochs taken, with the replicas and hellos they came from. -/
def takens (log : List AdmissionAct) : List (Nat × CheckedHello) :=
  log.filterMap (fun
    | .taken i c => some (i, c)
    | _ => none)

/-- The hellos that opened a session. -/
def openeds (log : List AdmissionAct) : List (Nat × CheckedHello) :=
  log.filterMap (fun
    | .opened i c => some (i, c)
    | _ => none)

/-- The hosts revoked. -/
def revokedBy (log : List AdmissionAct) : List HostId :=
  log.filterMap (fun
    | .revoked host => some host
    | _ => none)

/-- Why an act was in order. -/
def Warranted {fromDer : FromDer} (ca : EmbeddedCa fromDer) (front : List AdmissionAct) :
    AdmissionAct → Prop
  | .checked _ tenant utcNow c =>
      ca.verifyHostCert utcNow c.hello.certDer = .ok c.host ∧
        Topics.tenant c.host.hostId.toStr.text = tenant
  | .cleared i c =>
      (∃ tenant utcNow, .checked i tenant utcNow c ∈ front) ∧ c.host.hostId ∉ revokedBy front ∧
        c.Signed
  | .asked i c => .cleared i c ∈ front
  | .taken i c => .asked i c ∈ front
  | .opened i c => .taken i c ∈ front
  | .revoked _ => True

theorem mem_takens {log : List AdmissionAct} {i : Nat} {c : CheckedHello} :
    (i, c) ∈ takens log ↔ .taken i c ∈ log := by
  simp only [takens, List.mem_filterMap]
  constructor
  · rintro ⟨act, hact, heq⟩
    cases act <;> simp_all
  · exact fun h => ⟨_, h, rfl⟩

theorem mem_openeds {log : List AdmissionAct} {i : Nat} {c : CheckedHello} :
    (i, c) ∈ openeds log ↔ .opened i c ∈ log := by
  simp only [openeds, List.mem_filterMap]
  constructor
  · rintro ⟨act, hact, heq⟩
    cases act <;> simp_all
  · exact fun h => ⟨_, h, rfl⟩

theorem CheckedHello.signed_of {fromDer : FromDer} {ca : EmbeddedCa fromDer} {utcNow : Int}
    {tenant : String} {payload : Payload} {sessions : SessionStore} {c : CheckedHello}
    {eph : Option Point} {resp : ServerResponse}
    (hcheck : checkHello ca utcNow tenant payload sessions = some c)
    (hrespond : c.respond ca eph = .ok resp) : c.Signed := by
  unfold CheckedHello.respond EmbeddedCa.respondHandshake at hrespond
  exact ⟨(checkHello_eq_some hcheck).2.1, (respond_eq_ok_iff.mp hrespond).1⟩

/-! ## The invariant -/

/-- The host and the epoch of a hello. -/
def CheckedHello.claim (c : CheckedHello) : HostId × UInt64 :=
  (c.host.hostId, c.hello.epoch)

/-- What holds of a suspended hello. -/
def Awaiting.Sound {fromDer : FromDer} (cfg : BridgeConfig fromDer) (log : List AdmissionAct)
    (i : Nat) (sessions : SessionStore) : Awaiting → Prop
  | .revocation turn =>
      checkHello cfg.ca turn.env.utcNow turn.tenant turn.payload sessions = some turn.checked ∧
        .checked i turn.tenant turn.env.utcNow turn.checked ∈ log
  | .admission turn resp =>
      checkHello cfg.ca turn.env.utcNow turn.tenant turn.payload sessions = some turn.checked ∧
        turn.checked.respond cfg.ca turn.env.eph = .ok resp ∧ .cleared i turn.checked ∈ log
  | .resumption turn resp answer =>
      checkHello cfg.ca turn.env.utcNow turn.tenant turn.payload sessions = some turn.checked ∧
        turn.checked.respond cfg.ca turn.env.eph = .ok resp ∧
        (answer = .ok true → .taken i turn.checked ∈ log ∧
          ∀ opening ∈ openeds log, opening.2.claim ≠ turn.checked.claim)

/-- The invariant of a run. -/
structure AdmissionInv {fromDer : FromDer} (cfg : BridgeConfig fromDer) (w : Cluster) :
    Prop where
  sound : ∀ i a, (w.replicas i).awaiting = some a →
    a.Sound cfg w.log i (w.replicas i).bridge.sessions
  warranted : Justified (Warranted cfg.ca) w.log
  revoked : ∀ host, host ∈ w.revoked ↔ host ∈ revokedBy w.log
  increasing : (takens w.log).Pairwise fun t t' =>
    t.2.host.hostId = t'.2.host.hostId → t.2.hello.epoch < t'.2.hello.epoch
  below : ∀ t ∈ takens w.log, ∃ m, w.epochs.mark t.2.host.hostId = some m ∧
    (t.2.hello.epoch.toNat : Int) ≤ m
  marks : ∀ host m, w.epochs.mark host = some m → ∃ i c, .asked i c ∈ w.log ∧
    c.host.hostId = host ∧ m = c.hello.epoch.toNat
  once : ((openeds w.log).map fun opening => opening.2.claim).Nodup

/-! ## What the store does to its marks -/

namespace Epochs

variable {store : Epochs} {fate : CallFate} {host : HostId} {epoch : UInt64}

theorem takes_of_ok (h : (store.admitEpoch fate host epoch).1 = .ok true) :
    store.Takes fate host epoch := by
  by_contra htakes
  exact (admit_of_not_takes htakes).2 h

/-- A mark stays, or becomes the epoch put to the store. -/
theorem mark_admit_cases (store : Epochs) (fate : CallFate) (host : HostId) (epoch : UInt64)
    (other : HostId) :
    (store.admitEpoch fate host epoch).2.mark other = store.mark other ∨
      other = host ∧
        (store.admitEpoch fate host epoch).2.mark other = some (epoch.toNat : Int) := by
  by_cases htakes : store.Takes fate host epoch
  · rw [admit_of_takes htakes]
    by_cases hother : other = host
    · exact .inr ⟨hother, if_pos hother⟩
    · exact .inl (if_neg hother)
  · rw [(admit_of_not_takes htakes).1]
    exact .inl rfl

/-- A mark never falls. -/
theorem le_mark_admit {other : HostId} {m : Int} (h : store.mark other = some m) :
    ∃ m', (store.admitEpoch fate host epoch).2.mark other = some m' ∧ m ≤ m' := by
  by_cases htakes : store.Takes fate host epoch
  · rw [admit_of_takes htakes]
    by_cases hother : other = host
    · exact ⟨_, if_pos hother, (htakes.above m (hother ▸ h)).le⟩
    · exact ⟨m, (if_neg hother).trans h, le_refl m⟩
  · rw [(admit_of_not_takes htakes).1]
    exact ⟨m, h, le_refl m⟩

theorem durable_admit (store : Epochs) (fate : CallFate) (host : HostId) (epoch : UInt64) :
    (store.admitEpoch fate host epoch).2.durable = store.durable := by
  cases store <;> rfl

end Epochs

/-! ## One event -/

/-- The acts that neither take an epoch nor open a session nor revoke a host. -/
def AdmissionAct.quiet : AdmissionAct → Bool
  | .checked _ _ _ _ | .cleared _ _ | .asked _ _ => true
  | _ => false

section Quiet

variable {log acts : List AdmissionAct}

theorem takens_append (log acts : List AdmissionAct) :
    takens (log ++ acts) = takens log ++ takens acts := by
  simp [takens]

theorem openeds_append (log acts : List AdmissionAct) :
    openeds (log ++ acts) = openeds log ++ openeds acts := by
  simp [openeds]

theorem revokedBy_append (log acts : List AdmissionAct) :
    revokedBy (log ++ acts) = revokedBy log ++ revokedBy acts := by
  simp [revokedBy]

/-- Whatever sees none of the quiet acts finds nothing among them. -/
theorem filterMap_of_quiet {B : Type} {f : AdmissionAct → Option B}
    (hf : ∀ act, act.quiet = true → f act = none) (h : ∀ act ∈ acts, act.quiet = true) :
    acts.filterMap f = [] :=
  List.filterMap_eq_nil_iff.mpr fun act hact => hf act (h act hact)

theorem takens_of_quiet (h : ∀ act ∈ acts, act.quiet = true) : takens acts = [] := by
  refine filterMap_of_quiet (fun act hquiet => ?_) h
  cases act <;> first | rfl | cases hquiet

theorem openeds_of_quiet (h : ∀ act ∈ acts, act.quiet = true) : openeds acts = [] := by
  refine filterMap_of_quiet (fun act hquiet => ?_) h
  cases act <;> first | rfl | cases hquiet

theorem revokedBy_of_quiet (h : ∀ act ∈ acts, act.quiet = true) : revokedBy acts = [] := by
  refine filterMap_of_quiet (fun act hquiet => ?_) h
  cases act <;> first | rfl | cases hquiet

end Quiet

/-- A suspended hello stays sound while the log grows, unless another hello opens a session
on its claim. -/
theorem Awaiting.Sound.append {fromDer : FromDer} {cfg : BridgeConfig fromDer}
    {log : List AdmissionAct} {i : Nat} {sessions : SessionStore} {a : Awaiting}
    (h : a.Sound cfg log i sessions) (acts : List AdmissionAct)
    (hopened : ∀ turn resp, a = .resumption turn resp (.ok true) →
      ∀ opening ∈ openeds acts, opening.2.claim ≠ turn.checked.claim) :
    a.Sound cfg (log ++ acts) i sessions := by
  cases a with
  | revocation turn => exact ⟨h.1, List.mem_append_left _ h.2⟩
  | admission turn resp => exact ⟨h.1, h.2.1, List.mem_append_left _ h.2.2⟩
  | resumption turn resp answer =>
      refine ⟨h.1, h.2.1, fun hanswer => ?_⟩
      obtain ⟨htaken, hfresh⟩ := h.2.2 hanswer
      refine ⟨List.mem_append_left _ htaken, fun opening hopening => ?_⟩
      rw [openeds_append] at hopening
      rcases List.mem_append.mp hopening with hopening | hopening
      · exact hfresh opening hopening
      · exact hopened turn resp (hanswer ▸ rfl) opening hopening

namespace AdmissionInv

variable {fromDer : FromDer} {cfg : BridgeConfig fromDer} {w : Cluster} {i : Nat}
  {turn : HelloTurn} {resp : ServerResponse}

theorem new (cfg : BridgeConfig fromDer) {epochs : Epochs}
    (hempty : ∀ host, epochs.mark host = none) : AdmissionInv cfg (Cluster.new epochs) where
  sound i a ha := by cases ha
  warranted := justified_nil
  revoked host := Iff.rfl
  increasing := List.Pairwise.nil
  below t ht := by cases ht
  marks host m hm := by
    change epochs.mark host = some m at hm
    rw [hempty host] at hm
    cases hm
  once := List.nodup_nil

/-- The replicas stay sound when one of them is replaced and the log grows. -/
theorem sound_put (h : AdmissionInv cfg w) (r : Replica) (acts : List AdmissionAct)
    (hr : ∀ a, r.awaiting = some a → a.Sound cfg (w.log ++ acts) i r.bridge.sessions)
    (hopened : ∀ j turn resp, j ≠ i →
      (w.replicas j).awaiting = some (.resumption turn resp (.ok true)) →
      ∀ opening ∈ openeds acts, opening.2.claim ≠ turn.checked.claim) :
    ∀ j a, (Function.update w.replicas i r j).awaiting = some a →
      a.Sound cfg (w.log ++ acts) j (Function.update w.replicas i r j).bridge.sessions := by
  intro j a ha
  by_cases hj : j = i
  · subst hj
    rw [Function.update_self] at ha ⊢
    exact hr a ha
  · rw [Function.update_of_ne hj] at ha ⊢
    refine (h.sound j a ha).append acts fun turn resp hturn => ?_
    exact hopened j turn resp hj (hturn ▸ ha)

/-- A replica is replaced and only quiet acts are logged. -/
theorem put (h : AdmissionInv cfg w) (r : Replica) {acts : List AdmissionAct}
    (hquiet : ∀ act ∈ acts, act.quiet = true)
    (hwarranted : Justified (Warranted cfg.ca) (w.log ++ acts))
    (hr : ∀ a, r.awaiting = some a → a.Sound cfg (w.log ++ acts) i r.bridge.sessions) :
    AdmissionInv cfg ((w.put i r).record acts) where
  sound := h.sound_put r acts hr fun j turn resp _ _ opening hopening => by
    rw [openeds_of_quiet hquiet] at hopening
    cases hopening
  warranted := hwarranted
  revoked host := by
    change host ∈ w.revoked ↔ host ∈ revokedBy (w.log ++ acts)
    rw [revokedBy_append, revokedBy_of_quiet hquiet, List.append_nil]
    exact h.revoked host
  increasing := by
    change (takens (w.log ++ acts)).Pairwise _
    rw [takens_append, takens_of_quiet hquiet, List.append_nil]
    exact h.increasing
  below t ht := by
    change t ∈ takens (w.log ++ acts) at ht
    rw [takens_append, takens_of_quiet hquiet, List.append_nil] at ht
    exact h.below t ht
  marks host m hm := by
    obtain ⟨j, c, hasked, hc⟩ := h.marks host m hm
    exact ⟨j, c, List.mem_append_left _ hasked, hc⟩
  once := by
    change ((openeds (w.log ++ acts)).map _).Nodup
    rw [openeds_append, openeds_of_quiet hquiet, List.append_nil]
    exact h.once

/-- A replica is replaced and nothing is logged. -/
theorem put_idle (h : AdmissionInv cfg w) (b : Bridge) : AdmissionInv cfg (w.put i ⟨b, none⟩) := by
  have hput : AdmissionInv cfg ((w.put i ⟨b, none⟩).record []) :=
    h.put _ (by simp) (by simpa using h.warranted) (fun a ha => by cases ha)
  rwa [Cluster.record, List.append_nil] at hput

/-- A hello is put to the epoch store; whatever the answer, the marks stay signed and above
all that was taken. -/
theorem store_asked (h : AdmissionInv cfg w) (fate : CallFate) (c : CheckedHello) :
    let store := (w.epochs.admitEpoch fate c.host.hostId c.hello.epoch).2
    (∀ t ∈ takens w.log, ∃ m, store.mark t.2.host.hostId = some m ∧
      (t.2.hello.epoch.toNat : Int) ≤ m) ∧
    ∀ host m, store.mark host = some m → (∃ j c', .asked j c' ∈ w.log ∧
      c'.host.hostId = host ∧ m = c'.hello.epoch.toNat) ∨
      c.host.hostId = host ∧ m = c.hello.epoch.toNat := by
  refine ⟨fun t ht => ?_, fun host m hm => ?_⟩
  · obtain ⟨m, hm, hle⟩ := h.below t ht
    obtain ⟨m', hm', hle'⟩ := Epochs.le_mark_admit hm
    exact ⟨m', hm', hle.trans hle'⟩
  · rcases w.epochs.mark_admit_cases fate c.host.hostId c.hello.epoch host with hkept | ⟨hc, hnew⟩
    · exact .inl (h.marks host m (hkept ▸ hm))
    · exact .inr ⟨hc.symm, Option.some.inj (hm.symm.trans hnew)⟩

/-- The answer of the epoch store is negative or an error. -/
theorem refused (h : AdmissionInv cfg w) {fate : CallFate} {answer : StoreAnswer}
    (hawaiting : (w.replicas i).awaiting = some (.admission turn resp))
    (hanswer : answer ≠ .ok true) :
    AdmissionInv cfg (({ w with epochs := (w.epochs.admitEpoch fate turn.checked.host.hostId
        turn.checked.hello.epoch).2 }.put i
          ⟨(w.replicas i).bridge, some (.resumption turn resp answer)⟩).record
      [.asked i turn.checked]) := by
  obtain ⟨hcheck, hrespond, hcleared⟩ := h.sound i _ hawaiting
  obtain ⟨hbelow, hmarks⟩ := h.store_asked fate turn.checked
  have hput : AdmissionInv cfg ((w.put i
      ⟨(w.replicas i).bridge, some (.resumption turn resp answer)⟩).record
        [.asked i turn.checked]) := by
    refine h.put _ (by simp [AdmissionAct.quiet]) (h.warranted.snoc hcleared) ?_
    rintro a ha
    obtain rfl := Option.some.inj ha
    exact ⟨hcheck, hrespond, fun hok => absurd hok hanswer⟩
  refine { hput with below := ?_, marks := ?_ }
  · intro t ht
    have ht : t ∈ takens (w.log ++ [AdmissionAct.asked i turn.checked]) := ht
    rw [takens_append] at ht
    exact hbelow t (by simpa [takens] using ht)
  · intro host m hm
    rcases hmarks host m hm with ⟨j, c', hasked, hc'⟩ | hc
    · exact ⟨j, c', List.mem_append_left _ hasked, hc'⟩
    · exact ⟨i, turn.checked, by simp [Cluster.record], hc⟩

/-- A hello that opened a session had its epoch taken. -/
theorem taken_of_opened (h : AdmissionInv cfg w) {opening : Nat × CheckedHello}
    (hopening : opening ∈ openeds w.log) : opening ∈ takens w.log := by
  obtain ⟨front, back, hsplit⟩ := List.append_of_mem (mem_openeds.mp hopening)
  have htaken : .taken opening.1 opening.2 ∈ front := h.warranted front _ back hsplit
  exact mem_takens.mpr (hsplit ▸ List.mem_append_left _ htaken)

/-- The epoch store takes the epoch of a hello. -/
theorem taken (h : AdmissionInv cfg w) {fate : CallFate}
    (hawaiting : (w.replicas i).awaiting = some (.admission turn resp))
    (hanswer : (w.epochs.admitEpoch fate turn.checked.host.hostId
      turn.checked.hello.epoch).1 = .ok true) :
    AdmissionInv cfg (({ w with epochs := (w.epochs.admitEpoch fate turn.checked.host.hostId
        turn.checked.hello.epoch).2 }.put i
          ⟨(w.replicas i).bridge, some (.resumption turn resp (.ok true))⟩).record
      [.asked i turn.checked, .taken i turn.checked]) := by
  obtain ⟨hcheck, hrespond, hcleared⟩ := h.sound i _ hawaiting
  obtain ⟨hbelow, hmarks⟩ := h.store_asked fate turn.checked
  have htakes := Epochs.takes_of_ok hanswer
  have hmark : (w.epochs.admitEpoch fate turn.checked.host.hostId
      turn.checked.hello.epoch).2.mark turn.checked.host.hostId =
        some (turn.checked.hello.epoch.toNat : Int) := by
    rw [Epochs.admit_of_takes htakes, if_pos rfl]
  -- Everything taken before for the host lies at or below the mark the epoch is above.
  have habove : ∀ t ∈ takens w.log, t.2.host.hostId = turn.checked.host.hostId →
      t.2.hello.epoch < turn.checked.hello.epoch := by
    intro t ht hhost
    obtain ⟨m, hm, hle⟩ := h.below t ht
    have hlt := htakes.above m (hhost ▸ hm)
    exact UInt64.lt_iff_toNat_lt.mpr (by omega)
  have hlog : takens (w.log ++ [AdmissionAct.asked i turn.checked, .taken i turn.checked]) =
      takens w.log ++ [(i, turn.checked)] := takens_append _ _
  have hopened : openeds (w.log ++ [AdmissionAct.asked i turn.checked, .taken i turn.checked]) =
      openeds w.log := (openeds_append _ _).trans (List.append_nil _)
  have hwarranted : Justified (Warranted cfg.ca)
      (w.log ++ [AdmissionAct.asked i turn.checked, .taken i turn.checked]) := by
    have hasked : Justified (Warranted cfg.ca) (w.log ++ [AdmissionAct.asked i turn.checked]) :=
      h.warranted.snoc hcleared
    rw [List.append_cons]
    refine hasked.snoc ?_
    simp [Warranted]
  refine ⟨h.sound_put _ _ ?_ ?_, hwarranted, ?_, ?_, ?_, ?_, ?_⟩
  · intro a ha
    obtain rfl := Option.some.inj ha
    refine ⟨hcheck, hrespond, fun _ => ⟨by simp, fun opening hopening hclaim => ?_⟩⟩
    rw [hopened] at hopening
    obtain ⟨hhost, hepoch⟩ := Prod.mk.inj hclaim
    have hlt := habove opening (h.taken_of_opened hopening) hhost
    rw [hepoch] at hlt
    exact absurd hlt (lt_irrefl _)
  · intro j turn' resp' _ _ opening hopening
    cases hopening
  · intro host
    change host ∈ w.revoked ↔ host ∈ revokedBy (w.log ++ _)
    rw [h.revoked, revokedBy_append]
    simp [revokedBy]
  · change (takens (w.log ++ _)).Pairwise _
    rw [hlog, List.pairwise_append]
    refine ⟨h.increasing, List.pairwise_singleton _ _, ?_⟩
    intro t ht t' ht'
    rw [List.mem_singleton.mp ht']
    exact habove t ht
  · intro t ht
    have ht : t ∈ takens (w.log ++ _) := ht
    rw [hlog] at ht
    rcases List.mem_append.mp ht with ht | ht
    · exact hbelow t ht
    · rw [List.mem_singleton.mp ht]
      exact ⟨_, hmark, le_refl _⟩
  · intro host m hm
    rcases hmarks host m hm with ⟨j, c', hasked, hc'⟩ | hc
    · exact ⟨j, c', List.mem_append_left _ hasked, hc'⟩
    · exact ⟨i, turn.checked, by simp [Cluster.record], hc⟩
  · change ((openeds (w.log ++ _)).map _).Nodup
    rw [hopened]
    exact h.once

/-- Two hellos taken on one claim are the same hello of the same replica. -/
theorem taken_unique (h : AdmissionInv cfg w) {t t' : Nat × CheckedHello}
    (ht : t ∈ takens w.log) (ht' : t' ∈ takens w.log) (hclaim : t.2.claim = t'.2.claim) :
    t = t' := by
  obtain ⟨hhost, hepoch⟩ := Prod.mk.inj hclaim
  by_contra hne
  have hsymm : Std.Symm fun t t' : Nat × CheckedHello =>
      t.2.host.hostId = t'.2.host.hostId → t.2.hello.epoch ≠ t'.2.hello.epoch :=
    ⟨fun _ _ h heq => (h heq.symm).symm⟩
  have hdistinct : (takens w.log).Pairwise fun t t' =>
      t.2.host.hostId = t'.2.host.hostId → t.2.hello.epoch ≠ t'.2.hello.epoch :=
    h.increasing.imp fun hlt heq => (hlt heq).ne
  exact hdistinct.forall ht ht' hne hhost hepoch

/-- A hello goes on with the answer of the epoch store. -/
theorem resumed (h : AdmissionInv cfg w) {answer : StoreAnswer}
    (hawaiting : (w.replicas i).awaiting = some (.resumption turn resp answer)) (b : Bridge) :
    AdmissionInv cfg ((w.put i ⟨b, none⟩).record
      (if turn.inserts (w.replicas i).bridge resp answer then
        [.opened i turn.checked] else [])) := by
  cases hinserts : turn.inserts (w.replicas i).bridge resp answer with
  | false =>
      have hidle : AdmissionInv cfg (w.put i ⟨b, none⟩) := h.put_idle b
      simpa [Cluster.record] using hidle
  | true =>
      have hanswer : answer = .ok true := by
        unfold HelloTurn.inserts at hinserts
        split at hinserts
        · rfl
        · cases hinserts
      obtain ⟨-, -, hsound⟩ := h.sound i _ hawaiting
      obtain ⟨htaken, hfresh⟩ := hsound hanswer
      have hlog : openeds (w.log ++ [AdmissionAct.opened i turn.checked]) =
          openeds w.log ++ [(i, turn.checked)] := openeds_append _ _
      have htakens : takens (w.log ++ [AdmissionAct.opened i turn.checked]) = takens w.log :=
        (takens_append _ _).trans (List.append_nil _)
      rw [if_pos rfl]
      refine ⟨h.sound_put _ _ (fun a ha => by cases ha) ?_, h.warranted.snoc htaken, ?_, ?_, ?_,
        ?_, ?_⟩
      · intro j turn' resp' hj hother opening hopening hclaim
        obtain rfl : opening = (i, turn.checked) := List.mem_singleton.mp hopening
        obtain ⟨-, -, hsound'⟩ := h.sound j _ hother
        have hsame := h.taken_unique (mem_takens.mpr htaken) (mem_takens.mpr (hsound' rfl).1) hclaim
        exact hj (Prod.mk.inj hsame).1.symm
      · intro host
        change host ∈ w.revoked ↔ host ∈ revokedBy (w.log ++ _)
        rw [h.revoked, revokedBy_append]
        simp [revokedBy]
      · change (takens (w.log ++ _)).Pairwise _
        rw [htakens]
        exact h.increasing
      · intro t ht
        have ht : t ∈ takens (w.log ++ _) := ht
        rw [htakens] at ht
        exact h.below t ht
      · intro host m hm
        obtain ⟨j, c, hasked, hc⟩ := h.marks host m hm
        exact ⟨j, c, List.mem_append_left _ hasked, hc⟩
      · change ((openeds (w.log ++ _)).map _).Nodup
        rw [hlog, List.map_append]
        refine List.Nodup.append h.once (List.nodup_singleton _) ?_
        rw [List.map_singleton, List.disjoint_singleton]
        intro hmem
        obtain ⟨opening, hopening, hclaim⟩ := List.mem_map.mp hmem
        exact hfresh opening hopening hclaim

/-- A host is revoked. -/
theorem revoke (h : AdmissionInv cfg w) (host : HostId) :
    AdmissionInv cfg ({ w with revoked := host :: w.revoked }.record [.revoked host]) where
  sound j a ha := (h.sound j a ha).append _ fun turn resp _ opening hopening => by cases hopening
  warranted := h.warranted.snoc trivial
  revoked other := by
    change other ∈ host :: w.revoked ↔ other ∈ revokedBy (w.log ++ _)
    rw [List.mem_cons, h.revoked, revokedBy_append]
    simp [revokedBy, or_comm]
  increasing := by
    change (takens (w.log ++ _)).Pairwise _
    rw [takens_append]
    simpa [takens] using h.increasing
  below t ht := by
    have ht : t ∈ takens (w.log ++ _) := ht
    rw [takens_append] at ht
    exact h.below t (by simpa [takens] using ht)
  marks other m hm := by
    obtain ⟨j, c, hasked, hc⟩ := h.marks other m hm
    exact ⟨j, c, List.mem_append_left _ hasked, hc⟩
  once := by
    change ((openeds (w.log ++ _)).map _).Nodup
    rw [openeds_append]
    simpa [openeds] using h.once

/-- What one event preserves. -/
theorem happens {w' : Cluster} (h : AdmissionInv cfg w) (hw : Happens cfg w w') :
    AdmissionInv cfg w' := by
  cases hw with
  | stay => exact h
  | elsewhere hstart => exact h.put_idle _
  | checked hcheck =>
      obtain ⟨-, -, hverify, htenant, -⟩ := checkHello_eq_some hcheck
      refine h.put _ (by simp [AdmissionAct.quiet]) (h.warranted.snoc ⟨hverify, htenant⟩) ?_
      intro a ha
      obtain rfl := Option.some.inj ha
      exact ⟨hcheck, by simp⟩
  | dropped => exact h.put_idle _
  | @cleared i turn resp hawaiting hrevoked hrespond =>
      obtain ⟨hcheck, hchecked⟩ := h.sound i _ hawaiting
      refine h.put _ (by simp [AdmissionAct.quiet]) (h.warranted.snoc ?_) ?_
      · exact ⟨⟨_, _, hchecked⟩, (h.revoked _).not.mp hrevoked,
          CheckedHello.signed_of hcheck hrespond⟩
      · intro a ha
        obtain rfl := Option.some.inj ha
        exact ⟨hcheck, hrespond, by simp⟩
  | taken hawaiting hanswer => exact h.taken hawaiting hanswer
  | refused hawaiting hanswer => exact h.refused hawaiting hanswer
  | resumed hawaiting => exact h.resumed hawaiting _
  | revoked host => exact h.revoke host
  | restarted i => exact h.put_idle _

end AdmissionInv

/-! ## Whole runs -/

section Runs

variable {fromDer : FromDer} {cfg : BridgeConfig fromDer} {w w' : Cluster}

/-- A store without marks. -/
def Epochs.empty (durable : Bool) : Epochs :=
  if durable then .pg ∅ else .registry ∅

theorem Epochs.durable_empty (durable : Bool) : (Epochs.empty durable).durable = durable := by
  cases durable <;> rfl

theorem Epochs.mark_empty (durable : Bool) (host : HostId) :
    (Epochs.empty durable).mark host = none := by
  cases durable <;> simp [Epochs.empty, Epochs.mark]

theorem Happens.durable (h : Happens cfg w w') : w'.epochs.durable = w.epochs.durable := by
  cases h with
  | taken hawaiting hanswer => exact w.epochs.durable_admit _ _ _
  | refused hawaiting hanswer => exact w.epochs.durable_admit _ _ _
  | _ => rfl

/-- The invariant holds in every run; without a database, in every run of one process. -/
theorem AdmissionInv.run (cfg : BridgeConfig fromDer) (durable : Bool)
    (events : List ClusterEvent)
    (hlasting : durable = true ∨ ∀ i, .restart i ∉ events) :
    AdmissionInv cfg (Cluster.run cfg (.empty durable) events) ∧
      (Cluster.run cfg (.empty durable) events).epochs.durable = durable := by
  induction events using List.reverseRecOn with
  | nil => exact ⟨.new cfg (Epochs.mark_empty durable), Epochs.durable_empty durable⟩
  | append_singleton events event ih =>
      obtain ⟨hinv, hdurable⟩ := ih (hlasting.imp_right fun h i hmem =>
        h i (List.mem_append_left _ hmem))
      have hhappens := (Cluster.run cfg (.empty durable) events).next_happens cfg event
        (hlasting.imp hdurable.trans fun h i heq => h i (by simp [heq]))
      rw [Cluster.run, List.foldl_append]
      exact ⟨hinv.happens hhappens, hhappens.durable.trans hdurable⟩

/-- Putting a replica in place opens a session only if the replica's own bridge does. -/
theorem not_opens_update {i j : Nat} {r : Replica} {host : HostId} {s : Session}
    (hr : j = i → ¬ Opens (w.replicas i).bridge r.bridge host s) :
    ¬ Opens (w.replicas i).bridge (Function.update w.replicas j r i).bridge host s := by
  by_cases hj : i = j
  · subst hj
    rw [Function.update_self]
    exact hr rfl
  · rw [Function.update_of_ne hj]
    exact not_opens_of_sessions rfl host s

theorem not_opens_new (b : Bridge) (host : HostId) (s : Session) :
    ¬ Opens b Bridge.new host s := by
  rintro ⟨hget, -⟩
  simp [Bridge.new, SessionStore.get, SessionStore.new] at hget

/-- A restart opens no session. -/
theorem not_opens_restart {i j : Nat} {host : HostId} {s : Session} :
    ¬ Opens (w.replicas i).bridge ((w.next cfg (.restart j)).replicas i).bridge host s := by
  have hreplicas : (w.next cfg (.restart j)).replicas =
      Function.update w.replicas j ⟨Bridge.new, none⟩ := by
    cases hepochs : w.epochs <;> simp [Cluster.next, hepochs, Cluster.put]
  rw [hreplicas]
  exact not_opens_update fun _ => not_opens_new _ host s

/-- A session is opened only where a hello resumes after a positive answer of the epoch
store, and the log says so. -/
theorem Cluster.opens_cases (hinv : AdmissionInv cfg w) (hw : Happens cfg w w') {i : Nat}
    {host : HostId} {s : Session}
    (hopens : Opens (w.replicas i).bridge (w'.replicas i).bridge host s) :
    ∃ c, w'.log = w.log ++ [AdmissionAct.opened i c] ∧ c.host.hostId = host ∧
      s.sid = c.hello.sid := by
  have hkept : ∀ {j : Nat} {awaiting : Option Awaiting}, ¬ Opens (w.replicas i).bridge
      (Function.update w.replicas j ⟨(w.replicas j).bridge, awaiting⟩ i).bridge host s :=
    not_opens_update fun hj => hj ▸ not_opens_of_sessions rfl host s
  cases hw with
  | stay => exact absurd hopens (not_opens_of_sessions rfl host s)
  | elsewhere hstart => exact absurd hopens (not_opens_update fun hj => hj ▸ not_opens_step hstart)
  | checked hcheck => exact absurd hopens hkept
  | dropped => exact absurd hopens hkept
  | cleared hawaiting hrevoked hrespond => exact absurd hopens hkept
  | taken hawaiting hanswer => exact absurd hopens hkept
  | refused hawaiting hanswer => exact absurd hopens hkept
  | @resumed j turn resp answer hawaiting =>
      by_cases hj : i = j
      · subst hj
        obtain ⟨hcheck, hrespond, -⟩ := hinv.sound i _ hawaiting
        have hsessions := turn.resume_sessions answer hcheck hrespond
        simp only [Cluster.record, Cluster.put, Function.update_self] at hopens ⊢
        cases hinserts : turn.inserts (w.replicas i).bridge resp answer with
        | false =>
            rw [hinserts] at hsessions
            exact absurd hopens (not_opens_of_sessions (congrArg Bridge.sessions hsessions) host s)
        | true =>
            rw [if_pos hinserts] at hsessions
            obtain ⟨⟨s', hget, hsame⟩, hothers⟩ := hsessions
            by_cases hhost : host = turn.checked.host.hostId
            · subst hhost
              obtain rfl : s' = s := Option.some.inj (hget.symm.trans hopens.1)
              exact ⟨turn.checked, rfl, rfl, hsame.1⟩
            · refine absurd ?_ (hopens.2 s · ⟨rfl, rfl⟩)
              exact (hothers host hhost).symm.trans hopens.1
      · exact absurd hopens (not_opens_update fun heq => absurd heq.symm hj)
  | revoked other => exact absurd hopens (not_opens_of_sessions rfl host s)
  | restarted j => exact absurd hopens (not_opens_update fun _ => not_opens_new _ host s)

/-- A hello is authentic for the host it names: its certificate verified for the host, and
what it asks for was signed with the certified key. -/
def CheckedHello.Authentic (ca : EmbeddedCa fromDer) (c : CheckedHello) : Prop :=
  (∃ utcNow, ca.verifyHostCert utcNow c.hello.certDer = .ok c.host) ∧ c.Signed

/-- What is put to the epoch store is authentic. -/
theorem AdmissionInv.authentic_of_asked (h : AdmissionInv cfg w) {i : Nat} {c : CheckedHello}
    (hasked : .asked i c ∈ w.log) : c.Authentic cfg.ca := by
  obtain ⟨front, back, hsplit⟩ := List.append_of_mem hasked
  have hcleared : .cleared i c ∈ front := h.warranted front _ back hsplit
  obtain ⟨front', back', hsplit'⟩ := List.append_of_mem hcleared
  obtain ⟨⟨tenant, utcNow, hchecked⟩, -, hsigned⟩ : Warranted cfg.ca front' (.cleared i c) :=
    h.warranted front' _ (back' ++ .asked i c :: back) (by rw [hsplit, hsplit']; simp)
  obtain ⟨front'', back'', hsplit''⟩ := List.append_of_mem hchecked
  obtain ⟨hverify, -⟩ : Warranted cfg.ca front'' (.checked i tenant utcNow c) :=
    h.warranted front'' _ (back'' ++ .cleared i c :: back' ++ .asked i c :: back)
      (by rw [hsplit, hsplit', hsplit'']; simp)
  exact ⟨⟨utcNow, hverify⟩, hsigned⟩

theorem AdmissionInv.authentic_of_taken (h : AdmissionInv cfg w) {t : Nat × CheckedHello}
    (ht : t ∈ takens w.log) : t.2.Authentic cfg.ca := by
  obtain ⟨front, back, hsplit⟩ := List.append_of_mem (mem_takens.mp ht)
  have hasked : .asked t.1 t.2 ∈ front := h.warranted front _ back hsplit
  exact h.authentic_of_asked (hsplit ▸ List.mem_append_left _ hasked)

/-- The host a certificate verifies for does not depend on the time. -/
theorem CheckedHello.Authentic.host_eq {ca : EmbeddedCa fromDer} {c c' : CheckedHello}
    (h : c.Authentic ca) (h' : c'.Authentic ca) (heq : c.hello = c'.hello) :
    c.host.hostId = c'.host.hostId := by
  obtain ⟨⟨utcNow, hverify⟩, -⟩ := h
  obtain ⟨⟨utcNow', hverify'⟩, -⟩ := h'
  obtain ⟨cert, hparse, -, -, hhost, -⟩ := EmbeddedCa.verifyHostCert_eq_ok_iff.mp hverify
  obtain ⟨cert', hparse', -, -, hhost', -⟩ := EmbeddedCa.verifyHostCert_eq_ok_iff.mp hverify'
  obtain rfl : cert = cert' := Option.some.inj (hparse.symm.trans (heq ▸ hparse'))
  exact Except.ok.inj (hhost.symm.trans hhost')

/-- A hello opens one session at most. -/
theorem AdmissionInv.hello_once (h : AdmissionInv cfg w) :
    ((openeds w.log).map fun opening => opening.2.hello).Nodup := by
  refine List.Nodup.map_on (fun x hx y hy heq => ?_) (List.Nodup.of_map _ h.once)
  refine List.inj_on_of_nodup_map h.once hx hy ?_
  have hx := h.authentic_of_taken (h.taken_of_opened hx)
  have hy := h.authentic_of_taken (h.taken_of_opened hy)
  exact Prod.ext (hx.host_eq hy heq) (congrArg ClientHello.epoch heq)

/-- Every error of a store, and with the database every epoch that is no BIGINT, refuses the
session. -/
structure FailsClosed (cfg : BridgeConfig fromDer) (w : Cluster) : Prop where
  revocation : ∀ (i : Nat) (turn : HelloTurn) (fate : CallFate) (message : String),
    (w.replicas i).awaiting = some (.revocation turn) →
    fate = .lost message ∨ fate = .failed message →
    w.next cfg (.isRevoked i fate) = w.put i ⟨(w.replicas i).bridge, none⟩
  admission : ∀ (i : Nat) (turn : HelloTurn) (resp : ServerResponse) (fate : CallFate)
    (e : PortError), (w.replicas i).awaiting = some (.admission turn resp) →
    (w.epochs.admitEpoch fate turn.checked.host.hostId turn.checked.hello.epoch).1 = .error e →
    takens (w.next cfg (.admitEpoch i fate)).log = takens w.log ∧
      (w.next cfg (.admitEpoch i fate)).replicas i =
        ⟨(w.replicas i).bridge, some (.resumption turn resp (.error ()))⟩
  resumption : ∀ (i : Nat) (turn : HelloTurn) (resp : ServerResponse) (answer : StoreAnswer),
    (w.replicas i).awaiting = some (.resumption turn resp answer) → answer ≠ .ok true →
    w.next cfg (.resume i) = w.put i ⟨(w.replicas i).bridge, none⟩
  bigint : ∀ rows, w.epochs = .pg rows → ∀ fate host (epoch : UInt64), 2 ^ 63 ≤ epoch.toNat →
    w.epochs.admitEpoch fate host epoch =
      (.error (.backend "session epoch out of range"), w.epochs)

theorem failsClosed (cfg : BridgeConfig fromDer) (w : Cluster) : FailsClosed cfg w where
  revocation i turn fate message hawaiting hfate := by
    rcases hfate with rfl | rfl <;>
      simp [Cluster.next, hawaiting, CallFate.statement, HelloTurn.clear]
  admission i turn resp fate e hawaiting herror := by
    simp [Cluster.next, hawaiting, herror, Cluster.record, Cluster.put, takens,
      Except.mapError]
  resumption i turn resp answer hawaiting hanswer := by
    have hinserts : turn.inserts (w.replicas i).bridge resp answer = false := by
      unfold HelloTurn.inserts
      split
      · exact absurd rfl hanswer
      · rfl
    simp [Cluster.next, hawaiting, hinserts, onHello_of_refused hanswer, Cluster.record]
  bigint rows hrows fate host epoch hepoch := by
    have hrange : toBigint epoch = .error (.backend "session epoch out of range") :=
      if_neg (Nat.not_lt.mpr hepoch)
    rw [hrows]
    simp [Epochs.admitEpoch, PgEpochs.admitEpoch, hrange]

/-- Admission of sessions.  In every run of any number of replicas on one database, with
restarts, and without a database in every run of one process:
a session is opened only by a hello that was checked, cleared and taken before, in this
order and each for its reason; the epochs taken for a host are strictly increasing; a hello
opens one session at most; a mark is an epoch that its host signed; and every error refuses
the session. -/
theorem session_admission (cfg : BridgeConfig fromDer) (durable : Bool)
    (events : List ClusterEvent) (hlasting : durable = true ∨ ∀ i, .restart i ∉ events) :
    let w := Cluster.run cfg (.empty durable) events
    (∀ event i host s,
      Opens (w.replicas i).bridge ((w.next cfg event).replicas i).bridge host s →
      ∃ c, (w.next cfg event).log = w.log ++ [AdmissionAct.opened i c] ∧ c.host.hostId = host ∧
        s.sid = c.hello.sid) ∧
    Justified (Warranted cfg.ca) w.log ∧
    (∀ host, (((takens w.log).filter fun t => t.2.host.hostId = host).map
      fun t => t.2.hello.epoch).Pairwise (· < ·)) ∧
    ((openeds w.log).map fun opening => opening.2.hello).Nodup ∧
    (∀ host m, w.epochs.mark host = some m → ∃ c : CheckedHello, c.Authentic cfg.ca ∧
      c.host.hostId = host ∧ m = c.hello.epoch.toNat) ∧
    FailsClosed cfg w := by
  intro w
  obtain ⟨hinv, -⟩ := AdmissionInv.run cfg durable events hlasting
  refine ⟨?_, hinv.warranted, ?_, hinv.hello_once, ?_, failsClosed cfg w⟩
  · intro event i host s hopens
    refine Cluster.opens_cases hinv (w.next_happens cfg event (.inr ?_)) hopens
    rintro j rfl
    exact not_opens_restart hopens
  · intro host
    rw [List.pairwise_map, List.pairwise_filter]
    refine hinv.increasing.imp fun {t t'} hlt ht ht' => hlt ?_
    exact (of_decide_eq_true ht).trans (of_decide_eq_true ht').symm
  · intro host m hm
    obtain ⟨i, c, hasked, hhost, hepoch⟩ := hinv.marks host m hm
    exact ⟨c, hinv.authentic_of_asked hasked, hhost, hepoch⟩

end Runs

/-! ## A sample of replays -/

/-- A replica takes up a hello of the sample host and both stores answer it. -/
def sampleHandle (i : Nat) (hello : ClientHello) : List ClusterEvent :=
  [.turn i sampleEnv (.message (Topics.hsUp sampleHost.toStr.text) ⟨some hello, none, none⟩),
    .isRevoked i .answered, .admitEpoch i .answered, .resume i]

/-- The sample host's hello with a later epoch. -/
def sampleLater : ClientHello :=
  { sampleHello with
    sid := Str.lit "t"
    sig := .signed ⟨1⟩ (clientTranscript (Str.lit "t").asBytes.bytes 2 sampleClientEph) 0
    epoch := 2 }

/-- A hello is answered by one replica, replayed to another, and replayed to the first after
a restart; a later hello gets through, and one after the revocation does not. -/
def sampleReplays : List ClusterEvent :=
  sampleHandle 0 sampleHello ++ sampleHandle 1 sampleHello ++ [ClusterEvent.restart 0] ++
    sampleHandle 0 sampleHello ++ sampleHandle 1 sampleLater ++
    [ClusterEvent.revoke sampleHost .answered, .restart 1] ++ sampleHandle 1 sampleLater

/-- The replays open no session. -/
theorem session_admission_replays :
    (openeds (Cluster.run sampleCfg (.empty true) sampleReplays).log).map
        (fun opening => (opening.1, opening.2.hello)) = [(0, sampleHello), (1, sampleLater)] ∧
      (((takens (Cluster.run sampleCfg (.empty true) sampleReplays).log).filter
        fun t => t.2.host.hostId = sampleHost).map fun t => t.2.hello.epoch).Pairwise (· < ·) := by
  have hopened : (openeds (Cluster.run sampleCfg (.empty true) sampleReplays).log).map
      (fun opening => (opening.1, opening.2.hello)) = [(0, sampleHello), (1, sampleLater)] := by
    decide +kernel
  exact ⟨hopened, (session_admission sampleCfg true sampleReplays (.inl rfl)).2.2.1 sampleHost⟩

end Coordinator
end OpenSsmAgent
