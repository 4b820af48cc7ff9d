import OpenSsmAgent.Agent.Nonces
import OpenSsmAgent.Coordinator.Nonces
import OpenSsmAgent.System.Fleet

/-!
# No nonce is used twice

Along every run of the fleet, no party ever calls {lit}`seal` twice with one key
and nonce, and the ciphertexts it sends are those of its calls.  The agents' side
holds for any dispatches a coordinator may send; the coordinator's side assumes the
operator service's fresh stream ids.

Main results:

- Theorem {lit}`nonces_unique`: along every run of the fleet, no party repeats a
  key and nonce, in a call or in a ciphertext.
- Theorem {lit}`fleetRun_agent`: in a run of the fleet, an agent runs on its own turns.
-/

open Framing SymbolicCrypto NonceLedger

namespace OpenSsmAgent
namespace System

open Seal Wire Domain Hs Proto Coordinator Agent

/-- The calls of {lit}`seal` by a party. -/
def callsBy : Party → List Deed → List SealCall
  | .coordinator, log => Coordinator.sealCalls (bridgeEffects log)
  | .agent i, log => Agent.sealCalls (agentEffects i log)

/-- The ephemerals a party sent in its hellos. -/
def ephsBy : Party → List Deed → List Blob
  | .coordinator, log => Coordinator.helloEphs (bridgeEffects log)
  | .agent i, log => Agent.helloEphs (agentEffects i log)

/-- The stream ids of the {lit}`OpenShell` commands. -/
def streamIds (events : List FleetEvent) : List Str :=
  events.filterMap (fun
    | .coordinator _ ev => ev.openedStream
    | _ => none)

/-- The keys and nonces of the ciphertexts a party handed to its publishers. -/
def wireBy : Party → List Deed → List (Option (Key × Bytes))
  | .coordinator, log => Coordinator.wire (bridgeEffects log)
  | .agent i, log => Agent.wire (agentEffects i log)

/-- The turns of one agent. -/
def agentTurns (i : Nat) (events : List FleetEvent) : List (AgentEnv × AgentEvent) :=
  events.filterMap (fun
    | .agent j env ev => if j = i then some (env, ev) else none
    | _ => none)

section Parties

variable {fromDer : FromDer} {cfg : BridgeConfig fromDer} {agentCfg : Nat → AgentConfig}

/-- In a run of the fleet, an agent runs on its own turns. -/
theorem fleetRun_agent (s : Fleet) (events : List FleetEvent) (i : Nat) :
    agentRun (agentCfg i) (s.agents i) (agentTurns i events) =
      ((fleetRun cfg agentCfg s events).1.agents i,
        agentEffects i (fleetRun cfg agentCfg s events).2) := by
  induction events generalizing s with
  | nil => rfl
  | cons ev events ih =>
      have hrest := ih (fleetStep cfg agentCfg s ev).1
      simp only [fleetRun, agentEffects_append]
      cases ev with
      | coordinator env ev =>
          simp only [fleetStep, agentEffects_coordinator, List.nil_append] at hrest ⊢
          exact hrest
      | coordinatorRestart => exact hrest
      | agent j env ev =>
          simp only [fleetStep, agentEffects_agent] at hrest ⊢
          by_cases hj : j = i
          · subst hj
            rw [Function.update_self] at hrest
            have hturns : agentTurns j (.agent j env ev :: events) =
                (env, ev) :: agentTurns j events := by
              simp [agentTurns]
            rw [hturns, if_pos rfl, agentRun, hrest]
          · rw [Function.update_of_ne (Ne.symm hj)] at hrest
            have hturns : agentTurns i (.agent j env ev :: events) = agentTurns i events := by
              simp [agentTurns, hj]
            rw [hturns, if_neg hj, List.nil_append, hrest]

/-- Along a run of the fleet the coordinator's calls stay a sound ledger. -/
theorem fleetRun_bridge_nonceInv {es : List Effect} {ids : List Str} {s : Fleet}
    {events : List FleetEvent} (h : Coordinator.NonceInv es ids s.bridge)
    (hephs : (Coordinator.helloEphs
      (es ++ bridgeEffects (fleetRun cfg agentCfg s events).2)).Nodup)
    (hids : (ids ++ streamIds events).Nodup) :
    Coordinator.NonceInv (es ++ bridgeEffects (fleetRun cfg agentCfg s events).2)
      (ids ++ streamIds events) (fleetRun cfg agentCfg s events).1.bridge := by
  induction events generalizing s es ids with
  | nil => simpa [fleetRun, streamIds, bridgeEffects] using h
  | cons ev events ih =>
      simp only [fleetRun, bridgeEffects_append] at hephs ⊢
      cases ev with
      | coordinator env ev =>
          have hsplit : streamIds (.coordinator env ev :: events) =
              ev.openedStream.toList ++ streamIds events := by
            cases hopen : ev.openedStream <;> simp [streamIds, hopen]
          rw [hsplit, ← List.append_assoc] at hids ⊢
          simp only [fleetStep, bridgeEffects_coordinator] at hephs ⊢
          rw [← List.append_assoc] at hephs ⊢
          refine ih (.acts (step_acts cfg env s.bridge ev) h ?_ ?_) hephs hids
          · rw [Coordinator.helloEphs_append] at hephs
            exact (List.nodup_append.mp hephs).1
          · exact (List.nodup_append.mp hids).1
      | coordinatorRestart => exact ih h.restart hephs hids
      | agent i env ev =>
          simp only [fleetStep, bridgeEffects_agent, List.nil_append] at hephs ⊢
          exact ih h hephs hids

/-- The log of a party with new ephemerals is a sound ledger, and the ciphertexts it
handed over are sealed in its calls, each in a call of its own. -/
theorem fleetRun_calls (events : List FleetEvent) (p : Party)
    (hephs : (ephsBy p (fleetRun cfg agentCfg Fleet.new events).2).Nodup)
    (hids : p = .coordinator → (streamIds events).Nodup) :
    ((callsBy p (fleetRun cfg agentCfg Fleet.new events).2).map SealCall.pair).Nodup ∧
      (wireBy p (fleetRun cfg agentCfg Fleet.new events).2).Subperm
        ((callsBy p (fleetRun cfg agentCfg Fleet.new events).2).map fun c => some c.keyNonce) := by
  cases p with
  | coordinator =>
      have hinv := fleetRun_bridge_nonceInv (s := Fleet.new) Coordinator.nonceInv_new hephs
        (hids rfl)
      refine ⟨hinv.ledger.nodup, ?_⟩
      rw [wireBy, ← List.nil_append (bridgeEffects _), hinv.wire]
      exact List.Subperm.refl _
  | agent i =>
      have hrun : agentEffects i (fleetRun cfg agentCfg Fleet.new events).2 =
          (agentRun (agentCfg i) Process.new (agentTurns i events)).2 :=
        congrArg Prod.snd (fleetRun_agent Fleet.new events i).symm
      simp only [ephsBy, callsBy, wireBy, hrun] at hephs ⊢
      obtain ⟨keysOf, hinv⟩ := agentRun_nonceInv
        (Agent.nonceInv_new fun _ => ⟨.extract [] s(0, 0), .extract [] s(0, 0)⟩) hephs
      refine ⟨hinv.ledger.nodup, List.subperm_ext_iff.mpr ?_⟩
      intro kn _
      exact (Nat.le_add_right _ _).trans (agentRun_backed Agent.backed_new kn)

end Parties

/-- Along every run of the fleet, a party whose hellos carry new ephemerals never
calls {lit}`seal` twice with one key and nonce, as long as no allocator runs past the
sequence space.  The coordinator needs new stream ids for its shells; an agent needs
nothing of the ids it is sent.  The ciphertexts the party hands over are sealed in
these calls, each in a call of its own, so no two of them share a key and nonce. -/
theorem nonces_unique {fromDer : FromDer} (cfg : BridgeConfig fromDer)
    (agentCfg : Nat → AgentConfig) (events : List FleetEvent) (p : Party)
    (hephs : (ephsBy p (fleetRun cfg agentCfg Fleet.new events).2).Nodup)
    (hids : p = .coordinator → (streamIds events).Nodup)
    (hcount : ∀ c ∈ callsBy p (fleetRun cfg agentCfg Fleet.new events).2, c.count < 2 ^ 64) :
    ((callsBy p (fleetRun cfg agentCfg Fleet.new events).2).map SealCall.keyNonce).Nodup ∧
      (wireBy p (fleetRun cfg agentCfg Fleet.new events).2).Subperm
        ((callsBy p (fleetRun cfg agentCfg Fleet.new events).2).map fun c => some c.keyNonce) ∧
      (wireBy p (fleetRun cfg agentCfg Fleet.new events).2).Nodup := by
  obtain ⟨hpairs, hwire⟩ := fleetRun_calls events p hephs hids
  have hcalls := SealCall.nodup_keyNonce hpairs hcount
  refine ⟨hcalls, hwire, ?_⟩
  -- the calls differ pairwise, and no key and nonce is on the wire more often than called
  have hsome := hcalls.map (Option.some_injective _)
  rw [List.map_map] at hsome
  obtain ⟨l, hperm, hsub⟩ := hwire
  exact hperm.nodup_iff.mp (hsub.nodup hsome)

/-- A shell is opened and typed into; the agent is sent the shell's dispatch twice,
and both pumps' output is asked for. -/
def sampleShellRun : List FleetEvent :=
  let host := sampleHost.toStr.text
  let dispatch := Dispatch.encode ⟨Str.lit "t", Str.lit "shell", default, default⟩
  sampleHandshake ++
  [smoothTurn (.command (.openShell sampleHost (Str.lit "t") default 0 0 0)),
    smoothAgentTurn
      (.publish (Topics.dispatchDown host) (envelopePayload (sampleDownlink 1 dispatch))),
    smoothAgentTurn
      (.publish (Topics.dispatchDown host) (envelopePayload (sampleDownlink 2 dispatch))),
    smoothAgentTurn (.pumpSends 0 ⟨default, false⟩),
    smoothAgentTurn (.pumpSends 1 ⟨default, false⟩),
    smoothTurn (.command (.shellInput sampleHost (Str.lit "t") default))]

def sampleShellLog : List Deed :=
  (fleetRun sampleCfg (fun _ => sampleAgentCfg) Fleet.new sampleShellRun).2

theorem nonces_unique_sample :
    (wireBy .coordinator sampleShellLog).length = 3 ∧
      (wireBy (.agent 0) sampleShellLog).length = 2 ∧
      ∀ p ∈ [Party.coordinator, .agent 0],
        ((callsBy p sampleShellLog).map SealCall.keyNonce).Nodup ∧
          (wireBy p sampleShellLog).Subperm
            ((callsBy p sampleShellLog).map fun c => some c.keyNonce) ∧
          (wireBy p sampleShellLog).Nodup := by
  -- the second dispatch opens no second pump, so the agent seals twice
  have hlog : (wireBy .coordinator sampleShellLog).length = 3 ∧
      (wireBy (.agent 0) sampleShellLog).length = 2 ∧
      ∀ p ∈ [Party.coordinator, .agent 0], (ephsBy p sampleShellLog).Nodup ∧
        ∀ c ∈ callsBy p sampleShellLog, c.count < 2 ^ 64 := by
    decide +kernel
  refine ⟨hlog.1, hlog.2.1, ?_⟩
  intro p hp
  exact nonces_unique sampleCfg (fun _ => sampleAgentCfg) sampleShellRun p (hlog.2.2 p hp).1
    (fun _ => by decide +kernel) (hlog.2.2 p hp).2

end System
end OpenSsmAgent
