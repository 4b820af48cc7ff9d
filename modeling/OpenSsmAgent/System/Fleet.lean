import OpenSsmAgent.Agent.ControlChannel
import OpenSsmAgent.Coordinator.Bridge

/-!
# The fleet

The coordinator's bridge and any number of agent processes side by side.  Each
step is taken by one of them; every message between them is in the hands of the
broker, so that a step may be handed any payload.
-/

open Framing SymbolicCrypto

namespace OpenSsmAgent
namespace System

open Seal Wire Domain Hs Proto Coordinator Agent

/-! ## Joint runs -/

/-- A party that seals. -/
inductive Party where
  | coordinator
  | agent (i : Nat)
deriving DecidableEq

/-- The coordinator's bridge and the agent processes. -/
structure Fleet where
  bridge : Bridge
  agents : Nat → Process

/-- Everything as it starts. -/
def Fleet.new : Fleet := ⟨Bridge.new, fun _ => Process.new⟩

/-- One party takes a step, or the coordinator starts again.  (An agent's restart
is one of its own steps.) -/
inductive FleetEvent where
  | coordinator (env : StepEnv) (ev : BridgeEvent)
  | coordinatorRestart
  | agent (i : Nat) (env : AgentEnv) (ev : AgentEvent)

/-- What a party did. -/
inductive Deed where
  | coordinator (e : Effect)
  | agent (i : Nat) (e : AgentEffect)

/-- The effects of the coordinator. -/
def bridgeEffects (log : List Deed) : List Effect :=
  log.filterMap (fun
    | .coordinator e => some e
    | .agent _ _ => none)

/-- The effects of one agent. -/
def agentEffects (i : Nat) (log : List Deed) : List AgentEffect :=
  log.filterMap (fun
    | .coordinator _ => none
    | .agent j e => if j = i then some e else none)

section Runs

variable {fromDer : FromDer} (cfg : BridgeConfig fromDer) (agentCfg : Nat → AgentConfig)

/-- One step of the fleet. -/
def fleetStep (s : Fleet) : FleetEvent → Fleet × List Deed
  | .coordinator env ev =>
      ({ s with bridge := (step cfg env s.bridge ev).1 },
        (step cfg env s.bridge ev).2.map Deed.coordinator)
  | .coordinatorRestart => ({ s with bridge := Bridge.new }, [])
  | .agent i env ev =>
      ({ s with
        agents := Function.update s.agents i (agentStep (agentCfg i) env (s.agents i) ev).1 },
        (agentStep (agentCfg i) env (s.agents i) ev).2.map (Deed.agent i))

/-- A run of the fleet: the last state and all deeds in order. -/
def fleetRun (s : Fleet) : List FleetEvent → Fleet × List Deed
  | [] => (s, [])
  | ev :: events =>
      let here := fleetStep cfg agentCfg s ev
      let later := fleetRun here.1 events
      (later.1, here.2 ++ later.2)

end Runs

theorem bridgeEffects_append (log log' : List Deed) :
    bridgeEffects (log ++ log') = bridgeEffects log ++ bridgeEffects log' :=
  List.filterMap_append

theorem agentEffects_append (i : Nat) (log log' : List Deed) :
    agentEffects i (log ++ log') = agentEffects i log ++ agentEffects i log' :=
  List.filterMap_append

@[simp] theorem bridgeEffects_coordinator (es : List Effect) :
    bridgeEffects (es.map Deed.coordinator) = es := by
  simp [bridgeEffects, List.filterMap_map]

@[simp] theorem bridgeEffects_agent (i : Nat) (es : List AgentEffect) :
    bridgeEffects (es.map (Deed.agent i)) = [] := by
  simp [bridgeEffects, List.filterMap_map]

@[simp] theorem agentEffects_coordinator (i : Nat) (es : List Effect) :
    agentEffects i (es.map Deed.coordinator) = [] := by
  simp [agentEffects, List.filterMap_map]

/-- An agent has its own effects. -/
theorem agentEffects_agent (i j : Nat) (es : List AgentEffect) :
    agentEffects i (es.map (Deed.agent j)) = if j = i then es else [] := by
  split_ifs with h <;> simp [agentEffects, List.filterMap_map, h]

/-! ## A sample session

One enrolled host with its agent, and the messages of an undisturbed handshake. -/

def sampleAgentCfg : AgentConfig := ⟨sampleHost.toStr, ⟨[Str.lit "*"], [Str.lit "*"]⟩⟩

def sampleIdentity : AgentIdentity := ⟨sampleHost.toStr, some ⟨1⟩, sampleCertDer, .ofKey ⟨0⟩⟩

/-- A turn of the coordinator in which nothing fails. -/
def smoothTurn (ev : BridgeEvent) : FleetEvent :=
  .coordinator sampleEnv ev

def sampleAgentEnv : AgentEnv :=
  ⟨fun _ => true, fun _ _ => true, fun _ _ _ => true, true, true⟩

/-- A turn of the agent in which nothing fails. -/
def smoothAgentTurn (ev : AgentEvent) : FleetEvent :=
  .agent 0 sampleAgentEnv ev

/-- Connect, exchange hellos, confirm the session. -/
def sampleHandshake : List FleetEvent :=
  let host := sampleHost.toStr.text
  [smoothAgentTurn (.connect sampleIdentity),
    smoothAgentTurn (.connAck (some 1) sampleSid (some sampleClientEph)),
    smoothTurn (.message (Topics.hsUp host) ⟨some sampleHello, none, none⟩),
    smoothAgentTurn (.publish (Topics.hsDown host) ⟨none, some sampleAnswer, none⟩),
    smoothAgentTurn
      (.publish (Topics.ctrlDown host) (envelopePayload (sampleDownlink 0 ctrlSessionReady)))]

/-- The fleet after the sample handshake. -/
def sampleFleet : Fleet :=
  (fleetRun sampleCfg (fun _ => sampleAgentCfg) Fleet.new sampleHandshake).1

example : (sampleFleet.bridge.sessions.get sampleHost).map (·.keys) = some sampleKeys ∧
    ((sampleFleet.agents 0).conn.bind (·.session)).map (·.keys) = some sampleKeys := by
  decide +kernel

end System
end OpenSsmAgent
