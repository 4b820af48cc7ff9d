import OpenSsmAgent.Coordinator.BridgeActs
import OpenSsmAgent.Lib.NonceLedger

/-!
# Nonces of the coordinator

The allocators of the bridge are its sessions and its shell routes.  A session's
key is new because the ephemeral in its answer is; a route's key is new because
its stream id is.

Main results:

- Theorem {lit}`NonceInv.acts`: a turn keeps the calls of {lit}`seal` a sound ledger,
  and its envelopes are sealed in these calls.
-/

open Framing SymbolicCrypto NonceLedger

namespace OpenSsmAgent
namespace Coordinator

open Seal Wire Domain Hs Proto

/-! ## Calls, hellos and stream ids of a run -/

/-- The calls of {lit}`seal` among some effects. -/
def sealCalls (es : List Effect) : List SealCall :=
  es.filterMap (fun
    | .sealed call => some call
    | _ => none)

/-- The ephemerals with which hellos were answered. -/
def helloEphs (es : List Effect) : List Blob :=
  es.filterMap (fun
    | .published _ (.serverHello hello) _ => some hello.serverEph
    | _ => none)

/-- The stream id of an {lit}`OpenShell` command. -/
def BridgeEvent.openedStream : BridgeEvent → Option Str
  | .command (.openShell _ streamId _ _ _ _) => some streamId
  | _ => none

/-- The keys and nonces of the envelopes that were handed to the broker. -/
def wire (es : List Effect) : List (Option (Key × Bytes)) :=
  es.filterMap (fun
    | .published _ (.envelope e) _ => some e.ciphertext.keyNonce
    | _ => none)

/-- The calls of two lists of effects. -/
theorem sealCalls_append (es es' : List Effect) :
    sealCalls (es ++ es') = sealCalls es ++ sealCalls es' :=
  List.filterMap_append

/-- The hellos of two lists of effects. -/
theorem helloEphs_append (es es' : List Effect) :
    helloEphs (es ++ es') = helloEphs es ++ helloEphs es' :=
  List.filterMap_append

/-- The envelopes of two lists of effects. -/
theorem wire_append (es es' : List Effect) : wire (es ++ es') = wire es ++ wire es' :=
  List.filterMap_append

/-- Quiet effects hold no call, no hello and no envelope. -/
theorem of_quiet {es : List Effect} (h : ∀ e ∈ es, e.quiet = true) :
    sealCalls es = [] ∧ helloEphs es = [] ∧ wire es = [] := by
  refine ⟨?_, ?_, ?_⟩ <;> refine List.filterMap_eq_nil_iff.mpr fun e he => ?_ <;>
    have hquiet := h e he <;> cases e <;> simp_all [Effect.quiet]

/-! ## The allocators of the bridge -/

/-- The allocators: one per session, one per shell route. -/
def Bridge.allocators (b : Bridge) : Allocators (HostId ⊕ HostId) Key
  | .inl host => (b.sessions.get host).map (fun s => (s.keys.key .coordToAgent, s.sendSeq))
  | .inr host => (b.shells.lookup host).map (fun r => (r.streamKeys.key .coordToAgent, r.sendSeq))

theorem allocators_setSession (b : Bridge) (host : HostId) (s : Session) :
    (b.setSession host s).allocators =
      Function.update b.allocators (.inl host) (some (s.keys.key .coordToAgent, s.sendSeq)) := by
  funext a
  rcases a with other | other
  · by_cases h : other = host
    · subst h
      simp [Bridge.allocators, Bridge.setSession]
    · simp [Bridge.allocators, Bridge.setSession, SessionStore.get_set, h]
  · simp [Bridge.allocators, Bridge.setSession]

theorem allocators_setRoute (b : Bridge) (host : HostId) (r : ShellRoute) :
    (b.setRoute host r).allocators =
      Function.update b.allocators (.inr host)
        (some (r.streamKeys.key .coordToAgent, r.sendSeq)) := by
  funext a
  rcases a with other | other
  · simp [Bridge.allocators, Bridge.setRoute]
  · by_cases h : other = host
    · subst h
      simp [Bridge.allocators, Bridge.setRoute]
    · simp [Bridge.allocators, Bridge.setRoute, Table.lookup_put, h]

theorem allocators_dropRoute (b : Bridge) (host : HostId) :
    (b.dropRoute host).allocators = Function.update b.allocators (.inr host) none := by
  funext a
  rcases a with other | other
  · simp [Bridge.allocators, Bridge.dropRoute]
  · by_cases h : other = host
    · subst h
      simp [Bridge.allocators, Bridge.dropRoute, Table.lookup_drop]
    · simp [Bridge.allocators, Bridge.dropRoute, Table.lookup_drop, h]

theorem allocators_session {b : Bridge} {host : HostId} {s : Session}
    (h : b.sessions.get host = some s) :
    b.allocators (.inl host) = some (s.keys.key .coordToAgent, s.sendSeq) := by
  simp [Bridge.allocators, h]

theorem allocators_route {b : Bridge} {host : HostId} {r : ShellRoute}
    (h : b.shells.lookup host = some r) :
    b.allocators (.inr host) = some (r.streamKeys.key .coordToAgent, r.sendSeq) := by
  simp [Bridge.allocators, h]

/-! ## The invariant -/

/-- A downlink key that was born: a session key whose answer carried one of the
ephemerals, or a stream key of one of the stream ids. -/
inductive Born (ephs : List Blob) (ids : List Str) : Key → Prop
  | session {p q : Point} {keys : SessionKeys} (h : SessionKeysOf p q keys)
      (hmem : ofPoint q ∈ ephs) : Born ephs ids (keys.key .coordToAgent)
  | route {keys : SessionKeys} {streamId : Str} (hmem : streamId ∈ ids) :
      Born ephs ids ((keys.deriveStream streamId.bytes).key .coordToAgent)

theorem Born.mono {ephs ephs' : List Blob} {ids ids' : List Str} {k : Key}
    (h : Born ephs ids k) (hephs : ephs ⊆ ephs') (hids : ids ⊆ ids') : Born ephs' ids' k := by
  cases h with
  | session hkeys hmem => exact .session hkeys (hephs hmem)
  | route hmem => exact .route (hids hmem)

theorem not_born_session {ephs : List Blob} {ids : List Str} {p q : Point} {keys : SessionKeys}
    (h : SessionKeysOf p q keys) (hfresh : ofPoint q ∉ ephs) :
    ¬ Born ephs ids (keys.key .coordToAgent) := by
  intro hborn
  generalize heq : keys.key .coordToAgent = k at hborn
  cases hborn with
  | session hkeys hmem =>
      obtain ⟨-, rfl, -, -⟩ := h.key_inj hkeys heq
      exact hfresh hmem
  | route hmem => exact h.key_ne_stream _ _ _ heq

theorem not_born_route {ephs : List Blob} {ids : List Str} {keys : SessionKeys} {streamId : Str}
    (hfresh : streamId ∉ ids) :
    ¬ Born ephs ids ((keys.deriveStream streamId.bytes).key .coordToAgent) := by
  intro hborn
  generalize heq : (keys.deriveStream streamId.bytes).key .coordToAgent = k at hborn
  cases hborn with
  | session hkeys hmem => exact hkeys.key_ne_stream _ _ _ heq.symm
  | route hmem =>
      obtain ⟨-, hid⟩ := SessionKeys.deriveStream_key_inj heq
      exact hfresh (Str.bytes_injective hid ▸ hmem)

/-- The calls so far form a sound ledger, every key seen was born, and the envelopes
were sealed in these calls. -/
structure NonceInv (es : List Effect) (ids : List Str) (b : Bridge) : Prop where
  ledger : Ledger b.allocators ((sealCalls es).map SealCall.pair)
  born : ∀ k, Seen b.allocators ((sealCalls es).map SealCall.pair) k → Born (helloEphs es) ids k
  wire : wire es = (sealCalls es).map fun call => some call.keyNonce

theorem nonceInv_new : NonceInv [] [] Bridge.new where
  ledger := by
    convert Ledger.empty using 1
    · funext a
      rcases a with host | host <;> rfl
    · rfl
  born := by
    rintro k (⟨m, hm⟩ | ⟨a, n, ha⟩)
    · simp [sealCalls] at hm
    · rcases a with host | host <;> cases ha
  wire := rfl

section Invariant

variable {fromDer : FromDer} {cfg : BridgeConfig fromDer} {env : StepEnv} {ev : BridgeEvent}
  {b b' : Bridge} {es es' : List Effect} {ids ids' : List Str}

theorem NonceInv.mono (h : NonceInv es ids b) (hids : ids ⊆ ids') : NonceInv es ids' b where
  ledger := h.ledger
  born := fun k hk => (h.born k hk).mono (List.Subset.refl _) hids
  wire := h.wire

/-- A new bridge keeps the log and starts with no allocator. -/
theorem NonceInv.restart (h : NonceInv es ids b) : NonceInv es ids Bridge.new := by
  have hnone : Bridge.new.allocators = fun _ => none := by
    funext a
    rcases a with host | host <;> rfl
  refine ⟨?_, ?_, h.wire⟩
  · rw [hnone]
    exact h.ledger.closeAll
  · rw [hnone]
    exact fun k hk => h.born k (seen_closeAll hk)

/-- Quiet effects and untouched allocators keep the invariant. -/
theorem NonceInv.quiet (h : NonceInv es ids b) (hquiet : ∀ e ∈ es', e.quiet = true)
    (hsame : b'.allocators = b.allocators) : NonceInv (es ++ es') ids b' := by
  obtain ⟨hcalls, hephs, hwire⟩ := of_quiet hquiet
  constructor
  · rw [sealCalls_append, hcalls, List.append_nil, hsame]
    exact h.ledger
  · rw [sealCalls_append, hcalls, helloEphs_append, hephs, List.append_nil, List.append_nil, hsame]
    exact h.born
  · rw [sealCalls_append, hcalls, wire_append, hwire, List.append_nil, List.append_nil]
    exact h.wire

/-- An allocation and the envelope sealed with it keep the invariant. -/
theorem NonceInv.take (h : NonceInv es ids b) {a : HostId ⊕ HostId} {call : SealCall}
    (hlive : b.allocators a = some call.pair)
    (hnext : b'.allocators = Function.update b.allocators a (some (call.key, call.count + 1)))
    (hcalls : sealCalls es' = [call]) (hephs : helloEphs es' = [])
    (hwire : Coordinator.wire es' = [some call.keyNonce]) : NonceInv (es ++ es') ids b' := by
  have hpairs : (sealCalls (es ++ es')).map SealCall.pair =
      (sealCalls es).map SealCall.pair ++ [(call.key, call.count)] := by
    rw [sealCalls_append, hcalls, List.map_append]
    rfl
  constructor
  · rw [hpairs, hnext]
    exact h.ledger.take hlive
  · rw [hpairs, helloEphs_append, hephs, List.append_nil, hnext]
    intro k hk
    exact h.born k (seen_take hlive hk)
  · rw [wire_append, hwire, sealCalls_append, hcalls, List.map_append, h.wire]
    rfl

/-- Dropping a route keeps the invariant. -/
theorem NonceInv.dropRoute (h : NonceInv es ids b) (host : HostId) :
    NonceInv es ids (b.dropRoute host) := by
  constructor
  · rw [allocators_dropRoute]
    exact h.ledger.close _
  · rw [allocators_dropRoute]
    intro k hk
    exact h.born k (seen_close hk)
  · exact h.wire

/-- A new allocator on a key that was not born keeps the invariant. -/
theorem NonceInv.start (h : NonceInv es ids b) {a : HostId ⊕ HostId} {k : Key}
    (hfresh : ¬ Born (helloEphs es) ids k) (hcalls : sealCalls es' = [])
    (hwire : Coordinator.wire es' = []) (hids : ids ⊆ ids')
    (hborn : Born (helloEphs (es ++ es')) ids' k)
    (hnext : b'.allocators = Function.update b.allocators a (some (k, 0))) :
    NonceInv (es ++ es') ids' b' := by
  have hcalls : sealCalls (es ++ es') = sealCalls es := by
    rw [sealCalls_append, hcalls, List.append_nil]
  constructor
  · rw [hcalls, hnext]
    exact h.ledger.start a (fun hk => hfresh (h.born k hk))
  · rw [hcalls, hnext]
    intro k' hk'
    rcases seen_start hk' with rfl | hold
    · exact hborn
    · refine (h.born k' hold).mono ?_ hids
      rw [helloEphs_append]
      exact List.subset_append_left _ _
  · rw [hcalls, wire_append, hwire, List.append_nil]
    exact h.wire

/-- An act keeps the invariant. -/
theorem NonceInv.act (h : NonceInv es ids b) (hact : Act b es' b') :
    NonceInv (es ++ es') ids b' := by
  cases hact with
  | tell hquiet => exact h.quiet hquiet rfl
  | beat lastSeen => exact h.quiet nofun rfl
  | addJob => exact h.quiet nofun rfl
  | dropJob key => exact h.quiet nofun rfl
  | retainJobs keep => exact h.quiet nofun rfl
  | sealSession hget _ _ _ _ =>
      exact h.take (allocators_session hget) (allocators_setSession _ _ _) rfl rfl rfl
  | readSession hget e =>
      refine h.quiet nofun ?_
      rw [allocators_setSession]
      exact Function.update_eq_self_iff.mpr (allocators_session hget).symm
  | sealRoute hget _ _ _ _ =>
      exact h.take (allocators_route hget) (allocators_setRoute _ _ _) rfl rfl rfl
  | readRoute hget e =>
      refine h.quiet nofun ?_
      rw [allocators_setRoute]
      exact Function.update_eq_self_iff.mpr (allocators_route hget).symm
  | dropRoute host =>
      rw [List.append_nil]
      exact h.dropRoute host

/-- A birth keeps the invariant if its ephemeral or its stream id is new. -/
theorem NonceInv.birth (h : NonceInv es ids b) (hbirth : Birth cfg env ev b es' b')
    (hephs : (helloEphs (es ++ es')).Nodup) (hids : (ids ++ ev.openedStream.toList).Nodup) :
    NonceInv (es ++ es') (ids ++ ev.openedStream.toList) b' := by
  cases hbirth with
  | session hcheck hresp hroom =>
      rename_i c resp
      have hkeys := c.sessionKeysOf hresp
      rw [helloEphs_append] at hephs
      refine h.start (a := .inl c.host.hostId) (k := resp.keys.key .coordToAgent)
        (not_born_session hkeys ?_) rfl rfl (List.subset_append_left _ _) (.session hkeys ?_)
        (allocators_setSession _ _ _)
      · intro hmem
        exact (List.disjoint_of_nodup_append hephs) hmem (List.mem_singleton_self _)
      · rw [helloEphs_append]
        exact List.mem_append_right _ (List.mem_singleton_self _)
  | route hsession =>
      rename_i host streamId runAs rows cols output s
      refine h.start (a := .inr host)
        (k := (s.deriveStreamKeys streamId.bytes).key .coordToAgent)
        (not_born_route ?_) rfl rfl (List.subset_append_left _ _) (.route ?_)
        (allocators_setRoute _ _ _)
      · intro hmem
        exact (List.disjoint_of_nodup_append hids) hmem (List.mem_singleton_self _)
      · exact List.mem_append_right _ (List.mem_singleton_self _)

/-- The acts of a turn keep the invariant; until the birth, its stream id does not
count. -/
theorem NonceInv.acts {flag : Bool} (hacts : Acts cfg env ev flag b es' b')
    (h : NonceInv es (if flag then ids else ids ++ ev.openedStream.toList) b)
    (hephs : (helloEphs (es ++ es')).Nodup) (hids : (ids ++ ev.openedStream.toList).Nodup) :
    NonceInv (es ++ es') (ids ++ ev.openedStream.toList) b' := by
  induction hacts generalizing es with
  | nil =>
      rw [List.append_nil]
      refine h.mono ?_
      split
      · exact List.subset_append_left _ _
      · exact List.Subset.refl _
  | act hact _ ih =>
      rw [← List.append_assoc] at hephs ⊢
      exact ih (h.act hact) hephs
  | birth hbirth _ ih =>
      rw [← List.append_assoc] at hephs ⊢
      refine ih (h.birth hbirth ?_ hids) hephs
      rw [helloEphs_append] at hephs
      exact (List.nodup_append.mp hephs).1

/-- The stream ids opened in some turns. -/
def openedStreams (turns : List (StepEnv × BridgeEvent)) : List Str :=
  turns.filterMap (fun turn => turn.2.openedStream)

end Invariant

end Coordinator
end OpenSsmAgent
