import OpenSsmAgent.Agent.Moves
import OpenSsmAgent.Lib.NonceLedger

/-!
# Nonces of the agent

The allocators of an agent process are the cells of its sessions, each shared by
the session and the job tasks spawned under it, and the counters of its uplink
pumps.  A session's key is new because the ephemeral in its hello is, and a
handshake is finished at most once.  A pump's key is new because the connection
refuses a stream id it has used: nothing is assumed of the ids the coordinator
sends.

Main results:

- Theorem {lit}`agentRun_nonceInv`: along every run the calls of {lit}`seal` form
  a sound ledger.
- Theorem {lit}`agentRun_backed`: every envelope of a run was sealed in a call of its
  own.
-/

open Framing SymbolicCrypto NonceLedger

namespace OpenSsmAgent
namespace Agent

open Seal Wire Proto Hs

/-! ## Calls and hellos of a run -/

/-- The calls of {lit}`seal` among some effects. -/
def sealCalls (es : List AgentEffect) : List SealCall :=
  es.filterMap (fun
    | .sealed call => some call
    | _ => none)

/-- The ephemerals of the hellos that were sent. -/
def helloEphs (es : List AgentEffect) : List Blob :=
  es.filterMap (fun
    | .published _ (.clientHello hello) _ => some hello.clientEph
    | _ => none)

/-- The keys and nonces of the envelopes that were handed to a publisher. -/
def wire (es : List AgentEffect) : List (Option (Key × Bytes)) :=
  es.filterMap (fun
    | .published _ (.envelope e) _ => some e.ciphertext.keyNonce
    | .queued _ e => some e.ciphertext.keyNonce
    | _ => none)

/-- The calls of two lists of effects. -/
theorem sealCalls_append (es es' : List AgentEffect) :
    sealCalls (es ++ es') = sealCalls es ++ sealCalls es' :=
  List.filterMap_append

/-- The hellos of two lists of effects. -/
theorem helloEphs_append (es es' : List AgentEffect) :
    helloEphs (es ++ es') = helloEphs es ++ helloEphs es' :=
  List.filterMap_append

/-- The envelopes of two lists of effects. -/
theorem wire_append (es es' : List AgentEffect) : wire (es ++ es') = wire es ++ wire es' :=
  List.filterMap_append

/-! ## The allocators of the process -/

/-- The allocators: one per session cell, under the keys the cell was made for, and
one per pump. -/
def Process.allocators (a : Process) (keysOf : Nat → SessionKeys) : Allocators (Nat ⊕ Nat) Key
  | .inl cell => a.cells[cell]?.map (fun n => ((keysOf cell).key .agentToCoord, n))
  | .inr task => (a.pumps.lookup task).map (fun p => (p.keys.key .agentToCoord, p.seq))

section Allocators

variable {a a' : Process} {keysOf : Nat → SessionKeys}

theorem allocators_congr (hcells : a'.cells = a.cells) (hpumps : a'.pumps = a.pumps) :
    a'.allocators keysOf = a.allocators keysOf := by
  funext x
  rcases x with cell | task <;> simp [Process.allocators, hcells, hpumps]

theorem allocators_cell {cell : Nat} (h : cell < a.cells.length) :
    a.allocators keysOf (.inl cell) = some ((keysOf cell).key .agentToCoord, a.count cell) := by
  simp [Process.allocators, Process.count, h]

theorem allocators_setCount {cell : Nat} (h : cell < a.cells.length) (n : Nat) :
    (a.setCount cell n).allocators keysOf =
      Function.update (a.allocators keysOf) (.inl cell)
        (some ((keysOf cell).key .agentToCoord, n)) := by
  funext x
  rcases x with other | other
  · by_cases heq : other = cell
    · subst heq
      simp [Process.allocators, Process.setCount, h]
    · simp [Process.allocators, Process.setCount, heq, Ne.symm heq]
  · simp [Process.allocators, Process.setCount]

/-- A new cell, made for new keys. -/
theorem allocators_newCell (a : Process) (keysOf : Nat → SessionKeys) (keys : SessionKeys) :
    { a with cells := a.cells ++ [0] }.allocators (Function.update keysOf a.cells.length keys) =
      Function.update (a.allocators keysOf) (.inl a.cells.length)
        (some (keys.key .agentToCoord, 0)) := by
  funext x
  rcases x with other | other
  · rcases Nat.lt_trichotomy other a.cells.length with hlt | rfl | hgt
    · simp [Process.allocators, List.getElem?_append_left hlt, hlt.ne]
    · simp [Process.allocators]
    · have hnew : (a.cells ++ [0])[other]? = none := List.getElem?_eq_none (by simpa using hgt)
      have hold : a.cells[other]? = none := List.getElem?_eq_none hgt.le
      simp [Process.allocators, hnew, hold, hgt.ne']
  · simp [Process.allocators]

theorem allocators_putPump (a : Process) (keysOf : Nat → SessionKeys) (task : Nat)
    (p : UplinkPump) :
    { a with pumps := a.pumps.put task p }.allocators keysOf =
      Function.update (a.allocators keysOf) (.inr task)
        (some (p.keys.key .agentToCoord, p.seq)) := by
  funext x
  rcases x with other | other
  · simp [Process.allocators]
  · by_cases heq : other = task
    · subst heq
      simp [Process.allocators]
    · simp [Process.allocators, Table.lookup_put, heq]

theorem allocators_dropPump (a : Process) (keysOf : Nat → SessionKeys) (task : Nat) :
    { a with pumps := a.pumps.drop task }.allocators keysOf =
      Function.update (a.allocators keysOf) (.inr task) none := by
  funext x
  rcases x with other | other
  · simp [Process.allocators]
  · by_cases heq : other = task
    · subst heq
      simp [Process.allocators, Table.lookup_drop]
    · simp [Process.allocators, Table.lookup_drop, heq]

theorem allocators_pump {task : Nat} {p : UplinkPump} (h : a.pumps.lookup task = some p) :
    a.allocators keysOf (.inr task) = some (p.keys.key .agentToCoord, p.seq) := by
  simp [Process.allocators, h]

end Allocators

/-! ## The invariant -/

/-- An uplink key that goes back to a handshake with this client ephemeral. -/
def UplinkKeyOf (p : Point) (k : Key) : Prop :=
  ∃ (q : Point) (keys : SessionKeys), SessionKeysOf p q keys ∧
    (k = keys.key .agentToCoord ∨
      ∃ streamId : Str, k = (keys.deriveStream streamId.bytes).key .agentToCoord)

theorem UplinkKeyOf.session {p q : Point} {keys : SessionKeys} (h : SessionKeysOf p q keys) :
    UplinkKeyOf p (keys.key .agentToCoord) :=
  ⟨q, keys, h, Or.inl rfl⟩

theorem UplinkKeyOf.stream {p q : Point} {keys : SessionKeys} (h : SessionKeysOf p q keys)
    (streamId : Str) : UplinkKeyOf p ((keys.deriveStream streamId.bytes).key .agentToCoord) :=
  ⟨q, keys, h, Or.inr ⟨streamId, rfl⟩⟩

/-- An uplink key goes back to one handshake only. -/
theorem UplinkKeyOf.inj {p p' : Point} {k : Key} (h : UplinkKeyOf p k) (h' : UplinkKeyOf p' k) :
    p = p' := by
  obtain ⟨q, keys, hkeys, hk⟩ := h
  obtain ⟨q', keys', hkeys', hk'⟩ := h'
  rcases hk with rfl | ⟨s, rfl⟩ <;> rcases hk' with heq | ⟨t, heq⟩
  · exact (hkeys.key_inj hkeys' heq).1
  · exact absurd heq (hkeys.key_ne_stream _ _ _)
  · exact absurd heq.symm (hkeys'.key_ne_stream _ _ _)
  · exact (hkeys.key_inj hkeys' (SessionKeys.deriveStream_key_inj heq).1).1

/-- The connection's part: an unfinished handshake has made no key yet, the session
holds the keys its cell was made for, and every stream key of the session belongs
to a stream id the connection has used. -/
structure ConnInv (seen : Key → Prop) (ephs : List Blob) (keysOf : Nat → SessionKeys)
    (cells : Nat) (conn : Connection) : Prop where
  handshake : ∀ hs, conn.handshaking = some hs → ofPoint hs.initiator.eph.public ∈ ephs ∧
    ∀ k, seen k → ¬ UplinkKeyOf hs.initiator.eph.public k
  cell : ∀ est, conn.session = some est → est.cell < cells ∧ keysOf est.cell = est.keys
  keys : ∀ est, conn.session = some est →
    ∃ p q, ofPoint p ∈ ephs ∧ SessionKeysOf p q est.keys
  streams : ∀ est, conn.session = some est → ∀ streamId : Str,
    seen ((est.keys.deriveStream streamId.bytes).key .agentToCoord) →
      streamId ∈ conn.usedStreamIds

/-- The keys that were used or are held by an allocator. -/
def Process.saw (a : Process) (keysOf : Nat → SessionKeys) (es : List AgentEffect) : Key → Prop :=
  Seen (a.allocators keysOf) ((sealCalls es).map SealCall.pair)

/-- The calls so far form a sound ledger, every key seen goes back to a hello, and
tasks and connection hold the keys their cells were made for. -/
structure NonceInv (es : List AgentEffect) (keysOf : Nat → SessionKeys) (a : Process) : Prop where
  ledger : Ledger (a.allocators keysOf) ((sealCalls es).map SealCall.pair)
  origin : ∀ k, a.saw keysOf es k → ∃ p, ofPoint p ∈ helloEphs es ∧ UplinkKeyOf p k
  jobs : ∀ task job, a.jobs.lookup task = some job →
    job.cell < a.cells.length ∧ keysOf job.cell = job.keys
  conn : ∀ conn, a.conn = some conn →
    ConnInv (a.saw keysOf es) (helloEphs es) keysOf a.cells.length conn

theorem nonceInv_new (keysOf : Nat → SessionKeys) : NonceInv [] keysOf Process.new where
  ledger := by
    convert Ledger.empty using 1
    · funext x
      rcases x with cell | task <;> rfl
    · rfl
  origin := by
    rintro k (⟨m, hm⟩ | ⟨x, n, hx⟩)
    · simp [sealCalls] at hm
    · rcases x with cell | task <;> cases hx
  jobs := nofun
  conn := nofun

section Moves

variable {es es' : List AgentEffect} {keysOf keysOf' : Nat → SessionKeys} {a a' : Process}
  {conn conn' : Connection}

theorem ConnInv.mono {seen seen' : Key → Prop} {ephs ephs' : List Blob} {cells cells' : Nat}
    (h : ConnInv seen ephs keysOf cells conn) (hseen : ∀ k, seen' k → seen k)
    (hephs : ephs ⊆ ephs') (hcells : cells ≤ cells')
    (hkeys : ∀ i < cells, keysOf' i = keysOf i) : ConnInv seen' ephs' keysOf' cells' conn where
  handshake := fun hs hhs =>
    ⟨hephs (h.handshake hs hhs).1, fun k hk => (h.handshake hs hhs).2 k (hseen k hk)⟩
  cell := fun est hest =>
    ⟨lt_of_lt_of_le (h.cell est hest).1 hcells,
      (hkeys _ (h.cell est hest).1).trans (h.cell est hest).2⟩
  keys := fun est hest => by
    obtain ⟨p, q, hp, hkeys⟩ := h.keys est hest
    exact ⟨p, q, hephs hp, hkeys⟩
  streams := fun est hest streamId hk => h.streams est hest streamId (hseen _ hk)

/-- A connection that keeps its stream ids, the keys and cell of its session, and
its handshake or none, keeps its part. -/
theorem ConnInv.settle {seen : Key → Prop} {ephs : List Blob} {cells : Nat}
    (h : ConnInv seen ephs keysOf cells conn)
    (hhs : conn'.handshaking = none ∨ conn'.handshaking = conn.handshaking)
    (hsession : conn.SameSession conn') (hused : conn'.usedStreamIds = conn.usedStreamIds) :
    ConnInv seen ephs keysOf cells conn' where
  handshake := by
    intro hs heq
    rcases hhs with hnone | hsame
    · rw [hnone] at heq
      cases heq
    · exact h.handshake hs (hsame ▸ heq)
  cell := by
    intro est' heq
    obtain ⟨est, hest, hsame⟩ := hsession est' heq
    rw [hsame.keys, hsame.cell]
    exact h.cell est hest
  keys := by
    intro est' heq
    obtain ⟨est, hest, hsame⟩ := hsession est' heq
    rw [hsame.keys]
    exact h.keys est hest
  streams := by
    intro est' heq
    obtain ⟨est, hest, hsame⟩ := hsession est' heq
    rw [hsame.keys, hused]
    exact h.streams est hest

/-- A move that makes no key seen and sends no hello. -/
theorem NonceInv.move (h : NonceInv es keysOf a)
    (hledger : Ledger (a'.allocators keysOf) ((sealCalls (es ++ es')).map SealCall.pair))
    (hseen : ∀ k, a'.saw keysOf (es ++ es') k → a.saw keysOf es k)
    (hephs : helloEphs es' = []) (hcells : a'.cells.length = a.cells.length)
    (hjobs : ∀ task job, a'.jobs.lookup task = some job →
      job.cell < a.cells.length ∧ keysOf job.cell = job.keys)
    (hconn : ∀ conn, a'.conn = some conn →
      ConnInv (a.saw keysOf es) (helloEphs es) keysOf a.cells.length conn) :
    NonceInv (es ++ es') keysOf a' := by
  have hsame : helloEphs (es ++ es') = helloEphs es := by
    rw [helloEphs_append, hephs, List.append_nil]
  refine ⟨hledger, ?_, ?_, ?_⟩
  · rw [hsame]
    exact fun k hk => h.origin k (hseen k hk)
  · rw [hcells]
    exact hjobs
  · rw [hsame, hcells]
    intro conn hc
    exact (hconn conn hc).mono hseen (List.Subset.refl _) le_rfl (fun _ _ => rfl)

/-- A move that touches neither cells nor pumps and seals nothing. -/
theorem NonceInv.settle (h : NonceInv es keysOf a) (hcells : a'.cells = a.cells)
    (hpumps : a'.pumps = a.pumps) (hcalls : sealCalls es' = []) (hephs : helloEphs es' = [])
    (hjobs : ∀ task job, a'.jobs.lookup task = some job →
      job.cell < a.cells.length ∧ keysOf job.cell = job.keys)
    (hconn : ∀ conn, a'.conn = some conn →
      ConnInv (a.saw keysOf es) (helloEphs es) keysOf a.cells.length conn) :
    NonceInv (es ++ es') keysOf a' := by
  have hsame : a'.allocators keysOf = a.allocators keysOf := allocators_congr hcells hpumps
  have hcalls' : sealCalls (es ++ es') = sealCalls es := by
    rw [sealCalls_append, hcalls, List.append_nil]
  refine h.move ?_ ?_ hephs (by rw [hcells]) hjobs hconn
  · rw [hsame, hcalls']
    exact h.ledger
  · unfold Process.saw
    rw [hsame, hcalls']
    exact fun _ hk => hk

/-- One allocation. -/
theorem NonceInv.take (h : NonceInv es keysOf a) {x : Nat ⊕ Nat} {call : SealCall}
    (hlive : a.allocators keysOf x = some call.pair)
    (hnext : a'.allocators keysOf =
      Function.update (a.allocators keysOf) x (some (call.key, call.count + 1)))
    (hcalls : sealCalls es' = [call]) (hephs : helloEphs es' = [])
    (hcells : a'.cells.length = a.cells.length) (hjobs : a'.jobs = a.jobs)
    (hconn : ∀ conn, a'.conn = some conn →
      ConnInv (a.saw keysOf es) (helloEphs es) keysOf a.cells.length conn) :
    NonceInv (es ++ es') keysOf a' := by
  have hcalls' : (sealCalls (es ++ es')).map SealCall.pair =
      (sealCalls es).map SealCall.pair ++ [(call.key, call.count)] := by
    rw [sealCalls_append, hcalls, List.map_append]
    rfl
  refine h.move ?_ ?_ hephs hcells (by rw [hjobs]; exact h.jobs) hconn
  · rw [hcalls', hnext]
    exact h.ledger.take hlive
  · unfold Process.saw
    rw [hcalls', hnext]
    exact fun _ hk => seen_take hlive hk

/-- One allocation on a session cell. -/
theorem NonceInv.takeCell (h : NonceInv es keysOf a) {cell : Nat} {keys : SessionKeys}
    (hlt : cell < a.cells.length) (hkeys : keysOf cell = keys)
    (hcells : a'.cells = (a.setCount cell (a.count cell + 1)).cells) (hpumps : a'.pumps = a.pumps)
    (hcalls : sealCalls es' = [sealUplinkCall keys (a.count cell)]) (hephs : helloEphs es' = [])
    (hjobs : a'.jobs = a.jobs)
    (hconn : ∀ conn, a'.conn = some conn →
      ConnInv (a.saw keysOf es) (helloEphs es) keysOf a.cells.length conn) :
    NonceInv (es ++ es') keysOf a' := by
  have hlive : a.allocators keysOf (.inl cell) =
      some (sealUplinkCall keys (a.count cell)).pair := by
    rw [allocators_cell hlt, hkeys]
    rfl
  have hnext : a'.allocators keysOf = Function.update (a.allocators keysOf) (.inl cell)
      (some (keys.key .agentToCoord, a.count cell + 1)) := by
    rw [allocators_congr hcells hpumps, allocators_setCount hlt, hkeys]
  refine h.take hlive hnext hcalls hephs ?_ hjobs hconn
  rw [hcells]
  simp [Process.setCount]

/-- Hellos with new ephemerals, one of which may start a handshake. -/
theorem NonceInv.hello (h : NonceInv es keysOf a) (hc : a.conn = some conn)
    {handshaking : Option Handshaking} (hcalls : sealCalls es' = [])
    (hephs : ∀ hs, handshaking = some hs → ofPoint hs.initiator.eph.public ∈ helloEphs es')
    (hnew : (helloEphs (es ++ es')).Nodup) :
    NonceInv (es ++ es') keysOf (a.setConn { conn with handshaking := handshaking }) := by
  have hcalls' : sealCalls (es ++ es') = sealCalls es := by
    rw [sealCalls_append, hcalls, List.append_nil]
  have hsaw : (a.setConn { conn with handshaking := handshaking }).saw keysOf (es ++ es') =
      a.saw keysOf es := by
    unfold Process.saw
    rw [hcalls']
    rfl
  have hsub : helloEphs es ⊆ helloEphs (es ++ es') := by
    rw [helloEphs_append]
    exact List.subset_append_left _ _
  refine ⟨?_, ?_, h.jobs, ?_⟩
  · rw [hcalls']
    exact h.ledger
  · rw [hsaw]
    intro k hk
    obtain ⟨p, hp, hkey⟩ := h.origin k hk
    exact ⟨p, hsub hp, hkey⟩
  · intro conn' hconn'
    obtain rfl := Option.some.inj hconn'
    rw [hsaw]
    refine ⟨?_, (h.conn conn hc).cell, ?_, (h.conn conn hc).streams⟩
    · intro hs heq
      rw [helloEphs_append] at hnew ⊢
      refine ⟨List.mem_append_right _ (hephs hs heq), ?_⟩
      intro k hk hkey
      -- the keys seen so far go back to earlier hellos
      obtain ⟨p, hp, hkey'⟩ := h.origin k hk
      obtain rfl := hkey'.inj hkey
      exact List.disjoint_of_nodup_append hnew hp (hephs hs heq)
    · intro est hest
      obtain ⟨p, q, hp, hkeys⟩ := (h.conn conn hc).keys est hest
      exact ⟨p, q, hsub hp, hkeys⟩

/-- Finishing the handshake opens a cell on keys that were never seen. -/
theorem NonceInv.finish (h : NonceInv es keysOf a) (hc : a.conn = some conn) {hs : Handshaking}
    (hhs : conn.handshaking = some hs) {keys : SessionKeys} {q : Point}
    (hkeys : SessionKeysOf hs.initiator.eph.public q keys) (sid : Str) :
    NonceInv es (Function.update keysOf a.cells.length keys)
      ({ a with cells := a.cells ++ [0] }.setConn
        { conn with
          handshaking := none, session := some ⟨keys, sid, a.cells.length, none⟩ }) := by
  obtain ⟨heph, hunused⟩ := (h.conn conn hc).handshake hs hhs
  have halloc := allocators_newCell a keysOf keys
  have hseen : ∀ k, { a with cells := a.cells ++ [0] }.saw
      (Function.update keysOf a.cells.length keys) es k →
      k = keys.key .agentToCoord ∨ a.saw keysOf es k := by
    intro k hk
    unfold Process.saw at hk
    rw [halloc] at hk
    exact seen_start hk
  have hold : ∀ i < a.cells.length, Function.update keysOf a.cells.length keys i = keysOf i :=
    fun i hi => Function.update_of_ne hi.ne _ _
  refine ⟨?_, ?_, ?_, ?_⟩
  · change Ledger ({ a with cells := a.cells ++ [0] }.allocators _) _
    rw [halloc]
    exact h.ledger.start _ (fun hk => hunused _ hk (.session hkeys))
  · intro k hk
    rcases hseen k hk with rfl | hk
    · exact ⟨_, heph, .session hkeys⟩
    · exact h.origin k hk
  · intro task job hjob
    obtain ⟨hlt, hjobKeys⟩ := h.jobs task job hjob
    refine ⟨?_, (hold _ hlt).trans hjobKeys⟩
    simpa [Process.setConn] using Nat.lt_succ_of_lt hlt
  · intro conn' hconn'
    obtain rfl := Option.some.inj hconn'
    refine ⟨nofun, ?_, ?_, ?_⟩
    · intro est' hest'
      obtain rfl := Option.some.inj hest'
      simp [Process.setConn]
    · intro est' hest'
      obtain rfl := Option.some.inj hest'
      exact ⟨_, q, heph, hkeys⟩
    · intro est' hest' streamId hk
      obtain rfl := Option.some.inj hest'
      rcases hseen _ hk with heq | hk
      · exact absurd heq.symm (hkeys.key_ne_stream _ _ _)
      · exact absurd (.stream hkeys streamId) (hunused _ hk)

/-- A stream id the connection has not used opens a pump on a key that was never
seen. -/
theorem NonceInv.openStream (h : NonceInv es keysOf a) (hc : a.conn = some conn)
    {est : Established} (hest : conn.session = some est) {streamId : Str}
    (hfresh : streamId ∉ conn.usedStreamIds) (hostId : Str) :
    NonceInv es keysOf
      ((a.spawnPump (ShellStream.open est.keys streamId hostId est.sid).2).setConn
        { conn with
          activeStream := some (ShellStream.open est.keys streamId hostId est.sid).1,
          usedStreamIds := streamId :: conn.usedStreamIds }) := by
  obtain ⟨p, q, heph, hkeys⟩ := (h.conn conn hc).keys est hest
  have halloc : (a.spawnPump (ShellStream.open est.keys streamId hostId est.sid).2).allocators
      keysOf = Function.update (a.allocators keysOf) (.inr a.nextTask)
        (some ((est.keys.deriveStream streamId.bytes).key .agentToCoord, 0)) :=
    allocators_putPump a keysOf a.nextTask _
  have hseen : ∀ k, (a.spawnPump (ShellStream.open est.keys streamId hostId est.sid).2).saw
      keysOf es k →
      k = (est.keys.deriveStream streamId.bytes).key .agentToCoord ∨ a.saw keysOf es k := by
    intro k hk
    unfold Process.saw at hk
    rw [halloc] at hk
    exact seen_start hk
  refine ⟨?_, ?_, h.jobs, ?_⟩
  · change Ledger ((a.spawnPump _).allocators keysOf) _
    rw [halloc]
    exact h.ledger.start _ (fun hk => hfresh ((h.conn conn hc).streams est hest streamId hk))
  · intro k hk
    rcases hseen k hk with rfl | hk
    · exact ⟨p, heph, .stream hkeys streamId⟩
    · exact h.origin k hk
  · intro conn' hconn'
    obtain rfl := Option.some.inj hconn'
    refine ⟨?_, (h.conn conn hc).cell, (h.conn conn hc).keys, ?_⟩
    · intro hs hhs
      obtain ⟨hephs, hunused⟩ := (h.conn conn hc).handshake hs hhs
      refine ⟨hephs, ?_⟩
      intro k hk hkey
      rcases hseen k hk with rfl | hk
      · -- an unfinished handshake made no key, but the session's own key is seen
        obtain rfl := (UplinkKeyOf.stream hkeys streamId).inj hkey
        obtain ⟨hlt, hkeysOf⟩ := (h.conn conn hc).cell est hest
        refine hunused _ (Or.inr ⟨.inl est.cell, a.count est.cell, ?_⟩) (.session hkeys)
        rw [allocators_cell hlt, hkeysOf]
      · exact hunused k hk hkey
    · intro est' hest' streamId' hk
      rcases hseen _ hk with heq | hk
      · have hid := Str.bytes_injective (SessionKeys.deriveStream_key_inj heq).2
        rw [hid]
        exact List.mem_cons_self
      · exact List.mem_cons_of_mem _ ((h.conn conn hc).streams est' hest' streamId' hk)

/-- The end of a pump. -/
theorem NonceInv.dropPump (h : NonceInv es keysOf a) (task : Nat) :
    NonceInv (es ++ []) keysOf { a with pumps := a.pumps.drop task } := by
  refine h.move ?_ ?_ rfl rfl h.jobs h.conn
  · rw [List.append_nil, allocators_dropPump]
    exact h.ledger.close _
  · unfold Process.saw
    rw [List.append_nil, allocators_dropPump]
    exact fun _ hk => seen_close hk

/-- A new process keeps the log and starts with no allocator. -/
theorem NonceInv.restart (h : NonceInv es keysOf a) : NonceInv (es ++ []) keysOf Process.new := by
  have hnone : Process.new.allocators keysOf = fun _ => none := by
    funext x
    rcases x with cell | task <;> rfl
  rw [List.append_nil]
  refine ⟨?_, ?_, nofun, nofun⟩
  · rw [hnone]
    exact h.ledger.closeAll
  · intro k hk
    unfold Process.saw at hk
    rw [hnone] at hk
    exact h.origin k (seen_closeAll hk)

end Moves

/-! ## The steps -/

section Steps

variable {cfg : AgentConfig} {env : AgentEnv} {es : List AgentEffect}
  {keysOf : Nat → SessionKeys} {a : Process} {conn : Connection}

theorem beginHandshake_effects (cfg : AgentConfig) (env : AgentEnv) (id : AgentIdentity)
    (epoch : UInt64) (sid : Str) (eph : Option Point) :
    sealCalls (beginHandshake cfg env id epoch sid eph).2 = [] ∧
      ∀ hs, (beginHandshake cfg env id epoch sid eph).1 = some hs →
        ofPoint hs.initiator.eph.public ∈
          helloEphs (beginHandshake cfg env id epoch sid eph).2 := by
  unfold beginHandshake
  dsimp only
  split
  · split
    · exact ⟨rfl, nofun⟩
    · rename_i hs hello hstart
      split
      · refine ⟨rfl, ?_⟩
        intro hs' heq
        obtain rfl := Option.some.inj heq
        obtain ⟨p, key, -, -, rfl, rfl⟩ := startHandshake_eq_ok_iff.mp hstart
        exact List.mem_singleton_self _
      · exact ⟨rfl, nofun⟩
  · exact ⟨rfl, nofun⟩

/-- The invariant of a connection whose session has received. -/
theorem NonceInv.received (h : NonceInv es keysOf a) (hc : a.conn = some conn)
    {est est' : Established} (hest : conn.session = some est) (hsame : est.Same est') :
    ∀ conn', some { conn with session := some est' } = some conn' →
      ConnInv (a.saw keysOf es) (helloEphs es) keysOf a.cells.length conn' := by
  intro conn' heq
  obtain rfl := Option.some.inj heq
  exact (h.conn conn hc).settle (Or.inr rfl) (.of_same hest rfl hsame) rfl

/-- One step keeps the invariant; the keys of old cells stay what they were. -/
theorem agentStep_nonceInv (h : NonceInv es keysOf a) (ev : AgentEvent)
    (hnew : (helloEphs (es ++ (agentStep cfg env a ev).2)).Nodup) :
    ∃ keysOf', NonceInv (es ++ (agentStep cfg env a ev).2) keysOf' (agentStep cfg env a ev).1 := by
  have hmove := agentStep_move cfg env a ev
  generalize agentStep cfg env a ev = out at hmove hnew ⊢
  cases hmove with
  | idle => exact ⟨keysOf, h.settle rfl rfl rfl rfl h.jobs h.conn⟩
  | connected =>
      refine ⟨keysOf, h.settle rfl rfl rfl rfl h.jobs ?_⟩
      intro conn' heq
      obtain rfl := Option.some.inj heq
      constructor <;> intro _ hnone <;> cases hnone
  | @greeted conn epoch sid eph hc =>
      obtain ⟨hcalls, hephs⟩ := beginHandshake_effects cfg env conn.id epoch sid eph
      exact ⟨keysOf, h.hello hc hcalls hephs hnew⟩
  | @spoiled conn payload hc =>
      refine ⟨keysOf, h.settle rfl rfl rfl rfl h.jobs ?_⟩
      intro conn' heq
      obtain rfl := Option.some.inj heq
      exact (h.conn conn hc).settle (Or.inl rfl) (.of_eq rfl) rfl
  | @finished conn hs payload est hc hhs hfinish =>
      obtain ⟨sh, serverEph, keys, -, -, -, hkeys, rfl⟩ := finishHandshake_eq_ok_iff.mp hfinish
      have hfinished := h.finish hc hhs (sessionKeysOf_finish hkeys) hs.sid
      rw [← List.append_nil es] at hfinished
      exact ⟨_, hfinished⟩
  | read hc hest hsame => exact ⟨keysOf, h.settle rfl rfl rfl rfl h.jobs (h.received hc hest hsame)⟩
  | confirmed hc hest hsame hack =>
      obtain ⟨hlt, hkeysOf⟩ := (h.conn _ hc).cell _ hest
      exact ⟨keysOf, h.takeCell hlt hkeysOf rfl rfl rfl rfl rfl (h.received hc hest hsame)⟩
  | jobStarted hc hest hsame hroom =>
      refine ⟨keysOf, h.settle rfl rfl rfl rfl ?_ (h.received hc hest hsame)⟩
      intro task job hjob
      simp only [Process.spawnJob, Table.lookup_put] at hjob
      split at hjob
      · obtain rfl := Option.some.inj hjob
        rw [hsame.cell, hsame.keys]
        exact (h.conn _ hc).cell _ hest
      · exact h.jobs task job hjob
  | shellFailed hc hest hsame =>
      exact ⟨keysOf, h.settle rfl rfl rfl rfl h.jobs (h.received hc hest hsame)⟩
  | @shellOpened conn est est' payload streamId runAs rows cols hc hest hsame hunused hroom =>
      have hread : NonceInv (es ++ []) keysOf
          (a.setConn { conn with session := some est' }) :=
        h.settle rfl rfl rfl rfl h.jobs (h.received hc hest hsame)
      rw [List.append_nil] at hread
      have hopened := hread.openStream rfl rfl hunused conn.id.hostId
      exact ⟨keysOf, hopened.settle rfl rfl rfl rfl hopened.jobs hopened.conn⟩
  | @streamed conn payload stream effects hc heffects =>
      have hquiet : sealCalls effects = [] ∧ helloEphs effects = [] := by
        rcases heffects with rfl | ⟨data, rfl⟩ <;> exact ⟨rfl, rfl⟩
      refine ⟨keysOf, h.settle rfl rfl hquiet.1 hquiet.2 h.jobs ?_⟩
      intro conn' heq
      obtain rfl := Option.some.inj heq
      exact (h.conn conn hc).settle (Or.inr rfl) (.of_eq rfl) rfl
  | disconnected =>
      refine ⟨keysOf, h.settle rfl rfl rfl rfl h.jobs ?_⟩
      intro conn' heq
      cases heq
  | jobSealed hjob hfree =>
      obtain ⟨hlt, hkeys⟩ := h.jobs _ _ hjob
      exact ⟨keysOf, h.takeCell hlt hkeys rfl rfl rfl rfl rfl h.conn⟩
  | jobEnqueued hheld =>
      refine ⟨keysOf, ?_⟩
      dsimp only
      split <;> exact h.settle rfl rfl rfl rfl h.jobs h.conn
  | jobEnded =>
      refine ⟨keysOf, h.settle rfl rfl rfl rfl ?_ h.conn⟩
      intro task job hjob
      simp only [Table.lookup_drop] at hjob
      split at hjob
      · cases hjob
      · exact h.jobs task job hjob
  | @pumpSent task frame pump hpump =>
      have hlive : a.allocators keysOf (.inr task) = some pump.sealCall.pair :=
        allocators_pump hpump
      exact ⟨keysOf, h.take hlive (allocators_putPump a keysOf task _) rfl rfl rfl rfl h.conn⟩
  | pumpEnded => exact ⟨keysOf, h.dropPump _⟩
  | restarted => exact ⟨keysOf, h.restart⟩

/-- Along every run with new ephemerals, the calls of {lit}`seal` form a sound
ledger. -/
theorem agentRun_nonceInv {turns : List (AgentEnv × AgentEvent)} (h : NonceInv es keysOf a)
    (hnew : (helloEphs (es ++ (agentRun cfg a turns).2)).Nodup) :
    ∃ keysOf', NonceInv (es ++ (agentRun cfg a turns).2) keysOf' (agentRun cfg a turns).1 := by
  induction turns generalizing a es keysOf with
  | nil => exact ⟨keysOf, by simpa [agentRun] using h⟩
  | cons turn turns ih =>
      obtain ⟨env, ev⟩ := turn
      simp only [agentRun] at hnew ⊢
      rw [← List.append_assoc] at hnew ⊢
      have hhere : (helloEphs (es ++ (agentStep cfg env a ev).2)).Nodup := by
        rw [helloEphs_append] at hnew
        exact (List.nodup_append.mp hnew).1
      obtain ⟨keysOf', hstep⟩ := agentStep_nonceInv h ev hhere
      exact ih hstep hnew

end Steps

/-! ## The envelopes -/

/-- How many job tasks hold an envelope under a key and nonce they have not yet
handed over. -/
def Process.held (a : Process) (kn : Option (Key × Bytes)) : Nat :=
  a.sending.entries.countP (fun e => e.2.ciphertext.keyNonce = kn)

/-- How often {lit}`seal` was called with a key and nonce. -/
def callsWith (kn : Option (Key × Bytes)) (es : List AgentEffect) : Nat :=
  ((sealCalls es).map fun call => some call.keyNonce).count kn

/-- Every envelope handed over or held was sealed in a call of its own. -/
def Backed (es : List AgentEffect) (a : Process) : Prop :=
  ∀ kn, (wire es).count kn + a.held kn ≤ callsWith kn es

section Backed

variable {cfg : AgentConfig} {env : AgentEnv} {es es' : List AgentEffect} {a a' : Process}

/-- A new process holds nothing. -/
theorem backed_new : Backed [] Process.new :=
  fun _ => le_rfl

/-- The calls of two lists of effects add up. -/
theorem callsWith_append (kn : Option (Key × Bytes)) (es es' : List AgentEffect) :
    callsWith kn (es ++ es') = callsWith kn es + callsWith kn es' := by
  rw [callsWith, sealCalls_append, List.map_append, List.count_append]
  rfl

/-- The rule for one step: what it hands over and holds, it held or sealed. -/
theorem Backed.of_step (h : Backed es a)
    (hstep : ∀ kn, (wire es').count kn + a'.held kn ≤ a.held kn + callsWith kn es') :
    Backed (es ++ es') a' := by
  intro kn
  have hold := h kn
  have hnew := hstep kn
  rw [wire_append, List.count_append, callsWith_append]
  omega

/-- A step that hands nothing over and leaves the job tasks' envelopes alone. -/
theorem Backed.quiet (h : Backed es a) (hsending : a'.sending = a.sending)
    (hwire : wire es' = []) : Backed (es ++ es') a' := by
  refine h.of_step fun kn => ?_
  rw [hwire, List.count_nil, Nat.zero_add, Process.held, hsending]
  exact Nat.le_add_right _ _

/-- Sealing an envelope and handing it over keeps every envelope backed. -/
theorem Backed.sealed {call : SealCall} (h : Backed es a) (hsending : a'.sending = a.sending)
    (hcalls : sealCalls es' = [call]) (hwire : wire es' = [some call.keyNonce]) :
    Backed (es ++ es') a' := by
  refine h.of_step fun kn => ?_
  rw [hwire, callsWith, hcalls, Process.held, hsending, Nat.add_comm]
  rfl

/-- The hello of a handshake carries no envelope. -/
theorem wire_beginHandshake (cfg : AgentConfig) (env : AgentEnv) (id : AgentIdentity)
    (epoch : UInt64) (sid : Str) (eph : Option Point) :
    wire (beginHandshake cfg env id epoch sid eph).2 = [] := by
  unfold beginHandshake
  dsimp only
  repeat' split
  all_goals rfl

/-- One step keeps every envelope backed. -/
theorem agentStep_backed (h : Backed es a) (ev : AgentEvent) :
    Backed (es ++ (agentStep cfg env a ev).2) (agentStep cfg env a ev).1 := by
  have hmove := agentStep_move cfg env a ev
  generalize agentStep cfg env a ev = out at hmove ⊢
  cases hmove with
  | greeted hc => exact h.quiet rfl (wire_beginHandshake cfg env _ _ _ _)
  | confirmed hc hest hsame hack =>
      refine h.sealed rfl rfl ?_
      rw [← hack]
      rfl
  | streamed hc heffects =>
      refine h.quiet rfl ?_
      rcases heffects with rfl | ⟨data, rfl⟩ <;> rfl
  | @jobSealed task result job hjob hfree =>
      -- the task holds the report it has sealed
      refine h.of_step fun kn => ?_
      have hsealed : (sealUplink job.keys (a.count job.cell) job.hostId job.sid
          result.encode).1.ciphertext.keyNonce =
          some (sealUplinkCall job.keys (a.count job.cell)).keyNonce := rfl
      simp [Process.held, callsWith, wire, sealCalls, Table.countP_put _ _ hfree, hsealed,
        List.count_singleton]
  | jobEnqueued hheld =>
      -- and hands it over, or drops it
      refine h.of_step fun kn => ?_
      have hcount := Table.countP_drop (fun e => e.2.ciphertext.keyNonce = kn) hheld
      dsimp only
      split <;> simp [Process.held, callsWith, wire, sealCalls, hcount, List.count_singleton,
        Nat.add_comm]
  | pumpSent hpump => exact h.sealed rfl rfl rfl
  | restarted => exact h.of_step fun kn => Nat.zero_le _
  | _ => exact h.quiet rfl rfl

/-- Along every run, every envelope is backed by a call of its own. -/
theorem agentRun_backed {turns : List (AgentEnv × AgentEvent)} (h : Backed es a) :
    Backed (es ++ (agentRun cfg a turns).2) (agentRun cfg a turns).1 := by
  induction turns generalizing a es with
  | nil => simpa [agentRun] using h
  | cons turn turns ih =>
      simp only [agentRun]
      rw [← List.append_assoc]
      exact ih (agentStep_backed h turn.2)

end Backed

end Agent
end OpenSsmAgent
