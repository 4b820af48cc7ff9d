import OpenSsmAgent.Agent.Session
import OpenSsmAgent.Agent.ShellStream
import OpenSsmAgent.Coordinator.Bridge

/-!
# Sealed channels neither forge nor duplicate

The four sealed channels between coordinator and agent: the session downlink and
uplink, and the downlink and uplink of a shell stream.  Each has an honest sealer
with its own allocator and a guarded receiver; between them a broker delivers any
envelopes it likes, except that it cannot make a ciphertext under the channel's
key that the sealer did not make.

Main results:

- Theorem {lit}`receiver_channel`: the guarantee of one channel, for any guarded
  receiver and any log in sequence order.
- Theorem {lit}`sealed_channels_sound`: the guarantee for each of the four
  receivers against the sealer at the other end.
-/

open Framing SymbolicCrypto

namespace OpenSsmAgent
namespace System

open Seal Wire Proto Coordinator Agent

/-! ## Logs of sealed envelopes -/

/-- What a sealer makes of a list of items, each envelope with its item. -/
def sealRun {S P : Type} (next : S → P → Envelope × S) : S → List P → List (Envelope × P)
  | _, [] => []
  | s, p :: ps => ((next s p).1, p) :: sealRun next (next s p).2 ps

/-- What an allocator that has made {lit}`count` calls seals for a list of items. -/
def sealedLog {P : Type} (keys : SessionKeys) (dir : Direction) (hostId sid : Str) (kind : Kind)
    (encode : P → Bytes) : Nat → List P → List (Envelope × P)
  | _, [] => []
  | count, p :: ps =>
      (sealEnvelope keys dir hostId sid (wireSeq count) kind (encode p), p) ::
        sealedLog keys dir hostId sid kind encode (count + 1) ps

section Logs

variable {P : Type} {keys : SessionKeys} {dir : Direction} {hostId sid : Str} {kind : Kind}
  {encode : P → Bytes}

/-- Every logged envelope opens to its item, under a number the allocator handed
out. -/
theorem of_mem_sealedLog {count : Nat} {ps : List P} {a : Envelope × P}
    (h : a ∈ sealedLog keys dir hostId sid kind encode count ps) :
    openEnvelope keys dir a.1 = some (encode a.2) ∧
      ∃ n, count ≤ n ∧ n < count + ps.length ∧ a.1.seq = wireSeq n := by
  induction ps generalizing count with
  | nil => simp [sealedLog] at h
  | cons p ps ih =>
      rcases List.mem_cons.mp h with rfl | h
      · exact ⟨openEnvelope_sealEnvelope .., count, le_rfl, by simp, rfl⟩
      · obtain ⟨hopen, n, hlow, hhigh, hseq⟩ := ih h
        refine ⟨hopen, n, by omega, ?_, hseq⟩
        simp only [List.length_cons]
        omega

/-- Below the end of the sequence space a log is in sequence order. -/
theorem sealedLog_pairwise {count : Nat} {ps : List P} (hlen : count + ps.length ≤ 2 ^ 64) :
    (sealedLog keys dir hostId sid kind encode count ps).Pairwise
      (fun a b => a.1.seq < b.1.seq) := by
  induction ps generalizing count with
  | nil => simp [sealedLog]
  | cons p ps ih =>
      simp only [List.length_cons] at hlen
      refine List.Pairwise.cons ?_ (ih (by omega))
      intro b hb
      obtain ⟨-, n, hlow, hhigh, hseq⟩ := of_mem_sealedLog hb
      have hfirst : count < 2 ^ 64 := by omega
      have hlast : n < 2 ^ 64 := by omega
      rw [hseq, UInt64.lt_iff_toNat_lt, toNat_wireSeq hlast]
      change (wireSeq count).toNat < n
      rw [toNat_wireSeq hfirst]
      omega

end Logs

/-! ## Guarded receivers -/

/-- A receiver that authenticates, guards and then decodes, as a view on its
state: the channel's keys and the replay mark, the only field that moves. -/
structure Receiver (R P : Type) where
  dir : Direction
  keys : R → SessionKeys
  high : R → Option UInt64
  setHigh : R → Option UInt64 → R
  decode : Bytes → Option P
  keys_setHigh : ∀ r h, keys (setHigh r h) = keys r
  high_setHigh : ∀ r h, high (setHigh r h) = h
  setHigh_high : ∀ r, setHigh r (high r) = r
  setHigh_setHigh : ∀ r g h, setHigh (setHigh r g) h = setHigh r h

namespace Receiver

variable {R P : Type} (c : Receiver R P)

/-- Whether an envelope authenticates at a receiver. -/
def auth (r : R) (env : Envelope) : Option Bytes :=
  openEnvelope (c.keys r) c.dir env

/-- Read one envelope. -/
def read (r : R) (env : Envelope) : Option P × R :=
  let o := openGuarded (c.keys r) c.dir (c.high r) env
  (o.1.bind c.decode, c.setHigh r o.2)

end Receiver

/-- The coordinator's session uplink. -/
def sessionUplink : Receiver Session Bytes where
  dir := .agentToCoord
  keys := Session.keys
  high := Session.recvHigh
  setHigh s h := { s with recvHigh := h }
  decode := some
  keys_setHigh _ _ := rfl
  high_setHigh _ _ := rfl
  setHigh_high _ := rfl
  setHigh_setHigh _ _ _ := rfl

/-- The coordinator's stream uplink. -/
def routeUplink : Receiver ShellRoute StreamFrame where
  dir := .agentToCoord
  keys := ShellRoute.streamKeys
  high := ShellRoute.recvHigh
  setHigh r h := { r with recvHigh := h }
  decode := StreamFrame.decode
  keys_setHigh _ _ := rfl
  high_setHigh _ _ := rfl
  setHigh_high _ := rfl
  setHigh_setHigh _ _ _ := rfl

/-- The agent's session downlink. -/
def establishedDownlink : Receiver Established Bytes where
  dir := .coordToAgent
  keys := Established.keys
  high := Established.recvHigh
  setHigh e h := { e with recvHigh := h }
  decode := some
  keys_setHigh _ _ := rfl
  high_setHigh _ _ := rfl
  setHigh_high _ := rfl
  setHigh_setHigh _ _ _ := rfl

/-- The agent's stream downlink. -/
def streamDownlink : Receiver ShellStream Bytes where
  dir := .coordToAgent
  keys := ShellStream.streamKeys
  high := ShellStream.recvHigh
  setHigh s h := { s with recvHigh := h }
  decode := some
  keys_setHigh _ _ := rfl
  high_setHigh _ _ := rfl
  setHigh_high _ := rfl
  setHigh_setHigh _ _ _ := rfl

theorem sessionUplink_read : sessionUplink.read = Session.openUplink := by
  funext s env
  simp [Receiver.read, sessionUplink, Session.openUplink]

theorem routeUplink_read : routeUplink.read = ShellRoute.openUplink :=
  rfl

theorem establishedDownlink_read : establishedDownlink.read = Established.openDownlink := by
  funext e env
  rw [Established.openDownlink_eq]
  simp [Receiver.read, establishedDownlink]

theorem streamDownlink_read : streamDownlink.read = ShellStream.openDownlink := by
  funext s env
  simp [Receiver.read, streamDownlink, ShellStream.openDownlink]

/-! ## What a channel guarantees -/

/-- The broker delivers no ciphertext under the key but those of the log. -/
def Unforgeable {P : Type} (key : Key) (log : List (Envelope × P)) (delivered : List Envelope) :
    Prop :=
  ∀ env ∈ delivered, ∀ nonce aad p, env.ciphertext = .sealed key nonce aad p →
    ∃ a ∈ log, a.1.ciphertext = env.ciphertext

/-- Deliver envelopes one after the other to a receiver: what it accepted, each
envelope with what was read from it, and the receiver afterwards. -/
def receive {R P : Type} (read : R → Envelope → Option P × R) :
    R → List Envelope → List (Envelope × P) × R
  | r, [] => ([], r)
  | r, env :: envs =>
      match read r env with
      | (none, r) => receive read r envs
      | (some p, r) => ((env, p) :: (receive read r envs).1, (receive read r envs).2)

/-- The guarantee of a channel for a log of genuine envelopes and any deliveries.
What is accepted is a subsequence of the log, in strictly increasing sequence
order; an envelope that does not authenticate or is stale leaves the receiver as
it was; and a genuine envelope newer than everything accepted is accepted. -/
structure ChannelGuarantee {R P : Type} (read : R → Envelope → Option P × R)
    (auth : Envelope → Option Bytes) (high : R → Option UInt64) (start : R)
    (log : List (Envelope × P)) (delivered : List Envelope) : Prop where
  subsequence : (receive read start delivered).1.Sublist log
  increasing : (receive read start delivered).1.Pairwise (fun a b => a.1.seq < b.1.seq)
  reject : ∀ front env back, delivered = front ++ env :: back →
    (auth env = none ∨ ReplayGuard.stale (high (receive read start front).2) env.seq = true) →
      read (receive read start front).2 env = (none, (receive read start front).2)
  genuine : ∀ a ∈ log, (∀ b ∈ (receive read start delivered).1, b.1.seq < a.1.seq) →
    (read (receive read start delivered).2 a.1).1 = some a.2

/-! ## The guarantee of one channel -/

section Channel

variable {R P : Type} (c : Receiver R P)

/-- Receiving is the replay-guarded delivery, followed by decoding. -/
theorem receive_read (r : R) (envs : List Envelope) :
    receive c.read r envs =
      ((ReplayGuard.deliver (c.auth r) Envelope.seq (c.high r) envs).1.filterMap
        (fun a => (c.decode a.2).map (fun p => (a.1, p))),
        c.setHigh r (ReplayGuard.deliver (c.auth r) Envelope.seq (c.high r) envs).2) := by
  induction envs generalizing r with
  | nil => simp [receive, ReplayGuard.deliver, c.setHigh_high]
  | cons env envs ih =>
      have hread : c.read r env =
          ((ReplayGuard.guardedOpen (c.auth r) Envelope.seq (c.high r) env).1.bind c.decode,
            c.setHigh r (ReplayGuard.guardedOpen (c.auth r) Envelope.seq (c.high r) env).2) :=
        rfl
      cases hopen : (ReplayGuard.guardedOpen (c.auth r) Envelope.seq (c.high r) env).1 with
      | none =>
          rw [hopen, ReplayGuard.guardedOpen_reject hopen, c.setHigh_high] at hread
          rw [ReplayGuard.deliver_cons_reject hopen, receive, hread]
          exact ih r
      | some plaintext =>
          rw [hopen, ReplayGuard.guardedOpen_accept hopen] at hread
          have hauth : c.auth (c.setHigh r (some env.seq)) = c.auth r := by
            funext e
            simp [Receiver.auth, c.keys_setHigh]
          have hrest := ih (c.setHigh r (some env.seq))
          rw [hauth, c.high_setHigh, c.setHigh_setHigh] at hrest
          rw [ReplayGuard.deliver_cons_accept hopen, receive, hread]
          cases hdecode : c.decode plaintext with
          | none => simp [hdecode, hrest]
          | some p => simp [hdecode, hrest]

/-- What authenticates at a receiver of the channel was logged, with the item it
was sealed for. -/
theorem mem_log_of_auth {r : R} {log : List (Envelope × P)} {encode : P → Bytes}
    {delivered : List Envelope} (hlog : ∀ a ∈ log, c.auth r a.1 = some (encode a.2))
    (hforge : Unforgeable ((c.keys r).key c.dir) log delivered) {env : Envelope}
    (henv : env ∈ delivered) {plaintext : Bytes} (hauth : c.auth r env = some plaintext) :
    ∃ p, (env, p) ∈ log ∧ plaintext = encode p := by
  obtain ⟨aad, hct⟩ := ciphertext_of_openEnvelope hauth
  obtain ⟨a, ha, haeq⟩ := hforge env henv _ _ _ hct
  obtain ⟨rfl, hp⟩ := eq_of_openEnvelope_of_ciphertext_eq hauth (hlog a ha) haeq.symm
  exact ⟨a.2, ha, hp⟩

/-- The guarantee of one channel: a receiver as it is created, a log in sequence
order sealed under its keys, and a broker that cannot forge. -/
theorem receiver_channel {start : R} (hstart : c.high start = none) {encode : P → Bytes}
    (hdecode : ∀ p, c.decode (encode p) = some p) {log : List (Envelope × P)}
    (hlog : ∀ a ∈ log, c.auth start a.1 = some (encode a.2))
    (horder : log.Pairwise (fun a b => a.1.seq < b.1.seq)) {delivered : List Envelope}
    (hforge : Unforgeable ((c.keys start).key c.dir) log delivered) :
    ChannelGuarantee c.read (c.auth start) c.high start log delivered := by
  have haccepted : ∀ a ∈ (ReplayGuard.deliver (c.auth start) Envelope.seq none delivered).1,
      ∃ p, (a.1, p) ∈ log ∧ c.decode a.2 = some p := by
    intro a ha
    obtain ⟨hmem, hauth⟩ := ReplayGuard.auth_of_mem_accepted ha
    obtain ⟨p, hp, hplain⟩ := mem_log_of_auth c hlog hforge hmem hauth
    exact ⟨p, hp, by rw [hplain, hdecode]⟩
  have hsorted : (receive c.read start delivered).1.Pairwise (fun a b => a.1.seq < b.1.seq) := by
    rw [receive_read, hstart]
    refine List.Pairwise.filterMap _ ?_ (ReplayGuard.accepted_pairwise none delivered)
    intro a b hlt a' ha' b' hb'
    obtain ⟨p, -, rfl⟩ := Option.map_eq_some_iff.mp ha'
    obtain ⟨q, -, rfl⟩ := Option.map_eq_some_iff.mp hb'
    exact hlt
  refine ⟨?_, hsorted, ?_, ?_⟩
  · refine ReplayGuard.sublist_of_subset (fun a => a.1.seq) hsorted horder ?_
    intro a ha
    rw [receive_read, hstart] at ha
    obtain ⟨b, hb, hmap⟩ := List.mem_filterMap.mp ha
    obtain ⟨p, hp, hdec⟩ := haccepted b hb
    rw [hdec] at hmap
    cases hmap
    exact hp
  · intro front env back _ hbad
    rw [receive_read] at hbad ⊢
    generalize hhigh : (ReplayGuard.deliver (c.auth start) Envelope.seq (c.high start) front).2 =
      high at hbad ⊢
    rw [c.high_setHigh] at hbad
    have hopen : ReplayGuard.guardedOpen (c.auth start) Envelope.seq high env = (none, high) := by
      unfold ReplayGuard.guardedOpen
      rcases hbad with hbad | hbad
      · simp [hbad]
      · cases c.auth start env <;> simp [hbad]
    have hread : openGuarded (c.keys start) c.dir high env = (none, high) := hopen
    simp only [Receiver.read, c.keys_setHigh, c.high_setHigh, hread, c.setHigh_setHigh,
      Option.bind_none]
  · intro a ha hnewer
    rw [receive_read, hstart] at hnewer ⊢
    have hread : openGuarded (c.keys start) c.dir
        (ReplayGuard.deliver (c.auth start) Envelope.seq none delivered).2 a.1 =
          (some (encode a.2), some a.1.seq) := by
      refine ReplayGuard.guardedOpen_genuine (hlog a ha) ?_
      intro b hb
      obtain ⟨p, -, hdec⟩ := haccepted b hb
      exact hnewer (b.1, p) (List.mem_filterMap.mpr ⟨b, hb, by simp [hdec]⟩)
    simp only [Receiver.read, c.keys_setHigh, c.high_setHigh, hread, Option.bind_some, hdecode]

end Channel

/-! ## The four channels -/

section Sealers

variable (keys : SessionKeys) (hostId sid : Str)

/-- The agent's uplink allocator, shared by the session and its job tasks. -/
theorem sealRun_sealUplink (count : Nat) (ps : List Bytes) :
    sealRun (fun n p => sealUplink keys n hostId sid p) count ps =
      sealedLog keys .agentToCoord hostId sid .control id count ps := by
  induction ps generalizing count with
  | nil => rfl
  | cons p ps ih => simp only [sealRun, sealedLog, ← ih, sealUplink, id_eq]

/-- The agent's uplink pump. -/
theorem sealRun_sealFrame (count : Nat) (frames : List StreamFrame) :
    sealRun UplinkPump.sealFrame ⟨keys, hostId, sid, count⟩ frames =
      sealedLog keys .agentToCoord hostId sid .stream StreamFrame.encode count frames := by
  induction frames generalizing count with
  | nil => rfl
  | cons f fs ih => simp only [sealRun, sealedLog, ← ih, UplinkPump.sealFrame]

/-- The coordinator's downlink allocator of a session. -/
theorem sealRun_session (s : Session) (ps : List Bytes) :
    sealRun (fun s p => Session.sealDownlink s hostId p) s ps =
      sealedLog s.keys .coordToAgent hostId s.sid .control id s.sendSeq ps := by
  induction ps generalizing s with
  | nil => rfl
  | cons p ps ih =>
      rw [sealRun, ih, sealedLog]
      rfl

/-- The coordinator's downlink allocator of a shell route. -/
theorem sealRun_route (r : ShellRoute) (frames : List StreamFrame) :
    sealRun (fun r f => ShellRoute.sealDownlink r hostId f) r frames =
      sealedLog r.streamKeys .coordToAgent hostId r.sid .stream StreamFrame.encode r.sendSeq
        frames := by
  induction frames generalizing r with
  | nil => rfl
  | cons f fs ih =>
      rw [sealRun, ih, sealedLog]
      rfl

end Sealers

/-- A receiver against the log of an allocator that starts at zero. -/
theorem receiver_sealedLog {R P : Type} (c : Receiver R P) {start : R}
    (hstart : c.high start = none) {encode : P → Bytes}
    (hdecode : ∀ p, c.decode (encode p) = some p) {hostId sid : Str} {kind : Kind} {ps : List P}
    (hlen : ps.length ≤ 2 ^ 64) {delivered : List Envelope}
    (hforge : Unforgeable ((c.keys start).key c.dir)
      (sealedLog (c.keys start) c.dir hostId sid kind encode 0 ps) delivered) :
    ChannelGuarantee c.read (c.auth start) c.high start
      (sealedLog (c.keys start) c.dir hostId sid kind encode 0 ps) delivered :=
  receiver_channel c hstart hdecode (fun _ ha => (of_mem_sealedLog ha).1)
    (sealedLog_pairwise (by omega)) hforge

/-- The log of a frame sealer with the frames written out as plaintexts. -/
theorem sealedLog_map_encode (keys : SessionKeys) (dir : Direction) (hostId sid : Str)
    (kind : Kind) (count : Nat) (frames : List StreamFrame) :
    (sealedLog keys dir hostId sid kind StreamFrame.encode count frames).map
      (fun a => (a.1, a.2.encode)) =
        sealedLog keys dir hostId sid kind id count (frames.map StreamFrame.encode) := by
  induction frames generalizing count with
  | nil => rfl
  | cons f fs ih => simp [sealedLog, ih]

/-- Each of the four receivers, from its creation on, against the honest sealer at
the other end of its channel and any deliveries of a broker that cannot forge. -/
theorem sealed_channels_sound (hostId sid : Str) :
    (∀ (session : Session) (payloads : List Bytes) (delivered : List Envelope),
      session.recvHigh = none → payloads.length ≤ 2 ^ 64 →
      Unforgeable (session.keys.key .agentToCoord)
        (sealRun (fun n p => sealUplink session.keys n hostId sid p) 0 payloads) delivered →
      ChannelGuarantee Session.openUplink (openEnvelope session.keys .agentToCoord)
        Session.recvHigh session
        (sealRun (fun n p => sealUplink session.keys n hostId sid p) 0 payloads) delivered) ∧
    (∀ (route : ShellRoute) (frames : List StreamFrame) (delivered : List Envelope),
      route.recvHigh = none → frames.length ≤ 2 ^ 64 →
      Unforgeable (route.streamKeys.key .agentToCoord)
        (sealRun UplinkPump.sealFrame ⟨route.streamKeys, hostId, sid, 0⟩ frames) delivered →
      ChannelGuarantee ShellRoute.openUplink (openEnvelope route.streamKeys .agentToCoord)
        ShellRoute.recvHigh route
        (sealRun UplinkPump.sealFrame ⟨route.streamKeys, hostId, sid, 0⟩ frames) delivered) ∧
    (∀ (est : Established) (payloads : List Bytes) (delivered : List Envelope),
      est.recvHigh = none → payloads.length ≤ 2 ^ 64 →
      Unforgeable (est.keys.key .coordToAgent)
        (sealRun (fun s p => Session.sealDownlink s hostId p) (Session.start sid est.keys)
          payloads) delivered →
      ChannelGuarantee Established.openDownlink (openEnvelope est.keys .coordToAgent)
        Established.recvHigh est
        (sealRun (fun s p => Session.sealDownlink s hostId p) (Session.start sid est.keys)
          payloads) delivered) ∧
    (∀ (stream : ShellStream) (route : ShellRoute) (frames : List StreamFrame)
        (delivered : List Envelope),
      stream.recvHigh = none → route.streamKeys = stream.streamKeys → route.sendSeq = 0 →
      frames.length ≤ 2 ^ 64 →
      Unforgeable (stream.streamKeys.key .coordToAgent)
        ((sealRun (fun r f => ShellRoute.sealDownlink r hostId f) route frames).map
          (fun a => (a.1, a.2.encode))) delivered →
      ChannelGuarantee ShellStream.openDownlink (openEnvelope stream.streamKeys .coordToAgent)
        ShellStream.recvHigh stream
        ((sealRun (fun r f => ShellRoute.sealDownlink r hostId f) route frames).map
          (fun a => (a.1, a.2.encode))) delivered) := by
  refine ⟨?_, ?_, ?_, ?_⟩
  · intro session payloads delivered hstart hlen hforge
    rw [sealRun_sealUplink] at hforge ⊢
    rw [← sessionUplink_read]
    exact receiver_sealedLog sessionUplink hstart (fun _ => rfl) hlen hforge
  · intro route frames delivered hstart hlen hforge
    rw [sealRun_sealFrame] at hforge ⊢
    rw [← routeUplink_read]
    exact receiver_sealedLog routeUplink hstart StreamFrame.decode_encode hlen hforge
  · intro est payloads delivered hstart hlen hforge
    rw [sealRun_session] at hforge ⊢
    rw [← establishedDownlink_read]
    exact receiver_sealedLog establishedDownlink hstart (fun _ => rfl) hlen hforge
  · intro stream route frames delivered hstart hkeys hseq hlen hforge
    rw [sealRun_route, sealedLog_map_encode, hkeys, hseq] at hforge ⊢
    rw [← streamDownlink_read]
    exact receiver_sealedLog streamDownlink hstart (fun _ => rfl) (by simpa using hlen) hforge

/-- Deliveries that only replay the log and inject junk are no forgeries. -/
theorem unforgeable_of_replay {P : Type} {key : Key} {log : List (Envelope × P)}
    {delivered : List Envelope}
    (h : ∀ env ∈ delivered, (∃ b, env.ciphertext = .raw b) ∨ ∃ a ∈ log, a.1 = env) :
    Unforgeable key log delivered := by
  intro env henv nonce aad p hct
  rcases h env henv with ⟨b, hb⟩ | ⟨a, ha, rfl⟩
  · rw [hct] at hb
    cases hb
  · exact ⟨a, ha, rfl⟩

/-- A junk envelope with the highest sequence number. -/
def junkEnvelope : Envelope :=
  ⟨Str.lit "h", Str.lit "s", 18446744073709551615, 1, .raw [0]⟩

/-- Junk first, then the whole log twice. -/
def replayTwice {P : Type} (log : List (Envelope × P)) : List Envelope :=
  junkEnvelope :: (log.map Prod.fst ++ log.map Prod.fst)

theorem unforgeable_replayTwice {P : Type} (key : Key) (log : List (Envelope × P)) :
    Unforgeable key log (replayTwice log) := by
  apply unforgeable_of_replay
  intro env henv
  simp only [replayTwice, List.mem_cons, List.mem_append, or_self] at henv
  rcases henv with rfl | henv
  · exact Or.inl ⟨[0], rfl⟩
  · obtain ⟨a, ha, rfl⟩ := List.mem_map.mp henv
    exact Or.inr ⟨a, ha, rfl⟩

/-- Session keys of one exchange. -/
def replayKeys : SessionKeys := SessionKeys.fromShared s(9, 16) [1]

/-- The guarantee at each of the four receivers for a log of two messages, replayed
twice after a junk envelope. -/
theorem sealed_channels_sound_replay :
    (∃ log delivered, log.length = 2 ∧ delivered.length = 5 ∧
      ChannelGuarantee Session.openUplink (openEnvelope replayKeys .agentToCoord)
        Session.recvHigh (Session.start (Str.lit "s") replayKeys) log delivered) ∧
    (∃ log delivered, log.length = 2 ∧ delivered.length = 5 ∧
      ChannelGuarantee ShellRoute.openUplink (openEnvelope replayKeys .agentToCoord)
        ShellRoute.recvHigh ⟨Str.lit "t", replayKeys, Str.lit "s", 0, none, 0⟩ log delivered) ∧
    (∃ log delivered, log.length = 2 ∧ delivered.length = 5 ∧
      ChannelGuarantee Established.openDownlink (openEnvelope replayKeys .coordToAgent)
        Established.recvHigh ⟨replayKeys, Str.lit "s", 0, none⟩ log delivered) ∧
    (∃ log delivered, log.length = 2 ∧ delivered.length = 5 ∧
      ChannelGuarantee ShellStream.openDownlink (openEnvelope replayKeys .coordToAgent)
        ShellStream.recvHigh ⟨replayKeys, none⟩ log delivered) := by
  obtain ⟨hsession, hroute, hest, hstream⟩ :=
    sealed_channels_sound (Str.lit "h") (Str.lit "s")
  refine ⟨⟨_, _, ?_, ?_, hsession (Session.start (Str.lit "s") replayKeys)
      [ctrlSessionAck, [1]] _ rfl (by decide) (unforgeable_replayTwice _ _)⟩,
    ⟨_, _, ?_, ?_, hroute ⟨Str.lit "t", replayKeys, Str.lit "s", 0, none, 0⟩
      [⟨default, false⟩, eofFrame] _ rfl (by decide) (unforgeable_replayTwice _ _)⟩,
    ⟨_, _, ?_, ?_, hest ⟨replayKeys, Str.lit "s", 0, none⟩
      [ctrlSessionReady, [1]] _ rfl (by decide) (unforgeable_replayTwice _ _)⟩,
    ⟨_, _, ?_, ?_, hstream ⟨replayKeys, none⟩
      ⟨Str.lit "t", replayKeys, Str.lit "s", 0, none, 0⟩ [⟨default, false⟩, eofFrame] _ rfl rfl
      rfl (by decide) (unforgeable_replayTwice _ _)⟩⟩ <;>
    simp [sealRun, replayTwice]

end System
end OpenSsmAgent
