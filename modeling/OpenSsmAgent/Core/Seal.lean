import OpenSsmAgent.Lib.SymbolicCrypto

/-!
# The payload seal

Session keys, their derivation and the sealing primitive of
{lit}`osa-core/src/seal.rs`, over ideal primitives: the key of a direction is the
HKDF tree it was expanded from, the nonce is four zero bytes and the sequence
number.

Main results:

- Theorem {lit}`fromShared_key_inj`: a session direction key determines the
  shared secret, the transcript and the direction.
- Theorem {lit}`deriveStream_key_inj`: a stream direction key determines the
  session direction key and the stream id.
- Theorem {lit}`fromShared_key_ne_deriveStream_key`: session keys and stream keys
  never meet.
- Theorem {lit}`Handshake.derive_symm`: both sides of an exchange derive the same
  keys.
-/

open Framing SymbolicCrypto

namespace OpenSsmAgent
namespace Seal

/-! ## Directions and labels -/

/-- Direction of an envelope. -/
inductive Direction where
  | coordToAgent
  | agentToCoord
deriving DecidableEq

def labelC2a : Bytes := utf8 "osa/v1 c2a"

def labelA2c : Bytes := utf8 "osa/v1 a2c"

/-- The info of a stream subkey up to the stream id. -/
def labelStream : Bytes := utf8 "osa/v1 stream "

/-- The info of a session direction key. -/
def Direction.label : Direction → Bytes
  | .coordToAgent => labelC2a
  | .agentToCoord => labelA2c

theorem Direction.label_injective : Function.Injective Direction.label := by
  intro d e h
  revert h
  cases d <;> cases e <;> decide

/-- The info of a stream subkey. -/
def streamInfo (streamId : Bytes) : Bytes :=
  labelStream ++ streamId

theorem streamInfo_injective : Function.Injective streamInfo := by
  intro s t h
  exact List.append_cancel_left h

/-- The eighth byte tells a session label from a stream info. -/
theorem Direction.label_ne_streamInfo (d : Direction) (streamId : Bytes) :
    d.label ≠ streamInfo streamId := by
  intro h
  have hbyte : d.label[7]? = (streamInfo streamId)[7]? := by rw [h]
  have hstream : (streamInfo streamId)[7]? = labelStream[7]? :=
    List.getElem?_append_left (by decide)
  rw [hstream] at hbyte
  revert hbyte
  cases d <;> decide

/-! ## Session keys -/

/-- Per-session symmetric keys, one per direction. -/
structure SessionKeys where
  c2a : Key
  a2c : Key
deriving DecidableEq

namespace SessionKeys

/-- The key that {lit}`cipher` selects. -/
def key (keys : SessionKeys) : Direction → Key
  | .coordToAgent => keys.c2a
  | .agentToCoord => keys.a2c

/-- {lit}`from_shared`: extract with the binding as salt, expand per direction. -/
def fromShared (shared : Shared) (binding : Bytes) : SessionKeys where
  c2a := .expand (.extract binding shared) labelC2a
  a2c := .expand (.extract binding shared) labelA2c

/-- {lit}`derive_stream`: expand each direction key with the stream info. -/
def deriveStream (keys : SessionKeys) (streamId : Bytes) : SessionKeys where
  c2a := .expand keys.c2a (streamInfo streamId)
  a2c := .expand keys.a2c (streamInfo streamId)

@[simp] theorem fromShared_key (shared : Shared) (binding : Bytes) (d : Direction) :
    (fromShared shared binding).key d = .expand (.extract binding shared) d.label := by
  cases d <;> rfl

@[simp] theorem deriveStream_key (keys : SessionKeys) (streamId : Bytes) (d : Direction) :
    (keys.deriveStream streamId).key d = .expand (keys.key d) (streamInfo streamId) := by
  cases d <;> rfl

/-- A session direction key determines the shared secret, the transcript and the
direction. -/
theorem fromShared_key_inj {s t : Shared} {b c : Bytes} {d e : Direction}
    (h : (fromShared s b).key d = (fromShared t c).key e) : s = t ∧ b = c ∧ d = e := by
  simp only [fromShared_key, Key.expand.injEq, Key.extract.injEq] at h
  exact ⟨h.1.2, h.1.1, Direction.label_injective h.2⟩

/-- A stream direction key determines the session direction key and the stream
id. -/
theorem deriveStream_key_inj {keys keys' : SessionKeys} {s t : Bytes} {d e : Direction}
    (h : (keys.deriveStream s).key d = (keys'.deriveStream t).key e) :
    keys.key d = keys'.key e ∧ s = t := by
  simp only [deriveStream_key, Key.expand.injEq] at h
  exact ⟨h.1, streamInfo_injective h.2⟩

/-- Session keys and stream keys never meet. -/
theorem fromShared_key_ne_deriveStream_key (shared : Shared) (binding : Bytes)
    (keys : SessionKeys) (streamId : Bytes) (d e : Direction) :
    (fromShared shared binding).key d ≠ (keys.deriveStream streamId).key e := by
  intro h
  simp only [fromShared_key, deriveStream_key, Key.expand.injEq] at h
  exact d.label_ne_streamInfo streamId h.2

end SessionKeys

/-! ## Sealing and opening -/

/-- The 96-bit nonce: four zero bytes followed by the sequence number. -/
def nonce (seq : UInt64) : Bytes :=
  List.replicate 4 0 ++ be64 seq

theorem nonce_injective : Function.Injective nonce := by
  intro m n h
  exact be64_selfDelimiting.injective (List.append_cancel_left h)

namespace SessionKeys

/-- {lit}`SessionKeys::seal`. -/
def «seal» (keys : SessionKeys) (dir : Direction) (seq : UInt64) (aad plaintext : Bytes) :
    Ciphertext :=
  .sealed (keys.key dir) (nonce seq) aad plaintext

/-- {lit}`SessionKeys::open`. -/
def «open» (keys : SessionKeys) (dir : Direction) (seq : UInt64) (aad : Bytes)
    (ciphertext : Ciphertext) : Option Bytes :=
  aeadOpen (keys.key dir) (nonce seq) aad ciphertext

theorem open_eq_some_iff {keys : SessionKeys} {dir : Direction} {seq : UInt64}
    {aad p : Bytes} {c : Ciphertext} :
    keys.open dir seq aad c = some p ↔ c = keys.seal dir seq aad p :=
  aeadOpen_eq_some_iff

end SessionKeys

/-- One call of {lit}`SessionKeys::seal` by a sequence allocator: the key it
selects and the number of calls the allocator has made before.  The sequence
number on the wire is that number in a machine word. -/
structure SealCall where
  key : Key
  count : Nat
deriving DecidableEq

/-- The sequence number an allocator hands out after a number of calls. -/
def wireSeq (count : Nat) : UInt64 :=
  UInt64.ofNat count

/-- The key and nonce a call uses. -/
def SealCall.keyNonce (c : SealCall) : Key × Bytes :=
  (c.key, nonce (wireSeq c.count))

/-- Below the end of the sequence space, the wire value is the count. -/
theorem toNat_wireSeq {n : Nat} (hn : n < 2 ^ 64) : (wireSeq n).toNat = n := by
  rw [wireSeq, UInt64.toNat_ofNat', Nat.mod_eq_of_lt hn]

theorem wireSeq_inj {m n : Nat} (hm : m < 2 ^ 64) (hn : n < 2 ^ 64)
    (h : wireSeq m = wireSeq n) : m = n := by
  rw [← toNat_wireSeq hm, h, toNat_wireSeq hn]

/-- Below the end of the sequence space, calls that agree on key and nonce agree
on the allocator's count. -/
theorem SealCall.keyNonce_inj {c d : SealCall} (hc : c.count < 2 ^ 64) (hd : d.count < 2 ^ 64)
    (h : c.keyNonce = d.keyNonce) : c = d := by
  simp only [SealCall.keyNonce, Prod.mk.injEq] at h
  have hcount := wireSeq_inj hc hd (nonce_injective h.2)
  cases c
  cases d
  simp_all

/-- The key and the count of a call. -/
def SealCall.pair (c : SealCall) : Key × Nat :=
  (c.key, c.count)

/-- Calls that repeat no key and count repeat no key and nonce, below the end of
the sequence space. -/
theorem SealCall.nodup_keyNonce {calls : List SealCall} (hpairs : (calls.map SealCall.pair).Nodup)
    (hcount : ∀ c ∈ calls, c.count < 2 ^ 64) : (calls.map SealCall.keyNonce).Nodup :=
  hpairs.of_map.map_on (fun c hc d hd => SealCall.keyNonce_inj (hcount c hc) (hcount d hd))

/-! ## The key exchange -/

/-- The session handshake failed. -/
inductive HandshakeError where
  | weakPeerKey
deriving DecidableEq

/-- One side's ephemeral: its secret is identified by the public key it hands to
the peer. -/
structure Handshake where
  «public» : Point
deriving DecidableEq

namespace Handshake

/-- The salt of the session keys: the binding and both ephemerals in ascending
order. -/
def transcript (own peer : Point) (binding : Bytes) : Bytes :=
  binding ++ (orderPair own peer).1.bytes ++ (orderPair own peer).2.bytes

/-- {lit}`Handshake::derive`. -/
def derive (self : Handshake) (peerPublic : Point) (binding : Bytes) :
    Except HandshakeError SessionKeys :=
  if contributory peerPublic then
    .ok (SessionKeys.fromShared (diffieHellman self.public peerPublic)
      (transcript self.public peerPublic binding))
  else .error .weakPeerKey

theorem transcript_comm (p q : Point) (binding : Bytes) :
    transcript p q binding = transcript q p binding := by
  simp only [transcript, orderPair_comm p q]

theorem derive_eq_ok_iff {self : Handshake} {peer : Point} {binding : Bytes}
    {keys : SessionKeys} :
    self.derive peer binding = .ok keys ↔
      contributory peer = true ∧
        keys = SessionKeys.fromShared (diffieHellman self.public peer)
          (transcript self.public peer binding) := by
  unfold derive
  split_ifs with h
  · simp [h, eq_comm]
  · simp [h]

/-- Both sides of an exchange derive the same keys. -/
theorem derive_symm {p q : Handshake} {binding : Bytes} {keys keys' : SessionKeys}
    (hp : p.derive q.public binding = .ok keys) (hq : q.derive p.public binding = .ok keys') :
    keys = keys' := by
  rw [derive_eq_ok_iff] at hp hq
  rw [hp.2, hq.2, diffieHellman_comm, transcript_comm]

end Handshake
end Seal
end OpenSsmAgent
