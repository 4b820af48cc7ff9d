import OpenSsmAgent.Core.Seal

/-!
# The authenticated session handshake

The transcripts, the initiator and the responder of
{lit}`osa-core/src/handshake.rs`.  A random ephemeral is an argument: the entropy
source either yields one or fails.

Main results:

- Theorems {lit}`clientTranscript_injective` and
  {lit}`serverTranscript_injective`: the signed transcripts determine their
  fields.
- Theorem {lit}`clientTranscript_ne_serverTranscript`: no client transcript is a
  server transcript.
- Theorem {lit}`sessionSalt_injective`: the salt of the session keys determines
  the session id, both ephemerals and the certificate.
- Theorems {lit}`finish_eq_ok_iff` and {lit}`respond_eq_ok_iff`: what each side
  has checked when it holds session keys.
-/

open Framing SymbolicCrypto

namespace OpenSsmAgent
namespace Hs

open Seal

/-! ## Transcripts -/

def clientCtx : Bytes := utf8 "osa/v1 hs c2s"

def serverCtx : Bytes := utf8 "osa/v1 hs s2c"

/-- What the agent signs. -/
def clientTranscript (sid : Bytes) (epoch : UInt64) (clientEph : Point) : Bytes :=
  clientCtx ++ pushField sid ++ be64 epoch ++ pushField clientEph.bytes

/-- What the coordinator signs. -/
def serverTranscript (sid : Bytes) (clientEph serverEph : Point) : Bytes :=
  serverCtx ++ pushField sid ++ pushField clientEph.bytes ++ pushField serverEph.bytes

/-- The binding of the session keys. -/
def sessionBinding (sid : Bytes) (clientEph serverEph : Point) (certDer : Bytes) : Bytes :=
  pushField sid ++ pushField clientEph.bytes ++ pushField serverEph.bytes ++ pushField certDer

theorem pushField_point : SelfDelimiting (fun p : Point => pushField p.bytes) :=
  pushField_selfDelimiting (fun p => by rw [p.length_eq]; decide) Fixed.bytes_injective

theorem clientTranscript_injective {s s' : Blob} {n n' : UInt64} {p p' : Point}
    (h : clientTranscript s.bytes n p = clientTranscript s'.bytes n' p') :
    s = s' ∧ n = n' ∧ p = p' := by
  simp only [clientTranscript, List.append_assoc, List.append_cancel_left_eq] at h
  obtain ⟨hs, h⟩ := lengthPrefixed_blob h
  obtain ⟨hn, h⟩ := be64_selfDelimiting h
  exact ⟨hs, hn, pushField_point.injective h⟩

theorem serverTranscript_injective {s s' : Blob} {p p' q q' : Point}
    (h : serverTranscript s.bytes p q = serverTranscript s'.bytes p' q') :
    s = s' ∧ p = p' ∧ q = q' := by
  simp only [serverTranscript, List.append_assoc, List.append_cancel_left_eq] at h
  obtain ⟨hs, h⟩ := lengthPrefixed_blob h
  obtain ⟨hp, h⟩ := pushField_point h
  exact ⟨hs, hp, pushField_point.injective h⟩

/-- The contexts differ, so no client transcript is a server transcript. -/
theorem clientTranscript_ne_serverTranscript (s s' : Bytes) (n : UInt64) (p p' q' : Point) :
    clientTranscript s n p ≠ serverTranscript s' p' q' := by
  intro h
  simp only [clientTranscript, serverTranscript, List.append_assoc] at h
  have hctx := List.append_inj_left h (by decide)
  revert hctx
  decide

/-- The salt of the session keys determines the session id, both ephemerals and
the certificate. -/
theorem sessionSalt_injective {s s' c c' : Blob} {p p' q q' a b a' b' : Point}
    (h : Handshake.transcript a b (sessionBinding s.bytes p q c.bytes) =
      Handshake.transcript a' b' (sessionBinding s'.bytes p' q' c'.bytes)) :
    s = s' ∧ p = p' ∧ q = q' ∧ c = c' := by
  simp only [Handshake.transcript, sessionBinding, List.append_assoc] at h
  obtain ⟨hs, h⟩ := lengthPrefixed_blob h
  obtain ⟨hp, h⟩ := pushField_point h
  obtain ⟨hq, h⟩ := pushField_point h
  obtain ⟨hc, -⟩ := lengthPrefixed_blob h
  exact ⟨hs, hp, hq, hc⟩

/-! ## Signing and verifying -/

/-- A handshake step failed. -/
inductive HsError where
  | badKey
  | badPeerKey
  | badSignature
  | badEphemeral (err : HandshakeError)
  | rng
deriving DecidableEq

/-- {lit}`sign`: the PEM text may not hold a key. -/
def sign (signingKeyPem : Option SigningKey) (msg : Bytes) : Except HsError Signature :=
  match signingKeyPem with
  | none => .error .badKey
  | some key => .ok (.signed key msg 0)

/-- {lit}`verify`. -/
def verify (publicKeySec1 : VerifyingKey) (msg : Bytes) (sig : Signature) :
    Except HsError Unit :=
  match verifySignature publicKeySec1 msg sig with
  | .ok () => .ok ()
  | .error .badKey => .error .badPeerKey
  | .error .badSignature => .error .badSignature

theorem verify_eq_ok_iff {vk : VerifyingKey} {msg : Bytes} {sig : Signature} :
    verify vk msg sig = .ok () ↔
      ∃ key form, vk = .ofKey key ∧ sig = .signed key msg form := by
  rw [← verifySignature_eq_ok_iff]
  unfold verify
  split <;> rename_i h <;> simp [h]

/-- {lit}`Handshake::derive` with its error lifted. -/
def deriveKeys (eph : Handshake) (peer : Point) (binding : Bytes) : Except HsError SessionKeys :=
  match eph.derive peer binding with
  | .ok keys => .ok keys
  | .error e => .error (.badEphemeral e)

theorem deriveKeys_eq_ok_iff {eph : Handshake} {peer : Point} {binding : Bytes}
    {keys : SessionKeys} :
    deriveKeys eph peer binding = .ok keys ↔ eph.derive peer binding = .ok keys := by
  unfold deriveKeys
  split <;> rename_i h <;> simp [h]

/-! ## The initiator -/

/-- The agent's state between its hello and the coordinator's. -/
structure Initiator where
  eph : Handshake
  sid : Blob
  certDer : Blob
deriving DecidableEq

/-- {lit}`Initiator::start`: the ephemeral, or a failed entropy source, is given. -/
def Initiator.start (sid : Blob) (epoch : UInt64) (certDer : Blob)
    (signingKeyPem : Option SigningKey) (eph : Option Point) :
    Except HsError (Initiator × Point × Signature) :=
  match eph with
  | none => .error .rng
  | some clientEph =>
      match sign signingKeyPem (clientTranscript sid.bytes epoch clientEph) with
      | .error e => .error e
      | .ok sig => .ok (⟨⟨clientEph⟩, sid, certDer⟩, clientEph, sig)

/-- {lit}`Initiator::finish`: verify against the pinned CA key, then derive. -/
def Initiator.finish (self : Initiator) (serverEph : Point) (serverSig : Signature)
    (caPublicKeySec1 : VerifyingKey) : Except HsError SessionKeys :=
  match verify caPublicKeySec1
      (serverTranscript self.sid.bytes self.eph.public serverEph) serverSig with
  | .error e => .error e
  | .ok () =>
      deriveKeys self.eph serverEph
        (sessionBinding self.sid.bytes self.eph.public serverEph self.certDer.bytes)

/-- What the initiator has checked when it holds session keys. -/
theorem finish_eq_ok_iff {i : Initiator} {serverEph : Point} {sig : Signature}
    {ca : VerifyingKey} {keys : SessionKeys} :
    i.finish serverEph sig ca = .ok keys ↔
      (∃ key form, ca = .ofKey key ∧
        sig = .signed key (serverTranscript i.sid.bytes i.eph.public serverEph) form) ∧
      contributory serverEph = true ∧
      keys = SessionKeys.fromShared (diffieHellman i.eph.public serverEph)
        (Handshake.transcript i.eph.public serverEph
          (sessionBinding i.sid.bytes i.eph.public serverEph i.certDer.bytes)) := by
  rw [← verify_eq_ok_iff, ← Handshake.derive_eq_ok_iff, ← deriveKeys_eq_ok_iff]
  unfold Initiator.finish
  split <;> rename_i h <;> simp [h]

/-! ## The responder -/

/-- The coordinator's answer and the derived keys. -/
structure ServerResponse where
  serverEph : Point
  sig : Signature
  keys : SessionKeys
deriving DecidableEq

/-- {lit}`respond`: verify the client, draw an ephemeral, sign, derive. -/
def respond (sid : Blob) (epoch : UInt64) (clientEph : Point) (clientSig : Signature)
    (agentPublicKeySec1 : VerifyingKey) (certDer : Blob) (caSigningKeyPem : Option SigningKey)
    (eph : Option Point) : Except HsError ServerResponse :=
  match verify agentPublicKeySec1 (clientTranscript sid.bytes epoch clientEph) clientSig with
  | .error e => .error e
  | .ok () =>
      match eph with
      | none => .error .rng
      | some serverEph =>
          match sign caSigningKeyPem (serverTranscript sid.bytes clientEph serverEph) with
          | .error e => .error e
          | .ok sig =>
              match deriveKeys ⟨serverEph⟩ clientEph
                  (sessionBinding sid.bytes clientEph serverEph certDer.bytes) with
              | .error e => .error e
              | .ok keys => .ok ⟨serverEph, sig, keys⟩

/-- What the responder has checked when it holds session keys. -/
theorem respond_eq_ok_iff {sid certDer : Blob} {epoch : UInt64} {clientEph : Point}
    {clientSig : Signature} {agentKey : VerifyingKey} {caKey : Option SigningKey}
    {eph : Option Point} {r : ServerResponse} :
    respond sid epoch clientEph clientSig agentKey certDer caKey eph = .ok r ↔
      (∃ key form, agentKey = .ofKey key ∧
        clientSig = .signed key (clientTranscript sid.bytes epoch clientEph) form) ∧
      eph = some r.serverEph ∧
      (∃ key, caKey = some key ∧
        r.sig = .signed key (serverTranscript sid.bytes clientEph r.serverEph) 0) ∧
      contributory clientEph = true ∧
      r.keys = SessionKeys.fromShared (diffieHellman r.serverEph clientEph)
        (Handshake.transcript r.serverEph clientEph
          (sessionBinding sid.bytes clientEph r.serverEph certDer.bytes)) := by
  obtain ⟨serverEph, sig, keys⟩ := r
  rw [← verify_eq_ok_iff]
  unfold respond
  cases hv : verify agentKey (clientTranscript sid.bytes epoch clientEph) clientSig with
  | error e => simp
  | ok _ =>
      cases eph with
      | none => simp
      | some q =>
          cases caKey with
          | none => simp [sign]
          | some key =>
              simp only [sign]
              split <;> rename_i h
              · have hno : ¬∃ keys, Handshake.derive ⟨q⟩ clientEph
                    (sessionBinding sid.bytes clientEph q certDer.bytes) = .ok keys := by
                  rintro ⟨keys, hk⟩
                  rw [deriveKeys_eq_ok_iff.mpr hk] at h
                  cases h
                simp only [Handshake.derive_eq_ok_iff] at hno
                simp only [reduceCtorEq, false_iff]
                rintro ⟨-, heq, -, hc, -⟩
                cases heq
                exact hno ⟨_, hc, rfl⟩
              · rw [deriveKeys_eq_ok_iff, Handshake.derive_eq_ok_iff] at h
                obtain ⟨hc, rfl⟩ := h
                constructor
                · intro heq
                  cases heq
                  simp [hc]
                · rintro ⟨-, heq, ⟨k, hk, hsig⟩, -, hkeys⟩
                  cases heq
                  cases hk
                  rw [hsig, hkeys]

/-! ## Where session keys come from -/

/-- The session keys of an exchange between two ephemerals. -/
def SessionKeysOf (clientEph serverEph : Point) (keys : SessionKeys) : Prop :=
  ∃ (sid certDer : Blob) (shared : Shared) (own peer : Point),
    keys = SessionKeys.fromShared shared
      (Handshake.transcript own peer (sessionBinding sid.bytes clientEph serverEph certDer.bytes))

theorem sessionKeysOf_finish {i : Initiator} {serverEph : Point} {sig : Signature}
    {ca : VerifyingKey} {keys : SessionKeys} (h : i.finish serverEph sig ca = .ok keys) :
    SessionKeysOf i.eph.public serverEph keys :=
  ⟨i.sid, i.certDer, _, _, _, (finish_eq_ok_iff.mp h).2.2⟩

theorem sessionKeysOf_respond {sid certDer : Blob} {epoch : UInt64} {clientEph : Point}
    {clientSig : Signature} {agentKey : VerifyingKey} {caKey : Option SigningKey}
    {eph : Option Point} {r : ServerResponse}
    (h : respond sid epoch clientEph clientSig agentKey certDer caKey eph = .ok r) :
    SessionKeysOf clientEph r.serverEph r.keys :=
  ⟨sid, certDer, _, _, _, (respond_eq_ok_iff.mp h).2.2.2.2⟩

/-- A session direction key determines the ephemerals, the direction and the other
direction's key. -/
theorem SessionKeysOf.key_inj {p p' q q' : Point} {keys keys' : SessionKeys} {d e : Direction}
    (h : SessionKeysOf p q keys) (h' : SessionKeysOf p' q' keys')
    (heq : keys.key d = keys'.key e) : p = p' ∧ q = q' ∧ d = e ∧ keys = keys' := by
  obtain ⟨sid, cert, shared, own, peer, rfl⟩ := h
  obtain ⟨sid', cert', shared', own', peer', rfl⟩ := h'
  obtain ⟨hshared, hsalt, hdir⟩ := SessionKeys.fromShared_key_inj heq
  obtain ⟨-, hp, hq, -⟩ := sessionSalt_injective hsalt
  exact ⟨hp, hq, hdir, by rw [hshared, hsalt]⟩

/-- A session direction key is no stream key. -/
theorem SessionKeysOf.key_ne_stream {p q : Point} {keys keys' : SessionKeys}
    (h : SessionKeysOf p q keys) (streamId : Bytes) (d e : Direction) :
    keys.key d ≠ (keys'.deriveStream streamId).key e := by
  obtain ⟨sid, cert, shared, own, peer, rfl⟩ := h
  exact SessionKeys.fromShared_key_ne_deriveStream_key _ _ _ _ _ _

end Hs
end OpenSsmAgent
