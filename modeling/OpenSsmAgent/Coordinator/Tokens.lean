import OpenSsmAgent.Lib.Fallible
import OpenSsmAgent.Core.Domain
import OpenSsmAgent.Lib.GuardedTables
import OpenSsmAgent.Lib.Sha256

/-!
# Join tokens

The two adapters of {lit}`osa-coordinator/src/token.rs`.  The registry runs each
operation under its mutex; the Postgres adapter sends single statements, three to
mint and up to two to redeem, between which anything may happen.

Main results:

- Theorems {lit}`JoinTokenRegistry.mint_sound` and
  {lit}`JoinTokenRegistry.redeem_sound`: the operations of the registry.
- Theorems {lit}`PgJoinTokens.deleteTerminal_sound`, {lit}`PgJoinTokens.insertRow_sound`
  and {lit}`PgJoinTokens.updateRedeemed_sound`: the statements that change the table.
-/

open Framing

namespace OpenSsmAgent
namespace Coordinator

open Domain

/-! ## Tokens, clocks and errors -/

/-- The token of thirty-two random bytes. -/
def tokenOf (raw : Fixed 32) : Str where
  text := String.ofList (hexChars raw.bytes)
  size_lt := by
    have hsize := utf8ByteSize_ofList_le (hexChars raw.bytes)
    rw [length_hexChars, raw.length_eq] at hsize
    omega

/-- {lit}`token_hash`. -/
def tokenHash (token : Str) : Fixed 32 :=
  Sha256.sha256 token.bytes

/-- A {lit}`SystemTime` in nanoseconds from the Unix epoch. -/
abbrev SystemTime := Int

def nanosPerSec : Nat := 1000000000

/-- {lit}`unix_seconds`: zero before the epoch. -/
def unixSeconds (t : SystemTime) : Int :=
  if t < 0 then 0 else t / nanosPerSec

/-- {lit}`as i64` of an unsigned machine word. -/
def asI64 (n : Nat) : Int :=
  if n % 2 ^ 64 < 2 ^ 63 then n % 2 ^ 64 else n % 2 ^ 64 - 2 ^ 64

/-- {lit}`i64::saturating_add`. -/
def saturatingAdd (a b : Int) : Int :=
  max (-2 ^ 63) (min (2 ^ 63 - 1) (a + b))

inductive MintError where
  | rng
  | full
  | backend (message : String)
deriving DecidableEq

inductive RedeemError where
  | unknown
  | expired
  | alreadyRedeemed
  | backend
deriving DecidableEq

def defaultMaxOutstanding : Nat := 10000

/-! ## The registry -/

/-- What the registry keeps of a token. -/
structure TokenState where
  expiresAt : SystemTime
  redeemed : Bool
deriving DecidableEq

abbrev JoinTokenRegistry := Table Str TokenState

/-- {lit}`JoinTokenRegistry::mint` under the lock.  The expiry was computed before,
the clock is read again for the sweep. -/
def JoinTokenRegistry.mint (cap : Nat) (expiresAt now : SystemTime) (raw : Option (Fixed 32))
    (tokens : JoinTokenRegistry) : Except MintError (Str × Int) × JoinTokenRegistry :=
  let kept := tokens.retain (fun _ s => !s.redeemed && now < s.expiresAt)
  if cap ≤ kept.size then (.error .full, kept)
  else
    match raw with
    | none => (.error .rng, kept)
    | some raw =>
        (.ok (tokenOf raw, unixSeconds expiresAt), kept.put (tokenOf raw) ⟨expiresAt, false⟩)

/-- {lit}`JoinTokenRegistry::redeem` under the lock. -/
def JoinTokenRegistry.redeem (now : SystemTime) (token : Str) (tokens : JoinTokenRegistry) :
    Except RedeemError Unit × JoinTokenRegistry :=
  match tokens.lookup token with
  | none => (.error .unknown, tokens)
  | some state =>
      if state.redeemed then (.error .alreadyRedeemed, tokens)
      else if state.expiresAt ≤ now then (.error .expired, tokens)
      else (.ok (), tokens.put token { state with redeemed := true })

/-! ## The table -/

/-- A row of {lit}`join_token`. -/
structure TokenRow where
  expiresAtUnix : Int
  redeemedAtUnix : Option Int
deriving DecidableEq

/-- The table, by its primary key {lit}`token_hash`. -/
abbrev TokenRows := Table (Fixed 32) TokenRow

namespace PgJoinTokens

/-- {lit}`redeemed_at_unix IS NULL AND expires_at_unix > $1`. -/
def outstanding (now : Int) (row : TokenRow) : Bool :=
  row.redeemedAtUnix.isNone && now < row.expiresAtUnix

/-- The DELETE of {lit}`mint`: {lit}`redeemed_at_unix IS NOT NULL OR expires_at_unix <= $1`. -/
def deleteTerminal (now : Int) (rows : TokenRows) : TokenRows :=
  rows.retain (fun _ row => !(row.redeemedAtUnix.isSome || row.expiresAtUnix ≤ now))

/-- The SELECT of {lit}`mint`. -/
def countOutstanding (now : Int) (rows : TokenRows) : Nat :=
  (rows.entries.filter (fun e => outstanding now e.2)).length

/-- The INSERT of {lit}`mint`; the primary key refuses a second row. -/
def insertRow (hash : Fixed 32) (expiresAt : Int) (rows : TokenRows) : Bool × TokenRows :=
  match rows.lookup hash with
  | some _ => (false, rows)
  | none => (true, rows.put hash ⟨expiresAt, none⟩)

/-- The UPDATE of {lit}`redeem`: the rows affected. -/
def updateRedeemed (hash : Fixed 32) (now : Int) (rows : TokenRows) : Nat × TokenRows :=
  match rows.lookup hash with
  | none => (0, rows)
  | some row =>
      if outstanding now row then (1, rows.put hash { row with redeemedAtUnix := some now })
      else (0, rows)

/-- The SELECT of {lit}`redeem`, and what it says. -/
def classify (hash : Fixed 32) (rows : TokenRows) : RedeemError :=
  match rows.lookup hash with
  | none => .unknown
  | some row => if row.redeemedAtUnix.isSome then .alreadyRedeemed else .expired

end PgJoinTokens

/-! ## One-time use -/

/-- The registry is sound for the tokens issued and claimed. -/
abbrev JoinTokenRegistry.Sound (issued : List (Str × SystemTime)) (claimed : List Str)
    (tokens : JoinTokenRegistry) : Prop :=
  OneTime.Sound TokenState.redeemed TokenState.expiresAt issued claimed tokens

/-- The table is sound for the token hashes issued and claimed. -/
abbrev PgJoinTokens.Sound (issued : List (Fixed 32 × Int)) (claimed : List (Fixed 32))
    (rows : TokenRows) : Prop :=
  OneTime.Sound (fun row : TokenRow => row.redeemedAtUnix.isSome) TokenRow.expiresAtUnix issued
    claimed rows

namespace JoinTokenRegistry

variable {issued : List (Str × SystemTime)} {claimed : List Str} {tokens : JoinTokenRegistry}

/-- Minting issues a new token or nothing. -/
theorem mint_sound (h : tokens.Sound issued claimed) (cap : Nat) (expiresAt now : SystemTime)
    (raw : Option (Fixed 32)) :
    (∀ token expires, (tokens.mint cap expiresAt now raw).1 = .ok (token, expires) →
      token ∉ issued.map Prod.fst →
      (tokens.mint cap expiresAt now raw).2.Sound (issued ++ [(token, expiresAt)]) claimed) ∧
    (∀ e, (tokens.mint cap expiresAt now raw).1 = .error e →
      (tokens.mint cap expiresAt now raw).2.Sound issued claimed) := by
  have hkept := h.retain (fun _ s => !s.redeemed && now < s.expiresAt)
  unfold mint
  dsimp only
  split
  · exact ⟨nofun, fun _ _ => hkept⟩
  cases raw with
  | none => exact ⟨nofun, fun _ _ => hkept⟩
  | some raw =>
      refine ⟨?_, nofun⟩
      rintro token expires ⟨rfl, rfl⟩ hnew
      exact hkept.issue hnew ⟨expiresAt, false⟩

/-- Redeeming claims an unexpired token, or changes nothing. -/
theorem redeem_sound (h : tokens.Sound issued claimed) (now : SystemTime) (token : Str) :
    ((tokens.redeem now token).1 = .ok () →
      token ∉ claimed ∧ (∃ expires, (token, expires) ∈ issued ∧ now < expires) ∧
      (tokens.redeem now token).2.Sound issued (claimed ++ [token])) ∧
    (∀ e, (tokens.redeem now token).1 = .error e → (tokens.redeem now token).2 = tokens) := by
  unfold redeem
  split
  · exact ⟨nofun, fun _ _ => rfl⟩
  rename_i state hstate
  split
  · exact ⟨nofun, fun _ _ => rfl⟩
  rename_i hunused
  rw [Bool.not_eq_true] at hunused
  split
  · exact ⟨nofun, fun _ _ => rfl⟩
  rename_i hlive
  refine ⟨fun _ => ⟨h.unused token state hstate hunused,
    ⟨state.expiresAt, h.known token state hstate, not_le.mp hlive⟩, ?_⟩, nofun⟩
  exact h.claim hstate hunused rfl rfl

end JoinTokenRegistry

namespace PgJoinTokens

variable {issued : List (Fixed 32 × Int)} {claimed : List (Fixed 32)} {rows : TokenRows}

theorem deleteTerminal_sound (h : Sound issued claimed rows) (now : Int) :
    Sound issued claimed (deleteTerminal now rows) :=
  h.retain _

/-- The INSERT issues a row, or changes nothing. -/
theorem insertRow_sound (h : Sound issued claimed rows) (hash : Fixed 32) (expiresAt : Int) :
    ((insertRow hash expiresAt rows).1 = true → hash ∉ issued.map Prod.fst →
      Sound (issued ++ [(hash, expiresAt)]) claimed (insertRow hash expiresAt rows).2) ∧
    ((insertRow hash expiresAt rows).1 = false → (insertRow hash expiresAt rows).2 = rows) := by
  unfold insertRow
  split
  · exact ⟨nofun, fun _ => rfl⟩
  · exact ⟨fun _ hnew => h.issue hnew ⟨expiresAt, none⟩, nofun⟩

/-- The UPDATE claims an unexpired row, or changes nothing. -/
theorem updateRedeemed_sound (h : Sound issued claimed rows) (hash : Fixed 32) (now : Int) :
    ((updateRedeemed hash now rows).1 = 1 →
      hash ∉ claimed ∧ (∃ expires, (hash, expires) ∈ issued ∧ now < expires) ∧
      Sound issued (claimed ++ [hash]) (updateRedeemed hash now rows).2) ∧
    ((updateRedeemed hash now rows).1 ≠ 1 → (updateRedeemed hash now rows).2 = rows) ∧
    Sound issued claimed (updateRedeemed hash now rows).2 := by
  unfold updateRedeemed
  split
  · exact ⟨nofun, fun _ => rfl, h⟩
  rename_i row hrow
  split
  · rename_i hlive
    obtain ⟨hunused, hexpires⟩ := Bool.and_eq_true_iff.mp hlive
    have hfalse : row.redeemedAtUnix.isSome = false := Option.isSome_eq_false_iff.mpr hunused
    refine ⟨fun _ => ⟨h.unused hash row hrow hfalse,
      ⟨row.expiresAtUnix, h.known hash row hrow, of_decide_eq_true hexpires⟩, ?_⟩,
      fun hne => absurd rfl hne, ?_⟩
    · exact h.claim hrow hfalse rfl rfl
    · exact h.burn hrow rfl rfl
  · exact ⟨nofun, fun _ => rfl, h⟩

end PgJoinTokens

end Coordinator
end OpenSsmAgent
