import OpenSsmAgent.Coordinator.Tokens
import OpenSsmAgent.Lib.TableMirror

/-!
# The two token stores agree

{lit}`JoinTokenRegistry` and {lit}`PgJoinTokens` behind the trait {lit}`JoinTokens`,
served one operation after another.  Each operation reads the clock once, in whole
seconds, and every statement of the database succeeds.

Main results:

- Theorems {lit}`mint_mirrors` and {lit}`redeem_mirrors`: stores that hold the same
  tokens give the same answer and hold the same tokens again.
- Theorem {lit}`stores_agree`: from empty stores, every sequence of operations gets the
  same answers.
-/

open Framing

namespace OpenSsmAgent
namespace Coordinator

open Domain

/-! ## Operations -/

/-- {lit}`PgJoinTokens::mint`, its statements one after another. -/
def PgJoinTokens.mint (cap maxTtl ttl : Nat) (clock : SystemTime) (raw : Option (Fixed 32))
    (rows : TokenRows) : Except MintError (Str × Int) × TokenRows :=
  let now := unixSeconds clock
  let expiresAt := saturatingAdd now (asI64 (min ttl maxTtl / nanosPerSec))
  let kept := deleteTerminal now rows
  if cap ≤ countOutstanding now kept then (.error .full, kept)
  else
    match raw with
    | none => (.error .rng, kept)
    | some raw =>
        match insertRow (tokenHash (tokenOf raw)) expiresAt kept with
        | (true, rows') => (.ok (tokenOf raw, expiresAt), rows')
        | (false, rows') =>
            (.error (.backend ("error returned from database: " ++
              "duplicate key value violates unique constraint \"join_token_pkey\"")), rows')

/-- {lit}`PgJoinTokens::redeem`, its statements one after another. -/
def PgJoinTokens.redeem (clock : SystemTime) (token : Str) (rows : TokenRows) :
    Except RedeemError Unit × TokenRows :=
  let res := updateRedeemed (tokenHash token) (unixSeconds clock) rows
  if res.1 = 1 then (.ok (), res.2) else (.error (classify (tokenHash token) res.2), res.2)

/-- An operation with the clock it reads and the bytes it draws; times are in seconds. -/
inductive TokenOp where
  | mint (ttl now : Nat) (raw : Option (Fixed 32))
  | redeem (token : Str) (now : Nat)

/-- What an operation returns. -/
inductive TokenAnswer where
  | mint (result : Except MintError (Str × Int))
  | redeem (result : Except RedeemError Unit)
deriving DecidableEq

/-- An operation on the registry. -/
def TokenOp.onRegistry (cap maxTtl : Nat) (tokens : JoinTokenRegistry) :
    TokenOp → TokenAnswer × JoinTokenRegistry
  | .mint ttl now raw =>
      let clock : SystemTime := now * nanosPerSec
      let expiresAt := clock + min (ttl * nanosPerSec) (maxTtl * nanosPerSec)
      let out := tokens.mint cap expiresAt clock raw
      (.mint out.1, out.2)
  | .redeem token now =>
      let out := tokens.redeem (now * nanosPerSec) token
      (.redeem out.1, out.2)

/-- An operation on the table. -/
def TokenOp.onTable (cap maxTtl : Nat) (rows : TokenRows) : TokenOp → TokenAnswer × TokenRows
  | .mint ttl now raw =>
      let out := PgJoinTokens.mint cap (maxTtl * nanosPerSec) (ttl * nanosPerSec)
        (now * nanosPerSec) raw rows
      (.mint out.1, out.2)
  | .redeem token now =>
      let out := PgJoinTokens.redeem (now * nanosPerSec) token rows
      (.redeem out.1, out.2)

/-- The answers to a sequence of operations. -/
def answers {S : Type} (serve : S → TokenOp → TokenAnswer × S) (s : S) :
    List TokenOp → List TokenAnswer
  | [] => []
  | op :: ops => (serve s op).1 :: answers serve (serve s op).2 ops

/-- The bytes an operation draws. -/
def TokenOp.drawn : TokenOp → Option (Fixed 32)
  | .mint _ _ raw => raw
  | .redeem _ _ => none

/-- The token an operation mints or redeems. -/
def TokenOp.token : TokenOp → Option Str
  | .mint _ _ raw => raw.map tokenOf
  | .redeem token _ => some token

/-- The expiry of a minted token is representable. -/
def TokenOp.InRange (maxTtl : Nat) : TokenOp → Prop
  | .mint ttl now _ => now + min ttl maxTtl < 2 ^ 63
  | .redeem _ _ => True

/-! ## Whole seconds -/

theorem tokenOf_injective : Function.Injective tokenOf := by
  intro raw raw' h
  have htext : String.ofList (hexChars raw.bytes) = String.ofList (hexChars raw'.bytes) :=
    congrArg Str.text h
  exact Fixed.bytes_injective (hexChars_injective (String.ofList_injective htext))

theorem unixSeconds_natCast (n : Nat) : unixSeconds ((n : Int) * nanosPerSec) = n := by
  have hnonneg : ¬ (n : Int) * nanosPerSec < 0 := not_lt.mpr (by positivity)
  rw [unixSeconds, if_neg hnonneg, Int.mul_ediv_cancel _ (by decide)]

/-- In range, the table computes the expiry without wrapping or saturating. -/
theorem saturatingAdd_asI64 {now ttl maxTtl : Nat} (h : now + min ttl maxTtl < 2 ^ 63) :
    saturatingAdd now (asI64 (min (ttl * nanosPerSec) (maxTtl * nanosPerSec) / nanosPerSec)) =
      ((now + min ttl maxTtl : Nat) : Int) := by
  have hpos : 0 < nanosPerSec := by decide
  rw [Nat.mul_min_mul_right, Nat.mul_div_cancel _ hpos]
  unfold saturatingAdd asI64
  omega

/-- The registry adds the same lifetime to the same clock. -/
theorem registry_expiry (now ttl maxTtl : Nat) :
    (now : Int) * nanosPerSec + (min (ttl * nanosPerSec) (maxTtl * nanosPerSec) : Nat) =
      ((now + min ttl maxTtl : Nat) : Int) * nanosPerSec := by
  rw [Nat.mul_min_mul_right]
  push_cast
  ring

/-! ## The correspondence -/

/-- A row holds what the registry holds of the token. -/
def SameToken (state : TokenState) (row : TokenRow) : Prop :=
  state.expiresAt = row.expiresAtUnix * nanosPerSec ∧
  state.redeemed = row.redeemedAtUnix.isSome

/-- The table holds, by their hashes, the tokens of the registry. -/
abbrev SameTokens (inPlay : Set Str) (tokens : JoinTokenRegistry) (rows : TokenRows) : Prop :=
  Table.Mirrors tokenHash inPlay SameToken tokens rows

/-- At a whole second the stores agree on whether a token has expired. -/
theorem SameToken.lt_iff {state : TokenState} {row : TokenRow} (h : SameToken state row)
    (now : Nat) :
    (now : Int) * nanosPerSec < state.expiresAt ↔ (now : Int) < row.expiresAtUnix := by
  rw [h.1]
  unfold nanosPerSec
  omega

/-- After the DELETE every row is outstanding. -/
theorem countOutstanding_deleteTerminal (now : Int) (rows : TokenRows) :
    PgJoinTokens.countOutstanding now (PgJoinTokens.deleteTerminal now rows) =
      (PgJoinTokens.deleteTerminal now rows).size := by
  have hkept : ∀ e ∈ (PgJoinTokens.deleteTerminal now rows).entries,
      PgJoinTokens.outstanding now e.2 = true := by
    intro e he
    have hkeep := (List.mem_filter.mp he).2
    simp only [Bool.not_or, Bool.and_eq_true, Bool.not_eq_true', decide_eq_false_iff_not,
      not_le] at hkeep
    simp [PgJoinTokens.outstanding, ← Option.not_isSome, hkeep.1, hkeep.2]
  rw [PgJoinTokens.countOutstanding, List.filter_eq_self.mpr hkept, Table.size_eq_length]

theorem PgJoinTokens.insertRow_of_none {rows : TokenRows} {hash : Fixed 32}
    (h : rows.lookup hash = none) (expiresAt : Int) :
    insertRow hash expiresAt rows = (true, rows.put hash ⟨expiresAt, none⟩) := by
  simp [insertRow, h]

/-- Redeeming a token the table does not hold. -/
theorem PgJoinTokens.redeem_of_none {rows : TokenRows} {token : Str}
    (h : rows.lookup (tokenHash token) = none) (clock : SystemTime) :
    redeem clock token rows = (.error .unknown, rows) := by
  simp [redeem, updateRedeemed, classify, h]

/-- The UPDATE and the SELECT together decide in the order of the registry. -/
theorem PgJoinTokens.redeem_of_some {rows : TokenRows} {token : Str} {row : TokenRow}
    (h : rows.lookup (tokenHash token) = some row) (clock : SystemTime) :
    redeem clock token rows =
      if row.redeemedAtUnix.isSome then (.error .alreadyRedeemed, rows)
      else if row.expiresAtUnix ≤ unixSeconds clock then (.error .expired, rows)
      else (.ok (), rows.put (tokenHash token)
        { row with redeemedAtUnix := some (unixSeconds clock) }) := by
  obtain ⟨expiresAt, redeemedAt⟩ := row
  cases redeemedAt with
  | some _ => simp [redeem, updateRedeemed, outstanding, classify, h]
  | none =>
      by_cases hexpired : expiresAt ≤ unixSeconds clock
      · simp [redeem, updateRedeemed, outstanding, classify, h, hexpired, not_lt.mpr hexpired]
      · simp [redeem, updateRedeemed, outstanding, h, hexpired, not_le.mp hexpired]

section Steps

variable {inPlay : Set Str} {tokens : JoinTokenRegistry} {rows : TokenRows}

/-- The sweep of the registry and the DELETE of the table. -/
theorem SameTokens.sweep (h : SameTokens inPlay tokens rows) (now : Nat) :
    SameTokens inPlay
      (tokens.retain fun _ s => !s.redeemed && (now : Int) * nanosPerSec < s.expiresAt)
      (PgJoinTokens.deleteTerminal now rows) := by
  refine h.retain fun _ state row hsame => ?_
  simp only [hsame.2, hsame.lt_iff now, Bool.not_or, ← decide_not, not_le]

variable (cap maxTtl : Nat)

/-- A token is minted with the same expiry, or refused for the same reason. -/
theorem mint_mirrors (h : SameTokens inPlay tokens rows) (hhash : Set.InjOn tokenHash inPlay)
    {ttl now : Nat} {raw : Option (Fixed 32)} (hrange : now + min ttl maxTtl < 2 ^ 63)
    (hplay : ∀ token ∈ raw.map tokenOf, token ∈ inPlay)
    (hnew : ∀ token ∈ raw.map tokenOf, tokens.lookup token = none) :
    ((TokenOp.mint ttl now raw).onRegistry cap maxTtl tokens).1 =
      ((TokenOp.mint ttl now raw).onTable cap maxTtl rows).1 ∧
    SameTokens inPlay ((TokenOp.mint ttl now raw).onRegistry cap maxTtl tokens).2
      ((TokenOp.mint ttl now raw).onTable cap maxTtl rows).2 := by
  have hsweep := h.sweep now
  have hcount := (hsweep.size_eq hhash).trans (countOutstanding_deleteTerminal now rows).symm
  simp only [TokenOp.onRegistry, TokenOp.onTable, JoinTokenRegistry.mint, PgJoinTokens.mint,
    unixSeconds_natCast, saturatingAdd_asI64 hrange, registry_expiry]
  rw [← hcount]
  split
  · exact ⟨rfl, hsweep⟩
  cases raw with
  | none => exact ⟨rfl, hsweep⟩
  | some raw =>
      have hin : tokenOf raw ∈ inPlay := hplay _ rfl
      have hfree : (PgJoinTokens.deleteTerminal now rows).lookup (tokenHash (tokenOf raw)) =
          none := by
        rcases hsweep.lookup_cases hin with ⟨-, hnone⟩ | ⟨state, -, hstate, -⟩
        · exact hnone
        · -- the sweep adds no token, and the registry does not hold a new one
          rw [Table.lookup_retain, hnew _ rfl] at hstate
          cases hstate
      dsimp only
      rw [PgJoinTokens.insertRow_of_none hfree]
      exact ⟨rfl, hsweep.put hhash hin ⟨rfl, rfl⟩⟩

/-- A token is redeemed in both stores, or refused for the same reason. -/
theorem redeem_mirrors (h : SameTokens inPlay tokens rows) (hhash : Set.InjOn tokenHash inPlay)
    {token : Str} (hplay : token ∈ inPlay) (now : Nat) :
    ((TokenOp.redeem token now).onRegistry cap maxTtl tokens).1 =
      ((TokenOp.redeem token now).onTable cap maxTtl rows).1 ∧
    SameTokens inPlay ((TokenOp.redeem token now).onRegistry cap maxTtl tokens).2
      ((TokenOp.redeem token now).onTable cap maxTtl rows).2 := by
  simp only [TokenOp.onRegistry, TokenOp.onTable, JoinTokenRegistry.redeem]
  rcases h.lookup_cases hplay with ⟨hstate, hrow⟩ | ⟨state, row, hstate, hrow, hsame⟩
  · rw [PgJoinTokens.redeem_of_none hrow, hstate]
    exact ⟨rfl, h⟩
  have hexpired : state.expiresAt ≤ now * nanosPerSec ↔ row.expiresAtUnix ≤ now := by
    rw [← not_lt, hsame.lt_iff now, not_lt]
  rw [PgJoinTokens.redeem_of_some hrow, hstate, unixSeconds_natCast]
  simp only [hsame.2, hexpired]
  split
  · exact ⟨rfl, h⟩
  split
  · exact ⟨rfl, h⟩
  · exact ⟨rfl, h.put hhash hplay ⟨hsame.1, rfl⟩⟩

/-- The registry comes to hold no token but the one drawn. -/
theorem TokenOp.lookup_onRegistry {op : TokenOp} {token : Str}
    (hnone : tokens.lookup token = none) (hother : ∀ raw ∈ op.drawn, token ≠ tokenOf raw) :
    (op.onRegistry cap maxTtl tokens).2.lookup token = none := by
  cases op with
  | mint ttl now raw =>
      simp only [onRegistry, JoinTokenRegistry.mint]
      split
      · rw [Table.lookup_retain, hnone, Option.filter_none]
      cases raw with
      | none => rw [Table.lookup_retain, hnone, Option.filter_none]
      | some raw =>
          rw [Table.lookup_put_ne _ _ (hother raw rfl), Table.lookup_retain, hnone,
            Option.filter_none]
  | redeem redeemed now =>
      simp only [onRegistry, JoinTokenRegistry.redeem]
      split
      · exact hnone
      rename_i state hstate
      split_ifs
      · exact hnone
      · exact hnone
      · rw [Table.lookup_put_ne _ _ ?_]
        · exact hnone
        · rintro rfl
          simp [hnone] at hstate

end Steps

/-! ## Runs -/

/-- Equal answers, for stores that hold the same tokens and none of those still to be
drawn. -/
theorem answers_eq {inPlay : Set Str} (hhash : Set.InjOn tokenHash inPlay) {cap maxTtl : Nat}
    (ops : List TokenOp) (hrange : ∀ op ∈ ops, op.InRange maxTtl)
    (hplay : ∀ op ∈ ops, ∀ token ∈ op.token, token ∈ inPlay)
    (hdrawn : (ops.filterMap TokenOp.drawn).Nodup) (tokens : JoinTokenRegistry)
    (rows : TokenRows) (h : SameTokens inPlay tokens rows)
    (hnew : ∀ raw ∈ ops.filterMap TokenOp.drawn, tokens.lookup (tokenOf raw) = none) :
    answers (fun s op => op.onRegistry cap maxTtl s) tokens ops =
      answers (fun s op => op.onTable cap maxTtl s) rows ops := by
  induction ops generalizing tokens rows with
  | nil => rfl
  | cons op ops ih =>
      have hrest : (ops.filterMap TokenOp.drawn).Sublist ((op :: ops).filterMap TokenOp.drawn) :=
        (List.sublist_cons_self op ops).filterMap _
      -- one operation: the same answer, the same tokens, none of those still to be drawn
      have hstep : (op.onRegistry cap maxTtl tokens).1 = (op.onTable cap maxTtl rows).1 ∧
          SameTokens inPlay (op.onRegistry cap maxTtl tokens).2 (op.onTable cap maxTtl rows).2 ∧
          ∀ raw ∈ ops.filterMap TokenOp.drawn,
            (op.onRegistry cap maxTtl tokens).2.lookup (tokenOf raw) = none := by
        have hplay := hplay op List.mem_cons_self
        have hlater : ∀ raw ∈ ops.filterMap TokenOp.drawn,
            (op.onRegistry cap maxTtl tokens).2.lookup (tokenOf raw) = none := by
          intro raw hraw
          refine TokenOp.lookup_onRegistry cap maxTtl (hnew raw (hrest.subset hraw)) ?_
          intro drawn hdraws heq
          rw [List.filterMap_cons_some hdraws] at hdrawn
          exact (List.nodup_cons.mp hdrawn).1 (tokenOf_injective heq ▸ hraw)
        cases op with
        | mint ttl now raw =>
            obtain ⟨hanswer, hsame⟩ := mint_mirrors cap maxTtl h hhash
              (hrange _ List.mem_cons_self) hplay (by
                rintro token htoken
                obtain ⟨raw, rfl, rfl⟩ := Option.map_eq_some_iff.mp htoken
                exact hnew raw (List.mem_filterMap.mpr ⟨_, List.mem_cons_self, rfl⟩))
            exact ⟨hanswer, hsame, hlater⟩
        | redeem token now =>
            obtain ⟨hanswer, hsame⟩ := redeem_mirrors cap maxTtl h hhash (hplay token rfl) now
            exact ⟨hanswer, hsame, hlater⟩
      obtain ⟨hanswer, hsame, hstill⟩ := hstep
      rw [answers, answers, hanswer]
      congr 1
      exact ih (fun op hop => hrange op (List.mem_cons_of_mem _ hop))
        (fun op hop => hplay op (List.mem_cons_of_mem _ hop)) (hdrawn.sublist hrest) _ _ hsame
        hstill

/-- From empty stores, with distinct draws, representable expiries and no colliding hashes,
every sequence of operations gets the same answers from the registry and from the table. -/
theorem stores_agree (cap maxTtl : Nat) (ops : List TokenOp)
    (hrange : ∀ op ∈ ops, op.InRange maxTtl) (hdrawn : (ops.filterMap TokenOp.drawn).Nodup)
    (hhash : Sha256.CollisionFreeOn (Str.bytes '' {token | ∃ op ∈ ops, token ∈ op.token})) :
    answers (fun s op => op.onRegistry cap maxTtl s) ∅ ops =
      answers (fun s op => op.onTable cap maxTtl s) ∅ ops := by
  have hinj : Set.InjOn tokenHash {token | ∃ op ∈ ops, token ∈ op.token} := by
    intro token htoken token' htoken' heq
    exact Str.bytes_injective
      (hhash (Set.mem_image_of_mem _ htoken) (Set.mem_image_of_mem _ htoken') heq)
  refine answers_eq hinj ops hrange ?_ hdrawn ∅ ∅ Table.Mirrors.empty ?_
  · exact fun op hop token htoken => ⟨op, hop, htoken⟩
  · exact fun raw _ => Table.lookup_empty _

/-- Thirty-two drawn bytes. -/
def sampleDraw : Fixed 32 := .lit (List.replicate 32 7)

/-- One token, minted at second 100 for five seconds under a cap of one, and another that
was never minted; the clock steps back once. -/
def sampleOps : List TokenOp :=
  [.mint 9 100 (some sampleDraw), .mint 9 104 none, .redeem (Str.lit "0") 104,
    .redeem (tokenOf sampleDraw) 105, .redeem (tokenOf sampleDraw) 104,
    .redeem (tokenOf sampleDraw) 104]

theorem sampleOps_collisionFree :
    Sha256.CollisionFreeOn (Str.bytes '' {token | ∃ op ∈ sampleOps, token ∈ op.token}) := by
  have hpair : Sha256.CollisionFreeOn {(tokenOf sampleDraw).bytes, (Str.lit "0").bytes} := by
    have hne : Sha256.sha256 (tokenOf sampleDraw).bytes ≠ Sha256.sha256 (Str.lit "0").bytes := by
      decide +kernel
    exact Set.injOn_pair.mpr fun heq => absurd heq hne
  refine hpair.mono ?_
  rintro bytes ⟨token, ⟨op, hop, htoken⟩, rfl⟩
  simp only [sampleOps, List.mem_cons, List.not_mem_nil, or_false] at hop
  rcases hop with rfl | rfl | rfl | rfl | rfl | rfl <;>
    simp_all [TokenOp.token]

theorem stores_agree_sample :
    answers (fun s op => op.onTable 1 5 s) ∅ sampleOps =
      [.mint (.ok (tokenOf sampleDraw, 105)), .mint (.error .full),
        .redeem (.error .unknown), .redeem (.error .expired), .redeem (.ok ()),
        .redeem (.error .alreadyRedeemed)] := by
  refine (stores_agree 1 5 sampleOps ?_ ?_ sampleOps_collisionFree).symm.trans ?_
  · intro op hop
    simp only [sampleOps, List.mem_cons, List.not_mem_nil, or_false] at hop
    rcases hop with rfl | rfl | rfl | rfl | rfl | rfl <;> simp [TokenOp.InRange]
  · exact List.nodup_singleton sampleDraw
  · decide +kernel

end Coordinator
end OpenSsmAgent
