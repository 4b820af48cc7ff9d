import OpenSsmAgent.Coordinator.Enrollment
import OpenSsmAgent.Lib.Logs

/-!
# Single use of join tokens

Whatever the order of the statements of any number of calls, and whatever the clocks
of the replicas say, a join token is redeemed at most once.  The sweep of a mint may
drop a row at any time; it never brings one back.

Main results:

- Theorem {lit}`JoinTokens.step_tokenStep`: what a step does to the token store.
- Theorem {lit}`TokenInv.step`: one step of the deployment.
- Theorem {lit}`join_tokens_single_use`: redemptions and issued identities in every
  run.
-/

open Framing SymbolicCrypto Journal Fallible

namespace OpenSsmAgent
namespace Coordinator

open Domain Hs

/-! ## What the log says about tokens -/

/-- The tokens stored, with their expiries. -/
def storedTokens (log : EnrollLog) : List (Str × Int) :=
  log.filterMap (fun
    | (_, .stored token expiresAt) => some (token, expiresAt)
    | _ => none)

/-- The tokens redeemed. -/
def redeemedTokens (log : EnrollLog) : List Str :=
  log.filterMap (fun
    | (_, .redeemed token _) => some token
    | _ => none)

/-- The tokens an identity was issued for. -/
def enrolledTokens (log : EnrollLog) : List Str :=
  log.filterMap (fun
    | (_, .enrolled token _ _ _) => some token
    | _ => none)

/-- Every token was stored before it was redeemed, and its expiry lay ahead of the clock
that redeemed it. -/
def RedeemedLive (log : EnrollLog) : Prop :=
  Justified (fun front entry => ∀ id token now, entry = (id, .redeemed token now) →
    ∃ expiresAt, (token, expiresAt) ∈ storedTokens front ∧ now < expiresAt) log

/-- Minted tokens are distinct, and the hashes of the tokens of the run do not
collide. -/
structure DistinctTokens (log : EnrollLog) : Prop where
  minted : ((storedTokens log).map Prod.fst).Nodup
  hashes : Sha256.CollisionFreeOn
    {b | ∃ token : Str, token.bytes = b ∧
      (token ∈ (storedTokens log).map Prod.fst ∨ token ∈ redeemedTokens log)}

/-- Nothing is stored, redeemed or issued. -/
def NoTokens (log : EnrollLog) : Prop :=
  storedTokens log = [] ∧ redeemedTokens log = [] ∧ enrolledTokens log = []

section Logs

variable {log log' : EnrollLog}

theorem storedTokens_append : storedTokens (log ++ log') = storedTokens log ++ storedTokens log' :=
  List.filterMap_append

theorem redeemedTokens_append :
    redeemedTokens (log ++ log') = redeemedTokens log ++ redeemedTokens log' :=
  List.filterMap_append

theorem enrolledTokens_append :
    enrolledTokens (log ++ log') = enrolledTokens log ++ enrolledTokens log' :=
  List.filterMap_append

theorem DistinctTokens.of_append (h : DistinctTokens (log ++ log')) : DistinctTokens log := by
  have hminted := h.minted
  rw [storedTokens_append, List.map_append] at hminted
  refine ⟨(List.nodup_append.mp hminted).1, h.hashes.mono ?_⟩
  rintro b ⟨token, rfl, htoken⟩
  refine ⟨token, rfl, ?_⟩
  rw [storedTokens_append, redeemedTokens_append, List.map_append, List.mem_append,
    List.mem_append]
  exact htoken.imp .inl .inl

/-- Tokens of a run with one hash are one token. -/
theorem DistinctTokens.eq_of_hash (h : DistinctTokens log) {token token' : Str}
    (htoken : token ∈ (storedTokens log).map Prod.fst ∨ token ∈ redeemedTokens log)
    (htoken' : token' ∈ (storedTokens log).map Prod.fst ∨ token' ∈ redeemedTokens log)
    (hhash : tokenHash token = tokenHash token') : token = token' :=
  Str.bytes_injective (h.hashes ⟨token, rfl, htoken⟩ ⟨token', rfl, htoken'⟩ hhash)

/-- More acts, none of which is a redemption. -/
theorem RedeemedLive.append_quiet (h : RedeemedLive log) (hquiet : redeemedTokens log' = []) :
    RedeemedLive (log ++ log') := by
  refine Justified.append_free h ?_
  rintro entry hentry front id token now rfl
  exact absurd (List.filterMap_eq_nil_iff.mp hquiet _ hentry) nofun

end Logs

/-! ## What a step does to the token store -/

/-- The store is sound for the tokens issued and claimed. -/
def JoinTokens.Sound (issued : List (Str × Int)) (claimed : List Str) : JoinTokens → Prop
  | .registry tokens => tokens.Sound issued claimed
  | .pg rows =>
      PgJoinTokens.Sound (issued.map fun t => (tokenHash t.1, t.2)) (claimed.map tokenHash) rows

/-- Two tokens the store does not tell apart. -/
def JoinTokens.SameKey (tokens : JoinTokens) (token token' : Str) : Prop :=
  match tokens with
  | .registry _ => token = token'
  | .pg _ => tokenHash token = tokenHash token'

/-- What a step of a call does to the token store. -/
inductive TokenStep (tokens : JoinTokens) : JoinTokens × EnrollCall × List EnrollAct → Prop
  /-- No token is stored or redeemed for the caller. -/
  | kept {tokens' : JoinTokens} {call : EnrollCall} {acts : List EnrollAct}
      (hsound : ∀ issued claimed, tokens.Sound issued claimed → tokens'.Sound issued claimed)
      (hcall : ∀ token csr, call ≠ .signing token csr)
      (hacts : ∀ id, NoTokens (acts.map (Prod.mk id))) :
      TokenStep tokens (tokens', call, acts)
  /-- A token is stored. -/
  | stored {tokens' : JoinTokens} {token : Str} {expiresAt : Int} {reply : EnrollReply}
      (hsound : ∀ issued claimed, tokens.Sound issued claimed →
        (∀ t ∈ issued, ¬ tokens.SameKey token t.1) →
        tokens'.Sound (issued ++ [(token, expiresAt)]) claimed) :
      TokenStep tokens (tokens', .finished, [.stored token expiresAt, .replied reply])
  /-- A token is redeemed. -/
  | redeemed {tokens' : JoinTokens} {call : EnrollCall} {token : Str} {now : Int}
      {rest : List EnrollAct}
      (hsound : ∀ issued claimed, tokens.Sound issued claimed →
        (∀ t ∈ claimed, ¬ tokens.SameKey token t) ∧
        (∃ t ∈ issued, tokens.SameKey token t.1 ∧ now < t.2) ∧
        tokens'.Sound issued (claimed ++ [token]))
      (hcall : call = .finished ∨ ∃ csr, call = .signing token csr)
      (hacts : ∀ id, NoTokens (rest.map (Prod.mk id))) :
      TokenStep tokens (tokens', call, .redeemed token now :: rest)

section Store

variable {fromDer : FromDer} {cfg : EnrollConfig fromDer} {env : EnrollEnv} {tokens : JoinTokens}

/-- The call ends with an answer and the store is kept. -/
theorem TokenStep.replyWith {tokens' : JoinTokens} (reply : EnrollReply)
    (hsound : ∀ issued claimed, tokens.Sound issued claimed → tokens'.Sound issued claimed) :
    TokenStep tokens (tokens', replyWith reply) :=
  .kept hsound nofun fun _ => ⟨rfl, rfl, rfl⟩

/-- A redemption is refused. -/
theorem TokenStep.refused {tokens' : JoinTokens} (who : Redeemer) (now : Int) (e : RedeemError)
    (hsound : ∀ issued claimed, tokens.Sound issued claimed → tokens'.Sound issued claimed) :
    TokenStep tokens (tokens', who.decided now (.error e)) := by
  obtain ⟨token, _ | csr⟩ := who <;> exact .replyWith _ hsound

/-- A redemption succeeds. -/
theorem TokenStep.granted {tokens' : JoinTokens} (who : Redeemer) (now : Int)
    (hsound : ∀ issued claimed, tokens.Sound issued claimed →
      (∀ t ∈ claimed, ¬ tokens.SameKey who.token t) ∧
      (∃ t ∈ issued, tokens.SameKey who.token t.1 ∧ now < t.2) ∧
      tokens'.Sound issued (claimed ++ [who.token])) :
    TokenStep tokens (tokens', who.decided now (.ok ())) := by
  obtain ⟨token, _ | csr⟩ := who
  · exact .redeemed hsound (.inl rfl) fun _ => ⟨rfl, rfl, rfl⟩
  · exact .redeemed hsound (.inr ⟨csr, rfl⟩) fun _ => ⟨rfl, rfl, rfl⟩

/-- The INSERT of a mint. -/
theorem mintInsert_tokenStep (cfg : EnrollConfig fromDer) (env : EnrollEnv) (rows : TokenRows)
    (expiresAt : Int) :
    TokenStep (.pg rows) ((JoinTokens.pg rows).step cfg env (.mintInsert expiresAt)) := by
  simp only [JoinTokens.step]
  rcases env.raw with _ | raw
  · exact .replyWith _ fun _ _ h => h
  dsimp only
  by_cases hinsert : (env.fate.ran &&
      (PgJoinTokens.insertRow (tokenHash (tokenOf raw)) expiresAt rows).1) = true
  · obtain ⟨hran, hnew⟩ := Bool.and_eq_true_iff.mp hinsert
    rw [if_pos hinsert, CallFate.statement_of_ran hran]
    refine .stored fun issued claimed h hkeys => ?_
    have hsound := (PgJoinTokens.insertRow_sound h (tokenHash (tokenOf raw)) expiresAt).1 hnew
    rw [JoinTokens.Sound, List.map_append]
    refine hsound ?_
    rw [List.map_map]
    intro hmem
    obtain ⟨t, ht, heq⟩ := List.mem_map.mp hmem
    exact hkeys t ht heq.symm
  · have hrows : (env.fate.statement
        (PgJoinTokens.insertRow (tokenHash (tokenOf raw)) expiresAt) rows).2 = rows := by
      cases hran : env.fate.ran with
      | false => exact CallFate.statement_of_not_ran hran
      | true =>
          rw [CallFate.statement_of_ran hran]
          rw [hran, Bool.true_and, Bool.not_eq_true] at hinsert
          unfold PgJoinTokens.insertRow at hinsert ⊢
          split
          · rfl
          · rename_i hlookup
            simp [hlookup] at hinsert
    rw [if_neg hinsert, hrows]
    exact .kept (fun _ _ h => h) (by simp) fun _ => ⟨rfl, rfl, rfl⟩

/-- The UPDATE of a redemption. -/
theorem redeemUpdate_tokenStep (cfg : EnrollConfig fromDer) (env : EnrollEnv) (rows : TokenRows)
    (who : Redeemer) (now : Int) :
    TokenStep (.pg rows) ((JoinTokens.pg rows).step cfg env (.redeemUpdate who now)) := by
  have hupdate := fun issued claimed (h : (JoinTokens.pg rows).Sound issued claimed) =>
    PgJoinTokens.updateRedeemed_sound h (tokenHash who.token) now
  simp only [JoinTokens.step, CallFate.statement]
  cases env.fate with
  | lost message => exact .refused who now .backend fun issued claimed h => (hupdate _ _ h).2.2
  | failed message => exact .refused who now .backend fun _ _ h => h
  | answered =>
      dsimp only
      split
      · rename_i haffected
        refine .granted who now fun issued claimed h => ?_
        obtain ⟨hnew, ⟨expires, hissued, hlive⟩, hsound⟩ := (hupdate _ _ h).1 haffected
        obtain ⟨t, ht, heq⟩ := List.mem_map.mp hissued
        obtain ⟨hhash, rfl⟩ := Prod.mk.inj heq
        refine ⟨fun t ht heq => ?_, ⟨t, ht, hhash.symm, hlive⟩, ?_⟩
        · have hkey : tokenHash who.token = tokenHash t := heq
          exact hnew (hkey ▸ List.mem_map_of_mem ht)
        · rw [JoinTokens.Sound, List.map_append]
          exact hsound
      · rename_i haffected
        refine .kept (fun issued claimed h => ?_) nofun fun _ => ⟨rfl, rfl, rfl⟩
        exact (hupdate _ _ h).2.2

/-- What a step of a call does to the token store. -/
theorem JoinTokens.step_tokenStep (cfg : EnrollConfig fromDer) (env : EnrollEnv)
    (tokens : JoinTokens) (call : EnrollCall) (hcall : call.onTokens = true) :
    TokenStep tokens (tokens.step cfg env call) := by
  have hidle : TokenStep tokens (tokens, call, []) :=
    .kept (fun _ _ h => h) (by rintro token csr rfl; cases hcall) fun _ => ⟨rfl, rfl, rfl⟩
  cases tokens with
  | registry m =>
      cases call with
      | mintLocked expiresAt =>
          have hmint := fun issued claimed (h : m.Sound issued claimed) =>
            JoinTokenRegistry.mint_sound h cfg.cap expiresAt env.now env.raw
          simp only [JoinTokens.step]
          generalize m.mint cfg.cap expiresAt env.now env.raw = out at hmint ⊢
          obtain ⟨e | ⟨token, expires⟩, m'⟩ := out
          · have hkept := fun issued claimed h => (hmint issued claimed h).2 e rfl
            cases e <;> exact .replyWith _ hkept
          · refine .stored fun issued claimed h hnew => (hmint issued claimed h).1 _ _ rfl ?_
            intro hmem
            obtain ⟨t, ht, heq⟩ := List.mem_map.mp hmem
            exact hnew t ht heq.symm
      | redeemLocked who =>
          have hredeem := fun issued claimed (h : m.Sound issued claimed) =>
            JoinTokenRegistry.redeem_sound h env.now who.token
          simp only [JoinTokens.step]
          generalize m.redeem env.now who.token = out at hredeem ⊢
          obtain ⟨e | ⟨⟩, m'⟩ := out
          · refine .refused who _ e fun issued claimed h => ?_
            obtain rfl := (hredeem issued claimed h).2 e rfl
            exact h
          · refine .granted who _ fun issued claimed h => ?_
            obtain ⟨hnew, ⟨expires, hissued, hlive⟩, hsound⟩ := (hredeem issued claimed h).1 rfl
            refine ⟨?_, ⟨_, hissued, rfl, hlive⟩, hsound⟩
            rintro t ht rfl
            exact hnew ht
      | _ => exact hidle
  | pg rows =>
      cases call with
      | mintDelete now expiresAt =>
          have hkept : ∀ issued claimed, (JoinTokens.pg rows).Sound issued claimed →
              (JoinTokens.pg (env.fate.statement
                (fun rows => ((), PgJoinTokens.deleteTerminal now rows)) rows).2).Sound
                issued claimed :=
            fun issued claimed h => env.fate.statement_snd (PgJoinTokens.Sound _ _) h
              (PgJoinTokens.deleteTerminal_sound h now)
          simp only [JoinTokens.step]
          split
          · exact .replyWith _ hkept
          · exact .kept hkept nofun fun _ => ⟨rfl, rfl, rfl⟩
      | mintCount now expiresAt =>
          have hrows : (env.fate.statement
              (fun rows => (PgJoinTokens.countOutstanding now rows, rows)) rows).2 = rows :=
            env.fate.statement_snd (· = rows) rfl rfl
          simp only [JoinTokens.step, hrows]
          split
          · exact .replyWith _ fun _ _ h => h
          · split
            · exact .replyWith _ fun _ _ h => h
            · exact .kept (fun _ _ h => h) nofun fun _ => ⟨rfl, rfl, rfl⟩
      | mintInsert expiresAt => exact mintInsert_tokenStep cfg env rows expiresAt
      | redeemUpdate who now => exact redeemUpdate_tokenStep cfg env rows who now
      | redeemSelect who =>
          have hrows : (env.fate.statement
              (fun rows => (PgJoinTokens.classify (tokenHash who.token) rows, rows)) rows).2 =
              rows := env.fate.statement_snd (· = rows) rfl rfl
          simp only [JoinTokens.step, hrows]
          exact .refused who _ _ fun _ _ h => h
      | _ => exact hidle

end Store

/-! ## The deployment -/

/-- A call between the redemption of its token and the certificate. -/
def Enrollment.Signing (s : Enrollment) (id : Nat) (token : Str) : Prop :=
  ∃ csr, s.calls.lookup id = some (.signing token csr)

/-- The store fits what was stored and redeemed; a token is redeemed before an identity
is issued for it, and at most one call is about to do that. -/
structure TokenBook (s : Enrollment) (stored : List (Str × Int)) (redeemed enrolled : List Str) :
    Prop where
  sound : s.tokens.Sound stored redeemed
  issuedOnce : enrolled.Nodup
  issued : enrolled ⊆ redeemed
  signing : ∀ id token, s.Signing id token → token ∈ redeemed ∧ token ∉ enrolled
  signingOnce : ∀ id id' token, s.Signing id token → s.Signing id' token → id = id'

section Book

variable {s : Enrollment} {stored : List (Str × Int)} {redeemed enrolled : List Str}
  {tokens : JoinTokens} {revoked : List HostId} {id next : Nat} {call : EnrollCall} {token : Str}

/-- Who is signing after one call has moved on. -/
theorem signing_put {id' : Nat}
    (h : (Enrollment.mk tokens revoked (s.calls.put id call) next).Signing id' token) :
    (id' = id ∧ ∃ csr, call = .signing token csr) ∨ id' ≠ id ∧ s.Signing id' token := by
  obtain ⟨csr, hlookup⟩ := h
  by_cases heq : id' = id
  · subst heq
    rw [Table.lookup_put_self] at hlookup
    exact .inl ⟨rfl, csr, Option.some.inj hlookup⟩
  · rw [Table.lookup_put_ne _ _ heq] at hlookup
    exact .inr ⟨heq, csr, hlookup⟩

/-- A call moves on without redeeming or issuing. -/
theorem TokenBook.move (h : TokenBook s stored redeemed enrolled) {stored' : List (Str × Int)}
    (hsound : tokens.Sound stored' redeemed) (hcall : ∀ token csr, call ≠ .signing token csr) :
    TokenBook ⟨tokens, revoked, s.calls.put id call, next⟩ stored' redeemed enrolled := by
  have hold : ∀ id' token, (Enrollment.mk tokens revoked (s.calls.put id call) next).Signing id'
      token → s.Signing id' token := by
    intro id' token hsigning
    rcases signing_put hsigning with ⟨-, csr, rfl⟩ | ⟨-, hsigning⟩
    · exact absurd rfl (hcall token csr)
    · exact hsigning
  exact ⟨hsound, h.issuedOnce, h.issued,
    fun id' token h' => h.signing id' token (hold id' token h'),
    fun id' id'' token h' h'' =>
      h.signingOnce id' id'' token (hold id' token h') (hold id'' token h'')⟩

/-- A call redeems a token, and may go on to issue. -/
theorem TokenBook.redeem (h : TokenBook s stored redeemed enrolled)
    (hsound : tokens.Sound stored (redeemed ++ [token])) (hnew : token ∉ redeemed)
    (hcall : call = .finished ∨ ∃ csr, call = .signing token csr) :
    TokenBook ⟨tokens, revoked, s.calls.put id call, next⟩ stored (redeemed ++ [token])
      enrolled := by
  -- a call that was signing before has another token
  have hother : ∀ id', ¬ s.Signing id' token := fun id' hsigning =>
    hnew (h.signing id' token hsigning).1
  have hsplit : ∀ id' token', (Enrollment.mk tokens revoked (s.calls.put id call) next).Signing id'
      token' → (id' = id ∧ token' = token) ∨ s.Signing id' token' := by
    intro id' token' hsigning
    rcases signing_put hsigning with ⟨rfl, csr, rfl⟩ | ⟨-, hsigning⟩
    · rcases hcall with hcall | ⟨csr', hcall⟩
      · cases hcall
      · cases hcall
        exact .inl ⟨rfl, rfl⟩
    · exact .inr hsigning
  refine ⟨hsound, h.issuedOnce, fun t ht => List.mem_append_left _ (h.issued ht), ?_, ?_⟩
  · intro id' token' hsigning
    rcases hsplit id' token' hsigning with ⟨-, rfl⟩ | hsigning
    · exact ⟨List.mem_append_right _ (List.mem_singleton_self _), fun hmem => hnew (h.issued hmem)⟩
    · obtain ⟨hredeemed, hfree⟩ := h.signing id' token' hsigning
      exact ⟨List.mem_append_left _ hredeemed, hfree⟩
  · intro id' id'' token' hsigning' hsigning''
    rcases hsplit id' token' hsigning' with ⟨rfl, rfl⟩ | hold'
    · rcases hsplit id'' _ hsigning'' with ⟨rfl, -⟩ | hold''
      · rfl
      · exact absurd hold'' (hother id'')
    · rcases hsplit id'' _ hsigning'' with ⟨rfl, rfl⟩ | hold''
      · exact absurd hold' (hother id')
      · exact h.signingOnce id' id'' token' hold' hold''

/-- The call that redeemed a token issues an identity for it. -/
theorem TokenBook.enroll (h : TokenBook s stored redeemed enrolled)
    (hsigning : s.Signing id token) :
    TokenBook ⟨s.tokens, revoked, s.calls.put id .finished, next⟩ stored redeemed
      (enrolled ++ [token]) := by
  obtain ⟨hredeemed, hfree⟩ := h.signing id token hsigning
  have hold : ∀ id' token', (Enrollment.mk s.tokens revoked (s.calls.put id .finished)
      next).Signing id' token' → id' ≠ id ∧ s.Signing id' token' := by
    intro id' token' hsigning'
    rcases signing_put hsigning' with ⟨-, csr, hcall⟩ | hother
    · cases hcall
    · exact hother
  refine ⟨h.sound, ?_, ?_, ?_, ?_⟩
  · exact List.nodup_append.mpr ⟨h.issuedOnce, List.nodup_singleton _, fun t ht t' ht' heq =>
      hfree (List.mem_singleton.mp ht' ▸ heq ▸ ht)⟩
  · intro t ht
    rcases List.mem_append.mp ht with ht | ht
    · exact h.issued ht
    · exact List.mem_singleton.mp ht ▸ hredeemed
  · intro id' token' hsigning'
    obtain ⟨hne, hsigning'⟩ := hold id' token' hsigning'
    obtain ⟨hredeemed', hfree'⟩ := h.signing id' token' hsigning'
    refine ⟨hredeemed', fun hmem => ?_⟩
    rcases List.mem_append.mp hmem with hmem | hmem
    · exact hfree' hmem
    · obtain rfl := List.mem_singleton.mp hmem
      exact hne (h.signingOnce id' id token' hsigning' hsigning)
  · intro id' id'' token' hsigning' hsigning''
    exact h.signingOnce id' id'' token' (hold id' token' hsigning').2
      (hold id'' token' hsigning'').2

end Book

/-- The deployment fits its log. -/
structure TokenInv (s : Enrollment) (log : EnrollLog) : Prop where
  book : TokenBook s (storedTokens log) (redeemedTokens log) (enrolledTokens log)
  live : RedeemedLive log

section Inv

variable {fromDer : FromDer} {cfg : EnrollConfig fromDer} {s : Enrollment} {log : EnrollLog}

/-- The store is claimed from at most once per token. -/
theorem JoinTokens.Sound.nodup {tokens : JoinTokens} {issued : List (Str × Int)}
    {claimed : List Str} (h : tokens.Sound issued claimed) : claimed.Nodup := by
  cases tokens with
  | registry m => exact h.once
  | pg rows => exact List.Nodup.of_map _ h.once

theorem JoinTokens.sameKey_refl (tokens : JoinTokens) (token : Str) :
    tokens.SameKey token token := by
  cases tokens <;> rfl

/-- Tokens of a run that the store does not tell apart are one token. -/
theorem DistinctTokens.eq_of_sameKey (h : DistinctTokens log) {tokens : JoinTokens}
    {token token' : Str}
    (htoken : token ∈ (storedTokens log).map Prod.fst ∨ token ∈ redeemedTokens log)
    (htoken' : token' ∈ (storedTokens log).map Prod.fst ∨ token' ∈ redeemedTokens log)
    (hkey : tokens.SameKey token token') : token = token' := by
  cases tokens with
  | registry m => exact hkey
  | pg rows => exact h.eq_of_hash htoken htoken' hkey

theorem TokenInv.start {tokens : JoinTokens} (h : tokens.Sound [] []) :
    TokenInv (Enrollment.new tokens) [] := by
  have hnone : ∀ id token, ¬ (Enrollment.new tokens).Signing id token := by
    rintro id token ⟨csr, hlookup⟩
    rw [Enrollment.new, Table.lookup_empty] at hlookup
    cases hlookup
  exact ⟨⟨h, List.nodup_nil, List.Subset.refl _, fun id token h' => absurd h' (hnone id token),
    fun id _ token h' => absurd h' (hnone id token)⟩, justified_nil⟩

/-- A call moves on without storing, redeeming or issuing, and the store is kept. -/
theorem TokenInv.quiet (h : TokenInv s log) {new : EnrollLog} {tokens : JoinTokens}
    {revoked : List HostId} {id next : Nat} {call : EnrollCall}
    (hsound : tokens.Sound (storedTokens log) (redeemedTokens log))
    (hcall : ∀ token csr, call ≠ .signing token csr) (hnew : NoTokens new) :
    TokenInv ⟨tokens, revoked, s.calls.put id call, next⟩ (log ++ new) := by
  obtain ⟨hstored, hredeemed, henrolled⟩ := hnew
  refine ⟨?_, h.live.append_quiet hredeemed⟩
  rw [storedTokens_append, redeemedTokens_append, enrolledTokens_append, hstored, hredeemed,
    henrolled, List.append_nil, List.append_nil, List.append_nil]
  exact h.book.move hsound hcall

/-- A call moves on the token store. -/
theorem TokenInv.tokenStep (h : TokenInv s log) {id : Nat}
    {out : JoinTokens × EnrollCall × List EnrollAct} (hstep : TokenStep s.tokens out)
    (hdistinct : DistinctTokens (log ++ out.2.2.map (Prod.mk (some id)))) :
    TokenInv { s with tokens := out.1, calls := s.calls.put id out.2.1 }
      (log ++ out.2.2.map (Prod.mk (some id))) := by
  cases hstep with
  | kept hsound hcall hacts => exact h.quiet (hsound _ _ h.book.sound) hcall (hacts _)
  | @stored tokens' token expiresAt reply hsound =>
      have hminted := hdistinct.minted
      have hkeys := @hdistinct.eq_of_sameKey
      simp only [storedTokens_append, List.map_append] at hminted hkeys
      have hnew : ∀ t ∈ storedTokens log, ¬ s.tokens.SameKey token t.1 := by
        intro t ht hkey
        have hmem : t.1 ∈ (storedTokens log).map Prod.fst := List.mem_map_of_mem ht
        have heq := hkeys (.inl (List.mem_append_right _ List.mem_cons_self))
          (.inl (List.mem_append_left _ hmem)) hkey
        exact (List.nodup_append.mp hminted).2.2 t.1 hmem token List.mem_cons_self heq.symm
      refine ⟨?_, h.live.append_quiet rfl⟩
      rw [storedTokens_append, redeemedTokens_append, enrolledTokens_append]
      change TokenBook _ (storedTokens log ++ [(token, expiresAt)]) (redeemedTokens log ++ [])
        (enrolledTokens log ++ [])
      rw [List.append_nil, List.append_nil]
      exact h.book.move (hsound _ _ h.book.sound hnew) nofun
  | @redeemed tokens' call token now rest hsound hcall hacts =>
      obtain ⟨hstored, hredeemed, henrolled⟩ := hacts (some id)
      obtain ⟨hunclaimed, ⟨t, ht, hkey, hnow⟩, hsound'⟩ := hsound _ _ h.book.sound
      have hnew : token ∉ redeemedTokens log := fun hmem =>
        hunclaimed token hmem (s.tokens.sameKey_refl token)
      obtain rfl : token = t.1 := by
        refine hdistinct.eq_of_sameKey ?_ ?_ hkey
        · right
          rw [redeemedTokens_append]
          exact List.mem_append_right _ List.mem_cons_self
        · left
          rw [storedTokens_append, List.map_append]
          exact List.mem_append_left _ (List.mem_map_of_mem ht)
      rw [List.map_cons, List.append_cons]
      constructor
      · rw [storedTokens_append, redeemedTokens_append, enrolledTokens_append, hstored, hredeemed,
          henrolled, storedTokens_append, redeemedTokens_append, enrolledTokens_append]
        change TokenBook _ (storedTokens log ++ [] ++ []) (redeemedTokens log ++ [t.1] ++ [])
          (enrolledTokens log ++ [] ++ [])
        simp only [List.append_nil]
        exact h.book.redeem hsound' hnew hcall
      · refine RedeemedLive.append_quiet (Justified.snoc h.live ?_) hredeemed
        rintro id' token' now' ⟨rfl, rfl⟩
        exact ⟨t.2, ht, hnow⟩

/-- A request arrives. -/
theorem begin_quiet (cfg : EnrollConfig fromDer) (tokens : JoinTokens) (now : SystemTime)
    (utcNow : Int) (req : EnrollRequest) :
    (∀ token csr, (req.begin cfg tokens now utcNow).1 ≠ .signing token csr) ∧
      ∀ id, NoTokens ((req.begin cfg tokens now utcNow).2.map (Prod.mk id)) := by
  cases req <;> simp only [EnrollRequest.begin]
  · cases tokens <;> exact ⟨nofun, fun _ => ⟨rfl, rfl, rfl⟩⟩
  · cases tokens <;> exact ⟨nofun, fun _ => ⟨rfl, rfl, rfl⟩⟩
  · split
    · exact ⟨nofun, fun _ => ⟨rfl, rfl, rfl⟩⟩
    · cases tokens <;> exact ⟨nofun, fun _ => ⟨rfl, rfl, rfl⟩⟩
  · split <;> exact ⟨nofun, fun _ => ⟨rfl, rfl, rfl⟩⟩
  · split <;> exact ⟨nofun, fun _ => ⟨rfl, rfl, rfl⟩⟩

/-- A call that does not await the token store issues for its token, or does nothing to
tokens. -/
theorem EnrollCall.step_tokens (cfg : EnrollConfig fromDer) (env : EnrollEnv)
    (revoked : List HostId) (call : EnrollCall) :
    (∃ token csr cert, call = .signing token csr ∧
        (call.step cfg env revoked).2.1 = .finished ∧ ∃ reply,
        (call.step cfg env revoked).2.2 = [.enrolled token env.host csr cert, .replied reply]) ∨
      (∀ token csr, (call.step cfg env revoked).2.1 ≠ .signing token csr) ∧
        ∀ id, NoTokens ((call.step cfg env revoked).2.2.map (Prod.mk id)) := by
  cases call <;> simp only [EnrollCall.step]
  all_goals try exact .inr ⟨nofun, fun _ => ⟨rfl, rfl, rfl⟩⟩
  · split
    · exact .inr ⟨nofun, fun _ => ⟨rfl, rfl, rfl⟩⟩
    · exact .inr ⟨nofun, fun _ => ⟨rfl, rfl, rfl⟩⟩
    · exact .inl ⟨_, _, _, rfl, rfl, _, rfl⟩
  · right
    split <;> exact ⟨nofun, fun _ => ⟨rfl, rfl, rfl⟩⟩
  · right
    split <;> exact ⟨nofun, fun _ => ⟨rfl, rfl, rfl⟩⟩
  · right
    split <;> exact ⟨nofun, fun _ => ⟨rfl, rfl, rfl⟩⟩

/-- One step of the deployment. -/
theorem TokenInv.step (h : TokenInv s log) (ev : EnrollEvent)
    (hdistinct : DistinctTokens (log ++ (enrollStep cfg s ev).2)) :
    TokenInv (enrollStep cfg s ev).1 (log ++ (enrollStep cfg s ev).2) := by
  have hidle : TokenInv s (log ++ []) := by
    rw [List.append_nil]
    exact h
  cases ev with
  | request now utcNow req =>
      obtain ⟨hcall, hacts⟩ := begin_quiet cfg s.tokens now utcNow req
      exact h.quiet h.book.sound hcall (hacts _)
  | server utcNow dnsNames key signed =>
      simp only [enrollStep]
      split
      · exact hidle
      · refine ⟨?_, h.live.append_quiet rfl⟩
        rw [storedTokens_append, redeemedTokens_append, enrolledTokens_append]
        change TokenBook _ (storedTokens log ++ []) (redeemedTokens log ++ [])
          (enrolledTokens log ++ [])
        rw [List.append_nil, List.append_nil, List.append_nil]
        exact h.book
  | step id env =>
      simp only [enrollStep] at hdistinct ⊢
      split
      · exact hidle
      rename_i call hcall
      rw [hcall] at hdistinct
      dsimp only at hdistinct ⊢
      split
      · rename_i hon
        rw [if_pos hon] at hdistinct
        exact h.tokenStep (s.tokens.step_tokenStep cfg env call hon) hdistinct
      · rcases call.step_tokens cfg env s.revoked with
          ⟨token, csr, cert, rfl, hfinished, reply, hacts⟩ | ⟨hsigning, hacts⟩
        · rw [hfinished, hacts]
          refine ⟨?_, h.live.append_quiet rfl⟩
          rw [storedTokens_append, redeemedTokens_append, enrolledTokens_append]
          change TokenBook _ (storedTokens log ++ []) (redeemedTokens log ++ [])
            (enrolledTokens log ++ [token])
          rw [List.append_nil, List.append_nil]
          exact h.book.enroll ⟨csr, hcall⟩
        · exact h.quiet h.book.sound hsigning (hacts _)

theorem TokenInv.run (cfg : EnrollConfig fromDer) (events : List EnrollEvent) (h : TokenInv s log)
    (hdistinct : DistinctTokens (log ++ (enrollRun cfg s events).2)) :
    TokenInv (enrollRun cfg s events).1 (log ++ (enrollRun cfg s events).2) := by
  induction events generalizing s log with
  | nil =>
      rw [enrollRun, List.append_nil]
      exact h
  | cons ev events ih =>
      rw [enrollRun, ← List.append_assoc] at hdistinct ⊢
      exact ih (h.step ev hdistinct.of_append) hdistinct

end Inv

/-- In every run of mints, redemptions and enrollments on an empty store, on any number
of replicas with any clocks, and with statements failing anywhere: a token is redeemed at
most once, only after it was stored and while its expiry lies ahead of the clock of the
redemption; at most one identity is issued for it; and an enrollment whose request does
not parse is over at once, with the store as it was. -/
theorem join_tokens_single_use {fromDer : FromDer} (cfg : EnrollConfig fromDer)
    (tokens : JoinTokens) (htokens : tokens = .registry ∅ ∨ tokens = .pg ∅)
    (events : List EnrollEvent)
    (hdistinct : DistinctTokens (enrollRun cfg (Enrollment.new tokens) events).2) :
    (redeemedTokens (enrollRun cfg (Enrollment.new tokens) events).2).Nodup ∧
      RedeemedLive (enrollRun cfg (Enrollment.new tokens) events).2 ∧
      (enrolledTokens (enrollRun cfg (Enrollment.new tokens) events).2).Nodup ∧
      ∀ s now utcNow joinToken csr e, cfg.parseCsr csr.bytes = .error e →
        (enrollStep cfg s (.request now utcNow (.enroll joinToken csr))).1 =
          { s with calls := s.calls.put s.next .finished, next := s.next + 1 } := by
  have hsound : tokens.Sound [] [] := by
    rcases htokens with rfl | rfl <;> exact OneTime.sound_empty
  have hrun := (TokenInv.start hsound).run cfg events
  rw [List.nil_append] at hrun
  obtain ⟨hbook, hlive⟩ := hrun hdistinct
  refine ⟨hbook.sound.nodup, hlive, hbook.issuedOnce, ?_⟩
  intro s now utcNow joinToken csr e hparse
  simp [enrollStep, EnrollRequest.begin, validateCsr, hparse, replyWith]

/-! ## Two replicas race for a token -/

def sampleRequest : CertificateSigningRequest where
  tbs := [2]
  signature := .signed ⟨1⟩ [2] 0
  publicKey := .ec (.ofKey ⟨1⟩)
  params := hostParams 0 0 sampleHost "urn:osa:host:forged"

def sampleCsr : Blob := .lit [2]

/-- A parser that knows one request. -/
def sampleParseCsr : CsrFromDer
  | [2] => .ok sampleRequest
  | _ => .error "unexpected tag"

def sampleEnrollCfg : EnrollConfig sampleDer :=
  ⟨sampleCa, sampleParseCsr, 100, 3600 * nanosPerSec, 600 * nanosPerSec, defaultMaxOutstanding⟩

/-- A step in which nothing fails. -/
def sampleEnrollEnv : EnrollEnv :=
  ⟨.answered, 0, 0, some (.lit (List.replicate 32 0xab)), sampleHost, .ok sampleCertDer⟩

def sampleToken : Str := tokenOf (.lit (List.replicate 32 0xab))

/-- One mint, then two enrollments with its token whose UPDATEs follow each other. -/
def sampleRace : List EnrollEvent :=
  [.request 0 0 (.mint 0), .step 0 sampleEnrollEnv, .step 0 sampleEnrollEnv,
    .step 0 sampleEnrollEnv, .request 0 0 (.enroll sampleToken sampleCsr),
    .request 0 0 (.enroll sampleToken sampleCsr), .step 2 sampleEnrollEnv,
    .step 1 sampleEnrollEnv, .step 1 sampleEnrollEnv, .step 2 sampleEnrollEnv]

theorem join_tokens_single_use_race :
    redeemedTokens (enrollRun sampleEnrollCfg (Enrollment.new (.pg ∅)) sampleRace).2 =
      [sampleToken] ∧
    enrolledTokens (enrollRun sampleEnrollCfg (Enrollment.new (.pg ∅)) sampleRace).2 =
      [sampleToken] ∧
    RedeemedLive (enrollRun sampleEnrollCfg (Enrollment.new (.pg ∅)) sampleRace).2 := by
  have hlog : let log := (enrollRun sampleEnrollCfg (Enrollment.new (.pg ∅)) sampleRace).2
      storedTokens log = [(sampleToken, 600)] ∧ redeemedTokens log = [sampleToken] ∧
        enrolledTokens log = [sampleToken] := by
    decide +kernel
  obtain ⟨hstored, hredeemed, henrolled⟩ := hlog
  have hdistinct : DistinctTokens (enrollRun sampleEnrollCfg (Enrollment.new (.pg ∅))
      sampleRace).2 := by
    constructor
    · rw [hstored]
      exact List.nodup_singleton _
    · rw [hstored, hredeemed]
      rintro _ ⟨token, rfl, htoken⟩ _ ⟨token', rfl, htoken'⟩ -
      simp only [List.map_cons, List.map_nil, List.mem_singleton, or_self] at htoken htoken'
      rw [htoken, htoken']
  obtain ⟨-, hlive, -, -⟩ :=
    join_tokens_single_use sampleEnrollCfg (.pg ∅) (.inr rfl) sampleRace hdistinct
  exact ⟨hredeemed, henrolled, hlive⟩

end Coordinator
end OpenSsmAgent
