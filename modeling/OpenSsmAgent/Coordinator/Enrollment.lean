import OpenSsmAgent.Coordinator.Issuance
import OpenSsmAgent.Coordinator.Service
import OpenSsmAgent.Coordinator.Tokens

/-!
# Enrollment

The calls of {lit}`osa-coordinator/src/service.rs` that concern host identities:
minting and redeeming join tokens, {lit}`enroll`, {lit}`renew` and {lit}`revoke`.
They run side by side on any number of replicas, each with a clock of its own, and
meet in the stores.  A call moves by single statements or by single operations under
a mutex.
-/

open Framing SymbolicCrypto Fallible

namespace OpenSsmAgent
namespace Coordinator

open Domain Hs

/-! ## State -/

/-- The token store of a deployment. -/
inductive JoinTokens where
  | registry (tokens : JoinTokenRegistry)
  | pg (rows : TokenRows)

/-- What is fixed for a deployment. -/
structure EnrollConfig (fromDer : FromDer) where
  ca : EmbeddedCa fromDer
  parseCsr : CsrFromDer
  certTtl : Int
  maxTtl : Nat
  defaultTtl : Nat
  cap : Nat

/-- Who redeems a token: the {lit}`redeem` of the store alone, or {lit}`enroll` with a
request. -/
structure Redeemer where
  token : Str
  csr : Option Blob
deriving DecidableEq

/-- What a call does next. -/
inductive EnrollCall where
  | mintLocked (expiresAt : SystemTime)
  | mintDelete (now expiresAt : Int)
  | mintCount (now expiresAt : Int)
  | mintInsert (expiresAt : Int)
  | redeemLocked (who : Redeemer)
  | redeemUpdate (who : Redeemer) (now : Int)
  | redeemSelect (who : Redeemer)
  | signing (token : Str) (csr : Blob)
  | checking (host : HostId) (csr : Blob)
  | reissuing (host : HostId) (csr : Blob)
  | revoking (host : HostId)
  | finished
deriving DecidableEq

/-- The stores and the calls in progress. -/
structure Enrollment where
  tokens : JoinTokens
  revoked : List HostId
  calls : Table Nat EnrollCall
  next : Nat

/-- What a call answers. -/
inductive EnrollReply where
  | mint (result : Except Status (Str × Int))
  | redeem (result : Except RedeemError Unit)
  | enroll (result : Except Status (Str × Blob × Blob))
  | renew (result : Except Status Blob)
  | revoke (result : Except Status Unit)

/-- What happens, apart from answers: a token is stored with its expiry, redeemed at a
time, a host certificate is issued for a token or for a renewal, a renewal passes the
revocation check, a host is revoked, a server certificate is issued. -/
inductive EnrollAct where
  | stored (token : Str) (expiresAt : Int)
  | redeemed (token : Str) (now : Int)
  | enrolled (token : Str) (host : HostId) (csr : Blob) (cert : IssuedCert)
  | renewed (host : HostId) (csr : Blob) (cert : IssuedCert)
  | cleared (host : HostId)
  | revoked (host : HostId)
  | server (cert : IssuedCert)
  | replied (reply : EnrollReply)

/-- A request, with the clock of the replica that takes it. -/
inductive EnrollRequest where
  | mint (ttlSeconds : Nat)
  | redeem (token : Str)
  | enroll (joinToken : Str) (csr : Blob)
  | renew (currentCert csr : Blob)
  | revoke (hostId : Str)

/-- What a step meets: the fate of its statement, the clock in nanoseconds and in
seconds, the bytes drawn for a token, the host id drawn, and what the certificate
writer returns. -/
structure EnrollEnv where
  fate : CallFate
  now : SystemTime
  utcNow : Int
  raw : Option (Fixed 32)
  host : HostId
  signed : Except String Blob

/-- A request arrives, a call takes a step, or the CA issues a server certificate. -/
inductive EnrollEvent where
  | request (now : SystemTime) (utcNow : Int) (req : EnrollRequest)
  | step (id : Nat) (env : EnrollEnv)
  | server (utcNow : Int) (dnsNames : List String) (key : Except String SigningKey)
      (signed : Except String Blob)

/-! ## The calls -/

section Calls

variable {fromDer : FromDer} (cfg : EnrollConfig fromDer)

/-- A call ends with an answer. -/
def replyWith (reply : EnrollReply) : EnrollCall × List EnrollAct :=
  (.finished, [.replied reply])

def mintFailed : EnrollReply := .mint (.error ⟨.internal, "token mint failed"⟩)

/-- A redemption is decided: the store's caller learns why it failed, an enrolling host
does not. -/
def Redeemer.decided (who : Redeemer) (now : Int) :
    Except RedeemError Unit → EnrollCall × List EnrollAct
  | .ok () =>
      match who.csr with
      | none => (.finished, [.redeemed who.token now, .replied (.redeem (.ok ()))])
      | some csr => (.signing who.token csr, [.redeemed who.token now])
  | .error e =>
      match who.csr with
      | none => replyWith (.redeem (.error e))
      | some _ =>
          replyWith (.enroll (.error ⟨.permissionDenied, "invalid or expired join token"⟩))

/-- The begin of {lit}`redeem`. -/
def JoinTokens.beginRedeem (tokens : JoinTokens) (now : SystemTime) (who : Redeemer) :
    EnrollCall :=
  match tokens with
  | .registry _ => .redeemLocked who
  | .pg _ => .redeemUpdate who (unixSeconds now)

/-- The begin of {lit}`mint` with a requested lifetime in seconds. -/
def JoinTokens.beginMint (tokens : JoinTokens) (now : SystemTime) (ttlSeconds : Nat) :
    EnrollCall :=
  let ttl := min (if ttlSeconds = 0 then cfg.defaultTtl else ttlSeconds * nanosPerSec) cfg.maxTtl
  match tokens with
  | .registry _ => .mintLocked (now + ttl)
  | .pg _ =>
      .mintDelete (unixSeconds now) (saturatingAdd (unixSeconds now) (asI64 (ttl / nanosPerSec)))

/-- A request arrives: what can be decided at once, and the first thing to await. -/
def EnrollRequest.begin (tokens : JoinTokens) (now : SystemTime) (utcNow : Int) :
    EnrollRequest → EnrollCall × List EnrollAct
  | .mint ttlSeconds => (tokens.beginMint cfg now ttlSeconds, [])
  | .redeem token => (tokens.beginRedeem now ⟨token, none⟩, [])
  | .enroll joinToken csr =>
      match validateCsr cfg.parseCsr csr with
      | .error _ => replyWith (.enroll (.error ⟨.invalidArgument, "malformed CSR"⟩))
      | .ok () => (tokens.beginRedeem now ⟨joinToken, some csr⟩, [])
  | .renew currentCert csr =>
      match cfg.ca.validateRenewal cfg.parseCsr utcNow currentCert csr with
      | .error (.invalid m) => replyWith (.renew (.error ⟨.permissionDenied, m⟩))
      | .error _ =>
          replyWith (.renew (.error ⟨.internal, "certificate renewal failed"⟩))
      | .ok host => (.checking host csr, [])
  | .revoke hostId =>
      match HostId.parse hostId.text with
      | none => replyWith (.revoke (.error ⟨.invalidArgument, "host_id is not a UUID"⟩))
      | some host => (.revoking host, [])

/-- Whether a call awaits the token store. -/
def EnrollCall.onTokens : EnrollCall → Bool
  | .mintLocked _ | .mintDelete _ _ | .mintCount _ _ | .mintInsert _ => true
  | .redeemLocked _ | .redeemUpdate _ _ | .redeemSelect _ => true
  | _ => false

/-- A step on the token store. -/
def JoinTokens.step (env : EnrollEnv) (tokens : JoinTokens) (call : EnrollCall) :
    JoinTokens × EnrollCall × List EnrollAct :=
  match tokens, call with
  | .registry m, .mintLocked expiresAt =>
      let out := m.mint cfg.cap expiresAt env.now env.raw
      (.registry out.2, match out.1 with
        | .ok (token, expires) =>
            (.finished, [.stored token expiresAt, .replied (.mint (.ok (token, expires)))])
        | .error .full =>
            replyWith (.mint (.error ⟨.resourceExhausted, "join token capacity reached"⟩))
        | .error _ => replyWith mintFailed)
  | .registry m, .redeemLocked who =>
      let out := m.redeem env.now who.token
      (.registry out.2, who.decided env.now out.1)
  | .pg rows, .mintDelete now expiresAt =>
      let out := env.fate.statement (fun rows => ((), PgJoinTokens.deleteTerminal now rows)) rows
      (.pg out.2, match out.1 with
        | .error _ => replyWith mintFailed
        | .ok () => (.mintCount now expiresAt, []))
  | .pg rows, .mintCount now expiresAt =>
      let out := env.fate.statement
        (fun rows => (PgJoinTokens.countOutstanding now rows, rows)) rows
      (.pg out.2, match out.1 with
        | .error _ => replyWith mintFailed
        | .ok outstanding =>
            if cfg.cap ≤ outstanding then
              replyWith (.mint (.error ⟨.resourceExhausted, "join token capacity reached"⟩))
            else (.mintInsert expiresAt, []))
  | .pg rows, .mintInsert expiresAt =>
      match env.raw with
      | none => (.pg rows, replyWith mintFailed)
      | some raw =>
          let token := tokenOf raw
          let insert := PgJoinTokens.insertRow (tokenHash token) expiresAt
          let out := env.fate.statement insert rows
          -- the row may be there although the answer was lost
          let stored :=
            if env.fate.ran && (insert rows).1 then [EnrollAct.stored token expiresAt] else []
          (.pg out.2, .finished, stored ++ [.replied (match out.1 with
            | .ok true => .mint (.ok (token, expiresAt))
            | _ => mintFailed)])
  | .pg rows, .redeemUpdate who now =>
      let out := env.fate.statement (PgJoinTokens.updateRedeemed (tokenHash who.token) now) rows
      (.pg out.2, match out.1 with
        | .error _ => who.decided now (.error .backend)
        | .ok affected =>
            if affected = 1 then who.decided now (.ok ()) else (.redeemSelect who, []))
  | .pg rows, .redeemSelect who =>
      let out := env.fate.statement
        (fun rows => (PgJoinTokens.classify (tokenHash who.token) rows, rows)) rows
      (.pg out.2, who.decided 0 (.error (match out.1 with
        | .error _ => .backend
        | .ok e => e)))
  | _, _ => (tokens, call, [])

/-- A step of a call that does not touch the token store. -/
def EnrollCall.step (env : EnrollEnv) (revoked : List HostId) (call : EnrollCall) :
    List HostId × EnrollCall × List EnrollAct :=
  match call with
  | .signing token csr =>
      (revoked, match issue cfg.parseCsr cfg.certTtl env.utcNow env.host csr env.signed with
        | .error (.invalid _) =>
            replyWith (.enroll (.error ⟨.invalidArgument, "malformed CSR"⟩))
        | .error _ =>
            replyWith (.enroll (.error ⟨.internal, "certificate issuance failed"⟩))
        | .ok cert =>
            (.finished, [.enrolled token env.host csr cert,
              .replied (.enroll (.ok (env.host.toStr, cert.der, cfg.ca.certDer)))]))
  | .checking host csr =>
      let out := env.fate.statement (fun revoked => (decide (host ∈ revoked), revoked)) revoked
      (out.2, match out.1 with
        | .error _ =>
            replyWith (.renew (.error ⟨.internal, "revocation check unavailable"⟩))
        | .ok true => replyWith (.renew (.error ⟨.permissionDenied, "identity revoked"⟩))
        | .ok false => (.reissuing host csr, [.cleared host]))
  | .reissuing host csr =>
      (revoked, match issue cfg.parseCsr cfg.certTtl env.utcNow host csr env.signed with
        | .error _ => replyWith (.renew (.error ⟨.internal, "certificate renewal failed"⟩))
        | .ok cert => (.finished, [.renewed host csr cert, .replied (.renew (.ok cert.der))]))
  | .revoking host =>
      let out := env.fate.statement (fun revoked => ((), host :: revoked)) revoked
      (out.2, .finished, (if env.fate.ran then [EnrollAct.revoked host] else []) ++
        [.replied (.revoke (match out.1 with
          | .error _ => .error ⟨.internal, "revocation store unavailable"⟩
          | .ok () => .ok ()))])
  | call => (revoked, call, [])

end Calls

/-! ## Runs -/

section Runs

variable {fromDer : FromDer} (cfg : EnrollConfig fromDer)

/-- The log of a run: every act with its call, a server certificate with none. -/
abbrev EnrollLog := List (Option Nat × EnrollAct)

/-- Nothing minted, nothing issued, nothing revoked. -/
def Enrollment.new (tokens : JoinTokens) : Enrollment := ⟨tokens, [], ∅, 0⟩

/-- One step. -/
def enrollStep (s : Enrollment) : EnrollEvent → Enrollment × EnrollLog
  | .request now utcNow req =>
      let out := req.begin cfg s.tokens now utcNow
      ({ s with calls := s.calls.put s.next out.1, next := s.next + 1 },
        out.2.map (Prod.mk (some s.next)))
  | .step id env =>
      match s.calls.lookup id with
      | none => (s, [])
      | some call =>
          if call.onTokens then
            let out := s.tokens.step cfg env call
            ({ s with tokens := out.1, calls := s.calls.put id out.2.1 },
              out.2.2.map (Prod.mk (some id)))
          else
            let out := call.step cfg env s.revoked
            ({ s with revoked := out.1, calls := s.calls.put id out.2.1 },
              out.2.2.map (Prod.mk (some id)))
  | .server utcNow dnsNames key signed =>
      (s, match issueServerCert cfg.certTtl utcNow dnsNames key signed with
        | .error _ => []
        | .ok cert => [(none, .server cert)])

/-- A run with the log of all acts. -/
def enrollRun (s : Enrollment) : List EnrollEvent → Enrollment × EnrollLog
  | [] => (s, [])
  | ev :: events =>
      let here := enrollStep cfg s ev
      let later := enrollRun here.1 events
      (later.1, here.2 ++ later.2)

end Runs

end Coordinator
end OpenSsmAgent
