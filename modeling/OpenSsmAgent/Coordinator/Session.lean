import OpenSsmAgent.Core.Wire
import OpenSsmAgent.Core.Domain
import OpenSsmAgent.Lib.Table

/-!
# Coordinator sessions

The per-host session registry of {lit}`osa-coordinator/src/session.rs`: sealing
on the downlink with a counting allocator, opening on the uplink under the replay
guard, and the bounded store in which a reconnect replaces the host's entry.

Main results:

- Theorem {lit}`SessionStore.insert_eq`: an insert is refused exactly for a new
  host at capacity, and otherwise starts the host's session afresh.
-/

open Framing SymbolicCrypto

namespace OpenSsmAgent
namespace Coordinator

open Seal Wire Domain

/-- Upper bound on tracked sessions. -/
def maxSessions : Nat := 50000

/-- One live session.  The allocator counts its calls. -/
structure Session where
  sid : Str
  keys : SessionKeys
  sendSeq : Nat
  recvHigh : Option UInt64
deriving DecidableEq

namespace Session

/-- A session as it is first recorded. -/
def start (sid : Str) (keys : SessionKeys) : Session where
  sid := sid
  keys := keys
  sendSeq := 0
  recvHigh := none

/-- {lit}`Session::seal_downlink`. -/
def sealDownlink (s : Session) (hostId : Str) (payload : Bytes) : Envelope × Session :=
  (sealEnvelope s.keys .coordToAgent hostId s.sid (wireSeq s.sendSeq) .control payload,
    { s with sendSeq := s.sendSeq + 1 })

/-- The call of {lit}`seal` that the next {lit}`seal_downlink` makes. -/
def sealCall (s : Session) : SealCall :=
  ⟨s.keys.key .coordToAgent, s.sendSeq⟩

/-- {lit}`Session::derive_stream_keys`. -/
def deriveStreamKeys (s : Session) (streamId : Bytes) : SessionKeys :=
  s.keys.deriveStream streamId

/-- {lit}`Session::open_uplink`. -/
def openUplink (s : Session) (env : Envelope) : Option Bytes × Session :=
  let r := openGuarded s.keys .agentToCoord s.recvHigh env
  (r.1, { s with recvHigh := r.2 })

@[simp] theorem openUplink_keys (s : Session) (env : Envelope) :
    (s.openUplink env).2.keys = s.keys :=
  rfl

@[simp] theorem openUplink_sid (s : Session) (env : Envelope) :
    (s.openUplink env).2.sid = s.sid :=
  rfl

@[simp] theorem openUplink_sendSeq (s : Session) (env : Envelope) :
    (s.openUplink env).2.sendSeq = s.sendSeq :=
  rfl

end Session

/-- Sessions keyed by host. -/
structure SessionStore where
  byHost : Table HostId Session
  cap : Nat

namespace SessionStore

def new : SessionStore where
  byHost := ∅
  cap := maxSessions

def get (s : SessionStore) (host : HostId) : Option Session :=
  s.byHost.lookup host

/-- Replace a host's session. -/
def set (s : SessionStore) (host : HostId) (session : Session) : SessionStore :=
  { s with byHost := s.byHost.put host session }

/-- {lit}`SessionStore::insert`: refuse a new host at capacity, else record (or
replace) its session with a fresh allocator and guard. -/
def insert (s : SessionStore) (host : HostId) (sid : Str) (keys : SessionKeys) :
    Bool × SessionStore :=
  if s.get host = none ∧ s.cap ≤ s.byHost.size then (false, s)
  else (true, s.set host (Session.start sid keys))

/-- {lit}`host_ids`. -/
def hostIds (s : SessionStore) : List HostId :=
  s.byHost.keys

theorem get_set (s : SessionStore) (host other : HostId) (session : Session) :
    (s.set host session).get other = if other = host then some session else s.get other :=
  Table.lookup_put s.byHost host other session

@[simp] theorem get_set_self (s : SessionStore) (host : HostId) (session : Session) :
    (s.set host session).get host = some session := by
  simp [get_set]

theorem get_set_ne (s : SessionStore) {host other : HostId} (session : Session)
    (h : other ≠ host) : (s.set host session).get other = s.get other := by
  simp [get_set, h]

/-- Writing a session back unchanged changes nothing. -/
theorem set_of_get {s : SessionStore} {host : HostId} {session : Session}
    (h : s.get host = some session) : s.set host session = s := by
  simp only [set]
  rw [Table.put_of_lookup h]

/-- An insert is refused exactly for a new host at capacity. -/
theorem insert_eq (s : SessionStore) (host : HostId) (sid : Str) (keys : SessionKeys) :
    s.insert host sid keys = (false, s) ∨
      s.insert host sid keys = (true, s.set host (Session.start sid keys)) ∧
        (s.get host = none → s.byHost.size < s.cap) := by
  unfold insert
  split_ifs with hfull
  · exact Or.inl rfl
  · exact Or.inr ⟨rfl, fun hnew => not_le.mp fun hcap => hfull ⟨hnew, hcap⟩⟩

end SessionStore
end Coordinator
end OpenSsmAgent
