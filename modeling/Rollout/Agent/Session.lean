-- SUMMARY: What is known about the liveness of a host.
import Rollout.Timestamp.Basic

/-!
# Sessions

A session records the pings of one host: the last contact, and how many pings were missed since. A
host is marked unreachable when enough pings in a row were missed, and the next contact clears the
mark.
-/
namespace Rollout

/-- The liveness record of a host. -/
structure Session where
  host : String
  lastContact : Option Timestamp
  outstandingPing : Bool
  consecutiveFailures : UInt32
  unreachable : Bool
  deriving DecidableEq, Repr

namespace Session

/-- Nothing is known about the host. -/
def fresh (host : String) : Session := ⟨host, none, false, 0, false⟩

/-- Never contacted, or the last contact is older than `maxAgeMs`. A contact in the future has no
age. -/
def isStale (s : Session) (now : Timestamp) (maxAgeMs : Nat) : Bool :=
  match s.lastContact with
  | none => true
  | some contact => Timestamp.nanosBetween contact now > maxAgeMs * 1000000

/-- The host answered. -/
def recordSuccess (s : Session) (contactedAt : Timestamp) : Session :=
  { s with lastContact := some contactedAt, consecutiveFailures := 0, unreachable := false }

/-- The host missed a ping. -/
def recordFailure (s : Session) (threshold : UInt32) : Session :=
  let failures := s.consecutiveFailures + 1
  { s with
    consecutiveFailures := failures
    unreachable := s.unreachable || threshold ≤ failures }

/-- A ping is over: with a contact, or without one. -/
def record (s : Session) (threshold : UInt32) (contact : Option Timestamp) : Session :=
  match contact with
  | some contactedAt => s.recordSuccess contactedAt
  | none => s.recordFailure threshold

def afterPings (s : Session) (threshold : UInt32) (contacts : List (Option Timestamp)) : Session :=
  contacts.foldl (fun s contact => s.record threshold contact) s

end Session

end Rollout
