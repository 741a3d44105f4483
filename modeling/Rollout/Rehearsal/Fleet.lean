-- SUMMARY: Scripted agents: what each of them answers to its calls and pings, and how long it takes.
import Rollout.Fault
import Rollout.Timestamp.Basic

/-!
# Scripted agents

In a rehearsal the agents follow scripts. The script of a host lists what its agent does in its next
calls and pings, and what it does after those.
-/
namespace Rollout

/-- What a scripted agent does. -/
inductive Deed where
  /-- Accept the command, or answer the ping with a contact now. -/
  | ok
  /-- Answer the ping with a contact a year ago. -/
  | past
  /-- Answer the ping with a contact in a year. -/
  | future
  /-- Answer the ping with a contact at a time. -/
  | contact (time : Timestamp)
  /-- Miss the ping. -/
  | miss
  /-- Answer the command with a fault. -/
  | refuse (fault : Fault)
  /-- Never answer. -/
  | hang
  deriving DecidableEq, Repr

/-- A deed after a number of milliseconds. -/
structure Action where
  deed : Deed
  delay : Nat
  deriving DecidableEq, Repr

/-- What a scripted agent does in its next calls and pings, and after those. -/
structure Script where
  calls : List Action
  laterCalls : Action
  pings : List Action
  laterPings : Action
  deriving DecidableEq, Repr

def Action.ok : Action := ⟨.ok, 0⟩

/-- An agent that always does well at once. -/
def Script.ok : Script := ⟨[], .ok, [], .ok⟩

/-- The scripts by host. Agents without a script do well at once. -/
abbrev Fleet := List (String × Script)

namespace Fleet

def script (fleet : Fleet) (host : String) : Script := (fleet.lookup host).getD .ok

def set (fleet : Fleet) (host : String) (script : Script) : Fleet :=
  (host, script) :: fleet.filter fun (other, _) => other ≠ host

/-- What the agent of a host does in its next call. -/
def nextCall (fleet : Fleet) (host : String) : Action × Fleet :=
  let script := fleet.script host
  match script.calls with
  | [] => (script.laterCalls, fleet)
  | action :: rest => (action, fleet.set host { script with calls := rest })

/-- What the agent of a host does at its next ping. -/
def nextPing (fleet : Fleet) (host : String) : Action × Fleet :=
  let script := fleet.script host
  match script.pings with
  | [] => (script.laterPings, fleet)
  | action :: rest => (action, fleet.set host { script with pings := rest })

end Fleet

namespace Deed

/-- The answer to a call, if there is one: a fault, or none. -/
def callAnswer? : Deed → Option (Option Fault)
  | refuse fault => some (some fault)
  | hang => none
  | _ => some none

/-- The answer to a ping, if there is one: a contact, or none. -/
def pingAnswer? (wall : Timestamp) : Deed → Option (Option Timestamp)
  | ok => some (some wall)
  | past => some (wall.addDays? (-365))
  | future => some (wall.addDays? 365)
  | contact time => some (some time)
  | hang => none
  | _ => some none

end Deed

end Rollout
