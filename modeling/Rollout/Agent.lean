-- SUMMARY: The messages between the orchestrator and the agent on a host.
import Rollout.Run.Basic

/-!
# Agents

The agent on a host answers pings and carries commands out. A command is a `TaskCommand`.
-/
namespace Rollout

/-- A ping. An `immediate` one asks the agent not to wait for its next polling tick. -/
structure PingRequest where
  username : String
  instanceName : String
  immediate : Bool
  deriving DecidableEq, Repr

structure PingReply where
  contactedAt : Timestamp
  deriving DecidableEq, Repr

structure CommandReply where
  accepted : Bool
  message : Option String
  deriving DecidableEq, Repr

end Rollout
