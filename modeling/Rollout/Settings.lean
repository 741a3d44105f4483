-- SUMMARY: Settings of the engine: how tasks are dispatched, how agents are probed, what is announced.
import Rollout.Notice.Basic

/-!
# Settings

Spans of time are whole milliseconds.
-/
namespace Rollout

/-- How the tasks of a stage are dispatched. -/
structure DispatchSettings where
  /-- How many times a task that failed is sent again by itself. -/
  maxTaskRetries : UInt32
  taskTimeoutMs : Nat
  /-- How many hosts may be worked on at once; zero counts as one. -/
  maxConcurrentHosts : Nat
  deriving DecidableEq, Repr

/-- How agents are probed. -/
structure ProbeSettings where
  username : String
  instanceName : String
  /-- The time between two pings of the background; also the age at which a contact is stale. -/
  intervalMs : Nat
  timeoutMs : Nat
  /-- How many pings in a row may be missed before a host counts as unreachable. -/
  failureThreshold : UInt32
  deriving DecidableEq, Repr

structure EngineSettings where
  dispatch : DispatchSettings
  probe : ProbeSettings
  notification : NotificationSettings
  deriving DecidableEq, Repr

/-- An engine can be started: its clocks take an interval of at least a millisecond and of less than
`2 ^ 63` seconds, and an executor has fewer than `2 ^ 61` slots. -/
def EngineSettings.isStartable (s : EngineSettings) : Bool :=
  0 < s.probe.intervalMs && s.probe.intervalMs < 1000 * Nat.pow 2 63
    && max 1 s.dispatch.maxConcurrentHosts < Nat.pow 2 61

/-- Nothing is sent again, a task has ten minutes, and eight hosts are worked on at once. -/
def DispatchSettings.default : DispatchSettings := ⟨0, 600000, 8⟩

/-- A ping every thirty seconds with five seconds to answer, of which three may be missed. -/
def ProbeSettings.default : ProbeSettings := ⟨"ruo", "ruo", 30000, 5000, 3⟩

/-- Nothing is announced. -/
def EngineSettings.default : EngineSettings := ⟨.default, .default, ⟨false, false⟩⟩

end Rollout
