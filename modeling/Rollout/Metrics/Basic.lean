-- SUMMARY: Metrics of runs: counters and histograms by label, and the gauge of active runs.
import Rollout.Run.Basic

/-!
# Metrics

Counters and histograms are kept by label. A run is active from its creation until it is archived;
its duration is observed then. A run that was never created, or is archived already, counts among
the transitions but has no duration.
-/
namespace Rollout

/-- Values by label, in the order in which the labels first occur. -/
abbrev Family (κ ν : Type) := List (κ × ν)

namespace Family

/-- Change the value of a label. A new label starts from `fresh`. -/
def update {κ ν : Type} [DecidableEq κ] (key : κ) (fresh : ν) (f : ν → ν) : Family κ ν → Family κ ν
  | [] => [(key, f fresh)]
  | (k, v) :: rest => if k = key then (k, f v) :: rest else (k, v) :: update key fresh f rest

/-- Count once more under a label. -/
def count {κ : Type} [DecidableEq κ] (key : κ) (family : Family κ Nat) : Family κ Nat :=
  update key 0 (· + 1) family

end Family

/-- Observations counted by their size. -/
structure Histogram where
  /-- For each bound, in ascending order, the number of observations between it and the one
  before. -/
  buckets : List (Float × Nat)
  /-- The observations above all bounds. -/
  beyond : Nat
  sum : Float
  deriving Repr

namespace Histogram

/-- No observations yet. -/
def ofBounds (bounds : List Float) : Histogram := ⟨bounds.map (·, 0), 0, 0⟩

/-- Count an observation in the first bucket whose bound it does not exceed. `none` means that it
exceeds all of them. -/
def place (x : Float) : List (Float × Nat) → Option (List (Float × Nat))
  | [] => none
  | (bound, n) :: rest =>
    if x ≤ bound then some ((bound, n + 1) :: rest) else (place x rest).map ((bound, n) :: ·)

def observe (x : Float) (h : Histogram) : Histogram :=
  match place x h.buckets with
  | some buckets => { h with buckets := buckets, sum := h.sum + x }
  | none => { h with beyond := h.beyond + 1, sum := h.sum + x }

def total (h : Histogram) : Nat := (h.buckets.map Prod.snd).foldr (· + ·) h.beyond

end Histogram

structure RunLabels where
  topology : String
  direction : String
  deriving DecidableEq, Repr

def Run.labels (r : Run) : RunLabels := ⟨r.plan.topology, r.policy.direction.name⟩

/-- The metrics. -/
structure Metrics where
  created : Family RunLabels Nat
  active : Int
  transitions : Family (RunLabels × RunState) Nat
  completed : Family RunLabels Nat
  aborted : Family RunLabels Nat
  holding : Family RunLabels Nat
  runDurations : Family RunLabels Histogram
  tasks : Family (Operation × TaskStatus) Nat
  taskDurations : Family Operation Histogram
  unreachable : Family String Nat
  /-- The runs that are active, with the times of their creation. -/
  tracked : List (RunId × Timestamp)
  deriving Repr

namespace Metrics

def empty : Metrics := ⟨[], 0, [], [], [], [], [], [], [], [], []⟩

/-- The bounds for durations of runs, in seconds: one minute to twelve hours. -/
def runBounds : List Float := [60, 300, 600, 1800, 3600, 7200, 14400, 28800, 43200]

/-- The bounds for durations of tasks, in seconds: half a second to one hour. -/
def taskBounds : List Float := [0.5, 1, 5, 10, 30, 60, 120, 300, 600, 1800, 3600]

def secondsOfNanos (nanos : Nat) : Float := Float.ofScientific nanos true 9

def recordCreated (id : RunId) (labels : RunLabels) (now : Timestamp) (m : Metrics) : Metrics :=
  { m with
    created := m.created.count labels
    active := m.active + 1
    tracked := (id, now) :: m.tracked.filter fun (other, _) => other ≠ id }

/-- A run is archived: it is not active any more, and its duration is observed. -/
def close (id : RunId) (labels : RunLabels) (now : Timestamp) (m : Metrics) : Metrics :=
  match m.tracked.lookup id with
  | none => m
  | some start =>
    let duration := secondsOfNanos (Timestamp.nanosBetween start now).toNat
    { m with
      active := m.active - 1
      runDurations :=
        Family.update labels (Histogram.ofBounds runBounds) (·.observe duration) m.runDurations
      tracked := m.tracked.filter fun (other, _) => other ≠ id }

def recordTransition (id : RunId) (labels : RunLabels) (state : RunState) (now : Timestamp)
    (m : Metrics) : Metrics :=
  let m := { m with transitions := m.transitions.count (labels, state) }
  match state with
  | .holding => { m with holding := m.holding.count labels }
  | .completed => close id labels now { m with completed := m.completed.count labels }
  | .aborted => close id labels now { m with aborted := m.aborted.count labels }
  | _ => m

/-- A task is over, after a number of seconds if it was started. -/
def recordTask (operation : Operation) (status : TaskStatus) (duration : Option Float)
    (m : Metrics) : Metrics :=
  let m := { m with tasks := m.tasks.count (operation, status) }
  match duration with
  | none => m
  | some x => { m with
      taskDurations :=
        Family.update operation (Histogram.ofBounds taskBounds) (·.observe x) m.taskDurations }

/-- A task failed because its host was unreachable. -/
def recordUnreachable (host : String) (m : Metrics) : Metrics :=
  { m with unreachable := m.unreachable.count host }

end Metrics

end Rollout
