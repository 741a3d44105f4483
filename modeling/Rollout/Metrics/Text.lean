-- SUMMARY: Metrics as text in the OpenMetrics format.
import Rollout.Decimal.Shortest
import Rollout.Metrics.Basic

/-!
# Metrics as text

Every family has two comment lines, which stand there also when there are no samples, and one line
for each sample; a histogram has several. The samples of a family are written in the order of their
code points.
-/
namespace Rollout.Metrics

/-- A label with its value, which is written as it is. -/
def writeLabel (label : String × String) : String := s!"{label.1}=\"{label.2}\""

/-- Labels between braces. -/
def writeLabels (labels : List (String × String)) : String :=
  "\x7b" ++ ",".intercalate (labels.map writeLabel) ++ "\x7d"

/-- The line of a sample. -/
def sample (name : String) (labels : List (String × String)) (value : String) : String :=
  s!"{name}{writeLabels labels} {value}"

/-- The lines of a family. -/
def family (name kind help : String) (samples : List String) : List String :=
  s!"# HELP {name} {help}." :: s!"# TYPE {name} {kind}"
    :: samples.mergeSort (fun a b => decide (a ≤ b))

/-- The lines of a family of counters. -/
def counters {κ : Type} (name help : String) (labels : κ → List (String × String))
    (values : Family κ Nat) : List String :=
  family name "counter" help <| values.map fun (key, n) =>
    sample (name ++ "_total") (labels key) s!"{n}"

/-- The running totals of the buckets, with the text of each bound. -/
def cumulated : Nat → List (Float × Nat) → List (String × Nat)
  | _, [] => []
  | before, (bound, n) :: rest =>
    (Decimal.render bound, before + n) :: cumulated (before + n) rest

/-- The samples of a histogram. -/
def histogramSamples (name : String) (labels : List (String × String)) (h : Histogram) :
    List String :=
  let bounds := cumulated 0 h.buckets ++ [("+Inf", h.total)]
  sample (name ++ "_sum") labels (Decimal.render h.sum)
    :: sample (name ++ "_count") labels s!"{h.total}"
    :: bounds.map fun (bound, n) => sample (name ++ "_bucket") (("le", bound) :: labels) s!"{n}"

/-- The lines of a family of histograms. -/
def histograms {κ : Type} (name help : String) (labels : κ → List (String × String))
    (values : Family κ Histogram) : List String :=
  family name "histogram" help <| values.flatMap fun (key, h) => histogramSamples name (labels key) h

/-- The labels of a run. -/
def runLabels (l : RunLabels) : List (String × String) :=
  [("topology", l.topology), ("direction", l.direction)]

/-- All lines. -/
def lines (m : Metrics) : List String :=
  counters "ruo_runs_created" "Total number of upgrade runs created" runLabels m.created
  ++ family "ruo_runs_active" "gauge" "Number of runs not yet in a terminal state"
      [s!"ruo_runs_active {m.active}"]
  ++ counters "ruo_state_transition" "Total number of run state transitions"
      (fun (labels, state) => runLabels labels ++ [("state", state.name)]) m.transitions
  ++ counters "ruo_runs_completed" "Total number of runs that reached COMPLETED" runLabels m.completed
  ++ counters "ruo_runs_aborted" "Total number of runs that reached ABORTED" runLabels m.aborted
  ++ counters "ruo_runs_holding"
      "Total number of times a run entered HOLDING after a stage failure" runLabels m.holding
  ++ histograms "ruo_run_duration_seconds" "Time from run creation to a terminal state in seconds"
      runLabels m.runDurations
  ++ counters "ruo_task_finished" "Total number of tasks that reached a terminal status"
      (fun (operation, status) => [("operation", operation.name), ("status", status.name)]) m.tasks
  ++ histograms "ruo_task_duration_seconds" "Duration of task execution in seconds"
      (fun operation => [("operation", operation.name)]) m.taskDurations
  ++ counters "ruo_host_unreachable"
      "Total number of tasks failed because their host was unreachable"
      (fun host => [("host", host)]) m.unreachable
  ++ ["# EOF"]

end Rollout.Metrics
