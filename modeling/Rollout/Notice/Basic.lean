-- SUMMARY: Notices about the life of a run: which changes are announced, to whom, and with what facts.
import Rollout.Run.Basic

/-!
# Notices

A run is announced when it starts, whenever it holds, and when it is archived. The notice of a
holding run shows a limited number of failed tasks and counts the others.
-/
namespace Rollout

/-- Which runs are announced. -/
structure NotificationSettings where
  onUpgrade : Bool
  onDowngrade : Bool
  deriving DecidableEq, Repr

/-- Whether runs of a policy are announced. -/
def NotificationSettings.covers (s : NotificationSettings) (policy : Policy) : Bool :=
  if policy.isDowngrade then s.onDowngrade else s.onUpgrade

structure FailedTaskRow where
  host : String
  /-- The service and the component. -/
  target : String
  status : String
  error : String
  deriving DecidableEq, Repr

structure Notice where
  runId : RunId
  state : RunState
  title : String
  facts : List (String × String)
  failed : List FailedTaskRow
  /-- The failed tasks without a row. -/
  moreFailed : Nat
  deriving DecidableEq, Repr

namespace Notice

def rowLimit : Nat := 8

def row (t : Task) : FailedTaskRow where
  host := t.host
  target := s!"{t.service}/{t.component}"
  status := t.status.name
  error := t.lastError.getD "no error recorded"

/-- What kind of run a notice is about. -/
def subject (policy : Policy) : String :=
  if policy.isDowngrade then "Cluster Downgrade" else "Cluster Upgrade"

/-! ## Facts -/

def topologyFact (r : Run) : String × String := ("Topology", r.plan.topology)

/-- The version that is left and the version that is reached. -/
def versionsFact (r : Run) : String × String :=
  ("Versions", s!"{r.plan.fromVersion} → {r.plan.toVersion}")

def tasksFact (r : Run) : String × String := ("Tasks", s!"{r.tasks.length}")

/-- The stage under the cursor, or a word for none. -/
def stageFact (r : Run) (label none : String) : String × String :=
  (label, (r.currentStage?.map Stage.name).getD none)

/-- The time from the creation of a run to its end, in minutes and seconds. -/
def durationFact (r : Run) : String × String :=
  let value := match r.completedAt with
    | none => "unknown"
    | some stop =>
      let seconds := Timestamp.secondsBetween r.createdAt stop
      s!"{seconds / 60}m {seconds % 60}s"
  ("Duration", value)

def startedFacts (r : Run) : List (String × String) :=
  [topologyFact r, versionsFact r, tasksFact r,
   ("Skip Service Checks", if r.policy.skipServiceChecks then "true" else "false"),
   ("Services", " → ".intercalate (r.plan.groups.map Group.name))]

def holdingFacts (r : Run) : List (String × String) :=
  [topologyFact r, stageFact r "Stage" "unknown"]

def completedFacts (r : Run) : List (String × String) :=
  [topologyFact r, versionsFact r, tasksFact r, durationFact r]

def abortedFacts (r : Run) : List (String × String) :=
  [topologyFact r, versionsFact r, stageFact r "Aborted Stage" "none", durationFact r,
   ("Reason", r.message.getD "unknown")]

/-- The verb and the facts of the state that a run entered from `previous`, if it is announced. -/
def headline? (r : Run) (previous : RunState) : Option (String × List (String × String)) :=
  match r.state with
  | .running => if previous = .pending then some ("Started", startedFacts r) else none
  | .holding => some ("Holding", holdingFacts r)
  | .completed => some ("Completed", completedFacts r)
  | .aborted => some ("Aborted", abortedFacts r)
  | _ => none

/-- The notice for the state that a run just entered from `previous`, if it is announced. -/
def ofRun? (r : Run) (previous : RunState) : Option Notice := do
  let (verb, facts) ← headline? r previous
  let failed := if r.state = .holding then r.failedTasks else []
  return {
    runId := r.id
    state := r.state
    title := s!"{subject r.policy} {verb}"
    facts := facts
    failed := (failed.take rowLimit).map row
    moreFailed := failed.length - rowLimit }

end Notice

end Rollout
