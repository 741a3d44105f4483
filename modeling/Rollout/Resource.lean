-- SUMMARY: Resource types, filters over the history of runs, and the projection of a run for readers.
import Rollout.Run.Basic

/-!
# Resources

Readers see a run as an `UpgradeResource`: its head data, the names under the cursor, and one view
for each task. `UpgradeResource.ofRun?` gives no projection for a run with a task outside its plan.
-/
namespace Rollout

/-- The types of resources that are exposed. -/
inductive ResourceType where
  | upgrade
  | upgradeGroup
  | upgradeItem
  | task
  deriving DecidableEq, Repr

namespace ResourceType

def all : List ResourceType := [upgrade, upgradeGroup, upgradeItem, task]

def name : ResourceType → String
  | upgrade => "Upgrade"
  | upgradeGroup => "UpgradeGroup"
  | upgradeItem => "UpgradeItem"
  | task => "Task"

def singular : ResourceType → String
  | upgrade => "upgrade"
  | upgradeGroup => "upgrade_group"
  | upgradeItem => "upgrade_item"
  | task => "task"

def plural : ResourceType → String
  | upgrade => "upgrades"
  | upgradeGroup => "upgrade_groups"
  | upgradeItem => "upgrade_items"
  | task => "tasks"

/-- The directives that may be given when a resource of the type is created. -/
def directives : ResourceType → List String
  | upgrade => Directives.accepted
  | _ => []

end ResourceType

/-- A choice of runs by direction and final state. -/
inductive HistoryFilter where
  | all
  | upgradeAborted
  | upgradeCompleted
  | downgradeAborted
  | downgradeCompleted
  deriving DecidableEq, Repr

namespace HistoryFilter

def values : List HistoryFilter :=
  [all, upgradeAborted, upgradeCompleted, downgradeAborted, downgradeCompleted]

def name : HistoryFilter → String
  | all => "ALL"
  | upgradeAborted => "UPGRADE_ABORTED"
  | upgradeCompleted => "UPGRADE_COMPLETED"
  | downgradeAborted => "DOWNGRADE_ABORTED"
  | downgradeCompleted => "DOWNGRADE_COMPLETED"

/-- The filter of a query that names none. -/
def default : HistoryFilter := all

/-- Whether a run of the given policy and state is chosen. `all` takes runs in flight as well. -/
def accepts : HistoryFilter → Policy → RunState → Bool
  | all, _, _ => true
  | upgradeAborted, policy, state => !policy.isDowngrade && state = .aborted
  | upgradeCompleted, policy, state => !policy.isDowngrade && state = .completed
  | downgradeAborted, policy, state => policy.isDowngrade && state = .aborted
  | downgradeCompleted, policy, state => policy.isDowngrade && state = .completed

/-- The filter that a text names, whatever the case of its ASCII letters. -/
def parse (s : String) : Except Fault HistoryFilter :=
  let upper := Text.asciiUpper s
  match values.find? fun f => f.name = upper with
  | some f => .ok f
  | none => .error (.invalidDirective "filter" s!"unknown history filter '{upper}'")

end HistoryFilter

/-- A task as readers see it. -/
structure TaskView where
  id : Nat
  group : String
  stage : String
  host : String
  service : String
  component : String
  operation : Operation
  status : TaskStatus
  retryCount : UInt32
  lastError : Option String
  deriving DecidableEq, Repr

/-- A run as readers see it. -/
structure UpgradeResource where
  kind : ResourceType
  id : RunId
  topology : String
  fromVersion : String
  toVersion : String
  state : RunState
  directives : Policy
  currentGroup : Option String
  currentStage : Option String
  progressPercent : UInt8
  message : Option String
  failedTasks : List TaskView
  tasks : List TaskView
  createdAt : Timestamp
  updatedAt : Timestamp
  completedAt : Option Timestamp
  deriving DecidableEq, Repr

/-- The view of a task of a plan, if the plan has the group and the stage of the task. -/
def TaskView.ofTask? (plan : Plan) (t : Task) : Option TaskView := do
  let group ← plan.groups[t.group]?
  let stage ← group.stages[t.stage]?
  return {
    id := t.id
    group := group.name
    stage := stage.name
    host := t.host
    service := t.service
    component := t.component
    operation := t.operation
    status := t.status
    retryCount := t.retryCount
    lastError := t.lastError }

/-- The projection of a run. The cursor counts only while the run is not archived. -/
def UpgradeResource.ofRun? (r : Run) : Option UpgradeResource := do
  let tasks ← r.tasks.mapM (TaskView.ofTask? r.plan)
  let failed ← r.failedTasks.mapM (TaskView.ofTask? r.plan)
  let active := !r.state.isTerminal
  return {
    kind := .upgrade
    id := r.id
    topology := r.plan.topology
    fromVersion := r.plan.fromVersion
    toVersion := r.plan.toVersion
    state := r.state
    directives := r.policy
    currentGroup := (r.currentGroup?.filter fun _ => active).map Group.name
    currentStage := (r.currentStage?.filter fun _ => active).map Stage.name
    progressPercent := UInt8.ofNat r.progressPercent
    message := r.message
    failedTasks := failed
    tasks := tasks
    createdAt := r.createdAt
    updatedAt := r.updatedAt
    completedAt := r.completedAt }

end Rollout
