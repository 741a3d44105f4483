-- SUMMARY: Runs and their tasks: states, statuses, events and commands, and what can be read off a run.
import Rollout.Plan
import Rollout.Timestamp.Basic

/-!
# Runs

A run carries a plan out. It owns one task for each entry of the plan and a cursor, the position of
the stage that is worked on. How a run changes is the matter of `Rollout.Run.Transition`.
-/
namespace Rollout

/-- The overall state of a run. -/
inductive RunState where
  | pending
  | running
  | holding
  | suspended
  | completed
  | aborted
  deriving DecidableEq, Repr

namespace RunState

def all : List RunState := [pending, running, holding, suspended, completed, aborted]

def name : RunState → String
  | pending => "PENDING"
  | running => "RUNNING"
  | holding => "HOLDING"
  | suspended => "SUSPENDED"
  | completed => "COMPLETED"
  | aborted => "ABORTED"

/-- The run is archived. -/
def isTerminal : RunState → Bool
  | completed | aborted => true
  | _ => false

/-- The run is archived or waits for someone to retry or abort it. -/
def isSettled : RunState → Bool
  | holding | completed | aborted => true
  | _ => false

end RunState

/-- The status of a task. -/
inductive TaskStatus where
  | pending
  | queued
  | inProgress
  | completed
  | failed
  | skipped
  | timedOut
  deriving DecidableEq, Repr

namespace TaskStatus

def all : List TaskStatus := [pending, queued, inProgress, completed, failed, skipped, timedOut]

def name : TaskStatus → String
  | pending => "PENDING"
  | queued => "QUEUED"
  | inProgress => "IN_PROGRESS"
  | completed => "COMPLETED"
  | failed => "FAILED"
  | skipped => "SKIPPED"
  | timedOut => "TIMED_OUT"

/-- The task is over. -/
def isTerminal : TaskStatus → Bool
  | completed | failed | skipped | timedOut => true
  | _ => false

/-- The task counts as failed when its stage is closed. -/
def isFailure : TaskStatus → Bool
  | failed | timedOut => true
  | _ => false

end TaskStatus

structure Task where
  id : Nat
  group : Nat
  stage : Nat
  host : String
  service : String
  component : String
  operation : Operation
  version : String
  status : TaskStatus
  /-- How many times the task was sent or queued again. -/
  retryCount : UInt32
  lastError : Option String
  startedAt : Option Timestamp
  completedAt : Option Timestamp
  deriving DecidableEq, Repr

/-- The position of a run in its plan. -/
structure Cursor where
  group : Nat
  stage : Nat
  deriving DecidableEq, Repr

namespace Cursor

/-- The first stage of the first group. -/
def start : Cursor := ⟨0, 0⟩

/-- The next stage of the same group. -/
def nextStage (c : Cursor) : Cursor := ⟨c.group, c.stage + 1⟩

/-- The first stage of the next group. -/
def nextGroup (c : Cursor) : Cursor := ⟨c.group + 1, 0⟩

end Cursor

/-- How a task ended. `retries` counts how many times it was sent again by itself. -/
structure TaskOutcome where
  status : TaskStatus
  retries : UInt32
  fault : Option Fault
  deriving DecidableEq, Repr

namespace TaskOutcome

/-- The task succeeded. -/
def completed (retries : UInt32) : TaskOutcome := ⟨.completed, retries, none⟩

/-- The task failed; a timeout of the task has a status of its own. -/
def failed (fault : Fault) (retries : UInt32) : TaskOutcome :=
  match fault with
  | .taskTimeout .. => ⟨.timedOut, retries, some fault⟩
  | _ => ⟨.failed, retries, some fault⟩

end TaskOutcome

/-- News of a task from the worker that carries it out. -/
inductive TaskEvent where
  | started (task : Nat) (attempt : UInt32)
  | finished (task : Nat) (outcome : TaskOutcome)
  deriving DecidableEq, Repr

def TaskEvent.task : TaskEvent → Nat
  | started task _ | finished task _ => task

/-- The order to carry out one task, for the agent on its host. -/
structure TaskCommand where
  runId : RunId
  taskId : Nat
  host : String
  service : String
  component : String
  operation : Operation
  version : String
  direction : Direction
  /-- One for the first time the task is sent, and one more each time after. -/
  attempt : UInt32
  deriving DecidableEq, Repr

/-- A run. -/
structure Run where
  id : RunId
  plan : Plan
  policy : Policy
  state : RunState
  cursor : Cursor
  /-- The pending tasks of the current stage were handed out. -/
  stageDispatched : Bool
  tasks : List Task
  message : Option String
  createdAt : Timestamp
  updatedAt : Timestamp
  completedAt : Option Timestamp
  deriving DecidableEq, Repr

namespace Task

/-- The pending task for an entry of a plan. -/
def ofSpec (id group stage : Nat) (spec : TaskSpec) : Task where
  id := id
  group := group
  stage := stage
  host := spec.host
  service := spec.service
  component := spec.component
  operation := spec.operation
  version := spec.version
  status := .pending
  retryCount := 0
  lastError := none
  startedAt := none
  completedAt := none

/-- The task lies in the stage under the cursor. -/
def isAt (t : Task) (c : Cursor) : Bool := t.group = c.group && t.stage = c.stage

end Task

namespace Run

/-- A pending run with one task for each entry of its plan. -/
def create (id : RunId) (plan : Plan) (policy : Policy) (now : Timestamp) : Run where
  id := id
  plan := plan
  policy := policy
  state := .pending
  cursor := .start
  stageDispatched := false
  tasks := plan.tasks.zipIdx.map fun ((group, stage, spec), id) => Task.ofSpec id group stage spec
  message := none
  createdAt := now
  updatedAt := now
  completedAt := none

def task? (r : Run) (id : Nat) : Option Task := r.tasks[id]?

def currentGroup? (r : Run) : Option Group := r.plan.groups[r.cursor.group]?

def currentStage? (r : Run) : Option Stage := do (← r.currentGroup?).stages[r.cursor.stage]?

def stageTasks (r : Run) : List Task := r.tasks.filter (·.isAt r.cursor)

def failedTasks (r : Run) : List Task := r.tasks.filter fun t => t.status.isFailure

/-- How many tasks are not over. -/
def openCount (r : Run) : Nat := (r.tasks.filter fun t => !t.status.isTerminal).length

/-- The share of the tasks that are over, in percent; all of them when there are none. -/
def progressPercent (r : Run) : Nat :=
  if r.tasks.isEmpty then 100
  else (r.tasks.length - r.openCount) * 100 / r.tasks.length

end Run

end Rollout
