-- SUMMARY: The transitions of a run: start, step, advance, retry, suspend, resume, abort and task events.
import Rollout.Run.Basic

/-!
# Transitions

Each operation takes a run to the run after it and gives an answer, which may be a fault. The run
after a refusal is part of the result, so that it can be stated that a refusal changes nothing.
`step` does as much as can be done without waiting for a task.

The clock is read by the caller: `now` is the time of the operation.
-/
namespace Rollout

/-- The state changes that a run may make. Nothing leaves an archived run, and every other run may
be aborted. -/
def RunState.allows : RunState → RunState → Bool
  | .completed, _ | .aborted, _ => false
  | _, .aborted => true
  | .pending, .running => true
  | .running, .holding | .running, .suspended | .running, .completed => true
  | .holding, .running | .suspended, .running => true
  | .holding, .suspended => true
  | _, _ => false

namespace Run

/-- The run after an operation, and the answer to it. -/
abbrev Reply (α : Type) : Type := Run × Except Fault α

/-- Refuse an operation because of the state of the run. -/
def refuse {α : Type} (r : Run) (op : String) : Reply α :=
  (r, .error (.invalidTransition op r.state.name))

/-- Record that the run changed. -/
def touch (r : Run) (now : Timestamp) : Run := { r with updatedAt := now }

/-- Enter a state. A run that is archived keeps the time. -/
def enter (r : Run) (now : Timestamp) (state : RunState) (op : String) : Reply Unit :=
  if r.state.allows state then
    ({ r with
        state := state
        updatedAt := now
        completedAt := if state.isTerminal then some now else r.completedAt }, .ok ())
  else r.refuse op

/-- Begin a pending run. -/
def start (r : Run) (now : Timestamp) : Reply Unit := r.enter now .running "start"

/-! ## Stages -/

/-- Change the tasks under the cursor that satisfy a test. -/
def mapStage (r : Run) (test : Task → Bool) (f : Task → Task) : Run :=
  { r with tasks := r.tasks.map fun t => if t.isAt r.cursor && test t then f t else t }

def command (r : Run) (t : Task) : TaskCommand where
  runId := r.id
  taskId := t.id
  host := t.host
  service := t.service
  component := t.component
  operation := t.operation
  version := t.version
  direction := r.policy.direction
  attempt := t.retryCount + 1

/-- Queue the pending tasks of the current stage, and give the command of each. -/
def queueStage (r : Run) (now : Timestamp) : Run × List TaskCommand :=
  let pending := r.stageTasks.filter fun t => t.status = .pending
  ((r.mapStage (fun t => t.status = .pending) fun t => { t with status := .queued }).touch now,
    pending.map r.command)

/-- Some task of the current stage is not over. -/
def stageIsOpen (r : Run) : Bool := r.stageTasks.any fun t => !t.status.isTerminal

/-- The failed tasks that hold the current stage: all but the checks of a skippable group. -/
def blocking (r : Run) : List Task :=
  let skippable := (r.currentGroup?.map Group.skippable).getD false
  r.stageTasks.filter fun t => t.status.isFailure && !(skippable && t.operation = .check)

/-- How a failed task is named in the message of a run that holds. -/
def describe (t : Task) : String :=
  let reason := t.lastError.getD "failed"
  s!"{t.host} {t.service}/{t.component} ({reason})"

def holdMessage (stage : String) (failed : List Task) : String :=
  let described := ", ".intercalate (failed.map describe)
  s!"{stage}: {failed.length} task(s) failed: {described}"

/-- Close the current stage, whose tasks must all be over. The answer is true when the cursor moved
on, and false when a failed task made the run hold. -/
def advance (r : Run) (now : Timestamp) : Reply Bool :=
  if r.state ≠ .running then r.refuse "advance"
  else if r.stageIsOpen then r.refuse "advance past outstanding tasks of"
  else if r.blocking.isEmpty then
    ({ r with cursor := r.cursor.nextStage, stageDispatched := false, updatedAt := now }, .ok true)
  else
    let stage := (r.currentStage?.map Stage.name).getD ""
    let (r, answer) :=
      { r with message := some (holdMessage stage r.blocking) }.enter now .holding "hold"
    (r, answer.map fun _ => false)

/-! ## Stepping -/

/-- Work through the stages of a group from the cursor on. The list holds the stages that are left.
`none` means that all of them are closed. -/
def stepStages (now : Timestamp) :
    List Stage → Run → Run × Option (Except Fault (List TaskCommand))
  | [], r => (r, none)
  | _ :: rest, r =>
    let (r, commands) := if r.stageDispatched then (r, []) else r.queueStage now
    let r := { r with stageDispatched := true }
    if !commands.isEmpty then (r, some (.ok commands))
    else if r.stageIsOpen then (r, some (.ok []))
    else match r.advance now with
      | (r, .ok true) => stepStages now rest r
      | (r, .ok false) => (r, some (.ok []))
      | (r, .error fault) => (r, some (.error fault))

/-- Work through the groups from the cursor on, and complete the run after the last one. The list
holds the groups that are left. -/
def stepGroups (now : Timestamp) : List Group → Run → Reply (List TaskCommand)
  | [], r =>
    let done := s!"{r.tasks.length} tasks completed: {r.plan.fromVersion} -> {r.plan.toVersion}"
    let (r, answer) := { r with message := some done }.enter now .completed "complete"
    (r, answer.map fun _ => [])
  | group :: rest, r =>
    match stepStages now (group.stages.drop r.cursor.stage) r with
    | (r, some answer) => (r, answer)
    | (r, none) =>
      stepGroups now rest { r with cursor := r.cursor.nextGroup, stageDispatched := false }

/-- Go as far as possible without waiting for a task. The answer holds the commands of the tasks
that were queued. Only a running run goes anywhere. -/
def step (r : Run) (now : Timestamp) : Reply (List TaskCommand) :=
  if r.state ≠ .running then (r, .ok [])
  else stepGroups now (r.plan.groups.drop r.cursor.group) r

/-! ## Control -/

/-- Make the failed tasks of the current stage pending again and go on. The answer counts them. -/
def retry (r : Run) (now : Timestamp) : Reply Nat :=
  if r.state ≠ .holding then r.refuse "retry"
  else
    let failed := (r.stageTasks.filter fun t => t.status.isFailure).length
    let r := r.mapStage (fun t => t.status.isFailure) fun t =>
      { t with
        status := .pending
        retryCount := t.retryCount + 1
        lastError := none
        startedAt := none
        completedAt := none }
    let (r, answer) :=
      { r with stageDispatched := false, message := none }.enter now .running "retry"
    (r, answer.map fun _ => failed)

/-- Hand out no further stage. Tasks that were sent go on. -/
def suspend (r : Run) (now : Timestamp) : Reply Unit :=
  match r.state with
  | .running | .holding => r.enter now .suspended "suspend"
  | _ => r.refuse "suspend"

/-- Go on. A stage that still has a failed task makes the run hold again at its next step. -/
def resume (r : Run) (now : Timestamp) : Reply Unit :=
  match r.state with
  | .suspended | .holding => r.enter now .running "resume"
  | _ => r.refuse "resume"

/-- Skip every task that is not over, and archive the run. -/
def abort (r : Run) (now : Timestamp) (reason : String) : Reply Unit :=
  if r.state.isTerminal then r.refuse "abort"
  else
    let tasks := r.tasks.map fun t =>
      if t.status.isTerminal then t else { t with status := .skipped, completedAt := some now }
    { r with tasks := tasks, message := some reason }.enter now .aborted "abort"

/-! ## Task events -/

/-- Another task is in progress on the host. -/
def isBusy (r : Run) (task : Nat) (host : String) : Bool :=
  r.tasks.any fun t => t.id ≠ task && t.host = host && t.status = .inProgress

/-- Replace the task with the given index by its image. -/
def modifyTask (r : Run) (task : Nat) (f : Task → Task) : Run :=
  { r with tasks := r.tasks.modify task f }

/-- Record the news of a task. News for an archived run are dropped; news that contradict the run
are fatal. -/
def apply (r : Run) (now : Timestamp) (event : TaskEvent) : Reply Unit :=
  if r.state.isTerminal then (r, .ok ())
  else
    let id := event.task
    let contradiction (reason : String) : Reply Unit := (r, .error (.fatal reason))
    match r.task? id with
    | none => contradiction s!"event for unknown task {id}"
    | some task =>
      if !task.isAt r.cursor then contradiction s!"event for task {id} outside the current stage"
      else if task.status.isTerminal then
        contradiction s!"event for task {id} which is already {task.status.name}"
      else match event with
        | .started .. =>
          if r.isBusy id task.host then
            contradiction s!"task {id} started while another task is in progress on {task.host}"
          else
            ((r.modifyTask id fun t =>
              { t with status := .inProgress, startedAt := t.startedAt.or (some now) }).touch now,
              .ok ())
        | .finished _ outcome =>
          if !outcome.status.isTerminal then
            contradiction s!"task {id} finished with non-terminal status {outcome.status.name}"
          else
            ((r.modifyTask id fun t =>
              { t with
                status := outcome.status
                retryCount := t.retryCount + outcome.retries
                lastError := outcome.fault.map Fault.message
                completedAt := some now }).touch now, .ok ())

end Run

end Rollout
