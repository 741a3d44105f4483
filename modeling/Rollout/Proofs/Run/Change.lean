-- SUMMARY: What the operations on a run can do: the changes they make, and when an event is taken.
import Mathlib.Logic.Relation
import Rollout.Run.Transition

/-!
# Changes

The operations on a run share a few changes, each with its guard: `Run.Order` lists those that commands
make, `Run.Change` adds those that the run makes by itself, and `Run.Applied` says what becomes of a
task event. An
invariant of changes and of taken events is an invariant of all operations.
-/
namespace Rollout

theorem RunState.isTerminal_iff {state : RunState} :
    state.isTerminal = true ↔ state = .completed ∨ state = .aborted := by
  cases state <;> simp [isTerminal]

/-! ## Images of tasks -/

namespace Task

/-- The task after it was handed out. -/
def queued (t : Task) : Task := { t with status := .queued }

/-- The task after someone asked for another try. -/
def requeued (t : Task) : Task :=
  { t with
    status := .pending
    retryCount := t.retryCount + 1
    lastError := none
    startedAt := none
    completedAt := none }

/-- The task after its agent began. -/
def begun (now : Timestamp) (t : Task) : Task :=
  { t with status := .inProgress, startedAt := t.startedAt.or (some now) }

/-- The task after it ended. -/
def ended (now : Timestamp) (outcome : TaskOutcome) (t : Task) : Task :=
  { t with
    status := outcome.status
    retryCount := t.retryCount + outcome.retries
    lastError := outcome.fault.map Fault.message
    completedAt := some now }

/-- The task after its run was aborted. -/
def skipped (now : Timestamp) (t : Task) : Task :=
  if t.status.isTerminal then t else { t with status := .skipped, completedAt := some now }

end Task

namespace Run

/-! ## Images of runs -/

/-- The run in another state that is not terminal. -/
def inState (r : Run) (now : Timestamp) (state : RunState) : Run :=
  { r with state := state, updatedAt := now }

/-- The run after its current stage was handed out. -/
def handOut (r : Run) (now : Timestamp) : Run :=
  { (r.queueStage now).1 with stageDispatched := true }

/-- The run after its current stage was closed. -/
def closeStage (r : Run) (now : Timestamp) : Run :=
  { r with cursor := r.cursor.nextStage, stageDispatched := false, updatedAt := now }

/-- The run after a failed task made it hold. -/
def hold (r : Run) (now : Timestamp) : Run :=
  { r with
    state := .holding
    message := some (holdMessage ((r.currentStage?.map Stage.name).getD "") r.blocking)
    updatedAt := now }

/-- The run after all stages of its current group were closed. -/
def closeGroup (r : Run) : Run := { r with cursor := r.cursor.nextGroup, stageDispatched := false }

/-- The run after all of its groups were closed. -/
def complete (r : Run) (now : Timestamp) : Run :=
  { r with
    state := .completed
    message := some s!"{r.tasks.length} tasks completed: {r.plan.fromVersion} -> {r.plan.toVersion}"
    updatedAt := now
    completedAt := some now }

/-- The run after its failed tasks became pending again. -/
def requeue (r : Run) (now : Timestamp) : Run :=
  { r.mapStage (fun t => t.status.isFailure) Task.requeued with
    state := .running
    stageDispatched := false
    message := none
    updatedAt := now }

/-- The run after it was aborted. -/
def skipRest (r : Run) (now : Timestamp) (reason : String) : Run :=
  { r with
    tasks := r.tasks.map (Task.skipped now)
    state := .aborted
    message := some reason
    updatedAt := now
    completedAt := some now }

/-! ## Changes -/

/-- What becomes of a run by a command. -/
inductive Order (now : Timestamp) : Run → Run → Prop
  /-- The run begins, or goes on. -/
  | go {r : Run} (idle : r.state = .pending ∨ r.state = .holding ∨ r.state = .suspended) :
      Order now r (r.inState now .running)
  | suspend {r : Run} (active : r.state = .running ∨ r.state = .holding) :
      Order now r (r.inState now .suspended)
  | requeue {r : Run} (holding : r.state = .holding) : Order now r (r.requeue now)
  | skipRest {r : Run} {reason : String} (live : r.state.isTerminal = false) :
      Order now r (r.skipRest now reason)

/-- What becomes of a run by one decision, of others or of its own. -/
inductive Change (now : Timestamp) : Run → Run → Prop
  | order {r r' : Run} (order : Order now r r') : Change now r r'
  | handOut {r : Run} (running : r.state = .running) (fresh : r.stageDispatched = false) :
      Change now r (r.handOut now)
  | closeStage {r : Run} (running : r.state = .running) (closed : r.stageIsOpen = false)
      (clear : r.blocking = []) : Change now r (r.closeStage now)
  | hold {r : Run} (running : r.state = .running) (closed : r.stageIsOpen = false)
      (blocked : r.blocking ≠ []) : Change now r (r.hold now)
  | closeGroup {r : Run} {g : Group} (running : r.state = .running)
      (group : r.currentGroup? = some g) (done : g.stages.length ≤ r.cursor.stage) :
      Change now r r.closeGroup
  | complete {r : Run} (running : r.state = .running) (done : r.currentGroup? = none) :
      Change now r (r.complete now)

/-- What becomes of a run by a task event, with the answer. -/
inductive Applied (now : Timestamp) (r : Run) : TaskEvent → Reply Unit → Prop
  | dropped {event : TaskEvent} (archived : r.state.isTerminal = true) :
      Applied now r event (r, .ok ())
  | refused {event : TaskEvent} {fault : Fault} (live : r.state.isTerminal = false) :
      Applied now r event (r, .error fault)
  | begun {id : Nat} {attempt : UInt32} {t : Task} (live : r.state.isTerminal = false)
      (task : r.task? id = some t) (here : t.isAt r.cursor = true)
      (unfinished : t.status.isTerminal = false) (free : r.isBusy id t.host = false) :
      Applied now r (.started id attempt) ((r.modifyTask id (Task.begun now)).touch now, .ok ())
  | ended {id : Nat} {outcome : TaskOutcome} {t : Task} (live : r.state.isTerminal = false)
      (task : r.task? id = some t) (here : t.isAt r.cursor = true)
      (unfinished : t.status.isTerminal = false) (final : outcome.status.isTerminal = true) :
      Applied now r (.finished id outcome)
        ((r.modifyTask id (Task.ended now outcome)).touch now, .ok ())

-- ---------------------------------------------------------------------------
-- Operations
-- ---------------------------------------------------------------------------

theorem enter_allowed {r : Run} {now : Timestamp} {state : RunState} {op : String}
    (allowed : r.state.allows state = true) (live : state.isTerminal = false) :
    r.enter now state op = (r.inState now state, .ok ()) := by
  simp [enter, allowed, live, inState]

theorem enter_refused {r : Run} {now : Timestamp} {state : RunState} {op : String}
    (refused : r.state.allows state = false) : r.enter now state op = r.refuse op := by
  simp [enter, refused]

theorem start_of_pending {r : Run} {now : Timestamp} (pending : r.state = .pending) :
    r.start now = (r.inState now .running, .ok ()) :=
  enter_allowed (by rw [pending]; rfl) rfl

theorem start_order (r : Run) (now : Timestamp) :
    Relation.ReflGen (Order now) r (r.start now).1 := by
  unfold start
  cases allowed : r.state.allows .running with
  | true =>
    rw [enter_allowed allowed rfl]
    refine .single (.go ?_)
    cases h : r.state <;> simp_all [RunState.allows]
  | false =>
    rw [enter_refused allowed]
    exact .refl

theorem suspend_order (r : Run) (now : Timestamp) :
    Relation.ReflGen (Order now) r (r.suspend now).1 := by
  unfold suspend
  split
  next h =>
    rw [enter_allowed (by rw [h]; rfl) rfl]
    exact .single (.suspend (.inl h))
  next h =>
    rw [enter_allowed (by rw [h]; rfl) rfl]
    exact .single (.suspend (.inr h))
  · exact .refl

theorem resume_order (r : Run) (now : Timestamp) :
    Relation.ReflGen (Order now) r (r.resume now).1 := by
  unfold resume
  split
  next h =>
    rw [enter_allowed (by rw [h]; rfl) rfl]
    exact .single (.go (.inr (.inr h)))
  next h =>
    rw [enter_allowed (by rw [h]; rfl) rfl]
    exact .single (.go (.inr (.inl h)))
  · exact .refl

theorem retry_of_holding {r : Run} {now : Timestamp} (holding : r.state = .holding) :
    r.retry now =
      (r.requeue now, .ok (r.stageTasks.filter fun t => t.status.isFailure).length) := by
  simp only [retry, holding, ne_eq, not_true_eq_false, if_false]
  rw [enter_allowed (by simp [mapStage, holding, RunState.allows]) rfl]
  rfl

theorem retry_order (r : Run) (now : Timestamp) :
    Relation.ReflGen (Order now) r (r.retry now).1 := by
  by_cases holding : r.state = .holding
  · rw [retry_of_holding holding]
    exact .single (.requeue holding)
  · simp only [retry, holding, ne_eq, not_false_eq_true, if_true]
    exact .refl

theorem abort_of_live {r : Run} {now : Timestamp} {reason : String}
    (live : r.state.isTerminal = false) : r.abort now reason = (r.skipRest now reason, .ok ()) := by
  have allowed : r.state.allows .aborted = true := by
    cases h : r.state <;> simp_all [RunState.allows, RunState.isTerminal]
  simp only [abort, live, Bool.false_eq_true, if_false, enter, allowed, if_true]
  rfl

theorem abort_of_archived {r : Run} {now : Timestamp} {reason : String}
    (archived : r.state.isTerminal = true) : r.abort now reason = r.refuse "abort" := by
  simp [abort, archived]

theorem abort_order (r : Run) (now : Timestamp) (reason : String) :
    Relation.ReflGen (Order now) r (r.abort now reason).1 := by
  cases live : r.state.isTerminal with
  | true =>
    rw [abort_of_archived live]
    exact .refl
  | false =>
    rw [abort_of_live live]
    exact .single (.skipRest live)

theorem advance_of_clear {r : Run} {now : Timestamp} (running : r.state = .running)
    (closed : r.stageIsOpen = false) (clear : r.blocking = []) :
    r.advance now = (r.closeStage now, .ok true) := by
  simp [advance, running, closed, clear, closeStage]

theorem advance_of_blocked {r : Run} {now : Timestamp} (running : r.state = .running)
    (closed : r.stageIsOpen = false) (blocked : r.blocking ≠ []) :
    r.advance now = (r.hold now, .ok false) := by
  have some_blocked : r.blocking.isEmpty = false := by simpa using blocked
  simp only [advance, running, closed, some_blocked, ne_eq, not_true_eq_false, if_false,
    Bool.false_eq_true]
  rw [enter_allowed (by simp [RunState.allows]) rfl]
  rfl

theorem advance_change (r : Run) (now : Timestamp) :
    Relation.ReflGen (Change now) r (r.advance now).1 := by
  by_cases running : r.state = .running
  · cases closed : r.stageIsOpen with
    | true => simpa [advance, running, closed, refuse] using Relation.ReflGen.refl
    | false =>
      by_cases clear : r.blocking = []
      · rw [advance_of_clear running closed clear]
        exact .single (.closeStage running closed clear)
      · rw [advance_of_blocked running closed clear]
        exact .single (.hold running closed clear)
  · simpa [advance, running, refuse] using Relation.ReflGen.refl

/-! ## Events -/

theorem apply_started {r : Run} {now : Timestamp} {id : Nat} {attempt : UInt32} {t : Task}
    (live : r.state.isTerminal = false) (task : r.task? id = some t)
    (here : t.isAt r.cursor = true) (unfinished : t.status.isTerminal = false)
    (free : r.isBusy id t.host = false) :
    r.apply now (.started id attempt) =
      ((r.modifyTask id (Task.begun now)).touch now, .ok ()) := by
  unfold apply
  rw [if_neg (by simp [live])]
  dsimp only [TaskEvent.task]
  rw [task]
  dsimp only
  rw [if_neg (by simp [here]), if_neg (by simp [unfinished]), if_neg (by simp [free])]
  rfl

theorem apply_finished {r : Run} {now : Timestamp} {id : Nat} {outcome : TaskOutcome} {t : Task}
    (live : r.state.isTerminal = false) (task : r.task? id = some t)
    (here : t.isAt r.cursor = true) (unfinished : t.status.isTerminal = false)
    (final : outcome.status.isTerminal = true) :
    r.apply now (.finished id outcome) =
      ((r.modifyTask id (Task.ended now outcome)).touch now, .ok ()) := by
  unfold apply
  rw [if_neg (by simp [live])]
  dsimp only [TaskEvent.task]
  rw [task]
  dsimp only
  rw [if_neg (by simp [here]), if_neg (by simp [unfinished]), if_neg (by simp [final])]
  rfl

/-- News change a run in one of these ways, or are refused. -/
theorem apply_applied (r : Run) (now : Timestamp) (event : TaskEvent) :
    Applied now r event (r.apply now event) := by
  unfold apply
  split
  next archived => exact .dropped archived
  next open_ =>
    have live : r.state.isTerminal = false := by simpa using open_
    dsimp only
    split
    · exact .refused live
    next t task =>
      split
      · exact .refused live
      next at_cursor =>
        have here : t.isAt r.cursor = true := by simpa using at_cursor
        split
        · exact .refused live
        next not_over =>
          have unfinished : t.status.isTerminal = false := by simpa using not_over
          split
          · split
            · exact .refused live
            next not_busy => exact .begun live task here unfinished (Bool.eq_false_iff.mpr not_busy)
          · split
            · exact .refused live
            next ended => exact .ended live task here unfinished (by simpa using ended)

end Run

end Rollout
