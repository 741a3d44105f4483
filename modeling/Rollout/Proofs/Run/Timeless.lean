-- SUMMARY: Runs up to the times in them: what the operations do and answer does not depend on the clock.
import Rollout.Proofs.Run.Answers

/-!
# Runs without times

A run keeps the time of its last change, and its tasks keep when they began and ended. Nothing that a run
does or answers depends on what these times are. So a run may be compared up to its times: both runs are
taken with a clock that stands still.
-/
namespace Rollout

/-- The task on a clock that stands still: it is kept whether it began and ended, and not when. -/
def Task.timeless (t : Task) : Task :=
  { t with
    startedAt := t.startedAt.map fun _ => .epoch
    completedAt := t.completedAt.map fun _ => .epoch }

/-- What an event makes of its task. -/
def TaskEvent.effect (now : Timestamp) : TaskEvent → Task → Task
  | .started .. => Task.begun now
  | .finished _ outcome => Task.ended now outcome

theorem TaskEvent.effect_timeless (now : Timestamp) (event : TaskEvent) (t : Task) :
    (event.effect now t).timeless = event.effect .epoch t.timeless := by
  cases event with
  | started => cases begun : t.startedAt <;> simp [effect, Task.begun, Task.timeless, begun]
  | finished => rfl

theorem TaskEvent.effect_origin (now : Timestamp) (event : TaskEvent) (t : Task) :
    (event.effect now t).origin = t.origin := by
  cases event <;> rfl

namespace Run

/-- The run on a clock that stands still. Only the time of its creation is kept. -/
def timeless (r : Run) : Run :=
  { r with
    tasks := r.tasks.map Task.timeless
    updatedAt := .epoch
    completedAt := r.completedAt.map fun _ => .epoch }

variable {r r' : Run} {now : Timestamp}

-- ---------------------------------------------------------------------------
-- What is read off a run
-- ---------------------------------------------------------------------------

@[simp] theorem timeless_state : r.timeless.state = r.state := rfl

@[simp] theorem timeless_cursor : r.timeless.cursor = r.cursor := rfl

@[simp] theorem timeless_plan : r.timeless.plan = r.plan := rfl

@[simp] theorem timeless_task? (id : Nat) :
    r.timeless.task? id = (r.task? id).map Task.timeless := List.getElem?_map

@[simp] theorem timeless_stageTasks : r.timeless.stageTasks = r.stageTasks.map Task.timeless :=
  List.filter_map

@[simp] theorem timeless_stageIsOpen : r.timeless.stageIsOpen = r.stageIsOpen := by
  rw [stageIsOpen, timeless_stageTasks, List.any_map]
  rfl

@[simp] theorem timeless_blocking : r.timeless.blocking = r.blocking.map Task.timeless := by
  simp only [blocking, timeless_stageTasks, List.filter_map]
  rfl

@[simp] theorem timeless_isBusy (id : Nat) (host : String) :
    r.timeless.isBusy id host = r.isBusy id host := by
  simp only [isBusy, timeless, List.any_map]
  rfl

/-- The message of a run that holds tells no times. -/
theorem holdMessage_timeless (stage : String) (failed : List Task) :
    holdMessage stage (failed.map Task.timeless) = holdMessage stage failed := by
  have described : (failed.map Task.timeless).map describe = failed.map describe := List.map_map
  rw [holdMessage, holdMessage, described, List.length_map]

/-- Commands tell no times. -/
theorem queueStage_timeless (r : Run) (now : Timestamp) :
    (r.timeless.queueStage .epoch).2 = (r.queueStage now).2 := by
  simp only [queueStage, timeless_stageTasks, List.filter_map, List.map_map]
  rfl

theorem MirrorsPlan.timeless (h : r.MirrorsPlan) : r.timeless.MirrorsPlan := by
  have origins : r.timeless.tasks.map Task.origin = r.tasks.map Task.origin := List.map_map
  rw [MirrorsPlan, origins]
  exact h

-- ---------------------------------------------------------------------------
-- Changes
-- ---------------------------------------------------------------------------

theorem handOut_timeless (r : Run) (now : Timestamp) :
    (r.handOut now).timeless = r.timeless.handOut .epoch := by
  have tasks : (r.handOut now).timeless.tasks = (r.timeless.handOut .epoch).tasks := by
    simp only [timeless, handOut, queueStage, touch, mapStage, List.map_map]
    refine List.map_congr_left fun t _ => ?_
    simp only [Function.comp_apply]
    split
    next queued => exact (if_pos queued).symm
    next spared => exact (if_neg spared).symm
  exact congrArg (fun tasks => { (r.handOut now).timeless with tasks := tasks }) tasks

theorem closeStage_timeless (r : Run) (now : Timestamp) :
    (r.closeStage now).timeless = r.timeless.closeStage .epoch := rfl

theorem hold_timeless (r : Run) (now : Timestamp) : (r.hold now).timeless = r.timeless.hold .epoch := by
  simp only [hold, timeless_blocking, holdMessage_timeless]
  rfl

theorem complete_timeless : (r.complete now).timeless = r.timeless.complete .epoch := by
  simp only [complete, timeless, List.length_map]
  rfl

theorem modifyTask_timeless (id : Nat) (event : TaskEvent) :
    ((r.modifyTask id (event.effect now)).touch now).timeless =
      (r.timeless.modifyTask id (event.effect .epoch)).touch .epoch := by
  have tasks : (r.tasks.modify id (event.effect now)).map Task.timeless =
      (r.tasks.map Task.timeless).modify id (event.effect .epoch) := by
    refine List.ext_getElem? fun i => ?_
    simp only [List.getElem?_map, List.getElem?_modify]
    cases r.tasks[i]? with
    | none => rfl
    | some t => by_cases here : id = i <;> simp [here, event.effect_timeless]
  exact congrArg (fun tasks => { r.timeless with tasks := tasks }) tasks

-- ---------------------------------------------------------------------------
-- Steps
-- ---------------------------------------------------------------------------

/-- The stages are worked through in the same way at any time. -/
theorem stepStages_timeless (stages : List Stage) (r : Run) (running : r.state = .running)
    (now : Timestamp) :
    stepStages .epoch stages r.timeless =
      ((stepStages now stages r).1.timeless, (stepStages now stages r).2) := by
  induction stages generalizing r with
  | nil => rfl
  | cons s rest ih =>
    have work (r : Run) (running : r.state = .running) :
        workStage .epoch rest r.timeless =
          ((workStage now rest r).1.timeless, (workStage now rest r).2) := by
      unfold workStage
      rw [timeless_stageIsOpen, timeless_blocking, ← closeStage_timeless r now, ← hold_timeless r now]
      simp only [List.map_eq_nil_iff]
      split
      · rfl
      split
      · exact ih (r.closeStage now) running
      · rfl
    cases dispatched : r.stageDispatched with
    | true =>
      rw [stepStages_dispatched running dispatched,
        stepStages_dispatched (r := r.timeless) running dispatched]
      exact work r running
    | false =>
      rw [stepStages_fresh running dispatched, stepStages_fresh (r := r.timeless) running dispatched,
        ← handOut_timeless r now, queueStage_timeless r now]
      split
      · exact work (r.handOut now) running
      · rfl

/-- So are the groups. -/
theorem stepGroups_timeless (groups : List Group) (r : Run) (running : r.state = .running)
    (left : groups = r.plan.groups.drop r.cursor.group) (now : Timestamp) :
    stepGroups .epoch groups r.timeless =
      ((stepGroups now groups r).1.timeless, (stepGroups now groups r).2) := by
  induction groups generalizing r with
  | nil =>
    rw [stepGroups_nil running, stepGroups_nil (r := r.timeless) running, complete_timeless]
  | cons g rest ih =>
    obtain ⟨group, left'⟩ := groups_left left
    obtain ⟨_, _, plan, cursor, ends⟩ : Reaches now g r _ := stepStages_reaches _ r running group rfl
    rw [stepGroups, stepGroups, timeless_cursor, stepStages_timeless _ r running now]
    cases h : stepStages now (g.stages.drop r.cursor.stage) r with
    | mk r' answer =>
      rw [h] at ends
      cases answer with
      | some answer => rfl
      | none =>
        obtain ⟨rfl, running', _, _⟩ := ends
        exact ih r'.closeGroup running' (by rw [left', ← cursor, ← plan]; rfl)

/-- A step does the same on a clock that stands still. -/
theorem step_timeless (r : Run) (now : Timestamp) :
    r.timeless.step .epoch = ((r.step now).1.timeless, (r.step now).2) := by
  unfold step
  by_cases running : r.state = .running
  · simpa [running] using stepGroups_timeless _ r running rfl now
  · simp [running]

-- ---------------------------------------------------------------------------
-- Events
-- ---------------------------------------------------------------------------

/-- Events are taken or refused alike on a clock that stands still. -/
theorem apply_timeless (r : Run) (now : Timestamp) (event : TaskEvent) :
    r.timeless.apply .epoch event = ((r.apply now event).1.timeless, (r.apply now event).2) := by
  unfold apply
  rw [timeless_state]
  split
  · rfl
  dsimp only
  rw [timeless_task?]
  cases r.task? event.task with
  | none => rfl
  | some t =>
    simp only [Option.map_some]
    have here : t.timeless.isAt r.timeless.cursor = t.isAt r.cursor := rfl
    have status : t.timeless.status = t.status := rfl
    have host : t.timeless.host = t.host := rfl
    rw [here, status, host]
    split
    · rfl
    split
    · rfl
    have taken : ((r.modifyTask event.task (event.effect now)).touch now).timeless = _ :=
      modifyTask_timeless event.task event
    cases event with
    | started =>
      simp only [timeless_isBusy]
      split
      · rfl
      · exact Prod.ext taken.symm rfl
    | finished =>
      simp only
      split
      · rfl
      · exact Prod.ext taken.symm rfl

/-- News told at one time. -/
def told (now : Timestamp) (news : List TaskEvent) : List (Timestamp × TaskEvent) :=
  news.map fun event => (now, event)

theorem hear_timeless (r : Run) (events : List (Timestamp × TaskEvent)) :
    (r.hear events).timeless = r.timeless.hear (told .epoch (events.map Prod.snd)) := by
  induction events generalizing r with
  | nil => rfl
  | cons e events ih =>
    obtain ⟨now, event⟩ := e
    simp only [told, List.map_cons, hear, apply_timeless r now event] at ih ⊢
    exact ih (r.apply now event).1

theorem accepts_timeless (r : Run) (events : List (Timestamp × TaskEvent)) :
    r.timeless.Accepts (told .epoch (events.map Prod.snd)) ↔ r.Accepts events := by
  induction events generalizing r with
  | nil => rfl
  | cons e events ih =>
    obtain ⟨now, event⟩ := e
    simp only [told, List.map_cons, Accepts, apply_timeless r now event] at ih ⊢
    rw [ih]

end Run

end Rollout
