-- SUMMARY: Where a step leaves a run: if it is running, it waits for a task of a stage that was handed out.
import Rollout.Proofs.Run.Owed

/-!
# Waiting runs

A step goes on until the run waits: its current stage was handed out and has a task that is not over. A
second step finds nothing to do there. What was handed out has no pending task left, so the task that the
run waits for is outstanding. A run that is running after a step is therefore never stuck.
-/
namespace Rollout.Run

/-- If the run is running, its current stage was handed out and has a task that is not over. -/
def Waits (r : Run) : Prop :=
  r.state = .running → r.currentStage?.isSome ∧ r.stageDispatched = true ∧ r.stageIsOpen = true

/-- A stage that was handed out has no pending task. -/
def HandedOut (r : Run) : Prop :=
  r.stageDispatched = true → ∀ t ∈ r.stageTasks, t.status ≠ .pending

variable {r r' : Run} {now : Timestamp}

-- ---------------------------------------------------------------------------
-- Tasks of the current stage
-- ---------------------------------------------------------------------------

theorem mem_stageTasks {t : Task} : t ∈ r.stageTasks ↔ t ∈ r.tasks ∧ t.isAt r.cursor = true :=
  List.mem_filter

theorem stageIsOpen_iff : r.stageIsOpen = true ↔ ∃ t ∈ r.stageTasks, t.status.isTerminal = false := by
  simp [stageIsOpen]

theorem currentStage?_eq_some {s : Stage} : r.currentStage? = some s ↔
    ∃ g, r.currentGroup? = some g ∧ g.stages[r.cursor.stage]? = some s :=
  Option.bind_eq_some_iff

/-- The stage of a task under the cursor is in the plan. -/
theorem MirrorsPlan.currentStage? (h : r.MirrorsPlan) {t : Task} (ht : t ∈ r.stageTasks) :
    ∃ s, r.currentStage? = some s := by
  obtain ⟨member, here⟩ := mem_stageTasks.mp ht
  obtain ⟨g, s, group, stage, _⟩ := h.entry member
  simp only [Task.isAt, Bool.and_eq_true, decide_eq_true_eq] at here
  rw [here.1] at group
  rw [here.2] at stage
  exact ⟨s, currentStage?_eq_some.mpr ⟨g, group, stage⟩⟩

/-- The tasks under the cursor after those that satisfy a test have changed and stayed. -/
theorem mapStage_stageTasks {test : Task → Bool} {f : Task → Task}
    (stays : ∀ t, (f t).isAt r.cursor = t.isAt r.cursor) :
    (r.mapStage test f).stageTasks = r.stageTasks.map fun t => if test t then f t else t := by
  have kept (t : Task) : (if t.isAt r.cursor && test t then f t else t).isAt r.cursor =
      t.isAt r.cursor := by
    split
    · exact stays t
    · rfl
  simp only [stageTasks, mapStage, List.filter_map, Function.comp_def, kept]
  refine List.map_congr_left fun t ht => ?_
  rw [(List.mem_filter.mp ht).2, Bool.true_and]

theorem mem_modifyTask {id : Nat} {f : Task → Task} {t' : Task}
    (h : t' ∈ (r.modifyTask id f).tasks) : t' ∈ r.tasks ∨ ∃ t ∈ r.tasks, t' = f t := by
  obtain ⟨i, hi⟩ := List.mem_iff_getElem?.mp h
  simp only [modifyTask, List.getElem?_modify] at hi
  obtain ⟨t, ht, rfl⟩ := Option.map_eq_some_iff.mp hi
  have member := List.mem_of_getElem? ht
  split
  · exact .inr ⟨t, member, rfl⟩
  · exact .inl member

theorem queueStage_ne_nil : (r.queueStage now).2 ≠ [] ↔ ∃ t ∈ r.stageTasks, t.status = .pending := by
  simp [queueStage, List.filter_eq_nil_iff]

/-- A stride leaves every task as it is. -/
theorem Stride.tasks (s : Stride now r r') : r'.tasks = r.tasks := by
  cases s with
  | handOut _ _ _ nothing =>
    have none_pending : ∀ t ∈ r.stageTasks, t.status ≠ .pending := fun t ht pending =>
      queueStage_ne_nil.mpr ⟨t, ht, pending⟩ nothing
    refine (List.map_congr_left fun t ht => if_neg fun test => ?_).trans (List.map_id r.tasks)
    obtain ⟨here, pending⟩ := Bool.and_eq_true_iff.mp test
    exact none_pending t (mem_stageTasks.mpr ⟨ht, here⟩) (of_decide_eq_true pending)
  | closeStage | hold | closeGroup | complete => rfl

theorem handOut_stageTasks : (r.handOut now).stageTasks =
    r.stageTasks.map fun t => if t.status = .pending then t.queued else t := by
  have mapped : (r.mapStage (fun t => t.status = .pending) Task.queued).stageTasks = _ :=
    mapStage_stageTasks fun _ => rfl
  simp only [decide_eq_true_eq] at mapped
  exact mapped

-- ---------------------------------------------------------------------------
-- Steps
-- ---------------------------------------------------------------------------

/-- A step ends where the stages of the current group end it. -/
theorem step_of_stages {g : Group} {answer : Except Fault (List TaskCommand)}
    (running : r.state = .running) (group : r.currentGroup? = some g)
    (ends : stepStages now (g.stages.drop r.cursor.stage) r = (r', some answer)) :
    r.step now = (r', answer) := by
  obtain ⟨inside, rfl⟩ := List.getElem?_eq_some_iff.mp group
  rw [step, if_neg (by simp [running]), List.drop_eq_getElem_cons inside, stepGroups, ends]

theorem drop_of_stage {g : Group} {s : Stage} (here : g.stages[r.cursor.stage]? = some s) :
    g.stages.drop r.cursor.stage = s :: g.stages.drop (r.cursor.stage + 1) := by
  obtain ⟨inside, rfl⟩ := List.getElem?_eq_some_iff.mp here
  exact List.drop_eq_getElem_cons inside

/-- A step hands out the stage under the cursor if it was not and has pending tasks. -/
theorem step_of_fresh {s : Stage} (running : r.state = .running) (stage : r.currentStage? = some s)
    (fresh : r.stageDispatched = false) (something : (r.queueStage now).2 ≠ []) :
    r.step now = (r.handOut now, .ok (r.queueStage now).2) := by
  obtain ⟨g, group, here⟩ := currentStage?_eq_some.mp stage
  refine step_of_stages running group ?_
  rw [drop_of_stage here, stepStages_fresh running fresh, if_neg something]

/-- A run that waits has nothing to do at a step. -/
theorem Waits.step (h : r.Waits) (now : Timestamp) : r.step now = (r, .ok []) := by
  by_cases running : r.state = .running
  · obtain ⟨stage, dispatched, is_open⟩ := h running
    obtain ⟨s, stage⟩ := Option.isSome_iff_exists.mp stage
    obtain ⟨g, group, here⟩ := currentStage?_eq_some.mp stage
    refine step_of_stages running group ?_
    rw [drop_of_stage here, stepStages_dispatched running dispatched, workStage, if_pos is_open]
  · simp [Run.step, running]

theorem handOut_waits {s : Stage} (stage : r.currentStage? = some s)
    (something : (r.queueStage now).2 ≠ []) : (r.handOut now).Waits := by
  intro _
  obtain ⟨t, ht, pending⟩ := queueStage_ne_nil.mp something
  have stage' : (r.handOut now).currentStage? = some s := stage
  refine ⟨by simp [stage'], rfl, stageIsOpen_iff.mpr ⟨t.queued, ?_, rfl⟩⟩
  rw [handOut_stageTasks]
  exact List.mem_map.mpr ⟨t, ht, if_pos pending⟩

/-- A step leaves a run that waits. -/
theorem step_waits (r : Run) (now : Timestamp) : (r.step now).1.Waits := by
  obtain ⟨r', _, ends⟩ := step_ends r now
  generalize r.step now = reply at ends
  cases ends with
  | wait waits => exact waits
  | dispatch _ stage _ something => exact handOut_waits stage something

theorem create_waits (id : RunId) (plan : Plan) (policy : Policy) (now : Timestamp) :
    (create id plan policy now).Waits := by
  intro running
  cases running

-- ---------------------------------------------------------------------------
-- What was handed out
-- ---------------------------------------------------------------------------

namespace HandedOut

theorem of_undone (fresh : r.stageDispatched = false) : r.HandedOut := by
  intro dispatched
  rw [fresh] at dispatched
  cases dispatched

theorem order (h : r.HandedOut) (o : Order now r r') : r'.HandedOut := by
  cases o with
  | go | suspend => exact h
  | requeue => exact of_undone rfl
  | skipRest =>
    intro _ t' ht' pending
    obtain ⟨t, _, rfl⟩ := List.mem_map.mp (mem_stageTasks.mp ht').1
    unfold Task.skipped at pending
    split at pending
    next ended => simp [pending, TaskStatus.isTerminal] at ended
    · cases pending

theorem handOut (r : Run) (now : Timestamp) : (r.handOut now).HandedOut := by
  intro _ t' ht' pending
  rw [handOut_stageTasks] at ht'
  obtain ⟨t, _, rfl⟩ := List.mem_map.mp ht'
  split at pending
  · cases pending
  next other => exact other pending

theorem change (h : r.HandedOut) (c : Change now r r') : r'.HandedOut := by
  cases c with
  | order o => exact h.order o
  | handOut => exact .handOut r now
  | closeStage | closeGroup => exact of_undone rfl
  | hold | complete => exact h

/-- A task may change as long as it does not become pending. -/
theorem modifyTask (h : r.HandedOut) {id : Nat} {f : Task → Task}
    (sent : ∀ t, (f t).status ≠ .pending) : (r.modifyTask id f).HandedOut := by
  intro dispatched t' ht' pending
  obtain ⟨member, here⟩ := mem_stageTasks.mp ht'
  obtain old | ⟨t, _, rfl⟩ := mem_modifyTask member
  · exact h dispatched t' (mem_stageTasks.mpr ⟨old, here⟩) pending
  · exact sent t pending

theorem applied (h : r.HandedOut) {event : TaskEvent} {reply : Reply Unit}
    (a : Applied now r event reply) : reply.1.HandedOut := by
  cases a with
  | dropped | refused => exact h
  | begun => exact h.modifyTask (f := Task.begun now) fun t pending => by cases pending
  | @ended _ outcome _ _ _ _ _ final =>
    refine h.modifyTask (f := Task.ended now outcome) fun t pending => ?_
    rw [show outcome.status = .pending from pending] at final
    cases final

theorem call (h : r.HandedOut) (now : Timestamp) (c : Call) : (r.call now c).HandedOut :=
  call_induction (fun change h => h.change change) (fun applied h => h.applied applied) h now c

theorem create (id : RunId) (plan : Plan) (policy : Policy) (now : Timestamp) :
    (Run.create id plan policy now).HandedOut := of_undone rfl

theorem after (id : RunId) (plan : Plan) (policy : Policy) (now : Timestamp)
    (history : List (Timestamp × Call)) : ((Run.create id plan policy now).after history).HandedOut :=
  after_induction (fun change h => h.change change) (fun applied h => h.applied applied)
    (create id plan policy now) history

end HandedOut

/-- A running run that waits has an outstanding task in a stage of its plan, and no pending one. -/
theorem Waits.outstanding (h : r.Waits) (handed_out : r.HandedOut) (running : r.state = .running) :
    (∃ s, r.currentStage? = some s) ∧ (∀ t ∈ r.stageTasks, t.status ≠ .pending) ∧
      ∃ t ∈ r.stageTasks, t.isOutstanding = true := by
  obtain ⟨stage, dispatched, is_open⟩ := h running
  obtain ⟨t, ht, unfinished⟩ := stageIsOpen_iff.mp is_open
  have sent := handed_out dispatched
  refine ⟨Option.isSome_iff_exists.mp stage, sent, t, ht, ?_⟩
  have not_pending := sent t ht
  cases status : t.status <;> simp_all [Task.isOutstanding, TaskStatus.isTerminal]

end Rollout.Run
