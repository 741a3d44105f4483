-- SUMMARY: Stages close in order: nothing behind the cursor is left over, nothing ahead of it was begun.
import Rollout.Proofs.Run.Charter

/-!
# The barrier between stages

A run works on the stage under its cursor only. Behind the cursor every task is over, and those that
failed are checks that may fail; ahead of the cursor every task is as it was made, unless the run was
aborted. This holds whatever is called, and whatever events arrive.
-/
namespace Rollout

/-- Positions in the order of the plan. -/
instance : LT Cursor := ⟨fun a b => a.group < b.group ∨ a.group = b.group ∧ a.stage < b.stage⟩

theorem Cursor.lt_iff {a b : Cursor} :
    a < b ↔ a.group < b.group ∨ a.group = b.group ∧ a.stage < b.stage := Iff.rfl

theorem Cursor.lt_nextStage_iff {a b : Cursor} : a < b.nextStage ↔ a < b ∨ a = b := by
  cases a
  cases b
  simp only [Cursor.lt_iff, nextStage, Cursor.mk.injEq]
  omega

namespace Task

/-- The stage of a task. -/
def position (t : Task) : Cursor := ⟨t.group, t.stage⟩

/-- The task is as it was made. -/
def IsUntouched (t : Task) : Prop :=
  t.status = .pending ∧ t.retryCount = 0 ∧ t.startedAt = none ∧ t.completedAt = none

/-- The task is a check of a group that may be skipped. -/
def MayFail (t : Task) (p : Plan) : Prop :=
  t.operation = .check ∧ ∃ g, p.groups[t.group]? = some g ∧ g.skippable = true

/-- The task is over, and if it failed, it may. -/
def IsSettled (t : Task) (p : Plan) : Prop :=
  t.status.isTerminal = true ∧ (t.status.isFailure = true → t.MayFail p)

theorem isAt_iff {t : Task} {c : Cursor} : t.isAt c = true ↔ t.position = c := by
  cases c
  simp [isAt, position]

theorem position_eq_of_origin {t t' : Task} (h : t'.origin = t.origin) :
    t'.position = t.position := by
  simp only [origin, Prod.mk.injEq] at h
  simp [position, h]

end Task

namespace Run

/-- What holds behind and ahead of the cursor. -/
structure Barrier (r : Run) : Prop where
  behind : ∀ t ∈ r.tasks, t.position < r.cursor → t.IsSettled r.plan
  ahead : ∀ t ∈ r.tasks, r.cursor < t.position →
    t.IsUntouched ∨ r.state = .aborted ∧ t.status = .skipped
  past : r.state = .completed → r.plan.groups.length ≤ r.cursor.group

theorem create_barrier (id : RunId) (plan : Plan) (policy : Policy) (now : Timestamp) :
    (create id plan policy now).Barrier where
  behind t _ h := by
    have : t.position < (⟨0, 0⟩ : Cursor) := h
    simp [Cursor.lt_iff] at this
  ahead t ht _ := by
    simp only [create, List.mem_map] at ht
    obtain ⟨entry, _, rfl⟩ := ht
    exact .inl ⟨rfl, rfl, rfl, rfl⟩
  past h := by simp [create] at h

namespace Barrier

variable {r r' : Run} {now : Timestamp}

/-- A change of state alone. -/
theorem of_same (h : r.Barrier) (tasks : r'.tasks = r.tasks) (plan : r'.plan = r.plan)
    (cursor : r'.cursor = r.cursor) (aborted : r.state = .aborted → r'.state = .aborted)
    (past : r'.state = .completed → r.plan.groups.length ≤ r.cursor.group) : r'.Barrier where
  behind t ht lt := by
    rw [plan]
    exact h.behind t (tasks ▸ ht) (cursor ▸ lt)
  ahead t ht lt :=
    (h.ahead t (tasks ▸ ht) (cursor ▸ lt)).imp_right fun ⟨ab, sk⟩ => ⟨aborted ab, sk⟩
  past c := by
    rw [plan, cursor]
    exact past c

/-- A change of tasks under the cursor. -/
theorem of_stage (h : r.Barrier)
    (tasks : ∀ t' ∈ r'.tasks, t' ∈ r.tasks ∨ t'.position = r.cursor) (plan : r'.plan = r.plan)
    (cursor : r'.cursor = r.cursor) (live : r.state ≠ .aborted)
    (past : r'.state = .completed → r.plan.groups.length ≤ r.cursor.group) : r'.Barrier where
  behind t ht lt := by
    rw [plan]
    rw [cursor] at lt
    obtain old | here := tasks t ht
    · exact h.behind t old lt
    · rw [here, Cursor.lt_iff] at lt
      omega
  ahead t ht lt := by
    rw [cursor] at lt
    obtain old | here := tasks t ht
    · exact .inl ((h.ahead t old lt).resolve_right fun ⟨ab, _⟩ => live ab)
    · rw [here, Cursor.lt_iff] at lt
      omega
  past c := by
    rw [plan, cursor]
    exact past c

theorem mem_mapStage {test : Task → Bool} {f : Task → Task} (hf : ∀ t, (f t).origin = t.origin)
    {t' : Task} (h : t' ∈ (r.mapStage test f).tasks) : t' ∈ r.tasks ∨ t'.position = r.cursor := by
  simp only [mapStage, List.mem_map] at h
  obtain ⟨t, ht, rfl⟩ := h
  split
  next at_cursor =>
    have here : t.isAt r.cursor = true := (Bool.and_eq_true_iff.mp at_cursor).1
    exact .inr ((Task.position_eq_of_origin (hf t)).trans (Task.isAt_iff.mp here))
  · exact .inl ht

theorem mem_modifyTask {id : Nat} {f : Task → Task} (hf : ∀ t, (f t).origin = t.origin) {t : Task}
    (task : r.task? id = some t) (here : t.isAt r.cursor = true) {t' : Task}
    (h : t' ∈ (r.modifyTask id f).tasks) : t' ∈ r.tasks ∨ t'.position = r.cursor := by
  obtain ⟨i, hi⟩ := List.mem_iff_getElem?.mp h
  simp only [modifyTask, List.getElem?_modify] at hi
  obtain ⟨t₀, ht₀, rfl⟩ := Option.map_eq_some_iff.mp hi
  by_cases same : id = i
  · subst same
    have : t₀ = t := by
      rw [task?, ht₀] at task
      exact Option.some.inj task
    subst this
    simp only [if_true]
    exact .inr ((Task.position_eq_of_origin (hf _)).trans (Task.isAt_iff.mp here))
  · rw [if_neg same]
    exact .inl (List.mem_of_getElem? ht₀)

/-- A closed stage without blocking tasks is settled. -/
theorem settled_of_clear (closed : r.stageIsOpen = false) (clear : r.blocking = []) {t : Task}
    (ht : t ∈ r.tasks) (here : t.position = r.cursor) : t.IsSettled r.plan := by
  have hstage : t ∈ r.stageTasks := List.mem_filter.mpr ⟨ht, Task.isAt_iff.mpr here⟩
  have ended : t.status.isTerminal = true := by
    simpa using List.any_eq_false.mp closed t hstage
  refine ⟨ended, fun failed => ?_⟩
  have spared := List.filter_eq_nil_iff.mp clear t hstage
  have hgroup : t.group = r.cursor.group := congrArg Cursor.group here
  cases hg : r.currentGroup? with
  | none => simp [failed, hg] at spared
  | some g =>
    have : g.skippable = true ∧ t.operation = .check := by simpa [failed, hg] using spared
    exact ⟨this.2, g, by rw [hgroup]; exact hg, this.1⟩

theorem closeStage (h : r.Barrier) (running : r.state = .running) (closed : r.stageIsOpen = false)
    (clear : r.blocking = []) : (r.closeStage now).Barrier where
  behind t ht lt := by
    obtain lt | here := Cursor.lt_nextStage_iff.mp lt
    · exact h.behind t ht lt
    · exact settled_of_clear closed clear ht here
  ahead t ht lt := by
    refine h.ahead t ht ?_
    have := Cursor.lt_iff.mp lt
    rw [Cursor.lt_iff]
    simp only [Run.closeStage, Cursor.nextStage] at this ⊢
    omega
  past c := by simp [Run.closeStage, running] at c

/-- Closing a group keeps the barrier, since all its stages are settled. -/
theorem closeGroup (h : r.Barrier) (mirrors : r.MirrorsPlan) (running : r.state = .running)
    {g : Group} (group : r.currentGroup? = some g) (done : g.stages.length ≤ r.cursor.stage) :
    r.closeGroup.Barrier where
  behind t ht lt := by
    refine h.behind t ht ?_
    obtain ⟨g', hg', hs⟩ := mirrors.placed ht
    have := Cursor.lt_iff.mp lt
    rw [Cursor.lt_iff]
    simp only [Run.closeGroup, Cursor.nextGroup, Task.position] at this ⊢
    by_cases same : t.group = r.cursor.group
    · rw [same] at hg'
      have : g' = g := Option.some.inj (hg'.symm.trans group)
      subst this
      omega
    · omega
  ahead t ht lt := by
    refine h.ahead t ht ?_
    have := Cursor.lt_iff.mp lt
    rw [Cursor.lt_iff]
    simp only [Run.closeGroup, Cursor.nextGroup] at this ⊢
    omega
  past c := by simp [Run.closeGroup, running] at c

theorem skipRest (h : r.Barrier) (live : r.state.isTerminal = false) {reason : String} :
    (r.skipRest now reason).Barrier where
  behind t' ht' lt := by
    obtain ⟨t, ht, rfl⟩ := List.mem_map.mp ht'
    rw [Task.position_eq_of_origin t.skipped_origin] at lt
    have settled := h.behind t ht lt
    have : t.skipped now = t := by simp [Task.skipped, settled.1]
    rw [this]
    exact settled
  ahead t' ht' lt := by
    obtain ⟨t, ht, rfl⟩ := List.mem_map.mp ht'
    rw [Task.position_eq_of_origin t.skipped_origin] at lt
    obtain untouched | ⟨aborted, _⟩ := h.ahead t ht lt
    · refine .inr ⟨rfl, ?_⟩
      simp [Task.skipped, untouched.1, TaskStatus.isTerminal]
    · simp [aborted, RunState.isTerminal] at live
  past c := by simp [Run.skipRest] at c

theorem order (h : r.Barrier) (o : Order now r r') : r'.Barrier := by
  cases o with
  | go idle =>
    refine h.of_same rfl rfl rfl (fun ab => ?_) (fun c => ?_)
    · simp [ab] at idle
    · simp [inState] at c
  | suspend active =>
    refine h.of_same rfl rfl rfl (fun ab => ?_) (fun c => ?_)
    · simp [ab] at active
    · simp [inState] at c
  | requeue holding =>
    refine h.of_stage (fun t' ht' => mem_mapStage Task.requeued_origin ht') rfl rfl ?_ (fun c => ?_)
    · simp [holding]
    · simp [Run.requeue] at c
  | skipRest live => exact h.skipRest live

/-- Every change of a run keeps the barrier. -/
theorem change (h : r.Barrier) (mirrors : r.MirrorsPlan) (c : Change now r r') : r'.Barrier := by
  cases c with
  | order o => exact h.order o
  | handOut running =>
    refine h.of_stage (fun t' ht' => mem_mapStage Task.queued_origin ht') rfl rfl ?_ (fun c => ?_)
    · simp [running]
    · have : r.state = .completed := c
      simp [running] at this
  | closeStage running closed clear => exact h.closeStage running closed clear
  | hold running =>
    refine h.of_same rfl rfl rfl (fun ab => ?_) (fun c => ?_)
    · simp [ab] at running
    · simp [Run.hold] at c
  | closeGroup running group done => exact h.closeGroup mirrors running group done
  | complete running done =>
    refine h.of_same rfl rfl rfl (fun ab => ?_) (fun _ => ?_)
    · simp [ab] at running
    · simpa [currentGroup?] using done

theorem applied (h : r.Barrier) {event : TaskEvent} {reply : Reply Unit}
    (a : Applied now r event reply) : reply.1.Barrier := by
  cases a with
  | dropped => exact h
  | refused => exact h
  | begun live task here =>
    refine h.of_stage (fun t' ht' => mem_modifyTask Task.begun_origin task here ht') rfl rfl ?_ h.past
    rintro aborted
    simp [aborted, RunState.isTerminal] at live
  | ended live task here =>
    refine h.of_stage (fun t' ht' => mem_modifyTask Task.ended_origin task here ht') rfl rfl ?_ h.past
    rintro aborted
    simp [aborted, RunState.isTerminal] at live

end Barrier

/-- The barrier stands after every history of a new run. -/
theorem barrier_after (id : RunId) (plan : Plan) (policy : Policy) (now : Timestamp)
    (history : List (Timestamp × Call)) : ((create id plan policy now).after history).Barrier := by
  refine (after_induction (P := fun r => r.MirrorsPlan ∧ r.Barrier) ?_ ?_ ?_ history).2
  · intro now r r' change ⟨mirrors, barrier⟩
    exact ⟨mirrors.of_charter change.charter, barrier.change mirrors change⟩
  · intro now r event reply applied ⟨mirrors, barrier⟩
    exact ⟨mirrors.of_charter applied.charter, barrier.applied applied⟩
  · exact ⟨create_mirrorsPlan id plan policy now, create_barrier id plan policy now⟩

/-- Nothing is left to do for a run that is completed. -/
theorem Barrier.settled_of_completed {r : Run} (h : r.Barrier) (mirrors : r.MirrorsPlan)
    (completed : r.state = .completed) {t : Task} (ht : t ∈ r.tasks) : t.IsSettled r.plan := by
  obtain ⟨g, group, _⟩ := mirrors.placed ht
  have inside : t.group < r.plan.groups.length := (List.getElem?_eq_some_iff.mp group).1
  exact h.behind t ht (.inl (Nat.lt_of_lt_of_le inside (h.past completed)))

/-- Every history of a new run respects the order of the stages: a task behind the cursor is over and
did not fail unless it may, a task ahead of the cursor was not begun, and a run that is completed has
nothing left to do. The plan may be any, so in particular one that is built from a topology. -/
theorem stages_close_in_order (id : RunId) (plan : Plan) (policy : Policy) (now : Timestamp)
    (history : List (Timestamp × Call)) :
    let r := (create id plan policy now).after history
    (∀ t ∈ r.tasks, t.position < r.cursor → t.IsSettled plan) ∧
    (∀ t ∈ r.tasks, r.cursor < t.position →
      t.IsUntouched ∨ r.state = .aborted ∧ t.status = .skipped) ∧
    (r.state = .completed →
      plan.groups.length ≤ r.cursor.group ∧ ∀ t ∈ r.tasks, t.IsSettled plan) := by
  intro r
  have barrier : r.Barrier := barrier_after id plan policy now history
  have charter : r.charter = (create id plan policy now).charter := after_charter _ history
  have mirrors : r.MirrorsPlan := (create_mirrorsPlan id plan policy now).of_charter charter
  have same : r.plan = plan := congrArg Charter.plan charter
  refine ⟨fun t ht lt => same ▸ barrier.behind t ht lt, barrier.ahead, fun completed => ?_⟩
  have past : r.plan.groups.length ≤ r.cursor.group := barrier.past completed
  refine ⟨same ▸ past, fun t ht => ?_⟩
  obtain ⟨g, group, _⟩ := mirrors.placed ht
  have inside : t.group < r.plan.groups.length := (List.getElem?_eq_some_iff.mp group).1
  exact same ▸ barrier.behind t ht (.inl (Nat.lt_of_lt_of_le inside past))

end Run

end Rollout
