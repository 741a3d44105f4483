-- SUMMARY: What readers see of a run: a view of each task, the failed ones among them, progress, and the position.
import Mathlib.Data.List.Forall2
import Rollout.Proofs.Run.Waiting
import Rollout.Resource

/-!
# Projections

The projection of a run looks the group and the stage of every task up in the plan, and it has no answer if one of
them is missing. Tasks mirror the plan for the whole life of a run, so there is always an answer, and each view has
the names of the group and the stage that its task comes from. Progress counts tasks that are over, rounded down, so
it is full only when there is nothing left.
-/
namespace Rollout

variable {α β : Type}

/-- A list of partial values has values if each of its elements has one. -/
theorem mapM_eq_some_iff {f : α → Option β} {as : List α} {bs : List β} :
    as.mapM f = some bs ↔ List.Forall₂ (fun a b => f a = some b) as bs := by
  induction as generalizing bs with
  | nil => simp [eq_comm]
  | cons a as ih =>
    simp only [List.mapM_cons, Option.bind_eq_bind, Option.bind_eq_some_iff, Option.pure_def,
      Option.some.injEq, List.forall₂_cons_left_iff, ← ih]
    constructor
    · rintro ⟨b, first, bs, rest, rfl⟩
      exact ⟨b, bs, first, rest, rfl⟩
    · rintro ⟨b, bs, first, rest, rfl⟩
      exact ⟨b, first, bs, rest, rfl⟩

theorem exists_mapM {f : α → Option β} {as : List α} (total : ∀ a ∈ as, ∃ b, f a = some b) :
    ∃ bs, as.mapM f = some bs := by
  simp only [mapM_eq_some_iff]
  induction as with
  | nil => exact ⟨[], .nil⟩
  | cons a as ih =>
    obtain ⟨b, first⟩ := total a List.mem_cons_self
    obtain ⟨bs, rest⟩ := ih fun a ha => total a (List.mem_cons_of_mem _ ha)
    exact ⟨b :: bs, .cons first rest⟩

/-- Those of the values that pass a test are the values of the elements that pass it. -/
theorem mapM_filter {f : α → Option β} {p : α → Bool} {q : β → Bool} {as : List α} {bs : List β}
    (alike : ∀ a b, f a = some b → q b = p a) (mapped : as.mapM f = some bs) :
    (as.filter p).mapM f = some (bs.filter q) := by
  rw [mapM_eq_some_iff] at mapped ⊢
  refine List.rel_filter (fun a b value => ?_) mapped
  simp only [alike a b value]

/-- The view of a task under the names of a group and a stage. -/
def Task.viewIn (t : Task) (group stage : String) : TaskView where
  id := t.id
  group := group
  stage := stage
  host := t.host
  service := t.service
  component := t.component
  operation := t.operation
  status := t.status
  retryCount := t.retryCount
  lastError := t.lastError

/-- The view is that of the task, under the names of its own group and stage in the plan. -/
def TaskView.IsOf (v : TaskView) (plan : Plan) (t : Task) : Prop :=
  ∃ g s, plan.groups[t.group]? = some g ∧ g.stages[t.stage]? = some s ∧ v = t.viewIn g.name s.name

theorem TaskView.ofTask?_eq_some_iff {plan : Plan} {t : Task} {v : TaskView} :
    ofTask? plan t = some v ↔ v.IsOf plan t := by
  simp only [ofTask?, Option.bind_eq_bind, Option.bind_eq_some_iff, Option.pure_def, Option.some.injEq]
  constructor
  · rintro ⟨g, group, s, stage, rfl⟩
    exact ⟨g, s, group, stage, rfl⟩
  · rintro ⟨g, s, group, stage, rfl⟩
    exact ⟨g, group, s, stage, rfl⟩

/-- What a projection shows of a run. -/
structure UpgradeResource.Shows (resource : UpgradeResource) (r : Run) : Prop where
  tasks : List.Forall₂ (fun t v => v.IsOf r.plan t) r.tasks resource.tasks
  failedTasks : resource.failedTasks =
    resource.tasks.filter fun v => v.status = .failed || v.status = .timedOut
  percent_le : resource.progressPercent.toNat ≤ 100
  percent_full : resource.progressPercent.toNat = 100 ↔ ∀ t ∈ r.tasks, t.status.isTerminal = true
  /-- The name of a group is shown just when the run is not archived and its cursor is at this group. -/
  currentGroup : ∀ name, resource.currentGroup = some name ↔
    r.state.isTerminal = false ∧ ∃ g, r.plan.groups[r.cursor.group]? = some g ∧ g.name = name
  currentStage : ∀ name, resource.currentStage = some name ↔
    r.state.isTerminal = false ∧ ∃ g s, r.plan.groups[r.cursor.group]? = some g ∧
      g.stages[r.cursor.stage]? = some s ∧ s.name = name

namespace Run

variable {r : Run}

-- ---------------------------------------------------------------------------
-- Progress
-- ---------------------------------------------------------------------------

theorem openCount_le (r : Run) : r.openCount ≤ r.tasks.length := List.length_filter_le ..

theorem openCount_eq_zero : r.openCount = 0 ↔ ∀ t ∈ r.tasks, t.status.isTerminal = true := by
  simp [openCount]

theorem progressPercent_le (r : Run) : r.progressPercent ≤ 100 := by
  unfold progressPercent
  split
  next => exact Nat.le_refl _
  next =>
    refine Nat.div_le_of_le_mul ?_
    exact Nat.mul_le_mul_right 100 (Nat.sub_le ..)

/-- Progress is rounded down, so it is full only when every task is over. -/
theorem progressPercent_eq_hundred : r.progressPercent = 100 ↔ ∀ t ∈ r.tasks, t.status.isTerminal = true := by
  rw [← openCount_eq_zero]
  unfold progressPercent
  split
  next none_made =>
    have none_left := r.openCount_le
    rw [List.isEmpty_iff.mp none_made] at none_left
    exact iff_of_true rfl (Nat.le_zero.mp none_left)
  next some_made =>
    have some_made : 0 < r.tasks.length := List.length_pos_iff.mpr (by simpa using some_made)
    have inside := r.openCount_le
    constructor
    · intro full
      have covered : 100 * r.tasks.length ≤ (r.tasks.length - r.openCount) * 100 :=
        (Nat.le_div_iff_mul_le some_made).mp (Nat.le_of_eq full.symm)
      omega
    · intro none_left
      rw [none_left, Nat.sub_zero, Nat.mul_div_cancel_left 100 some_made]

theorem progressPercent_toNat (r : Run) : (UInt8.ofNat r.progressPercent).toNat = r.progressPercent := by
  have small := r.progressPercent_le
  rw [UInt8.toNat_ofNat', Nat.mod_eq_of_lt (by omega)]

-- ---------------------------------------------------------------------------
-- Tasks
-- ---------------------------------------------------------------------------

theorem MirrorsPlan.length_eq (h : r.MirrorsPlan) : r.tasks.length = r.plan.tasks.length := by
  simpa using congrArg List.length h

/-- Every task lies in the plan, so each has a view. -/
theorem MirrorsPlan.viewed (h : r.MirrorsPlan) :
    ∃ views, r.tasks.mapM (TaskView.ofTask? r.plan) = some views := by
  refine exists_mapM fun t ht => ?_
  obtain ⟨g, s, group, stage, _⟩ := h.entry ht
  exact ⟨_, TaskView.ofTask?_eq_some_iff.mpr ⟨g, s, group, stage, rfl⟩⟩

/-- The views of the failed tasks are the views that failed. -/
theorem failedTasks_viewed {views : List TaskView}
    (viewed : r.tasks.mapM (TaskView.ofTask? r.plan) = some views) :
    r.failedTasks.mapM (TaskView.ofTask? r.plan) =
      some (views.filter fun v => v.status = .failed || v.status = .timedOut) := by
  refine mapM_filter (fun t v value => ?_) viewed
  obtain ⟨g, s, _, _, rfl⟩ := TaskView.ofTask?_eq_some_iff.mp value
  cases status : t.status <;> simp [Task.viewIn, status, TaskStatus.isFailure]

-- ---------------------------------------------------------------------------
-- The projection
-- ---------------------------------------------------------------------------

/-- What there is at the cursor is shown unless the run is archived. -/
theorem shown_iff {here : Option α} {archived : Bool} {name : α → String} {text : String} :
    (here.filter fun _ => !archived).map name = some text ↔
      archived = false ∧ ∃ a, here = some a ∧ name a = text := by
  cases archived <;> simp

/-- The projection of a run whose tasks mirror its plan shows the run. -/
theorem MirrorsPlan.shown (h : r.MirrorsPlan) :
    ∃ resource, UpgradeResource.ofRun? r = some resource ∧ resource.Shows r := by
  obtain ⟨views, viewed⟩ := h.viewed
  refine ⟨_, by rw [UpgradeResource.ofRun?, viewed, failedTasks_viewed viewed]; rfl, ?_⟩
  refine
    { tasks := (mapM_eq_some_iff.mp viewed).imp fun t v => TaskView.ofTask?_eq_some_iff.mp
      failedTasks := rfl
      percent_le := Nat.le_trans (Nat.le_of_eq r.progressPercent_toNat) r.progressPercent_le
      percent_full := by rw [progressPercent_toNat, progressPercent_eq_hundred]
      currentGroup := fun name => shown_iff
      currentStage := fun name => shown_iff.trans (and_congr_right fun _ => ⟨?_, ?_⟩) }
  · rintro ⟨s, stage, named⟩
    obtain ⟨g, group, here⟩ := currentStage?_eq_some.mp stage
    exact ⟨g, s, group, here, named⟩
  · rintro ⟨g, s, group, here, named⟩
    exact ⟨s, currentStage?_eq_some.mpr ⟨g, group, here⟩, named⟩

/-- The tasks of a run mirror its plan, and readers can always be shown the run. After every history of a new run,
identifier, plan, policy and time of creation are what they were, and there is one task for each entry of the plan, in
the same order, which carries the number and everything else of its entry. So the projection has an answer. Each view
in it has the names of the group and the stage of its task, the failed tasks are the views that failed or timed out,
the percentage is full just when every task is over, and a group and a stage are shown just when the run is not
archived and its cursor is at one. -/
theorem projection_is_total (id : RunId) (plan : Plan) (policy : Policy) (made : Timestamp)
    (history : List (Timestamp × Call)) :
    let r := (create id plan policy made).after history
    (r.id = id ∧ r.plan = plan ∧ r.policy = policy ∧ r.createdAt = made) ∧
    (r.tasks.length = plan.tasks.length ∧
      ∀ (i : Nat) t, r.tasks[i]? = some t → t.id = i ∧ plan.tasks[i]? = some (t.group, t.stage, t.spec)) ∧
    ∃ resource, UpgradeResource.ofRun? r = some resource ∧ resource.Shows r := by
  intro r
  have mirrors : r.MirrorsPlan := mirrorsPlan_after id plan policy made history
  obtain ⟨same_id, same_plan, same_policy, same_time, _⟩ :=
    charter_eq_iff.mp (after_charter (create id plan policy made) history)
  have entries : r.plan = plan := same_plan
  refine ⟨⟨same_id, same_plan, same_policy, same_time⟩, ⟨?_, fun i t ht => ?_⟩, mirrors.shown⟩
  · rw [← entries]
    exact mirrors.length_eq
  · rw [← entries]
    exact (mirrors.origin_at ht).symm

end Run

end Rollout
