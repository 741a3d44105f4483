-- SUMMARY: What no operation changes: the identity of a run, its plan, and where its tasks come from.
import Rollout.Proofs.Run.History

/-!
# Charters

The charter of a run is fixed when the run is created: its identifier, its plan, its policy, the time
of its creation, and where each of its tasks comes from. Every operation keeps it. So the tasks
mirror the plan for the whole life of the run.
-/
namespace Rollout

/-- The entry of the plan that a task carries out. -/
def Task.spec (t : Task) : TaskSpec := ⟨t.host, t.service, t.component, t.operation, t.version⟩

/-- Where a task comes from: its position, its entry, and its number. -/
def Task.origin (t : Task) : (Nat × Nat × TaskSpec) × Nat := ((t.group, t.stage, t.spec), t.id)

namespace Task

theorem queued_origin (t : Task) : t.queued.origin = t.origin := rfl

theorem requeued_origin (t : Task) : t.requeued.origin = t.origin := rfl

theorem begun_origin {now : Timestamp} (t : Task) : (t.begun now).origin = t.origin := rfl

theorem ended_origin {now : Timestamp} {outcome : TaskOutcome} (t : Task) :
    (t.ended now outcome).origin = t.origin := rfl

theorem skipped_origin {now : Timestamp} (t : Task) : (t.skipped now).origin = t.origin := by
  unfold skipped
  split <;> rfl

end Task

namespace Run

/-- What no operation on a run changes. -/
structure Charter where
  id : RunId
  plan : Plan
  policy : Policy
  createdAt : Timestamp
  origins : List ((Nat × Nat × TaskSpec) × Nat)

/-- What no operation on this run changes. -/
def charter (r : Run) : Charter where
  id := r.id
  plan := r.plan
  policy := r.policy
  createdAt := r.createdAt
  origins := r.tasks.map Task.origin

/-- Every task comes from the entry of the plan at its place. -/
def MirrorsPlan (r : Run) : Prop := r.tasks.map Task.origin = r.plan.tasks.zipIdx

-- ---------------------------------------------------------------------------
-- Operations
-- ---------------------------------------------------------------------------

theorem charter_eq_iff {r r' : Run} : r'.charter = r.charter ↔
    r'.id = r.id ∧ r'.plan = r.plan ∧ r'.policy = r.policy ∧ r'.createdAt = r.createdAt ∧
      r'.tasks.map Task.origin = r.tasks.map Task.origin := by
  simp [charter]

theorem mapStage_charter {r : Run} {test : Task → Bool} {f : Task → Task}
    (hf : ∀ t, (f t).origin = t.origin) : (r.mapStage test f).charter = r.charter := by
  rw [charter_eq_iff]
  refine ⟨rfl, rfl, rfl, rfl, ?_⟩
  simp only [mapStage, List.map_map]
  congr 1
  funext t
  simp only [Function.comp_apply]
  split
  · exact hf t
  · rfl

theorem modifyTask_charter {r : Run} {task : Nat} {f : Task → Task}
    (hf : ∀ t, (f t).origin = t.origin) : (r.modifyTask task f).charter = r.charter := by
  rw [charter_eq_iff]
  refine ⟨rfl, rfl, rfl, rfl, ?_⟩
  apply List.ext_getElem?
  intro i
  simp only [modifyTask, List.getElem?_map, List.getElem?_modify]
  cases r.tasks[i]? with
  | none => rfl
  | some t => by_cases h : task = i <;> simp [h, hf]

theorem Order.charter {now : Timestamp} {r r' : Run} (h : Order now r r') :
    r'.charter = r.charter := by
  cases h with
  | go => rfl
  | suspend => rfl
  | requeue =>
    have same : (r.mapStage (fun t => t.status.isFailure) Task.requeued).charter = r.charter :=
      mapStage_charter Task.requeued_origin
    exact same
  | skipRest =>
    refine charter_eq_iff.mpr ⟨rfl, rfl, rfl, rfl, ?_⟩
    simp only [Run.skipRest, List.map_map]
    congr 1
    funext t
    exact t.skipped_origin

theorem orders_charter {now : Timestamp} {r r' : Run} (h : Relation.ReflGen (Order now) r r') :
    r'.charter = r.charter := by
  cases h with
  | refl => rfl
  | single order => exact order.charter

theorem handOut_charter {r : Run} {now : Timestamp} : (r.handOut now).charter = r.charter := by
  have same : (r.mapStage (fun t => t.status = .pending) Task.queued).charter = r.charter :=
    mapStage_charter Task.queued_origin
  exact same

theorem Change.charter {now : Timestamp} {r r' : Run} (h : Change now r r') :
    r'.charter = r.charter := by
  cases h with
  | order order => exact order.charter
  | handOut => exact handOut_charter
  | closeStage => rfl
  | hold => rfl
  | closeGroup => rfl
  | complete => rfl

theorem Applied.charter {now : Timestamp} {r : Run} {event : TaskEvent} {reply : Reply Unit}
    (h : Applied now r event reply) : reply.1.charter = r.charter := by
  cases h with
  | dropped => rfl
  | refused => rfl
  | @begun id _ _ =>
    have same : (r.modifyTask id (Task.begun now)).charter = r.charter :=
      modifyTask_charter Task.begun_origin
    exact same
  | @ended id outcome _ =>
    have same : (r.modifyTask id (Task.ended now outcome)).charter = r.charter :=
      modifyTask_charter Task.ended_origin
    exact same

/-- A step keeps the charter. -/
theorem step_charter (r : Run) (now : Timestamp) : (r.step now).1.charter = r.charter :=
  step_induction (P := fun r' => r'.charter = r.charter) rfl
    (fun stride ih => stride.change.charter.trans ih)
    fun running _ fresh ih => (Change.handOut running fresh).charter.trans ih

/-- Every history keeps the charter. -/
theorem after_charter (r : Run) (history : List (Timestamp × Call)) :
    (r.after history).charter = r.charter :=
  after_induction (P := fun r' => r'.charter = r.charter) (fun change ih => change.charter.trans ih)
    (fun applied ih => applied.charter.trans ih) rfl history

theorem task?_origin {r r' : Run} (same : r'.charter = r.charter) (id : Nat) :
    (r'.task? id).map Task.origin = (r.task? id).map Task.origin := by
  obtain ⟨_, _, _, _, origins⟩ := charter_eq_iff.mp same
  simpa [task?, List.getElem?_map] using congrArg (·[id]?) origins

/-- Runs with the same charter have the same numbers of tasks. -/
theorem task?_of_charter {r r' : Run} (same : r'.charter = r.charter) {id : Nat} {t : Task}
    (task : r.task? id = some t) : ∃ t', r'.task? id = some t' := by
  have origin := task?_origin same id
  rw [task] at origin
  obtain ⟨t', task', _⟩ := Option.map_eq_some_iff.mp origin
  exact ⟨t', task'⟩

theorem after_id (r : Run) (history : List (Timestamp × Call)) : (r.after history).id = r.id :=
  congrArg Charter.id (after_charter r history)

theorem after_plan (r : Run) (history : List (Timestamp × Call)) : (r.after history).plan = r.plan :=
  congrArg Charter.plan (after_charter r history)

theorem after_policy (r : Run) (history : List (Timestamp × Call)) : (r.after history).policy = r.policy :=
  congrArg Charter.policy (after_charter r history)

-- ---------------------------------------------------------------------------
-- Tasks and the plan
-- ---------------------------------------------------------------------------

theorem create_mirrorsPlan (id : RunId) (plan : Plan) (policy : Policy) (now : Timestamp) :
    (create id plan policy now).MirrorsPlan := by
  unfold MirrorsPlan create
  simp only [List.map_map]
  conv => rhs; rw [← List.map_id plan.tasks.zipIdx]
  rfl

theorem MirrorsPlan.of_charter {r r' : Run} (h : r.MirrorsPlan) (same : r'.charter = r.charter) :
    r'.MirrorsPlan := by
  obtain ⟨_, plan, _, _, origins⟩ := charter_eq_iff.mp same
  rw [MirrorsPlan, origins, plan]
  exact h

/-- After every history the tasks of a new run mirror its plan. -/
theorem mirrorsPlan_after (id : RunId) (plan : Plan) (policy : Policy) (now : Timestamp)
    (history : List (Timestamp × Call)) : ((create id plan policy now).after history).MirrorsPlan :=
  (create_mirrorsPlan id plan policy now).of_charter (after_charter _ history)

/-- Every task carries out the entry of the plan at its place, and its number is that place. -/
theorem MirrorsPlan.origin_at {r : Run} (h : r.MirrorsPlan) {i : Nat} {t : Task}
    (ht : r.tasks[i]? = some t) :
    r.plan.tasks[i]? = some (t.group, t.stage, t.spec) ∧ t.id = i := by
  have horigin : (r.tasks.map Task.origin)[i]? = some t.origin := by simp [ht]
  rw [h, List.getElem?_zipIdx] at horigin
  obtain ⟨entry, here, heq⟩ := Option.map_eq_some_iff.mp horigin
  obtain ⟨same, number⟩ := Prod.mk.inj heq
  exact ⟨same ▸ here, by simpa using number.symm⟩

/-- A task is found under its own number. -/
theorem MirrorsPlan.id_eq {r : Run} (h : r.MirrorsPlan) {i : Nat} {t : Task}
    (ht : r.tasks[i]? = some t) : t.id = i := (h.origin_at ht).2

theorem MirrorsPlan.task?_id {r : Run} (h : r.MirrorsPlan) {t : Task} (ht : t ∈ r.tasks) :
    r.task? t.id = some t := by
  obtain ⟨i, hi⟩ := List.mem_iff_getElem?.mp ht
  rw [task?, h.id_eq hi]
  exact hi

/-- The numbers of tasks do not repeat. -/
theorem MirrorsPlan.ids_nodup {r : Run} (h : r.MirrorsPlan) : (r.tasks.map Task.id).Nodup := by
  have ids : r.tasks.map Task.id = (r.tasks.map Task.origin).map Prod.snd := by
    rw [List.map_map]
    rfl
  rw [ids, h, List.zipIdx_map_snd]
  exact List.nodup_range'

/-- The task with a number is the one that carries it. -/
theorem MirrorsPlan.modifyTask_tasks {r : Run} (h : r.MirrorsPlan) (id : Nat) (f : Task → Task) :
    (r.modifyTask id f).tasks = r.tasks.map fun t => if t.id = id then f t else t := by
  apply List.ext_getElem?
  intro i
  simp only [modifyTask, List.getElem?_modify, List.getElem?_map]
  cases ht : r.tasks[i]? with
  | none => rfl
  | some t => by_cases same : id = i <;> simp [h.id_eq ht, same, eq_comm]

/-- Every task carries out an entry of the stage at its position. -/
theorem MirrorsPlan.entry {r : Run} (h : r.MirrorsPlan) {t : Task} (ht : t ∈ r.tasks) :
    ∃ g s, r.plan.groups[t.group]? = some g ∧ g.stages[t.stage]? = some s ∧ t.spec ∈ s.tasks := by
  have hmem : t.origin ∈ r.plan.tasks.zipIdx := h ▸ List.mem_map_of_mem ht
  have hentry : (t.group, t.stage, t.spec) ∈ r.plan.tasks := by
    have := List.mem_map_of_mem (f := Prod.fst) hmem
    rwa [List.zipIdx_map_fst] at this
  simp only [Plan.tasks, List.mem_flatMap, List.mem_map] at hentry
  obtain ⟨⟨g, gi⟩, hg, ⟨s, si⟩, hs, spec, hspec, heq⟩ := hentry
  simp only [Prod.mk.injEq] at heq
  obtain ⟨rfl, rfl, rfl⟩ := heq
  exact ⟨g, s, List.mem_zipIdx_iff_getElem?.mp hg, List.mem_zipIdx_iff_getElem?.mp hs, hspec⟩

/-- Every task lies in a stage of the plan. -/
theorem MirrorsPlan.placed {r : Run} (h : r.MirrorsPlan) {t : Task} (ht : t ∈ r.tasks) :
    ∃ g, r.plan.groups[t.group]? = some g ∧ t.stage < g.stages.length := by
  obtain ⟨g, s, group, stage, _⟩ := h.entry ht
  exact ⟨g, group, (List.getElem?_eq_some_iff.mp stage).1⟩

end Run

end Rollout
