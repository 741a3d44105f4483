-- SUMMARY: What holds a run: failed tasks of its current stage, which a retry makes pending and the next step hands out.
import Rollout.Proofs.Plan.Shape
import Rollout.Proofs.Run.Waiting

/-!
# Runs that hold

A run holds since its current stage is closed and some of its tasks failed that may not. No event is taken
then, so it stays like this until someone asks the run to go on. A retry makes the failed tasks of the stage
pending, and the next step hands out just these. In a built plan either all failed tasks of a stage hold it
or none, so the number in the message is the number of tasks that a retry makes pending.
-/
namespace Rollout.Run

def failures (r : Run) : List Task := r.stageTasks.filter fun t => t.status.isFailure

/-- The current stage is closed, failed tasks block it, and the message names them. -/
structure Held (r : Run) : Prop where
  closed : r.stageIsOpen = false
  blocked : r.blocking ≠ []
  said : r.message = some (holdMessage ((r.currentStage?.map Stage.name).getD "") r.blocking)

variable {r r' : Run} {now : Timestamp}

-- ---------------------------------------------------------------------------
-- Holding
-- ---------------------------------------------------------------------------

theorem held_of_change (c : Change now r r') (holding : r'.state = .holding) : r'.Held := by
  cases c with
  | order o => cases o <;> cases holding
  | hold _ closed blocked => exact ⟨closed, blocked, rfl⟩
  | handOut running | closeStage running | closeGroup running =>
    cases running.symm.trans holding
  | complete => cases holding

/-- A run that holds takes no news of its tasks: those of the current stage are over. -/
theorem held_of_applied (h : r.state = .holding → r.Held) {event : TaskEvent} {reply : Reply Unit}
    (a : Applied now r event reply) (holding : reply.1.state = .holding) : reply.1.Held := by
  cases a with
  | dropped | refused => exact h holding
  | begun _ task here unfinished | ended _ task here unfinished =>
    have staged := mem_stageTasks.mpr ⟨List.mem_of_getElem? task, here⟩
    have is_open : r.stageIsOpen = true := stageIsOpen_iff.mpr ⟨_, staged, unfinished⟩
    exact absurd is_open (Bool.eq_false_iff.mp (h holding).closed)

/-- After every history, a run that holds is held. -/
theorem held_after (id : RunId) (plan : Plan) (policy : Policy) (now : Timestamp)
    (history : List (Timestamp × Call)) :
    ((create id plan policy now).after history).state = .holding →
      ((create id plan policy now).after history).Held :=
  after_induction (P := fun r => r.state = .holding → r.Held) (fun change _ => held_of_change change)
    (fun applied h => held_of_applied h applied) (fun holding => by cases holding) history

theorem Held.terminal (h : r.Held) : ∀ t ∈ r.stageTasks, t.status.isTerminal = true := by
  simpa [stageIsOpen] using h.closed

-- ---------------------------------------------------------------------------
-- Failed tasks
-- ---------------------------------------------------------------------------

/-- A task of the current stage carries out the operation of that stage. -/
theorem stage_of_staged (mirrors : r.MirrorsPlan) (uniform : r.plan.IsUniform) {t : Task}
    (ht : t ∈ r.stageTasks) : ∃ s, r.currentStage? = some s ∧ t.operation = s.operation := by
  obtain ⟨member, here⟩ := mem_stageTasks.mp ht
  obtain ⟨g, s, group, stage, entry⟩ := mirrors.entry member
  simp only [Task.isAt, Bool.and_eq_true, decide_eq_true_eq] at here
  rw [here.1] at group
  rw [here.2] at stage
  refine ⟨s, currentStage?_eq_some.mpr ⟨g, group, stage⟩, ?_⟩
  exact uniform g (List.mem_of_getElem? group) s (List.mem_of_getElem? stage) t.spec entry

/-- If one failed task of a stage blocks it, all of them do. -/
theorem blocking_eq_failures (mirrors : r.MirrorsPlan) (uniform : r.plan.IsUniform)
    (blocked : r.blocking ≠ []) : r.blocking = r.failures := by
  obtain ⟨b, hb⟩ := List.exists_mem_of_ne_nil _ blocked
  obtain ⟨staged, blocks⟩ := List.mem_filter.mp hb
  obtain ⟨s, stage, operation⟩ := stage_of_staged mirrors uniform staged
  refine List.filter_congr fun t ht => ?_
  obtain ⟨s', stage', operation'⟩ := stage_of_staged mirrors uniform ht
  cases stage.symm.trans stage'
  rw [operation'.trans operation.symm, (Bool.and_eq_true_iff.mp blocks).2, Bool.and_true]

theorem Held.failures_ne_nil (h : r.Held) : r.failures ≠ [] := by
  obtain ⟨b, hb⟩ := List.exists_mem_of_ne_nil _ h.blocked
  obtain ⟨staged, blocks⟩ := List.mem_filter.mp hb
  exact List.ne_nil_of_mem (List.mem_filter.mpr ⟨staged, (Bool.and_eq_true_iff.mp blocks).1⟩)

-- ---------------------------------------------------------------------------
-- Retries
-- ---------------------------------------------------------------------------

/-- Once the stage is closed, what a retry leaves to hand out are its failed tasks. -/
theorem Held.queueStage_requeue (h : r.Held) (now now' : Timestamp) :
    ((r.requeue now).queueStage now').2 = r.failures.map fun t => r.command t.requeued := by
  have mapped : (r.mapStage (fun t => t.status.isFailure) Task.requeued).stageTasks = _ :=
    mapStage_stageTasks fun _ => rfl
  have staged : (r.requeue now).stageTasks =
      r.stageTasks.map fun t => if t.status.isFailure then t.requeued else t := mapped
  have pending : ∀ t ∈ r.stageTasks,
      decide ((if t.status.isFailure then t.requeued else t).status = .pending) =
        t.status.isFailure := by
    intro t ht
    have ended := h.terminal t ht
    cases status : t.status <;>
      simp_all [TaskStatus.isFailure, TaskStatus.isTerminal, Task.requeued]
  simp only [queueStage, staged, List.filter_map, Function.comp_def]
  rw [List.filter_congr pending, List.map_map]
  refine List.map_congr_left fun t ht => ?_
  simp only [Function.comp_apply, (List.mem_filter.mp ht).2, if_true]
  rfl

/-- After a retry the next step hands out the failed tasks. -/
theorem Held.step_requeue (h : r.Held) (mirrors : r.MirrorsPlan) (now now' : Timestamp) :
    ((r.requeue now).step now').2 = .ok (r.failures.map fun t => r.command t.requeued) := by
  obtain ⟨t, ht⟩ := List.exists_mem_of_ne_nil _ h.failures_ne_nil
  obtain ⟨s, stage⟩ := mirrors.currentStage? (List.mem_filter.mp ht).1
  have current : (r.requeue now).currentStage? = some s := stage
  have queued := h.queueStage_requeue now now'
  have something : ((r.requeue now).queueStage now').2 ≠ [] := by
    rw [queued]
    exact fun none_left => h.failures_ne_nil (List.map_eq_nil_iff.mp none_left)
  rw [step_of_fresh rfl current rfl something, queued]

end Rollout.Run
