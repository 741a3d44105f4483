-- SUMMARY: Which attempts the commands of a step carry, and how often a task is put back in the queue.
import Rollout.Proofs.Run.Waiting

/-!
# Requeues

A step leaves the tasks as they are, or it queues the pending ones of a stage and gives their commands. A
command carries the attempt after the retries of its task. A task that failed is put back in the queue by a
retry, when its run holds at its stage, and by nothing else.
-/
namespace Rollout.Run

variable {r r' : Run} {now : Timestamp} {task : Nat}

-- ---------------------------------------------------------------------------
-- Commands of a step
-- ---------------------------------------------------------------------------

/-- What a step makes of the tasks: nothing, or it queues the pending ones of a stage and gives their
commands. -/
theorem step_tasks (r : Run) (now : Timestamp) :
    ((r.step now).2 = .ok [] ∧ (r.step now).1.tasks = r.tasks) ∨
      ∃ c : Cursor, (r.step now).1.tasks =
          r.tasks.map (fun t => if t.isAt c && decide (t.status = .pending) then t.queued else t) ∧
        (r.step now).2 =
          .ok ((r.tasks.filter fun t => t.isAt c && decide (t.status = .pending)).map r.command) := by
  obtain ⟨r₁, path, ends⟩ := step_ends r now
  have reached : r₁.tasks = r.tasks ∧ r₁.charter = r.charter := by
    clear ends
    induction path with
    | refl => exact ⟨rfl, rfl⟩
    | tail _ last ih => exact ⟨last.tasks.trans ih.1, last.change.charter.trans ih.2⟩
  obtain ⟨tasks, charter⟩ := reached
  generalize r.step now = reply at ends
  cases ends with
  | wait => exact .inl ⟨rfl, tasks⟩
  | dispatch =>
    refine .inr ⟨r₁.cursor, ?_, ?_⟩
    · rw [← tasks]
      rfl
    · have commands : r₁.command = r.command := funext fun t => command_congr charter t
      rw [← tasks, ← commands]
      simp only [queueStage, stageTasks, List.filter_filter, Bool.and_comm]

/-- Every command that a step returns is that of a task after the step, and its attempt is one more than the
retries of the task. -/
theorem MirrorsPlan.step_attempt (h : r.MirrorsPlan) {commands : List TaskCommand}
    (stepped : (r.step now).2 = .ok commands) : ∀ c ∈ commands,
      ∃ t, (r.step now).1.task? c.taskId = some t ∧ (r.step now).1.command t = c ∧
        c.attempt = t.retryCount + 1 := by
  intro c hc
  have charter := step_charter r now
  have mirrors := h.of_charter charter
  obtain ⟨nothing, _⟩ | ⟨cursor, tasks, given⟩ := step_tasks r now
  · cases nothing.symm.trans stepped
    cases hc
  · cases given.symm.trans stepped
    obtain ⟨t, ht, rfl⟩ := List.mem_map.mp hc
    obtain ⟨ht, test⟩ := List.mem_filter.mp ht
    have queued : t.queued ∈ (r.step now).1.tasks := by
      rw [tasks]
      exact List.mem_map.mpr ⟨t, ht, if_pos test⟩
    exact ⟨t.queued, mirrors.task?_id queued, command_congr charter t.queued, rfl⟩

-- ---------------------------------------------------------------------------
-- Requeues
-- ---------------------------------------------------------------------------

/-- A call puts a task back in the queue: it is a retry, and the run holds at a stage in which the task
failed. -/
def reopens (r : Run) (task : Nat) : Call → Bool
  | .retry => r.state = .holding && r.stageTasks.any fun t => t.id = task && t.status.isFailure
  | .start | .step | .advance | .suspend | .resume | .abort _ | .apply _ => false

/-- How many calls of a history put a task back in the queue. -/
def requeues (r : Run) (task : Nat) : List (Timestamp × Call) → Nat
  | [] => 0
  | (now, c) :: history =>
    (if r.reopens task c then 1 else 0) + (r.call now c).requeues task history

theorem requeues_append (r : Run) (task : Nat) (first second : List (Timestamp × Call)) :
    r.requeues task (first ++ second) =
      r.requeues task first + (r.after first).requeues task second := by
  induction first generalizing r with
  | nil => simp [requeues, after]
  | cons entry first ih =>
    obtain ⟨now, c⟩ := entry
    rw [List.cons_append, requeues, requeues, ih, Nat.add_assoc]
    rfl

/-- A retry puts just those tasks back in the queue that failed in the current stage. -/
theorem MirrorsPlan.reopens_retry (h : r.MirrorsPlan) (holding : r.state = .holding) {t : Task}
    (ht : t ∈ r.tasks) : r.reopens t.id .retry = (t.isAt r.cursor && t.status.isFailure) := by
  rw [reopens, holding, Bool.eq_iff_iff]
  simp only [decide_true, Bool.true_and, List.any_eq_true, Bool.and_eq_true, decide_eq_true_eq]
  constructor
  · rintro ⟨t', ht', same, failed⟩
    obtain ⟨member, here⟩ := mem_stageTasks.mp ht'
    have found := h.task?_id member
    rw [same, h.task?_id ht] at found
    cases found
    exact ⟨here, failed⟩
  · rintro ⟨here, failed⟩
    exact ⟨t, mem_stageTasks.mpr ⟨ht, here⟩, rfl, failed⟩

end Rollout.Run
