-- SUMMARY: What operations leave alone: tasks that are over, except that a retry reopens failed ones of its stage.
import Rollout.Proofs.Run.History

/-!
# Permanence

A task that is over stays as it is, whatever is called, unless someone asks for another try. A retry
reopens the failed tasks of the current stage and nothing else. So a task that was completed or skipped
never changes again.
-/
namespace Rollout

/-- The task is over, whether it failed or not. -/
def Task.IsOver (t : Task) : Prop := t.status.isTerminal = true

/-- The task is over and cannot be tried again. -/
def Task.IsFinal (t : Task) : Prop := t.status = .completed ∨ t.status = .skipped

theorem Task.IsFinal.isOver {t : Task} (h : t.IsFinal) : t.IsOver := by
  obtain done | skipped := h
  · rw [IsOver, done]; rfl
  · rw [IsOver, skipped]; rfl

theorem Task.IsFinal.not_isFailure {t : Task} (h : t.IsFinal) : t.status.isFailure = false := by
  obtain done | skipped := h
  · rw [done]; rfl
  · rw [skipped]; rfl

namespace Run

/-- Every task with a property stays as it is. -/
def Keeps (p : Task → Prop) (r r' : Run) : Prop :=
  ∀ (k : Nat) t, r.tasks[k]? = some t → p t → r'.tasks[k]? = some t

namespace Keeps

variable {p q : Task → Prop} {r r₁ r₂ : Run}

theorem refl (r : Run) : Keeps p r r := fun _ _ ht _ => ht

theorem trans (h : Keeps p r r₁) (h' : Keeps p r₁ r₂) : Keeps p r r₂ :=
  fun k t ht holds => h' k t (h k t ht holds) holds

theorem mono (h : Keeps q r r₁) (imp : ∀ t, p t → q t) : Keeps p r r₁ :=
  fun k t ht holds => h k t ht (imp t holds)

theorem of_tasks (same : r₁.tasks = r.tasks) : Keeps p r r₁ := fun _ _ ht _ => same ▸ ht

theorem of_map {f : Task → Task} (tasks : r₁.tasks = r.tasks.map f)
    (same : ∀ t, p t → f t = t) : Keeps p r r₁ := by
  intro k t ht holds
  rw [tasks, List.getElem?_map, ht, Option.map_some, same t holds]

/-- Tasks under the cursor may change as long as those with the property fail the test. -/
theorem mapStage {test : Task → Bool} {f : Task → Task} (tasks : r₁.tasks = (r.mapStage test f).tasks)
    (spared : ∀ t, p t → t.isAt r.cursor = true → test t = false) : Keeps p r r₁ := by
  refine of_map tasks fun t holds => if_neg fun hit => ?_
  obtain ⟨here, test⟩ := Bool.and_eq_true_iff.mp hit
  simp [spared t holds here] at test

theorem modifyTask {id : Nat} {f : Task → Task} {t : Task}
    (tasks : r₁.tasks = (r.modifyTask id f).tasks) (task : r.task? id = some t)
    (spared : ¬ p t) : Keeps p r r₁ := by
  intro k t' ht' holds
  have other : id ≠ k := by
    rintro rfl
    cases task.symm.trans ht'
    exact spared holds
  simp [tasks, Run.modifyTask, other, ht']

end Keeps

-- ---------------------------------------------------------------------------
-- Operations
-- ---------------------------------------------------------------------------

variable {r r' : Run} {now : Timestamp}

theorem enter_tasks (r : Run) (now : Timestamp) (state : RunState) (op : String) :
    (r.enter now state op).1.tasks = r.tasks := by
  unfold enter
  split <;> rfl

theorem advance_tasks (r : Run) (now : Timestamp) : (r.advance now).1.tasks = r.tasks := by
  unfold advance
  repeat' split
  · rfl
  · rfl
  · rfl
  · exact enter_tasks ..

theorem suspend_tasks (r : Run) (now : Timestamp) : (r.suspend now).1.tasks = r.tasks := by
  unfold suspend
  split
  · exact enter_tasks ..
  · exact enter_tasks ..
  · rfl

theorem resume_tasks (r : Run) (now : Timestamp) : (r.resume now).1.tasks = r.tasks := by
  unfold resume
  split
  · exact enter_tasks ..
  · exact enter_tasks ..
  · rfl

theorem skipRest_keeps (r : Run) (now : Timestamp) (reason : String) :
    Keeps Task.IsOver r (r.skipRest now reason) :=
  .of_map rfl fun _ final => if_pos final

theorem handOut_keeps (r : Run) (now : Timestamp) : Keeps Task.IsOver r (r.handOut now) := by
  refine .mapStage rfl fun t final _ => decide_eq_false fun pending => ?_
  simp [Task.IsOver, pending, TaskStatus.isTerminal] at final

theorem Stride.keeps (s : Stride now r r') : Keeps Task.IsOver r r' := by
  cases s with
  | handOut => exact handOut_keeps r now
  | closeStage | hold | closeGroup | complete => exact .of_tasks rfl

theorem Applied.keeps {event : TaskEvent} {reply : Reply Unit} (a : Applied now r event reply) :
    Keeps Task.IsOver r reply.1 := by
  cases a with
  | dropped | refused => exact .refl r
  | begun _ task _ unfinished | ended _ task _ unfinished =>
    exact .modifyTask rfl task (by simp [Task.IsOver, unfinished])

/-- Whatever is called, every task that is over stays as it is, unless someone asks for another try. -/
theorem call_keeps (r : Run) (now : Timestamp) {c : Call} (other : c ≠ .retry) :
    Keeps Task.IsOver r (r.call now c) := by
  cases c with
  | retry => exact absurd rfl other
  | start => exact .of_tasks (enter_tasks ..)
  | step =>
    refine step_induction (P := Keeps Task.IsOver r) (.refl r) ?_ ?_
    · exact fun stride kept => kept.trans stride.keeps
    · exact fun _ _ _ kept => kept.trans (handOut_keeps _ now)
  | advance => exact .of_tasks (advance_tasks r now)
  | suspend => exact .of_tasks (suspend_tasks r now)
  | resume => exact .of_tasks (resume_tasks r now)
  | abort reason =>
    cases live : r.state.isTerminal with
    | true =>
      rw [call, abort_of_archived live]
      exact .refl r
    | false =>
      rw [call, abort_of_live live]
      exact skipRest_keeps r now reason
  | apply event => exact (apply_applied r now event).keeps

/-- A retry changes no task but the failed ones of the current stage. -/
theorem retry_keeps (r : Run) (now : Timestamp) :
    Keeps (fun t => ¬ (t.isAt r.cursor = true ∧ t.status.isFailure = true)) r
      (r.call now .retry) := by
  by_cases holding : r.state = .holding
  · rw [call, retry_of_holding holding]
    exact .mapStage rfl fun t spared here => Bool.eq_false_iff.mpr fun failed => spared ⟨here, failed⟩
  · simp only [call, retry, holding, ne_eq, not_false_eq_true, if_true]
    exact .refl r

/-- Whatever is called, a task that was completed or skipped stays as it is. -/
theorem call_keeps_final (r : Run) (now : Timestamp) (c : Call) :
    Keeps Task.IsFinal r (r.call now c) := by
  by_cases retried : c = .retry
  · rw [retried]
    exact (retry_keeps r now).mono fun t final failed => by simp [final.not_isFailure] at failed
  · exact (call_keeps r now retried).mono fun t final => final.isOver

theorem after_keeps_final (r : Run) (history : List (Timestamp × Call)) :
    Keeps Task.IsFinal r (r.after history) := by
  induction history generalizing r with
  | nil => exact .refl r
  | cons c history ih => exact (call_keeps_final r c.1 c.2).trans (ih _)

end Run

end Rollout
