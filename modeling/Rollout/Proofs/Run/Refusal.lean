-- SUMMARY: Refusals leave no trace: an operation that answers a fault left the run as it was, and so does any on an archived run.
import Rollout.Proofs.Run.History

/-!
# Refusals

Some operations change tasks, message or flags before they enter a state, and entering may be refused.
Wherever an operation comes to such a change, the state allows what follows. So an operation is refused
before it changed anything, whatever run it is called on, and nothing changes a run that is archived.
-/
namespace Rollout.Run

/-- If the answer is a fault, the run is as it was. -/
def Atomic {α : Type} (r : Run) (reply : Reply α) : Prop :=
  ∀ fault, reply.2 = .error fault → reply.1 = r

variable {α : Type} {r : Run} {now : Timestamp}

-- ---------------------------------------------------------------------------
-- Replies
-- ---------------------------------------------------------------------------

theorem atomic_ok {r' : Run} {a : α} : r.Atomic (r', .ok a) := by
  intro fault refused
  cases refused

theorem atomic_refuse {op : String} : r.Atomic (r.refuse op : Reply α) :=
  fun _ _ => rfl

theorem atomic_enter {state : RunState} {op : String} : r.Atomic (r.enter now state op) := by
  unfold enter
  split
  · exact atomic_ok
  · exact atomic_refuse

-- ---------------------------------------------------------------------------
-- Operations
-- ---------------------------------------------------------------------------

theorem atomic_start (r : Run) (now : Timestamp) : r.Atomic (r.start now) := atomic_enter

/-- A running run may hold, so the message that is written before is never left behind. -/
theorem atomic_advance (r : Run) (now : Timestamp) : r.Atomic (r.advance now) := by
  by_cases running : r.state = .running
  · cases closed : r.stageIsOpen with
    | true =>
      simp only [advance, running, closed, ne_eq, not_true_eq_false, if_false, if_true]
      exact atomic_refuse
    | false =>
      by_cases clear : r.blocking = []
      · rw [advance_of_clear running closed clear]
        exact atomic_ok
      · rw [advance_of_blocked running closed clear]
        exact atomic_ok
  · simp only [advance, running, ne_eq, not_false_eq_true, if_true]
    exact atomic_refuse

/-- A run that holds may go on, so the tasks that are reset before are never left behind. -/
theorem atomic_retry (r : Run) (now : Timestamp) : r.Atomic (r.retry now) := by
  by_cases holding : r.state = .holding
  · rw [retry_of_holding holding]
    exact atomic_ok
  · simp only [retry, holding, ne_eq, not_false_eq_true, if_true]
    exact atomic_refuse

theorem atomic_suspend (r : Run) (now : Timestamp) : r.Atomic (r.suspend now) := by
  unfold suspend
  split
  · exact atomic_enter
  · exact atomic_enter
  · exact atomic_refuse

theorem atomic_resume (r : Run) (now : Timestamp) : r.Atomic (r.resume now) := by
  unfold resume
  split
  · exact atomic_enter
  · exact atomic_enter
  · exact atomic_refuse

/-- A run that is not archived may be aborted, so the tasks that are skipped before are never left behind. -/
theorem atomic_abort (r : Run) (now : Timestamp) (reason : String) :
    r.Atomic (r.abort now reason) := by
  cases live : r.state.isTerminal with
  | true =>
    rw [abort_of_archived live]
    exact atomic_refuse
  | false =>
    rw [abort_of_live live]
    exact atomic_ok

theorem atomic_apply (r : Run) (now : Timestamp) (event : TaskEvent) :
    r.Atomic (r.apply now event) := by
  have applied := apply_applied r now event
  generalize r.apply now event = reply at applied
  cases applied with
  | dropped | begun | ended => exact atomic_ok
  | refused => exact fun _ _ => rfl

-- ---------------------------------------------------------------------------
-- Archived runs
-- ---------------------------------------------------------------------------

theorem enter_of_archived (archived : r.state.isTerminal = true) (state : RunState) (op : String) :
    r.enter now state op = r.refuse op := by
  refine enter_refused ?_
  cases h : r.state <;> simp_all [RunState.allows, RunState.isTerminal]

theorem advance_of_archived (archived : r.state.isTerminal = true) :
    r.advance now = r.refuse "advance" := by
  have not_running : r.state ≠ .running := fun h => by simp [h, RunState.isTerminal] at archived
  rw [advance, if_pos not_running]

theorem retry_of_archived (archived : r.state.isTerminal = true) :
    r.retry now = r.refuse "retry" := by
  have not_holding : r.state ≠ .holding := fun h => by simp [h, RunState.isTerminal] at archived
  rw [retry, if_pos not_holding]

theorem suspend_of_archived (archived : r.state.isTerminal = true) :
    r.suspend now = r.refuse "suspend" := by
  unfold suspend
  split
  next running => simp [running, RunState.isTerminal] at archived
  next holding => simp [holding, RunState.isTerminal] at archived
  · rfl

theorem resume_of_archived (archived : r.state.isTerminal = true) :
    r.resume now = r.refuse "resume" := by
  unfold resume
  split
  next suspended => simp [suspended, RunState.isTerminal] at archived
  next holding => simp [holding, RunState.isTerminal] at archived
  · rfl

theorem apply_of_archived (archived : r.state.isTerminal = true) (event : TaskEvent) :
    r.apply now event = (r, .ok ()) := by
  rw [apply, if_pos archived]

/-- Nothing that is called changes a run that is archived. -/
theorem call_of_archived (archived : r.state.isTerminal = true) (c : Call) : r.call now c = r := by
  cases c with
  | start => rw [call, start, enter_of_archived archived]; rfl
  | step => rw [call, step_of_archived archived]
  | advance => rw [call, advance_of_archived archived]; rfl
  | retry => rw [call, retry_of_archived archived]; rfl
  | suspend => rw [call, suspend_of_archived archived]; rfl
  | resume => rw [call, resume_of_archived archived]; rfl
  | abort reason => rw [call, abort_of_archived archived]; rfl
  | apply event => rw [call, apply_of_archived archived]

theorem after_of_archived (archived : r.state.isTerminal = true) (history : List (Timestamp × Call)) :
    r.after history = r := by
  induction history with
  | nil => rfl
  | cons c history ih =>
    have first : r.after (c :: history) = (r.call c.1 c.2).after history := rfl
    rw [first, call_of_archived archived, ih]

/-- Refusals leave no trace. For every run, whatever its shape: an operation that answers a fault left
every field as it was, a step answers none, and on an archived run no operation changes anything and a step
hands out nothing. -/
theorem refusals_leave_no_trace (r : Run) (now : Timestamp) :
    (∀ fault, (r.start now).2 = .error fault → (r.start now).1 = r) ∧
    (∀ fault, (r.advance now).2 = .error fault → (r.advance now).1 = r) ∧
    (∀ fault, (r.retry now).2 = .error fault → (r.retry now).1 = r) ∧
    (∀ fault, (r.suspend now).2 = .error fault → (r.suspend now).1 = r) ∧
    (∀ fault, (r.resume now).2 = .error fault → (r.resume now).1 = r) ∧
    (∀ reason fault, (r.abort now reason).2 = .error fault → (r.abort now reason).1 = r) ∧
    (∀ event fault, (r.apply now event).2 = .error fault → (r.apply now event).1 = r) ∧
    (∃ commands, (r.step now).2 = .ok commands) ∧
    (r.state = .completed ∨ r.state = .aborted →
      (∀ c, r.call now c = r) ∧ r.step now = (r, .ok [])) := by
  refine ⟨atomic_start r now, atomic_advance r now, atomic_retry r now, atomic_suspend r now,
    atomic_resume r now, atomic_abort r now, atomic_apply r now, step_ok r now, fun ended => ?_⟩
  have archived : r.state.isTerminal = true := RunState.isTerminal_iff.mpr ended
  exact ⟨call_of_archived archived, step_of_archived archived⟩

end Rollout.Run
