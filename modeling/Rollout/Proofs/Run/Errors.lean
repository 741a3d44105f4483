-- SUMMARY: Where the error of a task comes from: the fault that some event told of this task.
import Rollout.Proofs.Run.Charter

/-!
# Errors

A task has an error when an event told that it ended with a fault, and the error is the wording of this fault.
Everything else that happens to a task keeps its error or drops it.
-/
namespace Rollout.Run

/-- The history tells that the task ended with the fault. -/
def Tells (history : List (Timestamp × Call)) (task : Nat) (fault : Fault) : Prop :=
  ∃ now outcome, (now, Call.apply (.finished task outcome)) ∈ history ∧ outcome.fault = some fault

/-- The error of every task that has one is as the predicate says. -/
def Errs (p : Nat → String → Prop) (r : Run) : Prop :=
  ∀ task t error, r.task? task = some t → t.lastError = some error → p task error

variable {p : Nat → String → Prop} {r r' : Run} {now : Timestamp}

namespace Errs

theorem of_tasks (h : Errs p r) (same : r'.tasks = r.tasks) : Errs p r' := by
  intro task t error found recorded
  rw [task?, same] at found
  exact h task t error found recorded

/-- Tasks may change as long as they get no new error. -/
theorem of_map (h : Errs p r) {f : Task → Task} (tasks : r'.tasks = r.tasks.map f)
    (old : ∀ t error, (f t).lastError = some error → t.lastError = some error) : Errs p r' := by
  intro task t' error found recorded
  rw [task?, tasks, List.getElem?_map] at found
  obtain ⟨t, before, rfl⟩ := Option.map_eq_some_iff.mp found
  exact h task t error before (old t error recorded)

theorem mapStage (h : Errs p r) {test : Task → Bool} {f : Task → Task}
    (tasks : r'.tasks = (r.mapStage test f).tasks)
    (old : ∀ t error, (f t).lastError = some error → t.lastError = some error) : Errs p r' := by
  refine h.of_map tasks fun t error recorded => ?_
  split at recorded
  · exact old t error recorded
  · exact recorded

/-- One task may get a new error. -/
theorem modifyTask (h : Errs p r) {id : Nat} {f : Task → Task}
    (tasks : r'.tasks = (r.modifyTask id f).tasks)
    (new : ∀ t error, (f t).lastError = some error → t.lastError = some error ∨ p id error) :
    Errs p r' := by
  intro task t' error found recorded
  rw [task?, tasks, Run.modifyTask, List.getElem?_modify] at found
  obtain ⟨t, before, rfl⟩ := Option.map_eq_some_iff.mp found
  split at recorded
  next same =>
    obtain old | told := new t error recorded
    · exact h task t error before old
    · exact same ▸ told
  · exact h task t error before recorded

theorem change (h : Errs p r) (c : Change now r r') : Errs p r' := by
  cases c with
  | handOut => exact h.mapStage rfl fun _ _ recorded => recorded
  | closeStage | hold | closeGroup | complete => exact h.of_tasks rfl
  | order o =>
    cases o with
    | go | suspend => exact h.of_tasks rfl
    | requeue => exact h.mapStage rfl fun _ _ recorded => nomatch recorded
    | skipRest =>
      refine h.of_map rfl fun t error recorded => ?_
      unfold Task.skipped at recorded
      split at recorded <;> exact recorded

theorem applied (h : Errs p r) {event : TaskEvent} {reply : Reply Unit} (a : Applied now r event reply)
    (told : ∀ task outcome fault, event = .finished task outcome → outcome.fault = some fault →
      p task fault.message) : Errs p reply.1 := by
  cases a with
  | dropped | refused => exact h
  | begun => exact h.modifyTask rfl fun _ _ recorded => .inl recorded
  | @ended id outcome =>
    refine h.modifyTask rfl fun t error recorded => .inr ?_
    obtain ⟨fault, told_fault, rfl⟩ := Option.map_eq_some_iff.mp recorded
    exact told id outcome fault rfl told_fault

theorem call (h : Errs p r) (now : Timestamp) (c : Call)
    (told : ∀ task outcome fault, c = .apply (.finished task outcome) → outcome.fault = some fault →
      p task fault.message) : Errs p (r.call now c) := by
  by_cases event : ∃ event, c = .apply event
  · obtain ⟨event, rfl⟩ := event
    refine h.applied (apply_applied r now event) fun task outcome fault same => ?_
    exact told task outcome fault (congrArg Call.apply same)
  · have other : ∀ event, c ≠ .apply event := fun e same => event ⟨e, same⟩
    exact changes_induction (fun change h => h.change change) h (call_changes r now other)

/-- What every told fault has, the errors of all tasks have after a history. -/
theorem after (h : Errs p r) (history : List (Timestamp × Call))
    (told : ∀ task fault, Tells history task fault → p task fault.message) : Errs p (r.after history) := by
  induction history generalizing r with
  | nil => exact h
  | cons entry history ih =>
    obtain ⟨now, c⟩ := entry
    refine ih (h.call now c fun task outcome fault same faulty => ?_) fun task fault tells => ?_
    · exact told task fault ⟨now, outcome, same ▸ List.mem_cons_self, faulty⟩
    · obtain ⟨now', outcome, member, faulty⟩ := tells
      exact told task fault ⟨now', outcome, List.mem_cons_of_mem _ member, faulty⟩

end Errs

/-- The error of a task is the wording of a fault that was told of it. -/
theorem told_of_error (id : RunId) (plan : Plan) (policy : Policy) (made : Timestamp)
    (history : List (Timestamp × Call)) {t : Task} {error : String}
    (ht : t ∈ ((create id plan policy made).after history).tasks) (recorded : t.lastError = some error) :
    ∃ fault, Tells history t.id fault ∧ fault.message = error := by
  have none_at_first : Errs (fun task error => ∃ fault, Tells history task fault ∧ fault.message = error)
      (create id plan policy made) := by
    intro task t error found recorded
    obtain ⟨entry, _, rfl⟩ := List.mem_map.mp (List.mem_of_getElem? found)
    cases recorded
  exact none_at_first.after history (fun task fault tells => ⟨fault, tells, rfl⟩) t.id t error
    ((mirrorsPlan_after id plan policy made history).task?_id ht) recorded

end Rollout.Run
