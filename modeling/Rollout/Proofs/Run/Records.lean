-- SUMMARY: What the times and the error of a task say about its status, and which event ended it.
import Mathlib.Data.List.Induction
import Rollout.Proofs.Run.Lifecycle
import Rollout.Proofs.Run.Permanence
import Rollout.Proofs.Run.Requeues

/-!
# Records

The record of a task is its times and its error. Different calls write them and drop them, and still they
agree with the status of the task, as long as workers report a task as completed, or as failed with a fault. What a
call may do to one task is said once, by `Treats`. The error of a task that failed is that of the event that ended
it: news of a task that is over are refused, so no other event comes after this one, and a retry drops the error.
-/
namespace Rollout

/-- A worker reports that it completed its task, or that it failed with a fault. -/
def TaskOutcome.IsReported (outcome : TaskOutcome) : Prop :=
  (∃ retries, outcome = .completed retries) ∨ ∃ fault retries, outcome = .failed fault retries

namespace TaskOutcome.IsReported

variable {outcome : TaskOutcome}

theorem isFailure (h : outcome.IsReported) : outcome.status.isFailure = outcome.fault.isSome := by
  obtain ⟨retries, rfl⟩ | ⟨fault, retries, rfl⟩ := h
  · rfl
  · cases fault <;> rfl

theorem timedOut_iff (h : outcome.IsReported) :
    outcome.status = .timedOut ↔ ∃ host seconds, outcome.fault = some (.taskTimeout host seconds) := by
  obtain ⟨retries, rfl⟩ | ⟨fault, retries, rfl⟩ := h
  · simp [completed]
  · cases fault <;> simp [failed]

end TaskOutcome.IsReported

theorem TaskStatus.isFailure_iff {status : TaskStatus} :
    status.isFailure = true ↔ status = .failed ∨ status = .timedOut := by
  cases status <;> simp [isFailure]

theorem TaskStatus.isTerminal_of_isFailure {status : TaskStatus} (failed : status.isFailure = true) :
    status.isTerminal = true := by
  obtain rfl | rfl := isFailure_iff.mp failed <;> rfl

/-- The record of a task agrees with its status. -/
structure Task.IsConsistent (t : Task) : Prop where
  completedAt : t.completedAt.isSome = t.status.isTerminal
  startedAt : t.status = .inProgress → t.startedAt.isSome = true
  untouched : t.status = .pending ∨ t.status = .queued → t.startedAt = none
  lastError : t.lastError.isSome = t.status.isFailure

/-- A task that is not over has no error. -/
theorem Task.IsConsistent.faultless {t : Task} (h : t.IsConsistent)
    (unfinished : t.status.isTerminal = false) : t.lastError.isSome = false := by
  rw [h.lastError]
  cases status : t.status <;> simp_all [TaskStatus.isTerminal, TaskStatus.isFailure]

namespace Run

/-- What a call may do to the task with the given number. -/
inductive Treats (now : Timestamp) (task : Nat) : Call → Task → Task → Prop
  | spared {c : Call} {t : Task} : Treats now task c t t
  | queued {t : Task} (pending : t.status = .pending) : Treats now task .step t t.queued
  | requeued {t : Task} (failed : t.status.isFailure = true) : Treats now task .retry t t.requeued
  | begun {t : Task} {attempt : UInt32} (unfinished : t.status.isTerminal = false) :
      Treats now task (.apply (.started task attempt)) t (t.begun now)
  | ended {t : Task} {outcome : TaskOutcome} (unfinished : t.status.isTerminal = false)
      (final : outcome.status.isTerminal = true) :
      Treats now task (.apply (.finished task outcome)) t (t.ended now outcome)
  | skipped {t : Task} {reason : String} (unfinished : t.status.isTerminal = false) :
      Treats now task (.abort reason) t { t with status := .skipped, completedAt := some now }

/-- The task came to its end by an event of the history that told the outcome, and stayed as it was left. -/
def EndedBy (r : Run) (task : Nat) (history : List (Timestamp × Call)) (outcome : TaskOutcome) : Prop :=
  ∃ before now later t, history = before ++ (now, .apply (.finished task outcome)) :: later ∧
    (r.after before).task? task = some t ∧ t.status.isTerminal = false ∧
    ∀ part, part <+: later →
      (r.after (before ++ (now, .apply (.finished task outcome)) :: part)).task? task =
        some (t.ended now outcome)

/-- The fault is the one with which the task came to its end. -/
def Records (r : Run) (task : Nat) (history : List (Timestamp × Call)) (fault : Fault) : Prop :=
  ∃ outcome, r.EndedBy task history outcome ∧ outcome.fault = some fault

/-- All ends of tasks that the history tells are reported by workers. -/
def Reported (history : List (Timestamp × Call)) : Prop :=
  ∀ now task outcome, (now, Call.apply (.finished task outcome)) ∈ history → outcome.IsReported

variable {r r' : Run} {now : Timestamp} {task : Nat} {t t' : Task} {c : Call}

-- ---------------------------------------------------------------------------
-- One call
-- ---------------------------------------------------------------------------

namespace Treats

theorem of_tasks (found : r.task? task = some t) (same : r'.tasks = r.tasks) :
    ∃ t', r'.task? task = some t' ∧ Treats now task c t t' :=
  ⟨t, by rw [task?, same]; exact found, .spared⟩

/-- Tasks that pass a test are treated, and all others are spared. -/
theorem of_map {test : Task → Bool} {f : Task → Task} (found : r.task? task = some t)
    (tasks : r'.tasks = r.tasks.map fun t => if test t then f t else t)
    (treats : test t = true → Treats now task c t (f t)) :
    ∃ t', r'.task? task = some t' ∧ Treats now task c t t' := by
  have image : r'.task? task = some (if test t then f t else t) := by
    rw [task?, tasks, List.getElem?_map, show r.tasks[task]? = some t from found, Option.map_some]
  refine ⟨_, image, ?_⟩
  split
  next hit => exact treats hit
  next => exact .spared

/-- One task is treated, and all others are spared. -/
theorem of_modifyTask {id : Nat} {f : Task → Task} (found : r.task? task = some t)
    (tasks : r'.tasks = (r.modifyTask id f).tasks) (treats : id = task → Treats now task c t (f t)) :
    ∃ t', r'.task? task = some t' ∧ Treats now task c t t' := by
  have image : r'.task? task = some (if id = task then f t else t) := by
    rw [task?, tasks, modifyTask, List.getElem?_modify, show r.tasks[task]? = some t from found]
    rfl
  refine ⟨_, image, ?_⟩
  split
  next here => exact treats here
  next => exact .spared

theorem step (found : r.task? task = some t) :
    ∃ t', (r.step now).1.task? task = some t' ∧ Treats now task .step t t' := by
  obtain ⟨_, same⟩ | ⟨cursor, tasks, _⟩ := step_tasks r now
  · exact of_tasks found same
  · refine of_map found tasks fun hit => .queued ?_
    exact of_decide_eq_true (Bool.and_eq_true_iff.mp hit).2

theorem retry (found : r.task? task = some t) :
    ∃ t', (r.retry now).1.task? task = some t' ∧ Treats now task .retry t t' := by
  by_cases holding : r.state = .holding
  · rw [retry_of_holding holding]
    exact of_map found rfl fun hit => .requeued (Bool.and_eq_true_iff.mp hit).2
  · rw [Run.retry, if_pos holding]
    exact of_tasks found rfl

theorem abort (found : r.task? task = some t) (reason : String) :
    ∃ t', (r.abort now reason).1.task? task = some t' ∧ Treats now task (.abort reason) t t' := by
  cases live : r.state.isTerminal with
  | true =>
    rw [abort_of_archived live]
    exact of_tasks found rfl
  | false =>
    rw [abort_of_live live]
    have image : (r.skipRest now reason).task? task = some (t.skipped now) := by
      rw [task?, skipRest, List.getElem?_map, show r.tasks[task]? = some t from found, Option.map_some]
    refine ⟨_, image, ?_⟩
    unfold Task.skipped
    split
    next => exact .spared
    next unfinished => exact .skipped (Bool.eq_false_iff.mpr unfinished)

theorem apply (found : r.task? task = some t) (event : TaskEvent) :
    ∃ t', (r.apply now event).1.task? task = some t' ∧ Treats now task (.apply event) t t' := by
  have applied := apply_applied r now event
  generalize r.apply now event = reply at applied ⊢
  cases applied with
  | dropped | refused => exact of_tasks found rfl
  | begun _ known _ unfinished =>
    refine of_modifyTask found rfl fun here => ?_
    subst here
    cases found.symm.trans known
    exact .begun unfinished
  | ended _ known _ unfinished final =>
    refine of_modifyTask found rfl fun here => ?_
    subst here
    cases found.symm.trans known
    exact .ended unfinished final

/-- Every call treats each task in one of these ways. -/
theorem call (found : r.task? task = some t) (now : Timestamp) (c : Call) :
    ∃ t', (r.call now c).task? task = some t' ∧ Treats now task c t t' := by
  cases c with
  | start => exact of_tasks found (enter_tasks ..)
  | step => exact step found
  | advance => exact of_tasks found (advance_tasks r now)
  | retry => exact retry found
  | suspend => exact of_tasks found (suspend_tasks r now)
  | resume => exact of_tasks found (resume_tasks r now)
  | abort reason => exact abort found reason
  | apply event => exact apply found event

/-- Whatever is called, the record of a task goes on to agree with its status. -/
theorem isConsistent (treats : Treats now task c t t') (h : t.IsConsistent)
    (reported : ∀ outcome, c = .apply (.finished task outcome) → outcome.IsReported) :
    t'.IsConsistent := by
  cases treats with
  | spared => exact h
  | queued pending =>
    have unfinished : t.status.isTerminal = false := by rw [pending]; rfl
    exact ⟨h.completedAt.trans unfinished, nofun, fun _ => h.untouched (.inl pending),
      h.faultless unfinished⟩
  | requeued => exact ⟨rfl, nofun, fun _ => rfl, rfl⟩
  | begun unfinished =>
    refine ⟨h.completedAt.trans unfinished, fun _ => ?_, fun idle => ?_, h.faultless unfinished⟩
    · cases began : t.startedAt <;> simp [Task.begun, began]
    · obtain idle | idle := idle <;> cases idle
  | @ended _ outcome _ final =>
    refine ⟨final.symm, fun running => ?_, fun idle => ?_, ?_⟩
    · rw [show outcome.status = .inProgress from running] at final
      cases final
    · obtain idle | idle := idle <;>
      · rw [show outcome.status = _ from idle] at final
        cases final
    · have failed := (reported outcome rfl).isFailure
      rw [Task.ended, Option.isSome_map]
      exact failed.symm
  | skipped unfinished =>
    refine ⟨rfl, nofun, fun idle => ?_, h.faultless unfinished⟩
    obtain idle | idle := idle <;> cases idle

end Treats

-- ---------------------------------------------------------------------------
-- Histories
-- ---------------------------------------------------------------------------

variable {history : List (Timestamp × Call)} {outcome : TaskOutcome}

/-- The records of all tasks agree with their statuses. -/
def Consistent (r : Run) : Prop := ∀ task t, r.task? task = some t → t.IsConsistent

theorem create_consistent (id : RunId) (plan : Plan) (policy : Policy) (made : Timestamp) :
    (create id plan policy made).Consistent := by
  intro task t found
  obtain ⟨entry, _, rfl⟩ := List.mem_map.mp (List.mem_of_getElem? found)
  exact ⟨rfl, nofun, fun _ => rfl, rfl⟩

/-- Every task after a call was there before, and the call treated it. -/
theorem exists_treats (r : Run) (now : Timestamp) (c : Call)
    (found : (r.call now c).task? task = some t') : ∃ t, r.task? task = some t ∧ Treats now task c t t' := by
  have charter : (r.call now c).charter = r.charter := after_charter r [(now, c)]
  obtain ⟨t, before⟩ := task?_of_charter charter.symm found
  obtain ⟨t'', behind, treats⟩ := Treats.call before now c
  cases found.symm.trans behind
  exact ⟨t, before, treats⟩

theorem Consistent.after (h : r.Consistent) (reported : Reported history) :
    (r.after history).Consistent := by
  induction history generalizing r with
  | nil => exact h
  | cons entry history ih =>
    obtain ⟨now, c⟩ := entry
    refine ih (fun task t' found => ?_) fun now task outcome told =>
      reported now task outcome (List.mem_cons_of_mem _ told)
    obtain ⟨t, before, treats⟩ := exists_treats r now c found
    refine treats.isConsistent (h task t before) fun outcome same => ?_
    exact reported now task outcome (same ▸ List.mem_cons_self)

namespace EndedBy

/-- The last call ends the task. -/
theorem last (before : (r.after history).task? task = some t) (unfinished : t.status.isTerminal = false)
    (ended : (r.after (history ++ [(now, .apply (.finished task outcome))])).task? task =
      some (t.ended now outcome)) :
    r.EndedBy task (history ++ [(now, .apply (.finished task outcome))]) outcome := by
  refine ⟨history, now, [], t, rfl, before, unfinished, fun part first => ?_⟩
  rw [List.prefix_nil.mp first]
  exact ended

/-- The last call leaves the task as it ended before. -/
theorem earlier (h : r.EndedBy task history outcome)
    (same : (r.after (history ++ [(now, c)])).task? task = (r.after history).task? task) :
    r.EndedBy task (history ++ [(now, c)]) outcome := by
  obtain ⟨before, at_, later, t, rfl, found, unfinished, since⟩ := h
  refine ⟨before, at_, later ++ [(now, c)], t, by simp, found, unfinished, fun part first => ?_⟩
  obtain rfl | first := List.prefix_concat_iff.mp first
  · have kept := same.trans (since later (List.prefix_refl later))
    simpa using kept
  · exact since part first

/-- The task is as the event left it. -/
theorem left (h : r.EndedBy task history outcome) (found : (r.after history).task? task = some t) :
    t.status = outcome.status ∧ t.lastError = outcome.fault.map Fault.message := by
  obtain ⟨before, now, later, earlier, rfl, _, _, since⟩ := h
  cases found.symm.trans (since later (List.prefix_refl later))
  exact ⟨rfl, rfl⟩

theorem isReported (h : r.EndedBy task history outcome) (reported : Reported history) :
    outcome.IsReported := by
  obtain ⟨before, now, later, earlier, rfl, _⟩ := h
  exact reported now task outcome (List.mem_append_right _ List.mem_cons_self)

end EndedBy

/-- No task is over yet. -/
def Untouched (r : Run) : Prop := ∀ task t, r.task? task = some t → t.status.isTerminal = false

theorem create_untouched (id : RunId) (plan : Plan) (policy : Policy) (made : Timestamp) :
    (create id plan policy made).Untouched := by
  intro task t found
  obtain ⟨entry, _, rfl⟩ := List.mem_map.mp (List.mem_of_getElem? found)
  rfl

/-- A task that is over was ended by an event, unless an abort skipped it. -/
theorem Untouched.exists_endedBy (fresh : r.Untouched) (history : List (Timestamp × Call))
    (found : (r.after history).task? task = some t) (done : t.status.isTerminal = true)
    (unskipped : t.status ≠ .skipped) : ∃ outcome, r.EndedBy task history outcome := by
  induction history using List.reverseRecOn generalizing t with
  | nil =>
    rw [fresh task t found] at done
    cases done
  | append_singleton history entry ih =>
    obtain ⟨now, c⟩ := entry
    have found' := found
    rw [after_append, after_singleton] at found'
    obtain ⟨t₀, before, treats⟩ := exists_treats _ now c found'
    cases treats with
    | spared =>
      obtain ⟨outcome, ended⟩ := ih before done unskipped
      exact ⟨outcome, ended.earlier (found.trans before.symm)⟩
    | ended unfinished => exact ⟨_, .last before unfinished found⟩
    | skipped => exact absurd rfl unskipped
    | queued | requeued | begun => cases done

theorem Untouched.failure_endedBy (fresh : r.Untouched)
    (found : (r.after history).task? task = some t) (failed : t.status.isFailure = true) :
    ∃ outcome, r.EndedBy task history outcome := by
  refine fresh.exists_endedBy history found (TaskStatus.isTerminal_of_isFailure failed) fun skipped => ?_
  rw [skipped] at failed
  cases failed

/-- The error of a task is the wording of the fault with which it came to its end. -/
theorem Untouched.lastError_iff (fresh : r.Untouched) (consistent : r.Consistent)
    (reported : Reported history) (found : (r.after history).task? task = some t) (error : String) :
    t.lastError = some error ↔ ∃ fault, r.Records task history fault ∧ fault.message = error := by
  constructor
  · intro recorded
    have failed : t.status.isFailure = true := by
      rw [← (consistent.after reported task t found).lastError, recorded]
      rfl
    obtain ⟨outcome, ended⟩ := fresh.failure_endedBy found failed
    obtain ⟨fault, faulty, worded⟩ :=
      Option.map_eq_some_iff.mp ((ended.left found).2.symm.trans recorded)
    exact ⟨fault, ⟨outcome, ended, faulty⟩, worded⟩
  · rintro ⟨fault, ⟨outcome, ended, faulty⟩, rfl⟩
    rw [(ended.left found).2, faulty]
    rfl

/-- A task timed out if the fault with which it came to its end is a timeout. -/
theorem Untouched.timedOut_iff (fresh : r.Untouched) (reported : Reported history)
    (found : (r.after history).task? task = some t) :
    t.status = .timedOut ↔ ∃ host seconds, r.Records task history (.taskTimeout host seconds) := by
  constructor
  · intro timedOut
    obtain ⟨outcome, ended⟩ := fresh.failure_endedBy found (by rw [timedOut]; rfl)
    have status := (ended.left found).1.symm.trans timedOut
    obtain ⟨host, seconds, faulty⟩ := (ended.isReported reported).timedOut_iff.mp status
    exact ⟨host, seconds, outcome, ended, faulty⟩
  · rintro ⟨host, seconds, outcome, ended, faulty⟩
    rw [(ended.left found).1]
    exact (ended.isReported reported).timedOut_iff.mpr ⟨host, seconds, faulty⟩

/-- A run has a time of its end just when it is archived. -/
theorem completedAt_after (id : RunId) (plan : Plan) (policy : Policy) (made : Timestamp)
    (history : List (Timestamp × Call)) :
    ((create id plan policy made).after history).completedAt.isSome =
      ((create id plan policy made).after history).state.isTerminal := by
  refine after_induction (P := fun r => r.completedAt.isSome = r.state.isTerminal)
    (fun change h => ?_) (fun applied h => ?_) rfl history
  · cases change with
    | order order =>
      cases order with
      | go idle =>
        refine h.trans ?_
        obtain state | state | state := idle <;> rw [state] <;> rfl
      | suspend active =>
        refine h.trans ?_
        obtain state | state := active <;> rw [state] <;> rfl
      | requeue holding => exact h.trans (by rw [holding]; rfl)
      | skipRest => rfl
    | hold running => exact h.trans (by rw [running]; rfl)
    | handOut | closeStage | closeGroup => exact h
    | complete => rfl
  · cases applied <;> exact h

/-- The records of a run and of its tasks agree with their statuses. After every history of a new run in which
workers report how tasks ended, a task has a time of its end just when it is over; one in progress has a time of its
begin, and one that is pending or queued has neither time. A task has an error just when it failed or timed out, and
this error is the wording of the fault in the event that ended the task. The task timed out just when that fault is a
timeout of the task. The run has a time of its end just when it is completed or aborted. -/
theorem records_are_consistent (id : RunId) (plan : Plan) (policy : Policy) (made : Timestamp)
    {history : List (Timestamp × Call)} (reported : Reported history) :
    let first := create id plan policy made
    let last := first.after history
    (∀ task t, last.task? task = some t →
      (t.completedAt.isSome ↔ t.status.isTerminal) ∧
      (t.status = .inProgress → t.startedAt.isSome) ∧
      (t.status = .pending ∨ t.status = .queued → t.startedAt = none ∧ t.completedAt = none) ∧
      (t.lastError.isSome ↔ t.status = .failed ∨ t.status = .timedOut) ∧
      (∀ error, t.lastError = some error ↔
        ∃ fault, first.Records task history fault ∧ fault.message = error) ∧
      (t.status = .timedOut ↔
        ∃ host seconds, first.Records task history (.taskTimeout host seconds))) ∧
    (last.completedAt.isSome ↔ last.state = .completed ∨ last.state = .aborted) := by
  intro first last
  have fresh : first.Untouched := create_untouched id plan policy made
  have before : first.Consistent := create_consistent id plan policy made
  refine ⟨fun task t found => ?_, by rw [completedAt_after, RunState.isTerminal_iff]⟩
  have consistent : t.IsConsistent := before.after reported task t found
  refine ⟨by rw [consistent.completedAt], consistent.startedAt,
    fun idle => ⟨consistent.untouched idle, ?_⟩,
    by rw [consistent.lastError, TaskStatus.isFailure_iff],
    fresh.lastError_iff before reported found, fresh.timedOut_iff reported found⟩
  rw [← Option.isNone_iff_eq_none, ← Option.not_isSome, consistent.completedAt]
  obtain status | status := idle <;> rw [status] <;> rfl

/-- The task times out; it is tried again, and its agent refuses. -/
def triedAgain : List (Timestamp × Call) :=
  [.start, .step, .apply (.started 0 1), .apply (.finished 0 (.failed (.taskTimeout "alpha" 600) 0)), .step,
    .retry, .step, .apply (.finished 0 (.failed (.commandRejected "alpha" "busy") 1))].map
    fun c => (.epoch, c)

theorem records_are_consistent_triedAgain :
    let first := create (.ofNat 0) soloPlan .upgrade .epoch
    Reported triedAgain ∧ ∃ t, (first.after triedAgain).task? 0 = some t ∧ t.status = .failed ∧
      t.completedAt.isSome ∧
      (∃ fault, first.Records 0 triedAgain fault ∧ fault.message = "[alpha] command rejected: busy") ∧
      ¬ ∃ host seconds, first.Records 0 triedAgain (.taskTimeout host seconds) := by
  intro first
  have reported : Reported triedAgain := by
    intro now task outcome told
    simp only [triedAgain, List.map_cons, List.map_nil, List.mem_cons, List.not_mem_nil, Prod.mk.injEq,
      Call.apply.injEq, TaskEvent.finished.injEq, reduceCtorEq, and_false, false_or, or_false] at told
    obtain ⟨_, _, rfl⟩ | ⟨_, _, rfl⟩ := told <;> exact .inr ⟨_, _, rfl⟩
  obtain ⟨t, found, recorded⟩ : ∃ t, (first.after triedAgain).task? 0 = some t ∧
      (t.status, t.lastError) = (.failed, some "[alpha] command rejected: busy") :=
    Option.map_eq_some_iff.mp (by decide +kernel)
  obtain ⟨status, error⟩ := Prod.mk.inj recorded
  obtain ⟨tasks, _⟩ := records_are_consistent (.ofNat 0) soloPlan .upgrade .epoch reported
  obtain ⟨completed, _, _, _, errors, timedOut⟩ := tasks 0 t found
  refine ⟨reported, t, found, status, completed.mpr (by rw [status]; rfl), (errors _).mp error, ?_⟩
  rw [← timedOut, status]
  exact TaskStatus.noConfusion

end Run

end Rollout
