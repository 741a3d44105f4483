-- SUMMARY: How a task ceases to be pending: a step hands it out, or news of it are taken before.
import Mathlib.Data.List.Induction
import Rollout.Proofs.Run.Barrier
import Rollout.Proofs.Run.Entries
import Rollout.Proofs.Run.Interleaving
import Rollout.Proofs.Run.Lifecycle
import Rollout.Proofs.Run.Requeues

/-!
# Departures

A task is pending when it is made, and again after a retry. It departs when it ceases to be pending, and a step
that returns its command is the regular way. But news are refused for many reasons, and that the task was never
handed out is not among them: as long as the stage under the cursor was not handed out, news of its pending tasks
are taken, and such a task departs without a command. A driver that steps its run after every input leaves no such
gap.
-/
namespace Rollout.Run

/-- The status of the task with the given number. -/
def status? (r : Run) (task : Nat) : Option TaskStatus := (r.task? task).map Task.status

/-- A way in which a call may concern a task. -/
abbrev Dealing : Type := Run → Nat → Timestamp → Call → Prop

/-- The call is a step, and it returns a command for the task. -/
def HandsOut : Dealing := fun r task now c =>
  c = .step ∧ ∃ commands, (r.step now).2 = .ok commands ∧ ∃ command ∈ commands, command.taskId = task

/-- The call tells news of the task, and the run, which is not archived, takes them. -/
def Hears : Dealing := fun r task now c =>
  ∃ event, c = .apply event ∧ event.task = task ∧ r.state.isTerminal = false ∧
    (r.apply now event).2 = .ok ()

/-- A step hands the task out, or news of it are taken. -/
def Deals : Dealing := fun r task now c => r.HandsOut task now c ∨ r.Hears task now c

/-- The task was pending before a call of the given kind, and never since. -/
def Departs (how : Dealing) (r : Run) (task : Nat) (history : List (Timestamp × Call)) : Prop :=
  ∃ before now c later, history = before ++ (now, c) :: later ∧
    (r.after before).status? task = some .pending ∧
    (∀ part, part <+: later → (r.after (before ++ (now, c) :: part)).status? task ≠ some .pending) ∧
    how (r.after before) task now c

/-- The calls of a driver, which steps its run after every input. -/
def withSteps (calls : List (Timestamp × Call)) : List (Timestamp × Call) :=
  calls.flatMap fun (now, c) => [(now, c), (now, .step)]

/-- The run began and was stepped, and unless it is archived, its current stage was handed out. -/
structure Attended (r : Run) : Prop where
  begun : r.state ≠ .pending
  dispatched : r.state.isTerminal = false → r.stageDispatched = true
  waits : r.Waits

variable {r r' : Run} {now : Timestamp} {task : Nat} {event : TaskEvent} {c : Call}

-- ---------------------------------------------------------------------------
-- Statuses
-- ---------------------------------------------------------------------------

theorem status?_eq_some {status : TaskStatus} :
    r.status? task = some status ↔ ∃ t, r.task? task = some t ∧ t.status = status :=
  Option.map_eq_some_iff

/-- A run has the same tasks as another with its charter. -/
theorem status?_isSome (same : r'.charter = r.charter) (task : Nat) :
    (r'.status? task).isSome = (r.status? task).isSome := by
  have origin := congrArg Option.isSome (task?_origin same task)
  simpa [status?] using origin

/-- A new run has a pending task for each entry of its plan. -/
theorem create_status? (id : RunId) (plan : Plan) (policy : Policy) (made : Timestamp) {task : Nat}
    (inside : task < plan.tasks.length) :
    (create id plan policy made).status? task = some .pending := by
  simp [status?, task?, create, inside, Task.ofSpec]

/-- All tasks of a new run are pending. -/
theorem status?_of_create {id : RunId} {plan : Plan} {policy : Policy} {made : Timestamp}
    {status : TaskStatus} (here : (create id plan policy made).status? task = some status) :
    status = .pending := by
  obtain ⟨t, task, rfl⟩ := status?_eq_some.mp here
  obtain ⟨entry, _, rfl⟩ := List.mem_map.mp (List.mem_of_getElem? task)
  rfl

-- ---------------------------------------------------------------------------
-- One call
-- ---------------------------------------------------------------------------

theorem status?_of_tasks (same : r'.tasks = r.tasks) (task : Nat) : r'.status? task = r.status? task := by
  rw [status?, task?, same]
  rfl

/-- Only the task with the number is changed. -/
theorem modifyTask_status?_ne {id : Nat} {f : Task → Task} (tasks : r'.tasks = (r.modifyTask id f).tasks)
    (other : id ≠ task) : r'.status? task = r.status? task := by
  simp [status?, task?, tasks, modifyTask, other]

/-- A task that ceases to be pending in a step is among those whose commands the step returns. -/
theorem MirrorsPlan.departs_in_step (mirrors : r.MirrorsPlan)
    (before : r.status? task = some .pending) (left : (r.call now .step).status? task ≠ some .pending) :
    r.HandsOut task now .step := by
  obtain ⟨_, same⟩ | ⟨cursor, tasks, given⟩ := step_tasks r now
  · rw [call, status?_of_tasks same] at left
    exact absurd before left
  obtain ⟨t, found, pending⟩ := status?_eq_some.mp before
  refine ⟨rfl, _, given, r.command t, List.mem_map_of_mem (List.mem_filter.mpr ⟨?_, ?_⟩), ?_⟩
  · exact List.mem_of_getElem? found
  · refine Decidable.byContradiction fun spared => left ?_
    have kept : (r.step now).1.task? task = some t := by
      rw [task?, tasks, List.getElem?_map, show r.tasks[task]? = some t from found, Option.map_some,
        if_neg spared]
    exact status?_eq_some.mpr ⟨t, kept, pending⟩
  · exact mirrors.id_eq found

/-- A task that ceases to be pending by an event is the one that the event is about. -/
theorem departs_by_news (before : r.status? task = some .pending)
    (left : (r.call now (.apply event)).status? task ≠ some .pending) :
    r.Hears task now (.apply event) := by
  have applied := apply_applied r now event
  rw [call] at left
  have answer : r.Hears task now (.apply event) ↔ event.task = task ∧ r.state.isTerminal = false ∧
      (r.apply now event).2 = .ok () := by simp [Hears]
  rw [answer]
  generalize r.apply now event = reply at applied left ⊢
  cases applied with
  | dropped | refused => exact absurd before left
  | @begun id _ _ live | @ended id _ _ live =>
    refine ⟨Decidable.byContradiction fun other => left ?_, live, rfl⟩
    exact (modifyTask_status?_ne rfl other).trans before

/-- An abort skips a pending task. -/
theorem skipRest_status? (before : r.status? task = some .pending) (reason : String) :
    (r.skipRest now reason).status? task = some .skipped := by
  obtain ⟨t, found, pending⟩ := status?_eq_some.mp before
  have skipped : (r.skipRest now reason).task? task = some (t.skipped now) := by
    rw [task?, skipRest, List.getElem?_map, show r.tasks[task]? = some t from found, Option.map_some]
  exact status?_eq_some.mpr ⟨_, skipped, by simp [Task.skipped, pending, TaskStatus.isTerminal]⟩

/-- A task ceases to be pending when a step hands it out, when news of it are taken, or when its run is aborted,
which skips it. -/
theorem MirrorsPlan.call_departs (mirrors : r.MirrorsPlan) (before : r.status? task = some .pending)
    (left : (r.call now c).status? task ≠ some .pending) :
    r.Deals task now c ∨
      (r.call now c).state = .aborted ∧ (r.call now c).status? task = some .skipped := by
  have kept (same : (r.call now c).tasks = r.tasks) : (r.call now c).status? task = some .pending :=
    (status?_of_tasks same task).trans before
  cases c with
  | step => exact .inl (.inl (mirrors.departs_in_step before left))
  | apply event => exact .inl (.inr (departs_by_news before left))
  | start => exact absurd (kept (enter_tasks ..)) left
  | advance => exact absurd (kept (advance_tasks r now)) left
  | suspend => exact absurd (kept (suspend_tasks r now)) left
  | resume => exact absurd (kept (resume_tasks r now)) left
  | retry =>
    obtain ⟨t, found, pending⟩ := status?_eq_some.mp before
    have same := retry_keeps r now task t found fun failed => by
      rw [pending] at failed
      exact Bool.false_ne_true failed.2
    exact absurd (status?_eq_some.mpr ⟨t, same, pending⟩) left
  | abort reason =>
    cases live : r.state.isTerminal with
    | true =>
      have same : (r.call now (.abort reason)).tasks = r.tasks := by rw [call_of_archived live]
      exact absurd (kept same) left
    | false =>
      rw [call, abort_of_live live]
      exact .inr ⟨rfl, skipRest_status? before reason⟩

-- ---------------------------------------------------------------------------
-- Histories
-- ---------------------------------------------------------------------------

namespace Departs

variable {how how' : Dealing} {history : List (Timestamp × Call)}

/-- The task departs at the last call. -/
theorem last (before : (r.after history).status? task = some .pending)
    (left : (r.after (history ++ [(now, c)])).status? task ≠ some .pending)
    (dealt : how (r.after history) task now c) : r.Departs how task (history ++ [(now, c)]) := by
  refine ⟨history, now, c, [], rfl, before, fun part first => ?_, dealt⟩
  rw [List.prefix_nil.mp first]
  exact left

/-- The task departed before the last call, which does not make it pending again. -/
theorem earlier (departs : r.Departs how task history)
    (gone : (r.after (history ++ [(now, c)])).status? task ≠ some .pending) :
    r.Departs how task (history ++ [(now, c)]) := by
  obtain ⟨before, at_, dealing, later, rfl, pending, since, dealt⟩ := departs
  refine ⟨before, at_, dealing, later ++ [(now, c)], by simp, pending, fun part first => ?_, dealt⟩
  obtain rfl | first := List.prefix_concat_iff.mp first
  · simpa using gone
  · exact since part first

/-- A task departs in another way if each of its dealings is one of another kind. -/
theorem mono (departs : r.Departs how task history)
    (imp : ∀ before now c later, history = before ++ (now, c) :: later →
      (r.after before).status? task = some .pending → how (r.after before) task now c →
      how' (r.after before) task now c) : r.Departs how' task history := by
  obtain ⟨before, at_, dealing, later, split, pending, since, dealt⟩ := departs
  exact ⟨before, at_, dealing, later, split, pending, since,
    imp before at_ dealing later split pending dealt⟩

end Departs

/-- Every task that is not pending departed, unless its run was aborted and skipped it. -/
theorem departs_of_status? (id : RunId) (plan : Plan) (policy : Policy) (made : Timestamp)
    (history : List (Timestamp × Call)) {status : TaskStatus}
    (here : ((create id plan policy made).after history).status? task = some status)
    (gone : status ≠ .pending)
    (unskipped : status = .skipped → ((create id plan policy made).after history).state ≠ .aborted) :
    (create id plan policy made).Departs Deals task history := by
  induction history using List.reverseRecOn generalizing status with
  | nil => exact absurd (status?_of_create here) gone
  | append_singleton history entry ih =>
    obtain ⟨now, c⟩ := entry
    have left : ((create id plan policy made).after (history ++ [(now, c)])).status? task ≠
        some .pending := by
      rw [here]
      exact fun same => gone (Option.some.inj same)
    have mirrors := mirrorsPlan_after id plan policy made history
    rw [after_append, after_singleton] at here unskipped
    have known := status?_isSome (after_charter ((create id plan policy made).after history) [(now, c)]) task
    rw [after_singleton, here, Option.isSome_some, eq_comm, Option.isSome_iff_exists] at known
    obtain ⟨old, before⟩ := known
    -- The task departs at the last call, or it departed before and is not pending again.
    by_cases pending : old = .pending
    · subst pending
      have left' := left
      rw [after_append, after_singleton] at left'
      obtain dealt | ⟨aborted, skipped⟩ := mirrors.call_departs before left'
      · exact .last before left dealt
      · exact absurd aborted (unskipped (Option.some.inj (here.symm.trans skipped)))
    · refine (ih before pending fun skipped aborted => ?_).earlier left
      have archived : ((create id plan policy made).after history).state.isTerminal = true := by
        rw [aborted]
        rfl
      rw [call_of_archived archived, before] at here
      rw [call_of_archived archived] at unskipped
      exact unskipped ((Option.some.inj here).symm.trans skipped) aborted

-- ---------------------------------------------------------------------------
-- Drivers
-- ---------------------------------------------------------------------------

/-- An order leaves a run that is running or archived, or that was handed out like the run before. -/
theorem Order.dispatched (o : Order now r r') :
    r'.state = .running ∨ r'.state.isTerminal = true ∨
      r'.stageDispatched = r.stageDispatched ∧ r.state.isTerminal = false := by
  cases o with
  | go | requeue => exact .inl rfl
  | suspend active =>
    refine .inr (.inr ⟨rfl, ?_⟩)
    obtain state | state := active <;> rw [state] <;> rfl
  | skipRest => exact .inr (.inl rfl)

/-- A step of a running run ends at a stage that was handed out, unless the run is archived. -/
theorem step_dispatched (running : r.state = .running)
    (live : (r.step now).1.state.isTerminal = false) : (r.step now).1.stageDispatched = true := by
  have ends : (r.step now).1.state = .running ∨ (r.step now).1.state.isTerminal = true ∨
      (r.step now).1.stageDispatched = true := by
    refine step_induction (P := fun r' => r'.state = .running ∨ r'.state.isTerminal = true ∨
      r'.stageDispatched = true) (.inl running) (fun stride _ => ?_) fun running _ _ _ => .inl running
    cases stride with
    | handOut running | closeStage running | closeGroup running => exact .inl running
    | hold _ _ dispatched => exact .inr (.inr dispatched)
    | complete => exact .inr (.inl rfl)
  obtain running | archived | dispatched := ends
  · exact (step_waits r now running).2.1
  · rw [live] at archived
    cases archived
  · exact dispatched

/-- Unless a call leaves the run running, a run that is attended to stays so. -/
theorem Attended.call (h : r.Attended) (now : Timestamp) (c : Call)
    (live : (r.call now c).state.isTerminal = false) :
    (r.call now c).state = .running ∨ (r.call now c).stageDispatched = true := by
  have ordered {r' : Run} (orders : Relation.ReflGen (Order now) r r')
      (live : r'.state.isTerminal = false) : r'.state = .running ∨ r'.stageDispatched = true := by
    cases orders with
    | refl => exact .inr (h.dispatched live)
    | single order =>
      obtain running | archived | ⟨same, live'⟩ := order.dispatched
      · exact .inl running
      · rw [live] at archived
        cases archived
      · exact .inr (same.trans (h.dispatched live'))
  cases c with
  | start => exact ordered (start_order r now) live
  | retry => exact ordered (retry_order r now) live
  | suspend => exact ordered (suspend_order r now) live
  | resume => exact ordered (resume_order r now) live
  | abort reason => exact ordered (abort_order r now reason) live
  | step =>
    have same : r.call now .step = r := by rw [Run.call, h.waits.step]
    rw [same] at live ⊢
    exact .inr (h.dispatched live)
  | advance =>
    -- A running run that waits has an open stage, which cannot be closed.
    have same : r.call now .advance = r := by
      by_cases running : r.state = .running
      · rw [Run.call, advance, if_neg (by simp [running]), if_pos (h.waits running).2.2]
        rfl
      · rw [Run.call, advance, if_pos running]
        rfl
    rw [same] at live ⊢
    exact .inr (h.dispatched live)
  | apply event =>
    have applied := apply_applied r now event
    rw [Run.call] at live ⊢
    generalize r.apply now event = reply at applied live ⊢
    cases applied with
    | dropped | refused | begun | ended => exact .inr (h.dispatched live)

/-- A call and the step after it leave a run that is attended to. -/
theorem attended_of_call (begun : (r.call now c).state ≠ .pending)
    (dispatched : (r.call now c).state.isTerminal = false →
      (r.call now c).state = .running ∨ (r.call now c).stageDispatched = true) (later : Timestamp) :
    ((r.call now c).call later .step).Attended := by
  refine ⟨call_ne_pending begun later .step, fun live => ?_, step_waits _ later⟩
  by_cases running : (r.call now c).state = .running
  · exact step_dispatched running live
  · have same : (r.call now c).call later .step = r.call now c := by rw [call, step, if_pos running]
    rw [same] at live ⊢
    exact (dispatched live).resolve_left running

theorem withSteps_cons (now : Timestamp) (c : Call) (calls : List (Timestamp × Call)) :
    withSteps ((now, c) :: calls) = (now, c) :: (now, .step) :: withSteps calls := rfl

theorem Attended.after (h : r.Attended) (calls : List (Timestamp × Call)) :
    (r.after (withSteps calls)).Attended := by
  induction calls generalizing r with
  | nil => exact h
  | cons call calls ih =>
    obtain ⟨now, c⟩ := call
    exact ih (attended_of_call (call_ne_pending h.begun now c) (h.call now c) now)

/-- After a driver began a run, the run is attended to whenever the driver takes the next input. -/
theorem attended_after (id : RunId) (plan : Plan) (policy : Policy) (made begun : Timestamp)
    (calls : List (Timestamp × Call)) :
    ((create id plan policy made).after (withSteps ((begun, .start) :: calls))).Attended := by
  have started : (create id plan policy made).call begun .start =
      (create id plan policy made).inState begun .running := congrArg Prod.fst (start_of_pending rfl)
  have first : (((create id plan policy made).call begun .start).call begun .step).Attended := by
    refine attended_of_call ?_ (fun _ => .inl ?_) begun
    · rw [started]
      exact RunState.noConfusion
    · rw [started]
      rfl
  exact first.after calls

/-- What comes before an event in the history of a driver are inputs with their steps. -/
theorem withSteps_split {calls before later : List (Timestamp × Call)}
    (split : withSteps calls = before ++ (now, .apply event) :: later) :
    ∃ done, done <+: calls ∧ before = withSteps done := by
  induction calls generalizing before with
  | nil => simp [withSteps] at split
  | cons call calls ih =>
    obtain ⟨at_, c⟩ := call
    rw [withSteps_cons] at split
    rcases before with _ | ⟨input, _ | ⟨step, before⟩⟩
    · exact ⟨[], List.nil_prefix, rfl⟩
    · simp at split
    · simp only [List.cons_append, List.cons.injEq] at split
      obtain ⟨rfl, rfl, split⟩ := split
      obtain ⟨done, first, rfl⟩ := ih split
      exact ⟨(at_, c) :: done, List.cons_prefix_cons.mpr ⟨rfl, first⟩, rfl⟩

-- ---------------------------------------------------------------------------
-- News of pending tasks
-- ---------------------------------------------------------------------------

/-- An event that fits is about a task that was handed out, or the stage was not handed out yet. -/
theorem Fits.outstanding (fits : r.Fits event) (handed_out : r.HandedOut) :
    ∃ t, r.task? event.task = some t ∧
      (t.isOutstanding = true ∨ t.status = .pending ∧ r.stageDispatched = false) := by
  obtain ⟨t, task, here, unfinished, _⟩ := fits
  refine ⟨t, task, ?_⟩
  by_cases pending : t.status = .pending
  · refine .inr ⟨pending, Bool.eq_false_iff.mpr fun dispatched => ?_⟩
    exact handed_out dispatched t (mem_stageTasks.mpr ⟨List.mem_of_getElem? task, here⟩) pending
  · refine .inl ?_
    cases status : t.status <;> simp_all [Task.isOutstanding, TaskStatus.isTerminal]

theorem apply_fatal {fault : Fault} (refused : (r.apply now event).2 = .error fault) :
    ∃ reason, fault = .fatal reason := by
  unfold apply at refused
  split at refused
  · cases refused
  · dsimp only at refused
    repeat' split at refused
    all_goals first
      | exact ⟨_, (Except.error.inj refused).symm⟩
      | cases refused

/-- In the history of a driver no news are taken of a task that is pending. -/
theorem Departs.handed_out {id : RunId} {plan : Plan} {policy : Policy} {made begun : Timestamp}
    {calls : List (Timestamp × Call)}
    (departs : (create id plan policy made).Departs Deals task (withSteps ((begun, .start) :: calls))) :
    (create id plan policy made).Departs HandsOut task (withSteps ((begun, .start) :: calls)) := by
  refine departs.mono fun before now c later split pending dealt => ?_
  obtain handed_out | ⟨event, rfl, rfl, live, taken⟩ := dealt
  · exact handed_out
  obtain ⟨done, first, rfl⟩ := withSteps_split split
  obtain rfl | ⟨done, rfl, _⟩ := List.prefix_cons_iff.mp first
  · cases split
  have dispatched := (attended_after id plan policy made begun done).dispatched live
  have handed_out := HandedOut.after id plan policy made (withSteps ((begun, .start) :: done))
  obtain ⟨t, task, out | ⟨_, fresh⟩⟩ := ((apply_eq_ok_iff live).mp taken).outstanding handed_out
  · obtain ⟨t', task', pending⟩ := status?_eq_some.mp pending
    cases task.symm.trans task'
    simp [Task.isOutstanding, pending] at out
  · rw [dispatched] at fresh
    cases fresh

/-- All tasks of a completed run departed. -/
theorem departs_of_completed (id : RunId) (plan : Plan) (policy : Policy) (made : Timestamp)
    (history : List (Timestamp × Call))
    (completed : ((create id plan policy made).after history).state = .completed)
    (inside : task < plan.tasks.length) : (create id plan policy made).Departs Deals task history := by
  have known := status?_isSome (after_charter (create id plan policy made) history) task
  rw [create_status? id plan policy made inside, Option.isSome_some, Option.isSome_iff_exists] at known
  obtain ⟨status, here⟩ := known
  refine departs_of_status? id plan policy made history here (fun pending => ?_) (fun _ aborted => ?_)
  · obtain ⟨t, task, status⟩ := status?_eq_some.mp here
    have settled := (barrier_after id plan policy made history).settled_of_completed
      (mirrorsPlan_after id plan policy made history) completed (List.mem_of_getElem? task)
    have ended := settled.1
    rw [status, pending] at ended
    cases ended
  · cases completed.symm.trans aborted

/-- Tasks make progress once they are handed out, or once news of them are taken before. After every history of a
new run, a task that is not pending departed at a step that returned its command or at news that were taken, and
never became pending since, unless an abort of the run skipped it; all tasks of a completed run did. A run that is
not archived takes an event just when it fits, and any other is fatal. An event that fits is about an outstanding
task, or about a pending one of a stage that was not handed out. In the history of a driver, which steps the run
after every input, all departures are at steps that return the command, and events that fit are about outstanding
tasks. -/
theorem tasks_depart_by_command_or_news (id : RunId) (plan : Plan) (policy : Policy) (made : Timestamp)
    (history : List (Timestamp × Call)) :
    let first := create id plan policy made
    let last := first.after history
    (∀ task status, last.status? task = some status → status ≠ .pending →
      (status = .skipped → last.state ≠ .aborted) → first.Departs Deals task history) ∧
    (last.state = .completed → ∀ task < plan.tasks.length, first.Departs Deals task history) ∧
    (∀ now event, last.state.isTerminal = false →
      ((last.apply now event).2 = .ok () ↔ last.Fits event) ∧
      (∀ fault, (last.apply now event).2 = .error fault → ∃ reason, fault = .fatal reason) ∧
      (last.Fits event → ∃ t, last.task? event.task = some t ∧
        (t.isOutstanding = true ∨ t.status = .pending ∧ last.stageDispatched = false))) ∧
    ∀ begun calls, history = withSteps ((begun, .start) :: calls) →
      (∀ task, first.Departs Deals task history → first.Departs HandsOut task history) ∧
      ∀ event, last.state.isTerminal = false → last.Fits event →
        ∃ t, last.task? event.task = some t ∧ t.isOutstanding = true := by
  intro first last
  have handed_out : last.HandedOut := HandedOut.after id plan policy made history
  refine ⟨fun task status => departs_of_status? id plan policy made history,
    fun completed task => departs_of_completed id plan policy made history completed,
    fun now event live => ⟨apply_eq_ok_iff live, fun _ => apply_fatal, fun fits => fits.outstanding handed_out⟩,
    fun begun calls driven => ⟨fun task departs => ?_, fun event live fits => ?_⟩⟩
  · subst driven
    exact departs.handed_out
  · obtain ⟨t, task, out | ⟨_, fresh⟩⟩ := fits.outstanding handed_out
    · exact ⟨t, task, out⟩
    · subst driven
      rw [(attended_after id plan policy made begun calls).dispatched live] at fresh
      cases fresh

/-- The only task of the plan succeeds. -/
def succeeded : Call := .apply (.finished 0 (.completed 0))

theorem tasks_depart_by_command_or_news_solo :
    let first := create (.ofNat 0) soloPlan .upgrade .epoch
    let driven := withSteps [(.epoch, .start), (.epoch, succeeded)]
    (first.after driven).state = .completed ∧ first.Departs HandsOut 0 driven ∧
    let early := first.after [(.epoch, .start)]
    early.state.isTerminal = false ∧ early.Fits (.finished 0 (.completed 0)) ∧
      (early.apply .epoch (.finished 0 (.completed 0))).2 = .ok () ∧
      ∃ t, early.task? 0 = some t ∧
        (t.isOutstanding = true ∨ t.status = .pending ∧ early.stageDispatched = false) := by
  intro first driven
  have completed : (first.after driven).state = .completed := by decide +kernel
  obtain ⟨_, all_depart, _, drives⟩ :=
    tasks_depart_by_command_or_news (.ofNat 0) soloPlan .upgrade .epoch driven
  have departs := (drives .epoch [(.epoch, succeeded)] rfl).1 0 (all_depart completed 0 (by decide))
  refine ⟨completed, departs, ?_⟩
  intro early
  have live : early.state.isTerminal = false := by decide +kernel
  have taken : (early.apply .epoch (.finished 0 (.completed 0))).2 = .ok () := by decide +kernel
  obtain ⟨_, _, answers, _⟩ :=
    tasks_depart_by_command_or_news (.ofNat 0) soloPlan .upgrade .epoch [(.epoch, .start)]
  obtain ⟨taken_iff, _, fit⟩ := answers .epoch (.finished 0 (.completed 0)) live
  exact ⟨live, taken_iff.mp taken, taken, fit (taken_iff.mp taken)⟩

/-- News of a pending task are taken, and a run is completed although no step returned a command. -/
theorem completed_without_a_command :
    let first := create (.ofNat 0) soloPlan .upgrade .epoch
    let history := [(.epoch, .start), (.epoch, succeeded), (.epoch, .step)]
    (first.after [(.epoch, .start)]).status? 0 = some .pending ∧
    (first.after [(.epoch, .start)]).accepts .epoch succeeded = true ∧
    (first.after history).state = .completed ∧ 0 < soloPlan.tasks.length ∧
    ∀ before now c later, history = before ++ (now, c) :: later →
      ¬ (first.after before).HandsOut 0 now c := by
  intro first history
  refine ⟨by decide +kernel, by decide +kernel, by decide +kernel, by decide, ?_⟩
  rintro before now c later split ⟨rfl, commands, answer, given⟩
  -- The only step comes when the task is over.
  have done : ((first.after [(.epoch, .start), (.epoch, succeeded)]).step .epoch).2 = .ok [] := by
    decide +kernel
  rcases before with _ | ⟨_, _ | ⟨_, _ | ⟨_, before⟩⟩⟩ <;>
    simp only [history, List.nil_append, List.cons_append, List.cons.injEq, Prod.mk.injEq] at split
  · cases split.1.2
  · cases split.2.1.2
  · obtain ⟨rfl, rfl, ⟨rfl, _⟩, _⟩ := split
    cases answer.symm.trans done
    exact absurd given.choose_spec.1 List.not_mem_nil
  · simp at split

end Rollout.Run
