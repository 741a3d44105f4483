-- SUMMARY: What becomes of a stage that was handed out as a whole, when its commands are answered in any fair order.
import Rollout.Proofs.Run.Barrier
import Rollout.Proofs.Run.Waiting

/-!
# Answers

A run is calm when nothing is under way: every task is settled or was not touched. A step of a calm run closes
what is over, and hands out the next stage as a whole or completes the run. The commands may be answered in any
order, as long as a host does one thing at a time. The run accepts such answers, and after them the stage is
settled.
-/
namespace Rollout

/-- The number of a check of a group that may be skipped. -/
def Plan.Spares (p : Plan) (id : Nat) : Prop :=
  ∃ g s spec group, p.tasks[id]? = some (g, s, spec) ∧ spec.operation = .check ∧
    p.groups[g]? = some group ∧ group.skippable = true

/-- Events that answer commands to their end. The commands that are `due` are not over, and those that are
`busy` have begun. Nothing begins on a host where another command is busy. Commands end well, but for checks
that may fail. -/
inductive Answers (p : Plan) : List TaskCommand → List TaskCommand → List (Timestamp × TaskEvent) → Prop
  | done {busy : List TaskCommand} : Answers p [] busy []
  | begins {due busy : List TaskCommand} {c : TaskCommand} {now : Timestamp} {attempt : UInt32}
      {events : List (Timestamp × TaskEvent)} (hc : c ∈ due)
      (free : ∀ b ∈ busy, b.host = c.host → b.taskId = c.taskId) (rest : Answers p due (c :: busy) events) :
      Answers p due busy ((now, .started c.taskId attempt) :: events)
  | ends {due busy : List TaskCommand} {c : TaskCommand} {now : Timestamp} {outcome : TaskOutcome}
      {events : List (Timestamp × TaskEvent)} (hc : c ∈ due)
      (fine : outcome.status = .completed ∨ outcome.status.isFailure = true ∧ p.Spares c.taskId)
      (rest : Answers p (due.filter fun d => d.taskId ≠ c.taskId) (busy.filter fun b => b.taskId ≠ c.taskId)
        events) :
      Answers p due busy ((now, .finished c.taskId outcome) :: events)

namespace Run

/-- The run after events. -/
def hear (r : Run) : List (Timestamp × TaskEvent) → Run
  | [] => r
  | (now, event) :: events => (r.apply now event).1.hear events

/-- No event is refused. -/
def Accepts (r : Run) : List (Timestamp × TaskEvent) → Prop
  | [] => True
  | (now, event) :: events => (r.apply now event).2 = .ok () ∧ (r.apply now event).1.Accepts events

variable {r r' : Run} {now : Timestamp}

-- ---------------------------------------------------------------------------
-- Runs at rest
-- ---------------------------------------------------------------------------

/-- Nothing is under way: every task is settled or was not touched. -/
structure Calm (r : Run) : Prop where
  mirrors : r.MirrorsPlan
  barrier : r.Barrier
  handed_out : r.HandedOut
  tasks : ∀ t ∈ r.tasks, t.IsSettled r.plan ∨ t.IsUntouched
  state : r.state = .running ∨ r.state = .completed

/-- Settled tasks do not block their stage. -/
theorem Calm.blocking (h : r.Calm) : r.blocking = [] := by
  refine List.filter_eq_nil_iff.mpr fun t ht test => ?_
  obtain ⟨member, here⟩ := mem_stageTasks.mp ht
  obtain ⟨failed, unspared⟩ := Bool.and_eq_true_iff.mp test
  obtain settled | untouched := h.tasks t member
  · obtain ⟨check, g, group, skippable⟩ := settled.2 failed
    have at_group : t.group = r.cursor.group := congrArg Cursor.group (Task.isAt_iff.mp here)
    rw [at_group] at group
    simp [currentGroup?, group, skippable, check] at unspared
  · rw [untouched.1] at failed
    cases failed

theorem Calm.stride (h : r.Calm) (s : Stride now r r') :
    r'.Calm ∧ r'.tasks = r.tasks ∧ r'.charter = r.charter := by
  have charter := s.change.charter
  have plan : r'.plan = r.plan := congrArg Charter.plan charter
  have state : r'.state = .running ∨ r'.state = .completed := by
    cases s with
    | handOut running | closeStage running | closeGroup running => exact .inl running
    | hold _ _ _ _ blocked => exact absurd h.blocking blocked
    | complete => exact .inr rfl
  refine ⟨⟨h.mirrors.of_charter charter, h.barrier.change h.mirrors s.change,
    h.handed_out.change s.change, ?_, state⟩, s.tasks, charter⟩
  rw [s.tasks, plan]
  exact h.tasks

/-- A step of a run at rest completes it, or hands out what is pending in a stage that it has come to. -/
theorem Calm.step (h : r.Calm) (now : Timestamp) :
    ∃ r', r'.Calm ∧ r'.tasks = r.tasks ∧ r'.charter = r.charter ∧
      (r'.state = .completed ∧ r.step now = (r', .ok []) ∨
        r'.state = .running ∧ r'.stageDispatched = false ∧ (r'.queueStage now).2 ≠ [] ∧
          r.step now = (r'.handOut now, .ok (r'.queueStage now).2)) := by
  obtain ⟨r', path, ends⟩ := step_ends r now
  have reached : r'.Calm ∧ r'.tasks = r.tasks ∧ r'.charter = r.charter := by
    clear ends
    induction path with
    | refl => exact ⟨h, rfl, rfl⟩
    | tail _ last ih =>
      obtain ⟨calm, tasks, charter⟩ := ih.1.stride last
      exact ⟨calm, tasks.trans ih.2.1, charter.trans ih.2.2⟩
  obtain ⟨calm, tasks, charter⟩ := reached
  refine ⟨r', calm, tasks, charter, ?_⟩
  generalize r.step now = reply at ends
  cases ends with
  | wait waits =>
    refine .inl ⟨calm.state.resolve_left fun running => ?_, rfl⟩
    obtain ⟨_, dispatched, is_open⟩ := waits running
    obtain ⟨t, ht, unfinished⟩ := stageIsOpen_iff.mp is_open
    obtain settled | untouched := calm.tasks t (mem_stageTasks.mp ht).1
    · rw [settled.1] at unfinished
      cases unfinished
    · exact calm.handed_out dispatched t ht untouched.1
  | dispatch running _ fresh something => exact .inr ⟨running, fresh, something, rfl⟩

-- ---------------------------------------------------------------------------
-- Answers
-- ---------------------------------------------------------------------------

/-- The tasks after one of them has changed. -/
theorem MirrorsPlan.mem_modified (h : r.MirrorsPlan) {t u : Task} (ht : t ∈ r.tasks) {f : Task → Task} :
    u ∈ (r.modifyTask t.id f).tasks ↔ u = f t ∨ u ∈ r.tasks ∧ u.id ≠ t.id := by
  have only {v : Task} (hv : v ∈ r.tasks) (same : v.id = t.id) : v = t :=
    Option.some.inj ((h.task?_id hv).symm.trans (same ▸ h.task?_id ht))
  rw [h.modifyTask_tasks, List.mem_map]
  constructor
  · rintro ⟨v, hv, rfl⟩
    split
    next same => exact .inl (by rw [only hv same])
    next other => exact .inr ⟨hv, other⟩
  · rintro (rfl | ⟨hu, other⟩)
    · exact ⟨t, ht, if_pos rfl⟩
    · exact ⟨u, hu, if_neg other⟩

/-- The commands that are due are those of the unsettled tasks under the cursor, and the tasks in progress are
those of the busy ones. -/
structure Hearing (r : Run) (due busy : List TaskCommand) : Prop where
  running : r.state = .running
  mirrors : r.MirrorsPlan
  barrier : r.Barrier
  handed_out : r.HandedOut
  sent : ∀ c ∈ due, ∃ t ∈ r.tasks, t.id = c.taskId ∧ t.host = c.host ∧ t.isOutstanding = true ∧
    t.position = r.cursor
  settled : ∀ t ∈ r.tasks, t.position = r.cursor →
    t.IsSettled r.plan ∨ t.id ∈ due.map TaskCommand.taskId
  in_progress : ∀ t ∈ r.tasks, t.status = .inProgress → ∃ b ∈ busy, b.taskId = t.id ∧ b.host = t.host

namespace Hearing

variable {due busy : List TaskCommand} {c : TaskCommand}

theorem live (h : r.Hearing due busy) : r.state.isTerminal = false := by
  rw [h.running]
  rfl

/-- A due command may begin while no other one is busy on its host. -/
theorem begins (h : r.Hearing due busy) (hc : c ∈ due)
    (free : ∀ b ∈ busy, b.host = c.host → b.taskId = c.taskId) (now : Timestamp) (attempt : UInt32) :
    ∃ r', r.apply now (.started c.taskId attempt) = (r', .ok ()) ∧ r'.charter = r.charter ∧
      r'.cursor = r.cursor ∧ r'.Hearing due (c :: busy) := by
  obtain ⟨t, ht, id, at_host, out, here⟩ := h.sent c hc
  have task : r.task? t.id = some t := h.mirrors.task?_id ht
  have at_cursor : t.isAt r.cursor = true := Task.isAt_iff.mpr here
  have unfinished := isTerminal_of_isOutstanding out
  have idle : r.isBusy t.id t.host = false := by
    refine List.any_eq_false.mpr fun u hu test => ?_
    obtain ⟨⟨other, same_host⟩, in_progress⟩ :
        (u.id ≠ t.id ∧ u.host = t.host) ∧ u.status = .inProgress := by simpa using test
    obtain ⟨b, hb, number, host⟩ := h.in_progress u hu in_progress
    have number' := free b hb (host.trans (same_host.trans at_host))
    exact other (number.symm.trans (number'.trans id.symm))
  rw [← id]
  have applied : Applied now r (.started t.id attempt) (_, .ok ()) :=
    .begun h.live task at_cursor unfinished idle
  have member {u : Task} : u ∈ ((r.modifyTask t.id (Task.begun now)).touch now).tasks ↔
      u = t.begun now ∨ u ∈ r.tasks ∧ u.id ≠ t.id := h.mirrors.mem_modified ht
  refine ⟨_, apply_started h.live task at_cursor unfinished idle, applied.charter, rfl,
    h.running, h.mirrors.of_charter applied.charter, h.barrier.applied applied,
    h.handed_out.applied applied, fun d hd => ?_, fun u hu under => ?_, fun u hu busy_now => ?_⟩
  · obtain ⟨u, hu, number, host, unfinished, under⟩ := h.sent d hd
    by_cases same : u.id = t.id
    · have command : d.host = t.host := by
        rw [← host, Option.some.inj ((h.mirrors.task?_id hu).symm.trans (same ▸ task))]
      exact ⟨t.begun now, member.mpr (.inl rfl), same.symm.trans number, command.symm, rfl, here⟩
    · exact ⟨u, member.mpr (.inr ⟨hu, same⟩), number, host, unfinished, under⟩
  · obtain rfl | ⟨old, _⟩ := member.mp hu
    · exact .inr (List.mem_map.mpr ⟨c, hc, id.symm⟩)
    · exact h.settled u old under
  · obtain rfl | ⟨old, _⟩ := member.mp hu
    · exact ⟨c, List.mem_cons_self, id.symm, at_host.symm⟩
    · obtain ⟨b, hb, known⟩ := h.in_progress u old busy_now
      exact ⟨b, List.mem_cons_of_mem _ hb, known⟩

/-- A check of a group that may be skipped may fail. -/
theorem mayFail (h : r.Hearing due busy) {t : Task} (ht : t ∈ r.tasks) (spared : r.plan.Spares t.id) :
    t.MayFail r.plan := by
  obtain ⟨g, s, spec, group, entry, check, at_group, skippable⟩ := spared
  have origin : r.plan.tasks.zipIdx[t.id]? = some t.origin := by
    rw [← h.mirrors, List.getElem?_map]
    exact congrArg _ (h.mirrors.task?_id ht)
  rw [List.getElem?_zipIdx, entry] at origin
  obtain ⟨place, _⟩ := Prod.mk.inj (Option.some.inj origin)
  simp only [Prod.mk.injEq] at place
  obtain ⟨rfl, rfl, rfl⟩ := place
  exact ⟨check, group, at_group, skippable⟩

/-- A due command may end, well or as a check that may fail, and is not due any more. -/
theorem ends (h : r.Hearing due busy) (hc : c ∈ due) (now : Timestamp) {outcome : TaskOutcome}
    (fine : outcome.status = .completed ∨ outcome.status.isFailure = true ∧ r.plan.Spares c.taskId) :
    ∃ r', r.apply now (.finished c.taskId outcome) = (r', .ok ()) ∧ r'.charter = r.charter ∧
      r'.cursor = r.cursor ∧ r'.Hearing (due.filter fun d => d.taskId ≠ c.taskId)
        (busy.filter fun b => b.taskId ≠ c.taskId) := by
  obtain ⟨t, ht, id, _, out, here⟩ := h.sent c hc
  have task : r.task? t.id = some t := h.mirrors.task?_id ht
  have at_cursor : t.isAt r.cursor = true := Task.isAt_iff.mpr here
  have unfinished := isTerminal_of_isOutstanding out
  rw [← id] at fine ⊢
  have final : outcome.status.isTerminal = true := by
    obtain completed | ⟨failed, _⟩ := fine
    · rw [completed]
      rfl
    · cases status : outcome.status <;> rw [status] at failed <;> first | rfl | cases failed
  have settles : (t.ended now outcome).IsSettled r.plan := by
    refine ⟨final, fun failed => ?_⟩
    obtain completed | ⟨_, spared⟩ := fine
    · simp [Task.ended, completed, TaskStatus.isFailure] at failed
    · have may_fail : t.MayFail r.plan := h.mayFail ht spared
      exact may_fail
  have applied : Applied now r (.finished t.id outcome) (_, .ok ()) :=
    .ended h.live task at_cursor unfinished final
  have member {u : Task} : u ∈ ((r.modifyTask t.id (Task.ended now outcome)).touch now).tasks ↔
      u = t.ended now outcome ∨ u ∈ r.tasks ∧ u.id ≠ t.id := h.mirrors.mem_modified ht
  refine ⟨_, apply_finished h.live task at_cursor unfinished final, applied.charter, rfl,
    h.running, h.mirrors.of_charter applied.charter, h.barrier.applied applied,
    h.handed_out.applied applied, fun d hd => ?_, fun u hu under => ?_, fun u hu busy_now => ?_⟩
  · obtain ⟨hd, other⟩ := List.mem_filter.mp hd
    obtain ⟨u, hu, number, known⟩ := h.sent d hd
    have apart : u.id ≠ t.id := by simpa [number] using other
    exact ⟨u, member.mpr (.inr ⟨hu, apart⟩), number, known⟩
  · obtain rfl | ⟨old, other⟩ := member.mp hu
    · exact .inl settles
    · refine (h.settled u old under).imp_right fun waits => ?_
      obtain ⟨d, hd, number⟩ := List.mem_map.mp waits
      exact List.mem_map.mpr ⟨d, List.mem_filter.mpr ⟨hd, by simpa [number] using other⟩, number⟩
  · obtain rfl | ⟨old, other⟩ := member.mp hu
    · have finished : outcome.status = .inProgress := busy_now
      rw [finished] at final
      cases final
    · obtain ⟨b, hb, number, host⟩ := h.in_progress u old busy_now
      exact ⟨b, List.mem_filter.mpr ⟨hb, by simpa [number] using other⟩, number, host⟩

/-- Events that answer the due commands are accepted, and in the end nothing is due. -/
theorem hear {events : List (Timestamp × TaskEvent)} (h : r.Hearing due busy)
    (answers : Answers r.plan due busy events) :
    r.Accepts events ∧ (r.hear events).charter = r.charter ∧ (r.hear events).cursor = r.cursor ∧
      ∃ busy', (r.hear events).Hearing [] busy' := by
  generalize same : r.plan = plan at answers
  induction answers generalizing r with
  | done => exact ⟨trivial, rfl, rfl, _, h⟩
  | @begins due busy c now attempt events hc free rest ih =>
    obtain ⟨r', applied, charter, cursor, h'⟩ := h.begins hc free now attempt
    have plan : r'.plan = r.plan := congrArg Charter.plan charter
    obtain ⟨accepts, charter', cursor', ended⟩ := ih h' (plan.trans same)
    rw [Accepts, Run.hear, applied]
    exact ⟨⟨rfl, accepts⟩, charter'.trans charter, cursor'.trans cursor, ended⟩
  | @ends due busy c now outcome events hc fine rest ih =>
    rw [← same] at fine
    obtain ⟨r', applied, charter, cursor, h'⟩ := h.ends hc now fine
    have plan : r'.plan = r.plan := congrArg Charter.plan charter
    obtain ⟨accepts, charter', cursor', ended⟩ := ih h' (plan.trans same)
    rw [Accepts, Run.hear, applied]
    exact ⟨⟨rfl, accepts⟩, charter'.trans charter, cursor'.trans cursor, ended⟩

end Hearing

/-- A stage that was handed out as a whole is due. -/
theorem Calm.hearing (h : r.Calm) (running : r.state = .running) (fresh : r.stageDispatched = false)
    (pending : ∀ t ∈ r.stageTasks, t.status = .pending) (now : Timestamp) :
    (r.handOut now).Hearing (r.queueStage now).2 [] := by
  have change : Change now r (r.handOut now) := .handOut running fresh
  have commands : (r.queueStage now).2 = r.stageTasks.map r.command := by
    rw [queueStage, List.filter_eq_self.mpr fun t ht => decide_eq_true (pending t ht)]
  have handed : (r.handOut now).stageTasks = r.stageTasks.map Task.queued := by
    rw [handOut_stageTasks]
    exact List.map_congr_left fun t ht => if_pos (pending t ht)
  rw [commands]
  refine ⟨running, h.mirrors.of_charter change.charter, h.barrier.change h.mirrors change,
    .handOut r now, fun c hc => ?_, fun u hu here => .inr ?_, fun u hu in_progress => ?_⟩
  · obtain ⟨t, ht, rfl⟩ := List.mem_map.mp hc
    have sent : t.queued ∈ (r.handOut now).stageTasks := handed ▸ List.mem_map_of_mem ht
    obtain ⟨member, at_cursor⟩ := mem_stageTasks.mp sent
    exact ⟨t.queued, member, rfl, rfl, rfl, Task.isAt_iff.mp at_cursor⟩
  · have sent : u ∈ (r.handOut now).stageTasks := mem_stageTasks.mpr ⟨hu, Task.isAt_iff.mpr here⟩
    rw [handed] at sent
    obtain ⟨t, ht, rfl⟩ := List.mem_map.mp sent
    rw [List.map_map]
    exact List.mem_map.mpr ⟨t, ht, rfl⟩
  · obtain ⟨t, ht, rfl⟩ := List.mem_map.mp hu
    split at in_progress
    · cases in_progress
    · obtain settled | untouched := h.tasks t ht
      · have finished := settled.1
        rw [in_progress] at finished
        cases finished
      · cases in_progress.symm.trans untouched.1

end Run

end Rollout
