-- SUMMARY: What a run has handed out: the commands of each host that are not over, and how operations change them.
import Rollout.Proofs.Run.Charter

/-!
# Owed commands

A task is outstanding from the moment it is handed out until it is over. A run owes to a host the
commands of its outstanding tasks. As long as events are about the command that a host was owed first,
the run is orderly: it hands a stage out when nothing is outstanding, and takes every event.
-/
namespace Rollout

/-- The task was handed out and is not over. -/
def Task.isOutstanding (t : Task) : Bool := t.status = .queued || t.status = .inProgress

namespace Run

/-- The commands for a host that were handed out and are not over. -/
def owed (r : Run) (host : String) : List TaskCommand :=
  (r.tasks.filter fun t => t.isOutstanding && t.host = host).map r.command

/-- No task is outstanding. -/
def Idle (r : Run) : Prop := ∀ t ∈ r.tasks, t.isOutstanding = false

/-- What is outstanding lies under the cursor, and of each host at most the first outstanding task is
in progress. -/
structure Orderly (r : Run) : Prop where
  mirrors : r.MirrorsPlan
  here : ∀ t ∈ r.tasks, t.isOutstanding = true → t.isAt r.cursor = true
  fresh : r.stageDispatched = false → r.Idle
  holding : r.state = .holding → r.Idle
  first : ∀ t ∈ r.tasks, t.status = .inProgress → (r.owed t.host).head? = some (r.command t)

variable {r r' : Run} {now : Timestamp}

-- ---------------------------------------------------------------------------
-- Owed commands
-- ---------------------------------------------------------------------------

theorem command_congr (h : r'.charter = r.charter) (t : Task) : r'.command t = r.command t := by
  obtain ⟨id, _, policy, _⟩ := charter_eq_iff.mp h
  simp [command, id, policy]

theorem mem_owed {host : String} {c : TaskCommand} :
    c ∈ r.owed host ↔ ∃ t ∈ r.tasks, t.isOutstanding = true ∧ t.host = host ∧ r.command t = c := by
  simp [owed, and_assoc]

theorem idle_iff : r.Idle ↔ ∀ host, r.owed host = [] := by
  simp only [Idle, owed, List.map_eq_nil_iff, List.filter_eq_nil_iff, Bool.and_eq_true,
    decide_eq_true_eq, not_and]
  constructor
  · intro idle host t ht out
    rw [idle t ht] at out
    cases out
  · intro none t ht
    cases out : t.isOutstanding with
    | false => rfl
    | true => exact absurd rfl (none t.host t ht out)

/-- The owed commands of a run whose tasks are images. -/
theorem owed_map {g : Task → Task} (charter : r'.charter = r.charter)
    (tasks : r'.tasks = r.tasks.map g)
    (same : ∀ t ∈ r.tasks, (g t).isOutstanding = true →
      (g t).host = t.host ∧ r.command (g t) = r.command t) (host : String) :
    r'.owed host =
      (r.tasks.filter fun t => (g t).isOutstanding && t.host = host).map r.command := by
  have hosts : ∀ t ∈ r.tasks, ((g t).isOutstanding && (g t).host = host) =
      ((g t).isOutstanding && t.host = host) := by
    intro t ht
    cases out : (g t).isOutstanding with
    | false => rfl
    | true => rw [(same t ht out).1]
  rw [owed, tasks, List.filter_map, List.map_map]
  simp only [Function.comp_def]
  rw [List.filter_congr hosts]
  refine List.map_congr_left fun t ht => ?_
  obtain ⟨ht, out⟩ := List.mem_filter.mp ht
  rw [command_congr charter]
  exact (same t ht (Bool.and_eq_true_iff.mp out).1).2

/-- The owed commands of a run whose outstanding tasks are the same. -/
theorem owed_map_same {g : Task → Task} (charter : r'.charter = r.charter)
    (tasks : r'.tasks = r.tasks.map g) (out : ∀ t ∈ r.tasks, (g t).isOutstanding = t.isOutstanding)
    (same : ∀ t ∈ r.tasks, (g t).isOutstanding = true →
      (g t).host = t.host ∧ r.command (g t) = r.command t) (host : String) :
    r'.owed host = r.owed host := by
  rw [owed_map charter tasks same, owed]
  rw [List.filter_congr fun t ht => by rw [out t ht]]

theorem owed_congr (charter : r'.charter = r.charter) (tasks : r'.tasks = r.tasks)
    (host : String) : r'.owed host = r.owed host := by
  rw [owed, owed, tasks]
  exact List.map_congr_left fun t _ => command_congr charter t

-- ---------------------------------------------------------------------------
-- Idle runs
-- ---------------------------------------------------------------------------

/-- A task in progress is outstanding. -/
theorem isOutstanding_of_inProgress {t : Task} (h : t.status = .inProgress) :
    t.isOutstanding = true := by
  simp [Task.isOutstanding, h]

theorem not_isOutstanding_of_isTerminal {t : Task} (h : t.status.isTerminal = true) :
    t.isOutstanding = false := by
  cases status : t.status <;> simp_all [Task.isOutstanding, TaskStatus.isTerminal]

namespace Orderly

/-- A run with nothing outstanding is orderly. -/
theorem of_idle (mirrors : r.MirrorsPlan) (idle : r.Idle) : r.Orderly where
  mirrors := mirrors
  here t ht out := by simp [idle t ht] at out
  fresh _ := idle
  holding _ := idle
  first t ht busy := by
    have out := isOutstanding_of_inProgress busy
    simp [idle t ht] at out

theorem idle_of_closed (h : r.Orderly) (closed : r.stageIsOpen = false) : r.Idle := by
  intro t ht
  cases out : t.isOutstanding with
  | false => rfl
  | true =>
    have staged : t ∈ r.stageTasks := List.mem_filter.mpr ⟨ht, h.here t ht out⟩
    have ended : t.status.isTerminal = true := by
      simpa using List.any_eq_false.mp closed t staged
    rw [not_isOutstanding_of_isTerminal ended] at out
    exact out.symm

/-- Nothing is outstanding where the plan has no stage. -/
theorem idle_of_passed (h : r.Orderly)
    (passed : ∀ g, r.currentGroup? = some g → g.stages.length ≤ r.cursor.stage) : r.Idle := by
  intro t ht
  cases out : t.isOutstanding with
  | false => rfl
  | true =>
    have at_cursor := h.here t ht out
    obtain ⟨g, group, inside⟩ := h.mirrors.placed ht
    simp only [Task.isAt, Bool.and_eq_true, decide_eq_true_eq] at at_cursor
    rw [at_cursor.1] at group
    have := passed g group
    omega

end Orderly

theorem create_orderly (id : RunId) (plan : Plan) (policy : Policy) (now : Timestamp) :
    (create id plan policy now).Orderly := by
  refine .of_idle (create_mirrorsPlan id plan policy now) fun t ht => ?_
  simp only [create, List.mem_map] at ht
  obtain ⟨entry, _, rfl⟩ := ht
  rfl

-- ---------------------------------------------------------------------------
-- Commands of clients
-- ---------------------------------------------------------------------------

theorem Idle.of_tasks (h : r.Idle) (tasks : r'.tasks = r.tasks) : r'.Idle := by
  rw [Idle, tasks]
  exact h

/-- A run whose tasks and cursor stay. -/
theorem Orderly.of_same (h : r.Orderly) (charter : r'.charter = r.charter)
    (tasks : r'.tasks = r.tasks) (cursor : r'.cursor = r.cursor)
    (dispatched : r'.stageDispatched = r.stageDispatched)
    (holding : r'.state = .holding → r.Idle) : r'.Orderly where
  mirrors := h.mirrors.of_charter charter
  here t ht := by
    rw [cursor]
    exact h.here t (tasks ▸ ht)
  fresh fresh := (h.fresh (dispatched ▸ fresh)).of_tasks tasks
  holding state := (holding state).of_tasks tasks
  first t ht busy := by
    rw [owed_congr charter tasks, command_congr charter]
    exact h.first t (tasks ▸ ht) busy

/-- Nobody but an abort takes commands back. -/
theorem Order.owed (o : Order now r r') (live : r'.state.isTerminal = false) (host : String) :
    r'.owed host = r.owed host := by
  cases o with
  | go => exact owed_congr rfl rfl host
  | suspend => exact owed_congr rfl rfl host
  | requeue holding =>
    refine owed_map_same (Order.requeue holding).charter rfl (fun t _ => ?_) (fun t _ out => ?_) host
    · split
      next failed =>
        have ended : t.status.isFailure = true := (Bool.and_eq_true_iff.mp failed).2
        cases status : t.status <;> simp_all [Task.isOutstanding, Task.requeued, TaskStatus.isFailure]
      · rfl
    · split
      next failed => simp [failed, Task.isOutstanding, Task.requeued] at out
      · exact ⟨rfl, rfl⟩
  | skipRest => simp [Run.skipRest, RunState.isTerminal] at live

theorem Orderly.order (h : r.Orderly) (o : Order now r r') : r'.Orderly := by
  have mirrors := h.mirrors.of_charter o.charter
  cases o with
  | go => exact h.of_same rfl rfl rfl rfl (by simp [inState])
  | suspend => exact h.of_same rfl rfl rfl rfl (by simp [inState])
  | requeue holding =>
    refine .of_idle mirrors (idle_iff.mpr fun host => ?_)
    rw [(Order.requeue holding).owed rfl host]
    exact idle_iff.mp (h.holding holding) host
  | skipRest live =>
    refine .of_idle mirrors fun t ht => ?_
    obtain ⟨t, _, rfl⟩ := List.mem_map.mp ht
    refine not_isOutstanding_of_isTerminal ?_
    unfold Task.skipped
    split
    next ended => exact ended
    · rfl

theorem Orderly.orders (h : r.Orderly) (o : Relation.ReflGen (Order now) r r') : r'.Orderly := by
  cases o with
  | refl => exact h
  | single o => exact h.order o

-- ---------------------------------------------------------------------------
-- Steps
-- ---------------------------------------------------------------------------

/-- What is handed out is owed from then on. -/
theorem owed_handOut (idle : r.Idle) (host : String) :
    (r.handOut now).owed host = (r.queueStage now).2.filter fun c => c.host = host := by
  let g (t : Task) : Task :=
    if t.isAt r.cursor && decide (t.status = .pending) then t.queued else t
  have same (t : Task) : (g t).host = t.host ∧ r.command (g t) = r.command t := by
    unfold g
    split <;> exact ⟨rfl, rfl⟩
  have out (t : Task) (ht : t ∈ r.tasks) :
      (g t).isOutstanding = (t.isAt r.cursor && decide (t.status = .pending)) := by
    unfold g
    split
    next test => rw [test]; rfl
    next test => rw [idle t ht, Bool.eq_false_iff.mpr test]
  rw [owed_map (g := g) handOut_charter rfl fun t _ _ => same t]
  simp only [queueStage, stageTasks, List.filter_map, List.filter_filter]
  congr 1
  refine List.filter_congr fun t ht => ?_
  rw [out t ht]
  simp only [Function.comp_apply, command]
  rw [Bool.and_comm, Bool.and_comm (t.isAt r.cursor)]
  rfl

/-- Handing out a stage keeps a run orderly. -/
theorem Orderly.handOut (h : r.Orderly) (running : r.state = .running)
    (fresh : r.stageDispatched = false) : (r.handOut now).Orderly := by
  have idle : r.Idle := h.fresh fresh
  have image {t' : Task} (ht' : t' ∈ (r.handOut now).tasks) (out : t'.isOutstanding = true) :
      ∃ t : Task, t.isAt r.cursor = true ∧ t' = t.queued := by
    obtain ⟨t, ht, rfl⟩ := List.mem_map.mp ht'
    split at out
    next test => exact ⟨t, (Bool.and_eq_true_iff.mp test).1, by rw [if_pos test]; rfl⟩
    · simp [idle t ht] at out
  refine ⟨h.mirrors.of_charter (Change.handOut running fresh).charter, ?_, ?_, ?_, ?_⟩
  · intro t' ht' out
    obtain ⟨t, here, rfl⟩ := image ht' out
    exact here
  · intro undone
    simp [Run.handOut] at undone
  · intro holding
    have : r.state = .holding := holding
    simp [running] at this
  · intro t' ht' busy
    obtain ⟨t, _, rfl⟩ := image ht' (isOutstanding_of_inProgress busy)
    simp [Task.queued] at busy

/-- On its way a step changes nothing of what is owed. -/
theorem Stride.owed (s : Stride now r r') (host : String) : r'.owed host = r.owed host := by
  cases s with
  | handOut _ _ _ nothing =>
    have none_pending : ∀ t ∈ r.tasks,
        (t.isAt r.cursor && decide (t.status = .pending)) = false := by
      intro t ht
      have := List.map_eq_nil_iff.mp nothing
      rw [List.filter_eq_nil_iff] at this
      cases here : t.isAt r.cursor with
      | false => rfl
      | true =>
        have := this t (List.mem_filter.mpr ⟨ht, here⟩)
        simpa using this
    refine owed_congr handOut_charter ?_ host
    simp only [Run.handOut, queueStage, mapStage, touch]
    conv => rhs; rw [← List.map_id r.tasks]
    refine List.map_congr_left fun t ht => ?_
    rw [none_pending t ht]
    rfl
  | closeStage => exact owed_congr rfl rfl host
  | hold => exact owed_congr rfl rfl host
  | closeGroup => exact owed_congr rfl rfl host
  | complete => exact owed_congr rfl rfl host

theorem Orderly.stride (h : r.Orderly) (s : Stride now r r') : r'.Orderly := by
  have mirrors := h.mirrors.of_charter s.change.charter
  have still (idle : r.Idle) : r'.Orderly :=
    .of_idle mirrors (idle_iff.mpr fun host => by rw [s.owed host, idle_iff.mp idle host])
  cases s with
  | handOut running _ fresh => exact h.handOut running fresh
  | closeStage _ _ _ closed => exact still (h.idle_of_closed closed)
  | hold _ _ _ closed => exact still (h.idle_of_closed closed)
  | closeGroup _ group done =>
    refine still (h.idle_of_passed fun g hg => ?_)
    cases group.symm.trans hg
    exact done
  | complete _ done =>
    refine still (h.idle_of_passed fun g hg => ?_)
    rw [done] at hg
    cases hg

/-- A step of an orderly run hands something out when nothing is outstanding, and owes it then. -/
theorem Orderly.step (h : r.Orderly) (now : Timestamp) :
    ∃ commands, r.step now = ((r.step now).1, .ok commands) ∧ (r.step now).1.Orderly ∧
      ((commands = [] ∧ ∀ host, (r.step now).1.owed host = r.owed host) ∨
        (r.Idle ∧
          ∀ host, (r.step now).1.owed host = commands.filter fun c => c.host = host)) := by
  obtain ⟨r₁, path, ends⟩ := step_ends r now
  have reached : r₁.Orderly ∧ ∀ host, r₁.owed host = r.owed host := by
    clear ends
    induction path with
    | refl => exact ⟨h, fun _ => rfl⟩
    | tail _ last ih =>
      exact ⟨ih.1.stride last, fun host => (last.owed host).trans (ih.2 host)⟩
  obtain ⟨orderly, owed⟩ := reached
  cases done : r.step now with
  | mk r₂ answer =>
    rw [done] at ends
    cases ends with
    | wait => exact ⟨[], rfl, orderly, .inl ⟨rfl, owed⟩⟩
    | dispatch running _ fresh =>
      have idle : r₁.Idle := orderly.fresh fresh
      refine ⟨_, rfl, orderly.handOut running fresh, .inr ⟨?_, owed_handOut idle⟩⟩
      exact idle_iff.mpr fun host => (owed host).symm.trans (idle_iff.mp idle host)

-- ---------------------------------------------------------------------------
-- Events
-- ---------------------------------------------------------------------------

/-- The task behind an owed command. -/
theorem MirrorsPlan.task_of_owed (h : r.MirrorsPlan) {host : String} {c : TaskCommand}
    (hc : c ∈ r.owed host) : ∃ t ∈ r.tasks, r.task? c.taskId = some t ∧ t.isOutstanding = true ∧
      t.host = host ∧ t.id = c.taskId ∧ r.command t = c := by
  obtain ⟨t, ht, out, at_host, rfl⟩ := mem_owed.mp hc
  exact ⟨t, ht, h.task?_id ht, out, at_host, rfl, rfl⟩

theorem MirrorsPlan.owed_nodup (h : r.MirrorsPlan) (host : String) :
    ((r.owed host).map TaskCommand.taskId).Nodup := by
  rw [owed, List.map_map]
  exact h.ids_nodup.sublist (List.Sublist.map Task.id List.filter_sublist)

theorem isTerminal_of_isOutstanding {t : Task} (h : t.isOutstanding = true) :
    t.status.isTerminal = false := by
  cases ended : t.status.isTerminal with
  | false => rfl
  | true => simp [not_isOutstanding_of_isTerminal ended] at h

section News

variable {host : String} {c : TaskCommand} {rest : List TaskCommand}

theorem Orderly.live_owed (h : r.Orderly) (owed : r.owed host = c :: rest) :
    r.stageDispatched = true ∧ r.state ≠ .holding := by
  have busy : ¬ r.Idle := fun idle => by simp [idle_iff.mp idle host] at owed
  constructor
  · cases fresh : r.stageDispatched with
    | true => rfl
    | false => exact absurd (h.fresh fresh) busy
  · exact fun holding => busy (h.holding holding)

/-- On a host nothing is in progress but what it is owed first. -/
theorem Orderly.not_isBusy (h : r.Orderly) (owed : r.owed host = c :: rest) :
    r.isBusy c.taskId host = false := by
  rw [isBusy, List.any_eq_false]
  intro t ht test
  simp only [ne_eq, decide_not, Bool.and_eq_true, Bool.not_eq_true', decide_eq_false_iff_not,
    decide_eq_true_eq] at test
  obtain ⟨⟨other, at_host⟩, busy⟩ := test
  have first := h.first t ht busy
  rw [at_host, owed] at first
  cases first
  exact other rfl

/-- Only the first command that a host is owed is about its task. -/
theorem MirrorsPlan.owed_without (h : r.MirrorsPlan) (owed : r.owed host = c :: rest)
    (other : String) : (r.owed other).filter (fun c' => c'.taskId ≠ c.taskId) =
      if other = host then rest else r.owed other := by
  have nodup := h.owed_nodup host
  rw [owed, List.map_cons, List.nodup_cons] at nodup
  split
  next here =>
    rw [here, owed, List.filter_cons_of_neg (by simp), List.filter_eq_self]
    intro c' hc'
    exact decide_eq_true fun same => nodup.1 (same ▸ List.mem_map_of_mem hc')
  next elsewhere =>
    rw [List.filter_eq_self]
    intro c' hc'
    obtain ⟨t, _, task, _, at_host, _⟩ := h.task_of_owed (show c ∈ r.owed host by simp [owed])
    obtain ⟨t', _, task', _, at_other, _⟩ := h.task_of_owed hc'
    refine decide_eq_true fun same => elsewhere ?_
    rw [same, task] at task'
    cases task'
    exact at_other.symm.trans at_host

/-- A run that owes something stays orderly as long as it adds nothing, and its hosts go on with what
they are owed first. -/
theorem Orderly.of_news (h : r.Orderly) (owed : r.owed host = c :: rest)
    (charter : r'.charter = r.charter) (cursor : r'.cursor = r.cursor)
    (state : r'.state = r.state) (dispatched : r'.stageDispatched = r.stageDispatched)
    (here : ∀ t ∈ r'.tasks, t.isOutstanding = true → t.isAt r.cursor = true)
    (first : ∀ t ∈ r'.tasks, t.status = .inProgress →
      (r'.owed t.host).head? = some (r.command t)) : r'.Orderly := by
  obtain ⟨was_dispatched, not_holding⟩ := h.live_owed owed
  refine ⟨h.mirrors.of_charter charter, ?_, fun fresh => ?_, fun holding => ?_, ?_⟩
  · rw [cursor]
    exact here
  · simp [dispatched, was_dispatched] at fresh
  · exact absurd (state ▸ holding) not_holding
  · intro t ht busy
    rw [command_congr charter]
    exact first t ht busy

/-- A run takes the news that the first owed command of a host was sent. -/
theorem Orderly.begins (h : r.Orderly) (live : r.state.isTerminal = false)
    (owed : r.owed host = c :: rest) (now : Timestamp) (attempt : UInt32) :
    ∃ r', r.apply now (.started c.taskId attempt) = (r', .ok ()) ∧ r'.Orderly ∧
      r'.state = r.state ∧ r'.charter = r.charter ∧ ∀ host, r'.owed host = r.owed host := by
  obtain ⟨t, ht, task, out, at_host, id, command⟩ :=
    h.mirrors.task_of_owed (show c ∈ r.owed host by simp [owed])
  have free : r.isBusy c.taskId t.host = false := at_host ▸ h.not_isBusy owed
  have applied : Applied now r (.started c.taskId attempt) (_, .ok ()) :=
    .begun live task (h.here t ht out) (isTerminal_of_isOutstanding out) free
  have tasks := h.mirrors.modifyTask_tasks c.taskId (Task.begun now)
  have only {t' : Task} (ht' : t' ∈ r.tasks) (same : t'.id = c.taskId) : t' = t :=
    Option.some.inj ((h.mirrors.task?_id ht').symm.trans (same ▸ task))
  have owed' (host : String) :
      ((r.modifyTask c.taskId (Task.begun now)).touch now).owed host = r.owed host := by
    refine owed_map_same applied.charter tasks (fun t' ht' => ?_) (fun t' ht' _ => ?_) host
    · split
      next same => rw [only ht' same, out]; rfl
      · rfl
    · split <;> exact ⟨rfl, rfl⟩
  have orderly : ((r.modifyTask c.taskId (Task.begun now)).touch now).Orderly := by
    refine h.of_news owed applied.charter rfl rfl rfl (fun t' ht' out' => ?_) fun t' ht' busy => ?_
    · simp only [touch, tasks] at ht'
      obtain ⟨t₀, ht₀, rfl⟩ := List.mem_map.mp ht'
      split
      next same => rw [only ht₀ same]; exact h.here t ht out
      next other => exact h.here t₀ ht₀ (by rwa [if_neg other] at out')
    · rw [owed']
      simp only [touch, tasks] at ht'
      obtain ⟨t₀, ht₀, rfl⟩ := List.mem_map.mp ht'
      split
      next same =>
        rw [only ht₀ same]
        show (r.owed t.host).head? = some (r.command t)
        rw [at_host, owed, command]
        rfl
      next other => exact h.first t₀ ht₀ (by rwa [if_neg other] at busy)
  exact ⟨_, apply_started live task (h.here t ht out) (isTerminal_of_isOutstanding out) free,
    orderly, rfl, applied.charter, owed'⟩

/-- A run takes the news that the first owed command of a host is over, and owes it no more. -/
theorem Orderly.ends (h : r.Orderly) (live : r.state.isTerminal = false)
    (owed : r.owed host = c :: rest) (now : Timestamp) {outcome : TaskOutcome}
    (final : outcome.status.isTerminal = true) :
    ∃ r', r.apply now (.finished c.taskId outcome) = (r', .ok ()) ∧ r'.Orderly ∧
      r'.state = r.state ∧ r'.charter = r.charter ∧
      ∀ other, r'.owed other = if other = host then rest else r.owed other := by
  obtain ⟨t, ht, task, out, _⟩ := h.mirrors.task_of_owed (show c ∈ r.owed host by simp [owed])
  have applied : Applied now r (.finished c.taskId outcome) (_, .ok ()) :=
    .ended live task (h.here t ht out) (isTerminal_of_isOutstanding out) final
  have tasks := h.mirrors.modifyTask_tasks c.taskId (Task.ended now outcome)
  have ended (t : Task) : (t.ended now outcome).isOutstanding = false :=
    not_isOutstanding_of_isTerminal final
  have owed' (other : String) :
      ((r.modifyTask c.taskId (Task.ended now outcome)).touch now).owed other =
        if other = host then rest else r.owed other := by
    rw [← h.mirrors.owed_without owed, owed_map applied.charter tasks, Run.owed, List.filter_map,
      List.filter_filter]
    · congr 1
      refine List.filter_congr fun t' ht' => ?_
      split
      next same => simp [ended, Run.command, same]
      next other => simp [Run.command, other]
    · intro t' _ out'
      split at out'
      · simp [ended] at out'
      next other => simp [other]
  have kept {t' : Task} (ht' : t' ∈ ((r.modifyTask c.taskId (Task.ended now outcome)).touch now).tasks)
      (out' : t'.isOutstanding = true) : t' ∈ r.tasks ∧ t'.id ≠ c.taskId := by
    simp only [touch, tasks] at ht'
    obtain ⟨t₀, ht₀, rfl⟩ := List.mem_map.mp ht'
    by_cases same : t₀.id = c.taskId
    · simp [same, ended] at out'
    · rw [if_neg same]
      exact ⟨ht₀, same⟩
  have orderly : ((r.modifyTask c.taskId (Task.ended now outcome)).touch now).Orderly := by
    refine h.of_news owed applied.charter rfl rfl rfl (fun t' ht' out' => ?_) fun t' ht' busy => ?_
    · exact h.here t' (kept ht' out').1 out'
    · obtain ⟨old, other⟩ := kept ht' (isOutstanding_of_inProgress busy)
      have first := h.first t' old busy
      rw [owed']
      split
      next at_host =>
        rw [at_host, owed] at first
        cases first
        exact absurd rfl other
      · exact first
  exact ⟨_, apply_finished live task (h.here t ht out) (isTerminal_of_isOutstanding out) final,
    orderly, rfl, applied.charter, owed'⟩

end News

end Run

end Rollout
