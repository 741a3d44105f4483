-- SUMMARY: Every outstanding task leaves exactly one trace: a worker holds its command, or the news that it is over waits.
import Rollout.Proofs.Orchestrator.Acceptance

/-!
# Traces of tasks

An outstanding task is in one place: a worker that is not gone holds its command, or the news that it is
over waits in the channel of its run. No other task is in such a place. So no task is lost, and none is
carried out twice.
-/
namespace Rollout

/-- How many times workers that are not gone hold the command for a task of a run. -/
def Engine.heldCount (e : Engine) (run : RunId) (task : Nat) : Nat :=
  ((e.workers.filter fun w => w.phase ≠ .gone).flatMap Worker.commands).countP fun c =>
    c.runId = run && c.taskId = task

/-- The event says that a task is over. -/
def TaskEvent.ends (task : Nat) : TaskEvent → Bool
  | .started .. => false
  | .finished id _ => id = task

/-- How many times the news that a task is over wait in a channel. -/
def Executor.overCount (x : Executor) (task : Nat) : Nat := x.channel.countP (TaskEvent.ends task)

/-- What was owed is held, or the news that it is over are on their way. -/
theorem Settles.count {owed left : List TaskCommand} {events : List TaskEvent}
    (h : Settles owed events left) (task : Nat) :
    left.countP (fun c => c.taskId = task) + events.countP (TaskEvent.ends task) =
      owed.countP fun c => c.taskId = task := by
  induction h with
  | nil => simp
  | began _ ih => simpa [TaskEvent.ends] using ih
  | ended _ _ ih =>
    rw [List.countP_cons, List.countP_cons, ← ih, ← Nat.add_assoc]
    rfl

namespace Run

variable {r : Run} {t : Task}

/-- A task is owed once as long as it is outstanding. -/
theorem owed_count (mirrors : r.MirrorsPlan) (ht : t ∈ r.tasks) :
    (r.owed t.host).countP (fun c => c.taskId = t.id) = if t.isOutstanding then 1 else 0 := by
  have as_count : (r.owed t.host).countP (fun c => c.taskId = t.id) =
      ((r.owed t.host).map TaskCommand.taskId).count t.id := by
    rw [List.count_eq_countP, List.countP_map]
    rfl
  have owed_iff : t.id ∈ (r.owed t.host).map TaskCommand.taskId ↔ t.isOutstanding = true := by
    constructor
    · intro owed
      obtain ⟨c, hc, id⟩ := List.mem_map.mp owed
      obtain ⟨t', _, task', out, _, _, _⟩ := mirrors.task_of_owed hc
      rw [id, mirrors.task?_id ht] at task'
      cases task'
      exact out
    · intro out
      exact List.mem_map.mpr ⟨r.command t, mem_owed.mpr ⟨t, ht, out, rfl, rfl⟩, rfl⟩
  rw [as_count, (mirrors.owed_nodup t.host).count]
  simp only [owed_iff]

/-- The news of a task are among the news of its host. -/
theorem news_count (mirrors : r.MirrorsPlan) (ht : t ∈ r.tasks) (channel : List TaskEvent) :
    (r.news channel t.host).countP (TaskEvent.ends t.id) =
      channel.countP (TaskEvent.ends t.id) := by
  rw [news, List.countP_filter]
  refine List.countP_congr fun event _ => ?_
  rw [Bool.and_eq_true]
  refine ⟨And.left, fun ends => ⟨ends, ?_⟩⟩
  cases event with
  | started => cases ends
  | finished id outcome =>
    have same : id = t.id := by simpa [TaskEvent.ends] using ends
    rw [TaskEvent.task, same, mirrors.task?_id ht]
    exact decide_eq_true rfl

namespace Account

variable {x : Executor} {crew : List Worker} {c : TaskCommand}

/-- A task leaves one trace as long as it is outstanding, and none otherwise. -/
theorem traces (h : r.Account x crew) (mirrors : r.MirrorsPlan) (ht : t ∈ r.tasks) :
    (Engine.backlog crew t.host).countP (fun c => c.taskId = t.id) +
        x.channel.countP (TaskEvent.ends t.id) = if t.isOutstanding then 1 else 0 := by
  rw [← news_count mirrors ht, (h.settles t.host).count t.id, owed_count mirrors ht]

/-- As long as a worker holds the command for a task, there are no news that the task is over. -/
theorem untold (h : r.Account x crew) (mirrors : r.MirrorsPlan) {w : Worker} (hw : w ∈ crew)
    (holds : c ∈ w.commands) {outcome : TaskOutcome} : .finished c.taskId outcome ∉ x.channel := by
  intro news
  obtain ⟨t, ht, _, out, at_host, id, _⟩ := mirrors.task_of_owed (h.owed_of_held hw holds)
  have count := h.traces mirrors ht
  rw [if_pos out] at count
  have one_held : 0 < (Engine.backlog crew t.host).countP fun c => c.taskId = t.id := by
    refine List.countP_pos_iff.mpr ⟨c, List.mem_flatMap.mpr ⟨w, ?_, holds⟩, decide_eq_true id.symm⟩
    exact List.mem_filter.mpr ⟨hw, decide_eq_true at_host.symm⟩
  have one_told : 0 < x.channel.countP (TaskEvent.ends t.id) :=
    List.countP_pos_iff.mpr ⟨_, news, decide_eq_true id.symm⟩
  omega

/-- The news that a task is over wait once. -/
theorem told_once (h : r.Account x crew) (mirrors : r.MirrorsPlan) (ht : t ∈ r.tasks)
    {outcome : TaskOutcome} {rest : List TaskEvent} (channel : x.channel = .finished t.id outcome :: rest)
    {other : TaskOutcome} : .finished t.id other ∉ rest := by
  intro again
  have count := h.traces mirrors ht
  have one_later : 0 < rest.countP (TaskEvent.ends t.id) :=
    List.countP_pos_iff.mpr ⟨_, again, decide_eq_true rfl⟩
  rw [channel, List.countP_cons_of_pos (by simp [TaskEvent.ends])] at count
  split at count <;> omega

end Account

end Run

/-- Workers without commands that count may be left out. -/
theorem Engine.countP_commands_filter {workers : List Worker} {p : TaskCommand → Bool}
    {q : Worker → Bool} (rest : ∀ w ∈ workers, q w = false → ∀ c ∈ w.commands, p c = false) :
    ((workers.filter q).flatMap Worker.commands).countP p =
      (workers.flatMap Worker.commands).countP p := by
  induction workers with
  | nil => rfl
  | cons w workers ih =>
    have ih := ih fun v hv => rest v (List.mem_cons_of_mem w hv)
    rw [List.flatMap_cons, List.countP_append, ← ih]
    cases test : q w with
    | true => rw [List.filter_cons_of_pos test, List.flatMap_cons, List.countP_append]
    | false =>
      have none_counts : w.commands.countP p = 0 :=
        List.countP_eq_zero.mpr fun c hc => by simp [rest w List.mem_cons_self test c hc]
      rw [List.filter_cons_of_neg (by simp [test]), none_counts, Nat.zero_add]

namespace Orchestrator

variable {o : Orchestrator} {i : Nat} {d : Driver} {x : Executor} {t : Task}

namespace Sound

/-- Whoever holds the command for a task serves its run and its host, and is not gone. -/
theorem held_here (h : o.Sound) (hd : o.drivers[i]? = some d) (hx : o.engine.executors[i]? = some x)
    (live : d.run.state.isTerminal = false) (ht : t ∈ d.run.tasks) {w : Worker}
    (hw : w ∈ o.engine.workers) {c : TaskCommand} (hc : c ∈ w.commands)
    (run : c.runId = d.run.id) (task : c.taskId = t.id) :
    w.executor = i ∧ w.host = t.host ∧ w.phase ≠ .gone := by
  obtain ⟨orderly, account⟩ := h.agreed hd hx live
  have here : w.executor = i := h.executor_eq hd hw hc run
  have own : w ∈ o.engine.crew i := List.mem_filter.mpr ⟨hw, decide_eq_true here⟩
  obtain ⟨t', _, task', _, host, _⟩ := orderly.mirrors.task_of_owed (account.owed_of_held own hc)
  rw [task, orderly.mirrors.task?_id ht] at task'
  cases task'
  refine ⟨here, host.symm, fun gone => ?_⟩
  rw [account.done w own gone] at hc
  cases hc

/-- What is held of a task is the backlog of its host. -/
theorem heldCount_eq (h : o.Sound) (hd : o.drivers[i]? = some d)
    (hx : o.engine.executors[i]? = some x) (live : d.run.state.isTerminal = false)
    (ht : t ∈ d.run.tasks) :
    o.engine.heldCount d.run.id t.id =
      (Engine.backlog (o.engine.crew i) t.host).countP fun c => c.taskId = t.id := by
  have in_backlog : ∀ c ∈ Engine.backlog (o.engine.crew i) t.host,
      (decide (c.runId = d.run.id) && decide (c.taskId = t.id)) = true ↔
        decide (c.taskId = t.id) = true := by
    intro c hc
    obtain ⟨w, hw, held⟩ := List.mem_flatMap.mp hc
    simp [h.tagged hd w (List.mem_filter.mp hw).1 c held]
  -- On either side only workers count that hold the command, and those are all of the kind asked for.
  rw [← List.countP_congr in_backlog, Engine.heldCount, Engine.backlog, Engine.crew,
    List.filter_filter, Engine.countP_commands_filter, Engine.countP_commands_filter]
  · intro w hw skipped c hc
    refine Bool.eq_false_iff.mpr fun counts => ?_
    obtain ⟨run, task⟩ : c.runId = d.run.id ∧ c.taskId = t.id := by simpa using counts
    obtain ⟨here, host, _⟩ := h.held_here hd hx live ht hw hc run task
    simp [here, host] at skipped
  · intro w hw skipped c hc
    refine Bool.eq_false_iff.mpr fun counts => ?_
    obtain ⟨run, task⟩ : c.runId = d.run.id ∧ c.taskId = t.id := by simpa using counts
    obtain ⟨_, _, stays⟩ := h.held_here hd hx live ht hw hc run task
    simp [stays] at skipped

end Sound

/-- In every history, and for every run that is not archived: a task that is queued or in progress
leaves exactly one trace, and any other task leaves none. A trace of a task is its command, once for
each time that a worker holds it, or the news in the channel of the run that it is over. -/
theorem one_trace_of_each_task {settings : EngineSettings} (reachable : o.Reachable settings)
    (hd : o.drivers[i]? = some d) (hx : o.engine.executors[i]? = some x)
    (live : d.run.state.isTerminal = false) (ht : t ∈ d.run.tasks) :
    o.engine.heldCount d.run.id t.id + x.overCount t.id =
      if t.status = .queued ∨ t.status = .inProgress then 1 else 0 := by
  have sound := Sound.of_reachable reachable
  obtain ⟨orderly, account⟩ := sound.agreed hd hx live
  calc o.engine.heldCount d.run.id t.id + x.overCount t.id
      = (Engine.backlog (o.engine.crew i) t.host).countP (fun c => c.taskId = t.id) +
          (d.run.news x.channel t.host).countP (TaskEvent.ends t.id) := by
        rw [sound.heldCount_eq hd hx live ht, Run.news_count orderly.mirrors ht, Executor.overCount]
    _ = (d.run.owed t.host).countP (fun c => c.taskId = t.id) := (account.settles t.host).count t.id
    _ = if t.isOutstanding then 1 else 0 := Run.owed_count orderly.mirrors ht
    _ = if t.status = .queued ∨ t.status = .inProgress then 1 else 0 := by
        simp [Task.isOutstanding]

/-- The first call is answered, its worker says so, and the run knows only that the call began. -/
def firstAnswer : List Turn :=
  firstCall ++ [.engine (.answer 0 2 none), .engine (.work 0), .engine (.work 0), .event 0]

theorem one_trace_of_each_task_firstAnswer :
    ∃ d x t, (after firstAnswer).drivers[0]? = some d ∧
      (after firstAnswer).engine.executors[0]? = some x ∧ d.run.state.isTerminal = false ∧
      t ∈ d.run.tasks ∧ t.status = .inProgress ∧
      (after firstAnswer).engine.heldCount d.run.id t.id + x.overCount t.id = 1 := by
  have reachable : (after firstAnswer).Reachable .default := after_reachable (by decide +kernel)
  have run : ((after firstAnswer).drivers[0]?).map (fun d =>
      (d.run.state, (d.run.tasks[0]?).map Task.status)) = some (.running, some .inProgress) := by
    decide +kernel
  have executor : ((after firstAnswer).engine.executors[0]?).isSome = true := by decide +kernel
  obtain ⟨d, hd, at_d⟩ := Option.map_eq_some_iff.mp run
  obtain ⟨x, hx⟩ := Option.isSome_iff_exists.mp executor
  obtain ⟨running, first⟩ := Prod.mk.inj at_d
  obtain ⟨t, ht, status⟩ := Option.map_eq_some_iff.mp first
  have live : d.run.state.isTerminal = false := by rw [running]; rfl
  have member : t ∈ d.run.tasks := List.mem_of_getElem? ht
  refine ⟨d, x, t, hd, hx, live, member, status, ?_⟩
  rw [one_trace_of_each_task reachable hd hx live member, if_pos (.inr status)]

end Orchestrator

end Rollout
