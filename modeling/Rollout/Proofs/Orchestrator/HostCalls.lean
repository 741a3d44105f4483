-- SUMMARY: What the history of an orchestrator tells: calls to a host exclude each other, and each is of a run.
import Rollout.Proofs.Orchestrator.Finality
import Rollout.Proofs.Run.Requeues

/-!
# Calls to hosts

Workers keep lock and slot at every turn of an orchestrator, so in its history the calls to a host exclude
each other. Each call was made by a worker that is still there, for the run of the worker's executor. The
commands that a worker holds are for tasks on its host, so of the workers for one task only one has the lock.
-/
namespace Rollout

-- ---------------------------------------------------------------------------
-- Slots
-- ---------------------------------------------------------------------------

namespace Executor

variable {x : Executor}

theorem observing_slots (s s' : RunState) :
    ∀ k ∈ x.slotHolders, k ∈ (x.observing s s').slotHolders := by
  intro k hk
  unfold observing
  split
  · exact Engine.Guarded.shutdown_slots x.cancel k hk
  · exact hk

/-- Whoever holds a slot keeps it when the run is archived. -/
theorem driven_slots (s₀ s₁ s₂ : RunState) :
    ∀ k ∈ x.slotHolders, k ∈ (x.driven s₀ s₁ s₂).slotHolders := by
  intro k hk
  have kept := observing_slots s₁ s₂ k (observing_slots s₀ s₁ k hk)
  unfold driven
  dsimp only
  split <;> exact kept

end Executor

namespace Orchestrator

variable {o o' : Orchestrator} {i : Nat} {d : Driver} {x : Executor} {turn : Turn}

theorem Intake.slotHolders {d₁ : Driver} {x₁ : Executor} {r : Run}
    (h : Intake o i d x turn d₁ x₁ r) : x₁.slotHolders = x.slotHolders := by
  cases h <;> rfl

/-- A station may change as long as its workers keep their slots, and new workers may come. -/
theorem Became.guarded {d' : Driver} {x' : Executor} {new : List Worker}
    (b : Became i o o' d' x' new) (h : o.engine.Guarded) (hx : o.engine.executors[i]? = some x)
    (slots : ∀ k ∈ x.slotHolders, k ∈ x'.slotHolders) (spawned : ∀ w ∈ new, w.phase = .spawned) :
    o'.engine.Guarded := by
  refine h.grow new spawned b.workers b.lockOrder (by rw [b.history]) fun {j x₁} hx₁ => ?_
  by_cases here : j = i
  · subst here
    cases hx.symm.trans hx₁
    exact ⟨x', b.executor? hx, slots⟩
  · exact ⟨x₁, (b.others here).2.trans hx₁, fun _ hk => hk⟩

theorem Shift.guarded (shift : Shift o o' turn) (h : o.engine.Guarded) : o'.engine.Guarded := by
  cases shift with
  | quiet _ q => exact h.quiet q
  | deed _ worker executor deed engine =>
    rw [engine]
    exact h.deed worker executor deed
  | queued _ executor became => exact became.guarded h executor (fun _ hk => hk) (by simp)
  | driven driven =>
    obtain ⟨_, executor, _, _, intake, _, became⟩ := driven
    refine became.guarded h executor (fun k hk => ?_) fun w hw => (Engine.mem_starters hw).2.1
    exact Executor.driven_slots _ _ _ k (intake.slotHolders ▸ hk)
  | added _ added =>
    subst added
    exact (h.serve (.openRegistry _)).serve (.openExecutor _ _)

/-- No worker changes the executor that it works for. -/
theorem Shift.worker_executor (shift : Shift o o' turn) {k : Nat} {w : Worker}
    (hw : o.engine.workers[k]? = some w) :
    ∃ w', o'.engine.workers[k]? = some w' ∧ w'.executor = w.executor := by
  have kept {new : List Worker} (workers : o'.engine.workers = o.engine.workers ++ new) :
      ∃ w', o'.engine.workers[k]? = some w' ∧ w'.executor = w.executor := by
    rw [workers, List.getElem?_append_left (List.getElem?_eq_some_iff.mp hw).1]
    exact ⟨w, hw, rfl⟩
  cases shift with
  | quiet _ q => exact ⟨w, q.workers ▸ hw, rfl⟩
  | deed _ worker executor deed engine =>
    rw [engine, Engine.put_worker? worker]
    split
    next here =>
      cases worker.symm.trans (here ▸ hw)
      exact ⟨_, rfl, deed.executor_eq⟩
    · exact ⟨w, hw, rfl⟩
  | queued _ _ became => exact kept became.workers
  | driven driven =>
    obtain ⟨_, _, _, _, _, _, became⟩ := driven
    exact kept became.workers
  | added _ added =>
    subst added
    exact ⟨w, hw, rfl⟩

/-! ## Records -/

/-- Whenever a call to a host begins it is the only one, and each call that was recorded belongs to a run
that is there. Workers hold commands for tasks on their hosts. -/
structure Recorded (o : Orchestrator) : Prop extends Published o where
  guarded : o.engine.Guarded
  exclusive : Engine.Exclusive o.engine.history
  served : ∀ entry ∈ o.engine.history, ∀ (k : Nat) c, entry.happening = .callBegan k c →
    ∃ w d, o.engine.workers[k]? = some w ∧ o.drivers[w.executor]? = some d ∧ d.run.id = c.runId
  placed : ∀ w ∈ o.engine.workers, ∀ c ∈ w.commands, ∃ d, o.drivers[w.executor]? = some d ∧
    (d.run.task? c.taskId).map Task.host = some w.host

namespace Recorded

theorem start (settings : EngineSettings) (wall : Timestamp) :
    (Orchestrator.start settings wall).Recorded where
  toPublished := .start settings wall
  guarded := Engine.empty_guarded wall
  exclusive := by simp [Engine.Exclusive, Orchestrator.start, Engine.empty]
  served := by simp [Orchestrator.start, Engine.empty]
  placed := by simp [Orchestrator.start, Engine.empty]

/-- The commands that a step hands out are for tasks on the hosts of their workers. -/
theorem starters_placed {r₁ r₂ : Run} (mirrors : r₁.MirrorsPlan) {now : Timestamp}
    {commands : List TaskCommand} (stepped : r₁.step now = (r₂, .ok commands)) {w : Worker}
    (hw : w ∈ Engine.starters i commands) {c : TaskCommand} (hc : c ∈ w.commands) :
    (r₂.task? c.taskId).map Task.host = some w.host := by
  obtain ⟨_, _, held⟩ := Engine.mem_starters hw
  obtain ⟨given, here⟩ := List.mem_filter.mp (held ▸ hc)
  obtain ⟨t, task, command, _⟩ := mirrors.step_attempt (by rw [stepped]) c given
  rw [stepped] at task command
  rw [task, Option.map_some, ← of_decide_eq_true here, ← command]
  rfl

/-- The commands that workers hold are for tasks on their host, also when new workers are started. -/
theorem placed_step (h : o.Recorded) (shift : Shift o o' turn) : ∀ w ∈ o'.engine.workers,
    ∀ c ∈ w.commands, ∃ d, o'.drivers[w.executor]? = some d ∧
      (d.run.task? c.taskId).map Task.host = some w.host := by
  have old : ∀ w ∈ o.engine.workers, ∀ c ∈ w.commands, ∃ d, o'.drivers[w.executor]? = some d ∧
      (d.run.task? c.taskId).map Task.host = some w.host := fun w hw c hc => by
    obtain ⟨d, hd, host⟩ := h.placed w hw c hc
    obtain ⟨d', hd', charter⟩ := shift.charter hd
    exact ⟨d', hd', (Run.task?_host charter _).trans host⟩
  cases shift with
  | quiet _ q =>
    rw [q.workers]
    exact old
  | deed _ worker _ deed engine =>
    rw [engine]
    refine Engine.forall_put old fun c hc => ?_
    rw [deed.executor_eq, deed.host_eq]
    exact old _ (List.mem_of_getElem? worker) c (deed.commands_subset hc)
  | queued _ _ became => exact became.forall_workers old (by simp)
  | driven driven =>
    obtain ⟨hd, hx, live, _, intake, stepped, became⟩ := driven
    refine became.forall_workers old fun w hw c hc => ?_
    obtain ⟨orderly, _⟩ := h.agreed hd hx live
    refine ⟨_, (Engine.mem_starters hw).1 ▸ became.driver? hd, ?_⟩
    rw [Driver.published_run]
    exact starters_placed (orderly.mirrors.of_charter intake.charter) stepped hw hc
  | added _ added =>
    subst added
    exact old

theorem step (h : o.Recorded) (stepped : o.step? turn = some o') : o'.Recorded := by
  have shift := h.shift stepped
  refine ⟨h.toPublished.step stepped, shift.guarded h.guarded,
    shift.growth.exclusive h.guarded h.exclusive, fun entry hentry k c call => ?_, h.placed_step shift⟩
  obtain ⟨later, history, senders⟩ := shift.growth.append
  rw [history] at hentry
  have caller : ∃ w d, o.engine.workers[k]? = some w ∧ o.drivers[w.executor]? = some d ∧
      d.run.id = c.runId := by
    obtain new | old := List.mem_append.mp hentry
    · obtain ⟨w, _, sends⟩ := senders entry new k c call
      obtain ⟨d, hd, run⟩ := h.sender sends
      exact ⟨w, d, sends.worker?, hd, run.symm⟩
    · exact h.served entry old k c call
  obtain ⟨w, d, hw, hd, run⟩ := caller
  obtain ⟨w', hw', executor⟩ := shift.worker_executor hw
  obtain ⟨d', hd', same⟩ := shift.charter hd
  exact ⟨w', d', hw', executor ▸ hd', (Run.charter_eq_iff.mp same).1.trans run⟩

theorem of_reachable {settings : EngineSettings} (reachable : o.Reachable settings) :
    o.Recorded :=
  reachable.induction (start settings) fun h stepped => h.step stepped

/-- Of the workers of a run that hold commands for the same task only one has the lock of the host. -/
theorem one_at_task (h : o.Recorded) {k k' : Nat} {w w' : Worker} (hw : o.engine.workers[k]? = some w)
    (hw' : o.engine.workers[k']? = some w') (mine : w'.executor = w.executor)
    (locked : w.phase.hasLock = true) (locked' : w'.phase.hasLock = true) {c c' : TaskCommand}
    (hc : c ∈ w.commands) (hc' : c' ∈ w'.commands) (same : c'.taskId = c.taskId) : k' = k := by
  obtain ⟨d, hd, host⟩ := h.placed w (List.mem_of_getElem? hw) c hc
  obtain ⟨d', hd', host'⟩ := h.placed w' (List.mem_of_getElem? hw') c' hc'
  cases hd.symm.trans (mine ▸ hd')
  rw [same, host] at host'
  have holder := h.guarded.locked hw' locked'
  rw [← Option.some.inj host', h.guarded.locked hw locked] at holder
  exact (Option.some.inj holder).symm

end Recorded

end Orchestrator

end Rollout
