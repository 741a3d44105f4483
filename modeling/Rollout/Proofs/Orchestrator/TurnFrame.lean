-- SUMMARY: What a turn leaves alone: the settings of an orchestrator, and every station but one.
import Rollout.Proofs.Engine.Attempts
import Rollout.Proofs.Orchestrator.Logbook

/-!
# What a turn leaves alone

A turn concerns one station, where a driver takes something in or a worker does a deed. At the other stations
nothing happens: runs and executors stay as they are, workers stay and may be joined by workers of others, and
the calls for the run stay the same. No turn changes the settings.
-/
namespace Rollout.Orchestrator

variable {settings : EngineSettings} {o o' : Orchestrator} {i : Nat} {d : Driver} {x : Executor}
  {turn : Turn}

-- ---------------------------------------------------------------------------
-- Settings
-- ---------------------------------------------------------------------------

@[simp] theorem observe_settings (i : Nat) (previous : RunState) (o : Orchestrator) :
    (o.observe i previous).settings = o.settings := by
  simp only [observe, serve]
  repeat' split
  all_goals rfl

@[simp] theorem change_settings {α : Type} (i : Nat) (f : Run → Run.Reply α) (o : Orchestrator) :
    (o.change i f).1.settings = o.settings := by
  unfold change
  split
  · rfl
  · exact observe_settings ..

@[simp] theorem fail_settings (i : Nat) (fault : Fault) (o : Orchestrator) :
    (o.fail i fault).settings = o.settings := change_settings ..

@[simp] theorem pump_settings (i : Nat) (o : Orchestrator) : (o.pump i).settings = o.settings := by
  unfold pump
  split
  · rfl
  · dsimp only
    rw [observe_settings]
    split
    · rfl
    · rfl
    · exact fail_settings ..

@[simp] theorem modifyDriver_settings (i : Nat) (f : Driver → Driver) (o : Orchestrator) :
    (o.modifyDriver i f).settings = o.settings := rfl

@[simp] theorem publish_settings (i : Nat) (o : Orchestrator) :
    (o.publish i).settings = o.settings := rfl

@[simp] theorem reply_settings (client : Nat) (result : Except Fault Run) (o : Orchestrator) :
    (o.reply client result).settings = o.settings := rfl

theorem foldl_reply_settings (tickets : List Ticket) (result : Ticket → Except Fault Run)
    (o : Orchestrator) :
    (tickets.foldl (fun o t => o.reply t.client (result t)) o).settings = o.settings := by
  induction tickets generalizing o with
  | nil => rfl
  | cons t tickets ih => exact ih _

@[simp] theorem finish_settings (i : Nat) (o : Orchestrator) : (o.finish i).settings = o.settings := by
  unfold finish
  split
  · rfl
  next d _ =>
    split
    · rfl
    · exact foldl_reply_settings d.tickets (fun t => .error (t.control.gone d.snapshot)) o

@[simp] theorem settle_settings (i : Nat) (o : Orchestrator) : (o.settle i).settings = o.settings := by
  simp [settle]

@[simp] theorem recordTask_settings (i : Nat) (event : TaskEvent) (o : Orchestrator) :
    (o.recordTask i event).settings = o.settings := by
  unfold recordTask
  repeat' split
  all_goals rfl

/-- No turn changes the settings. -/
theorem step?_settings (stepped : o.step? turn = some o') : o'.settings = o.settings := by
  cases turn with
  | engine move =>
    obtain ⟨_, _, rfl⟩ := Option.map_eq_some_iff.mp stepped
    rfl
  | begin i =>
    simp only [step?, begin?, Option.bind_eq_bind, Option.bind_eq_some_iff] at stepped
    obtain ⟨d, _, stepped⟩ := stepped
    split at stepped
    · cases stepped
    · split at stepped <;> cases stepped <;> simp
  | event i =>
    simp only [step?, takeEvent?, Option.bind_eq_bind, Option.bind_eq_some_iff] at stepped
    obtain ⟨_, _, _, _, stepped⟩ := stepped
    split at stepped <;> cases stepped <;> simp
  | control i =>
    simp only [step?, takeControl?, Option.bind_eq_bind, Option.bind_eq_some_iff] at stepped
    obtain ⟨d, _, stepped⟩ := stepped
    split at stepped
    · cases stepped
    · obtain ⟨_, _, stepped⟩ := Option.bind_eq_some_iff.mp stepped
      cases stepped
      simp
  | hangUp i =>
    simp only [step?, hangUp?, Option.bind_eq_bind, Option.bind_eq_some_iff] at stepped
    obtain ⟨_, _, stepped⟩ := stepped
    split at stepped
    · cases stepped
    · cases stepped
      simp
  | create id topology directives reference =>
    simp only [step?] at stepped
    split at stepped
    · cases stepped
    · cases stepped
      unfold createRun
      split <;> rfl
  | submit id control =>
    simp only [step?] at stepped
    split at stepped
    · cases stepped
    · cases stepped
      unfold submit
      split
      · rfl
      · split <;> rfl
  | drop =>
    cases stepped
    rfl

theorem Reachable.settings_eq (reachable : o.Reachable settings) : o.settings = settings :=
  reachable.induction (P := fun o => o.settings = settings) (fun _ => rfl) fun same stepped =>
    (step?_settings stepped).trans same

-- ---------------------------------------------------------------------------
-- Stations
-- ---------------------------------------------------------------------------

/-- From `o` to `o'` nothing happens at the station of the driver `d` at position `i`. -/
structure Still (i : Nat) (d : Driver) (o o' : Orchestrator) : Prop where
  driver : ∃ d', o'.drivers[i]? = some d' ∧ d'.run = d.run
  executor : o'.engine.executors[i]? = o.engine.executors[i]?
  workers : ∀ (k : Nat) (w : Worker), w.executor = i →
    (o'.engine.workers[k]? = some w ↔ o.engine.workers[k]? = some w)
  calls : ∀ task, Engine.callsFor o'.engine.history d.run.id task =
    Engine.callsFor o.engine.history d.run.id task

theorem Still.of_grown {new : List Worker} (driver : ∃ d', o'.drivers[i]? = some d' ∧ d'.run = d.run)
    (executor : o'.engine.executors[i]? = o.engine.executors[i]?)
    (workers : o'.engine.workers = o.engine.workers ++ new) (elsewhere : ∀ w ∈ new, w.executor ≠ i)
    (calls : ∀ task, Engine.callsFor o'.engine.history d.run.id task =
      Engine.callsFor o.engine.history d.run.id task) : Still i d o o' := by
  refine ⟨driver, executor, fun k w mine => ?_, calls⟩
  rw [workers]
  constructor
  · intro hw
    rw [List.getElem?_append] at hw
    split at hw
    · exact hw
    · exact absurd mine (elsewhere w (List.mem_of_getElem? hw))
  · intro hw
    rw [List.getElem?_append_left (List.getElem?_eq_some_iff.mp hw).1, hw]

/-- What happens at the station of the driver `d` with the executor `x` at a turn. -/
inductive AtStation (i : Nat) (d : Driver) (x : Executor) (o o' : Orchestrator) (turn : Turn) : Prop
  | driven (driven : Driven i o o' turn)
  | deed {k : Nat} {w : Worker} {f : Engine.Effect} (idle : o.input? i turn = none)
      (drivers : o'.drivers = o.drivers) (worker : o.engine.workers[k]? = some w) (mine : w.executor = i)
      (deed : Engine.Deed o.engine k w x f) (engine : o'.engine = o.engine.put k w f)
  | still (idle : o.input? i turn = none) (still : Still i d o o')

/-- A driver that takes an input in is driven. -/
theorem Sound.driven_of_input? (h : o.Sound) {input : Input} (taken : o.input? i turn = some input)
    (stepped : o.step? turn = some o') : Driven i o o' turn := by
  cases turn with
  | begin run =>
    by_cases here : run = i
    · exact here ▸ h.begin_driven (here ▸ stepped)
    · simp [input?, here] at taken
  | event run =>
    by_cases here : run = i
    · exact here ▸ h.event_driven (here ▸ stepped)
    · simp [input?, here] at taken
  | control run =>
    by_cases here : run = i
    · exact here ▸ h.control_driven (here ▸ stepped)
    · simp [input?, here] at taken
  | hangUp run =>
    by_cases here : run = i
    · exact here ▸ h.hangUp_driven (here ▸ stepped)
    · simp [input?, here] at taken
  | engine | create | submit | drop => cases taken

/-- A station is still when a worker of another one does a deed. -/
theorem Sound.still_of_deed (h : o.Sound) (hd : o.drivers[i]? = some d)
    (driver : ∃ d', o'.drivers[i]? = some d' ∧ d'.run = d.run) {k : Nat} {w : Worker} {y : Executor}
    {f : Engine.Effect} (worker : o.engine.workers[k]? = some w)
    (executor : o.engine.executors[w.executor]? = some y) (deed : Engine.Deed o.engine k w y f)
    (engine : o'.engine = o.engine.put k w f) (elsewhere : w.executor ≠ i) : Still i d o o' where
  driver := driver
  executor := by rw [engine, Engine.put_executor? executor, if_neg (Ne.symm elsewhere)]
  workers j v at_i := by
    rw [engine, Engine.put_worker? worker]
    split
    next here =>
      have other : f.worker ≠ v := by
        rintro rfl
        exact elsewhere (deed.executor_eq.symm.trans at_i)
      have other' : w ≠ v := by
        rintro rfl
        exact elsewhere at_i
      rw [here, worker, Option.some.injEq, Option.some.injEq]
      exact ⟨fun same => absurd same other, fun same => absurd same other'⟩
    · exact Iff.rfl
  calls task := by
    rw [engine]
    obtain calls | ⟨_, c, calls⟩ := deed.callsFor
    · exact calls ..
    · -- Whoever adds a call holds a command of the run, and works at its station.
      rw [calls.calls, if_neg fun both => elsewhere ?_]
      exact h.executor_eq hd (List.mem_of_getElem? worker) (List.mem_of_head? calls.command) both.1

/-- At a turn a driver takes something in, a worker of its executor does a deed, or its station is still. -/
theorem Sound.at_station (h : o.Sound) (hd : o.drivers[i]? = some d)
    (hx : o.engine.executors[i]? = some x) (stepped : o.step? turn = some o') :
    AtStation i d x o o' turn := by
  obtain ⟨input, _, taken, _⟩ | ⟨idle, _, _, hd'⟩ := (h.deskwork stepped).driver hd
  · exact .driven (h.driven_of_input? taken stepped)
  have driver : ∃ d', o'.drivers[i]? = some d' ∧ d'.run = d.run := ⟨_, hd', rfl⟩
  cases h.shift stepped with
  | quiet _ q =>
    have workers : o'.engine.workers = o.engine.workers ++ [] := by rw [q.workers, List.append_nil]
    exact .still idle (.of_grown driver (by rw [q.executors]) workers (by simp)
      fun task => q.callsFor _ task)
  | @deed k w y f drivers worker executor deed engine =>
    by_cases mine : w.executor = i
    · rw [mine, hx] at executor
      cases executor
      exact .deed idle drivers worker mine deed engine
    · exact .still idle (h.still_of_deed hd driver worker executor deed engine mine)
  | @queued j _ _ _ _ executor became =>
    refine .still idle (.of_grown driver ?_ became.workers (by simp) fun task => by rw [became.history])
    by_cases here : i = j
    · subst here
      rw [became.executor? executor, executor]
    · exact (became.others here).2
  | @driven j driven =>
    by_cases here : i = j
    · exact .driven (here ▸ driven)
    · obtain ⟨_, _, _, _, _, _, became⟩ := driven
      refine .still idle (.of_grown driver (became.others here).2 became.workers (fun w hw => ?_)
        fun task => by rw [became.history])
      rw [(Engine.mem_starters hw).1]
      exact Ne.symm here
  | added _ added =>
    subst added
    refine .still idle (.of_grown driver ?_ (List.append_nil _).symm (by simp) fun _ => rfl)
    rw [addRun_executors, List.getElem?_append_left (List.getElem?_eq_some_iff.mp hx).1]

end Rollout.Orchestrator
