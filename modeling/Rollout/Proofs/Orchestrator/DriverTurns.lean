-- SUMMARY: What the turns of a driver change: its own position among drivers, executors and workers, and nothing else.
import Rollout.Orchestrator.Move
import Rollout.Proofs.Engine.Crew

/-!
# Turns of drivers

A driver, its executor and the crew of the executor share a position, the station of the run. What a
driver does changes its own station only: the driver and the executor, and a dispatch adds workers.
Each function that drives a run has one law that says what becomes of the station.
-/
namespace Rollout

/-- The executor after its driver saw the run go from one state to another. -/
def Executor.observing (x : Executor) (previous state : RunState) : Executor :=
  if state ≠ previous ∧ state.isTerminal = true then x.cancel.shutdown else x

/-- The driver after it published a run. The driver of an archived run is over. -/
def Driver.published (d : Driver) (r : Run) : Driver :=
  if r.state.isTerminal then { d with run := r, snapshot := r, tickets := [], isOver := true }
  else { d with run := r, snapshot := r }

/-- The executor after its driver took an input, which led from one state to a second one, and stepped
the run, which led to a third one. -/
def Executor.driven (x : Executor) (s₀ s₁ s₂ : RunState) : Executor :=
  let x := (x.observing s₀ s₁).observing s₁ s₂
  if s₂.isTerminal then x.closeChannel else x

@[simp] theorem Driver.published_run (d : Driver) (r : Run) : (d.published r).run = r := by
  unfold published
  split <;> rfl

@[simp] theorem Driver.published_snapshot (d : Driver) (r : Run) : (d.published r).snapshot = r := by
  unfold published
  split <;> rfl

@[simp] theorem Driver.published_hasBegun (d : Driver) (r : Run) :
    (d.published r).hasBegun = d.hasBegun := by
  unfold published
  split <;> rfl

theorem Driver.published_isOver {d : Driver} (going : d.isOver = false) (r : Run) :
    (d.published r).isOver = r.state.isTerminal := by
  unfold published
  split
  next archived => exact archived.symm
  next live => rw [going, Bool.eq_false_iff.mpr live]

theorem Executor.observing_of_live {x : Executor} {previous state : RunState}
    (live : state.isTerminal = false) : x.observing previous state = x := by
  simp [observing, live]

theorem Executor.observing_same {x : Executor} {state : RunState} : x.observing state state = x := by
  simp [observing]

theorem Executor.driven_of_live {x : Executor} {s₀ s₁ s₂ : RunState}
    (live₁ : s₁.isTerminal = false) (live₂ : s₂.isTerminal = false) : x.driven s₀ s₁ s₂ = x := by
  simp [driven, observing_of_live live₁, observing_of_live live₂, live₂]

namespace Orchestrator

/-- From `o` to `o'` the driver and the executor at position `i` became `d` and `x`, the workers `new`
were added, and no other driver, executor or worker changed. Nothing was observed meanwhile. -/
structure Became (i : Nat) (o o' : Orchestrator) (d : Driver) (x : Executor) (new : List Worker) :
    Prop where
  drivers : o'.drivers = o.drivers.set i d
  executors : o'.engine.executors = o.engine.executors.set i x
  workers : o'.engine.workers = o.engine.workers ++ new
  lockOrder : o'.engine.lockOrder = o.engine.lockOrder
  history : o'.engine.history = o.engine.history
  wall : o'.wall = o.wall

variable {i : Nat} {o o' : Orchestrator} {d : Driver} {x : Executor}

namespace Became

theorem refl (hd : o.drivers[i]? = some d) (hx : o.engine.executors[i]? = some x) :
    Became i o o d x [] where
  drivers := (Engine.set_same hd).symm
  executors := (Engine.set_same hx).symm
  workers := by simp
  lockOrder := rfl
  history := rfl
  wall := rfl

variable {o₁ o₂ : Orchestrator} {d₁ d₂ : Driver} {x₁ x₂ : Executor} {new₁ new₂ : List Worker}

theorem trans (h₁ : Became i o o₁ d₁ x₁ new₁) (h₂ : Became i o₁ o₂ d₂ x₂ new₂) :
    Became i o o₂ d₂ x₂ (new₁ ++ new₂) where
  drivers := by rw [h₂.drivers, h₁.drivers, List.set_set]
  executors := by rw [h₂.executors, h₁.executors, List.set_set]
  workers := by rw [h₂.workers, h₁.workers, List.append_assoc]
  lockOrder := h₂.lockOrder.trans h₁.lockOrder
  history := h₂.history.trans h₁.history
  wall := h₂.wall.trans h₁.wall

/-- What else an orchestrator records does not matter. -/
theorem same (h : Became i o o₁ d₁ x₁ new₁) (drivers : o₂.drivers = o₁.drivers)
    (engine : o₂.engine = o₁.engine) : Became i o o₂ d₁ x₁ new₁ where
  drivers := drivers.trans h.drivers
  executors := (congrArg Engine.executors engine).trans h.executors
  workers := (congrArg Engine.workers engine).trans h.workers
  lockOrder := (congrArg Engine.lockOrder engine).trans h.lockOrder
  history := (congrArg Engine.history engine).trans h.history
  wall := (congrArg Engine.wall engine).trans h.wall

theorem driver? (h : Became i o o₁ d₁ x₁ new₁) (hd : o.drivers[i]? = some d) :
    o₁.drivers[i]? = some d₁ := by
  rw [h.drivers, List.getElem?_set_self (List.getElem?_eq_some_iff.mp hd).1]

theorem executor? (h : Became i o o₁ d₁ x₁ new₁) (hx : o.engine.executors[i]? = some x) :
    o₁.engine.executors[i]? = some x₁ := by
  rw [h.executors, List.getElem?_set_self (List.getElem?_eq_some_iff.mp hx).1]

/-- What holds of all drivers and of the changed one holds of all drivers afterwards. -/
theorem forall_drivers (h : Became i o o₁ d₁ x₁ new₁) {P : Driver → Prop}
    (old : ∀ d ∈ o.drivers, P d) (here : P d₁) : ∀ d ∈ o₁.drivers, P d := by
  intro d hd
  rw [h.drivers] at hd
  obtain hd | rfl := List.mem_or_eq_of_mem_set hd
  · exact old d hd
  · exact here

theorem forall_workers (h : Became i o o₁ d₁ x₁ new₁) {P : Worker → Prop}
    (old : ∀ w ∈ o.engine.workers, P w) (new : ∀ w ∈ new₁, P w) :
    ∀ w ∈ o₁.engine.workers, P w := by
  intro w hw
  rw [h.workers] at hw
  obtain hw | hw := List.mem_append.mp hw
  · exact old w hw
  · exact new w hw

/-- The crews after new workers came, all to the station. -/
theorem crew (h : Became i o o₁ d₁ x₁ new₁) (mine : ∀ w ∈ new₁, w.executor = i) (j : Nat) :
    o₁.engine.crew j = if j = i then o.engine.crew i ++ new₁ else o.engine.crew j := by
  rw [Engine.crew, h.workers, List.filter_append]
  split
  next same =>
    subst same
    rw [List.filter_eq_self.mpr fun w hw => decide_eq_true (mine w hw)]
    rfl
  next other =>
    have none_there : new₁.filter (fun w => w.executor = j) = [] :=
      List.filter_eq_nil_iff.mpr fun w hw => by simpa [mine w hw] using Ne.symm other
    rw [none_there, List.append_nil]
    rfl

/-- The other stations are as before. -/
theorem others (h : Became i o o₁ d₁ x₁ new₁) {j : Nat} (other : j ≠ i) :
    o₁.drivers[j]? = o.drivers[j]? ∧ o₁.engine.executors[j]? = o.engine.executors[j]? := by
  rw [h.drivers, h.executors, List.getElem?_set_ne (Ne.symm other),
    List.getElem?_set_ne (Ne.symm other)]
  exact ⟨rfl, rfl⟩

end Became

-- ---------------------------------------------------------------------------
-- Laws
-- ---------------------------------------------------------------------------

theorem foldl_reply_same (tickets : List Ticket) (answer : Ticket → Except Fault Run)
    (o : Orchestrator) :
    (tickets.foldl (fun o t => o.reply t.client (answer t)) o).drivers = o.drivers ∧
      (tickets.foldl (fun o t => o.reply t.client (answer t)) o).engine = o.engine := by
  induction tickets generalizing o with
  | nil => exact ⟨rfl, rfl⟩
  | cons t tickets ih => exact ih (o.reply t.client (answer t))

theorem recordTask_same (i : Nat) (event : TaskEvent) (o : Orchestrator) :
    (o.recordTask i event).drivers = o.drivers ∧ (o.recordTask i event).engine = o.engine := by
  unfold recordTask
  split
  · exact ⟨rfl, rfl⟩
  · split
    · exact ⟨rfl, rfl⟩
    · dsimp only
      split <;> exact ⟨rfl, rfl⟩

theorem running?_eq (h : o.running? i = some d) :
    o.drivers[i]? = some d ∧ d.hasBegun = true ∧ d.isOver = false := by
  obtain ⟨hd, test⟩ := Option.filter_eq_some_iff.mp h
  simpa [hd] using test

section Laws

variable (hd : o.drivers[i]? = some d) (hx : o.engine.executors[i]? = some x)
include hd hx

theorem modifyDriver_became (f : Driver → Driver) : Became i o (o.modifyDriver i f) (f d) x [] where
  drivers := by rw [modifyDriver, Engine.modify_eq_set hd]
  executors := (Engine.set_same hx).symm
  workers := (List.append_nil _).symm
  lockOrder := rfl
  history := rfl
  wall := rfl

theorem modifyExecutor_became (f : Executor → Executor) :
    Became i o { o with engine := o.engine.modifyExecutor i f } d (f x) [] where
  drivers := (Engine.set_same hd).symm
  executors := by rw [Engine.modifyExecutor, Engine.modify_eq_set hx]
  workers := (List.append_nil _).symm
  lockOrder := rfl
  history := rfl
  wall := rfl

theorem dispatch_became (commands : List TaskCommand) :
    Became i o (o.serve (.dispatch i commands)) d x (Engine.starters i commands) where
  drivers := (Engine.set_same hd).symm
  executors := (Engine.set_same hx).symm
  workers := rfl
  lockOrder := rfl
  history := rfl
  wall := rfl

theorem publish_became : Became i o (o.publish i) { d with snapshot := d.run } x [] :=
  modifyDriver_became hd hx fun d => { d with snapshot := d.run }

theorem setRun_became (r : Run) : Became i o (o.setRun i r) { d with run := r } x [] :=
  modifyDriver_became hd hx fun d => { d with run := r }

/-- The executor of an archived run is cancelled and shut down. -/
theorem archive_became :
    Became i o (((o.serve (.cancel i)).serve (.shutdown i)).serve (.closeRegistry i)) d
      x.cancel.shutdown [] := by
  have cancelled := modifyExecutor_became hd hx Executor.cancel
  have down := modifyExecutor_became (cancelled.driver? hd) (cancelled.executor? hx)
    Executor.shutdown
  have closed := (cancelled.trans down)
  exact ⟨closed.drivers, closed.executors, closed.workers, closed.lockOrder, closed.history,
    closed.wall⟩

/-- Observing a run that was archived cancels and closes its executor, and nothing else. -/
theorem observe_became (previous : RunState) :
    Became i o (o.observe i previous) d (x.observing previous d.run.state) [] := by
  have notified {o₁ : Orchestrator} {x₁ : Executor} (b : Became i o o₁ d x₁ []) :
      Became i o (if o₁.settings.notification.covers d.run.policy then
        { o₁ with notices := o₁.notices ++ (Notice.ofRun? d.run previous).toList } else o₁)
        d x₁ [] := by
    split
    · exact b.same rfl rfl
    · exact b
  unfold observe
  simp only [hd]
  split
  next same =>
    rw [same, Executor.observing_same]
    exact .refl hd hx
  next entered =>
    have counted : Became i o
        { o with metrics := o.metrics.recordTransition d.run.id d.run.labels d.run.state o.wall }
        d x [] := (Became.refl hd hx).same rfl rfl
    cases archived : d.run.state.isTerminal with
    | true =>
      have gone : x.observing previous d.run.state = x.cancel.shutdown := by
        simp [Executor.observing, entered, archived]
      rw [gone]
      exact notified (counted.trans (archive_became (counted.driver? hd) (counted.executor? hx)))
    | false =>
      rw [Executor.observing_of_live archived]
      exact notified counted

theorem change_became {α : Type} (f : Run → Run.Reply α) :
    (o.change i f).2 = some (f d.run).2 ∧
      Became i o (o.change i f).1 { d with run := (f d.run).1 }
        (x.observing d.run.state (f d.run).1.state) [] := by
  have set := setRun_became hd hx (f d.run).1
  have observed := observe_became (set.driver? hd) (set.executor? hx) d.run.state
  simp only [change, hd]
  exact ⟨trivial, set.trans observed⟩

theorem pump_became {r : Run} {commands : List TaskCommand}
    (stepped : d.run.step o.wall = (r, .ok commands)) :
    Became i o (o.pump i) { d with run := r } (x.observing d.run.state r.state)
      (Engine.starters i commands) := by
  have set := setRun_became hd hx r
  have observed {o₁ : Orchestrator} {new : List Worker}
      (sent : Became i o o₁ { d with run := r } x new) :
      Became i o (o₁.observe i d.run.state) { d with run := r }
        (x.observing d.run.state r.state) new := by
    have := sent.trans (observe_became (sent.driver? hd) (sent.executor? hx) d.run.state)
    rwa [List.append_nil] at this
  simp only [pump, hd, stepped]
  cases commands with
  | nil => exact observed set
  | cons c rest =>
    exact observed (set.trans (dispatch_became (set.driver? hd) (set.executor? hx) (c :: rest)))

theorem finish_became :
    Became i o (o.finish i)
      (if d.run.state.isTerminal then { d with tickets := [], isOver := true } else d)
      (if d.run.state.isTerminal then x.closeChannel else x) [] := by
  unfold finish
  simp only [hd]
  cases archived : d.run.state.isTerminal with
  | true =>
    obtain ⟨drivers, engine⟩ := foldl_reply_same d.tickets
      (fun t => .error (t.control.gone d.snapshot)) o
    have answered := (Became.refl hd hx).same drivers engine
    have closed := answered.trans (modifyExecutor_became (answered.driver? hd)
      (answered.executor? hx) Executor.closeChannel)
    exact closed.trans (modifyDriver_became (closed.driver? hd) (closed.executor? hx)
      fun d => { d with tickets := [], isOver := true })
  | false => exact .refl hd hx

/-- The driver is over once its run is archived. -/
theorem finished_became {o₁ : Orchestrator} {d₁ : Driver} {x₁ : Executor} {s₀ s₁ : RunState}
    {r : Run} {new : List Worker}
    (published : Became i o o₁ { d₁ with run := r, snapshot := r }
      ((x₁.observing s₀ s₁).observing s₁ r.state) new) :
    Became i o (o₁.finish i) (d₁.published r) (x₁.driven s₀ s₁ r.state) new := by
  have finished := published.trans
    (finish_became (published.driver? hd) (published.executor? hx))
  rw [List.append_nil] at finished
  rw [Driver.published, Executor.driven]
  exact finished

/-- After an input the run is stepped and published. -/
theorem stepped_became {o₁ : Orchestrator} {d₁ : Driver} {x₁ : Executor} {r : Run}
    {commands : List TaskCommand} (input : Became i o o₁ d₁ x₁ [])
    (stepped : d₁.run.step o.wall = (r, .ok commands)) :
    Became i o ((o₁.pump i).publish i) { d₁ with run := r, snapshot := r }
      (x₁.observing d₁.run.state r.state) (Engine.starters i commands) := by
  have pumped := input.trans
    (pump_became (input.driver? hd) (input.executor? hx) (by rw [input.wall]; exact stepped))
  have published := pumped.trans (publish_became (pumped.driver? hd) (pumped.executor? hx))
  simp only [List.nil_append, List.append_nil] at published
  exact published

-- ---------------------------------------------------------------------------
-- Turns
-- ---------------------------------------------------------------------------

theorem begin?_became {r₁ r₂ : Run} {commands : List TaskCommand} (h : o.begin? i = some o')
    (started : d.run.start o.wall = (r₁, .ok ()))
    (stepped : r₁.step o.wall = (r₂, .ok commands)) :
    Became i o o' (Driver.published { d with hasBegun := true } r₂)
      (x.driven d.run.state r₁.state r₂.state) (Engine.starters i commands) := by
  have begun := modifyDriver_became hd hx fun d => { d with hasBegun := true }
  obtain ⟨answer, input⟩ := change_became (begun.driver? hd) (begun.executor? hx)
    fun r => r.start (o.modifyDriver i fun d => { d with hasBegun := true }).wall
  simp only [begun.wall, started] at answer input
  simp only [begin?, hd, Option.bind_eq_bind, Option.bind_some] at h
  split at h
  · cases h
  · simp only [begun.wall, answer] at h
    cases h
    exact finished_became hd hx (stepped_became hd hx (begun.trans input) stepped)

/-- News leave the channel, and the station becomes what the step after them makes of it. -/
theorem takeEvent?_became {event : TaskEvent} {rest : List TaskEvent} {r₁ r₂ : Run}
    {commands : List TaskCommand} (h : o.takeEvent? i = some o')
    (channel : x.channel = event :: rest) (applied : d.run.apply o.wall event = (r₁, .ok ()))
    (stepped : r₁.step o.wall = (r₂, .ok commands)) :
    Became i o o' (d.published r₂)
      (({ x with channel := rest } : Executor).driven d.run.state r₁.state r₂.state)
      (Engine.starters i commands) := by
  have received := modifyExecutor_became hd hx fun x => { x with channel := rest }
  obtain ⟨answer, input⟩ := change_became (received.driver? hd) (received.executor? hx)
    fun r => r.apply o.wall event
  simp only [applied] at answer input
  have taken : o.engine.receive? i =
      some (event, o.engine.modifyExecutor i fun x => { x with channel := rest }) := by
    simp [Engine.receive?, hx, channel]
  obtain ⟨_, _, h⟩ := Option.bind_eq_some_iff.mp h
  simp only [taken, Option.bind_eq_bind, Option.bind_some, answer] at h
  cases h
  obtain ⟨drivers, engine⟩ := recordTask_same i event _
  have counted := (received.trans input).same drivers engine
  exact finished_became hd hx (stepped_became hd hx counted stepped)

/-- A command of a client leaves the desk, and the station becomes what the step after it makes of it. -/
theorem takeControl?_became {ticket : Ticket} {rest : List Ticket} {r₁ r₂ : Run}
    {commands : List TaskCommand} (h : o.takeControl? i = some o')
    (tickets : d.tickets = ticket :: rest)
    (controlled : (ticket.control.apply o.wall d.run).1 = r₁)
    (stepped : r₁.step o.wall = (r₂, .ok commands)) :
    Became i o o' (Driver.published { d with tickets := rest } r₂)
      (x.driven d.run.state r₁.state r₂.state) (Engine.starters i commands) := by
  have popped := modifyDriver_became hd hx fun d => { d with tickets := rest }
  obtain ⟨_, input⟩ := change_became (popped.driver? hd) (popped.executor? hx)
    fun r => ticket.control.apply (o.modifyDriver i fun d => { d with tickets := rest }).wall r
  simp only [popped.wall, controlled] at input
  have published := stepped_became hd hx (popped.trans input) stepped
  obtain ⟨d', running, h⟩ := Option.bind_eq_some_iff.mp h
  obtain ⟨hd', _⟩ := running?_eq running
  cases hd.symm.trans hd'
  simp only [tickets, popped.wall, published.driver? hd, Option.bind_eq_bind,
    Option.bind_some] at h
  cases h
  exact finished_became hd hx (published.same rfl rfl)

theorem hangUp?_became {r : Run} (h : o.hangUp? i = some o')
    (aborted : (d.run.abort o.wall "orchestrator shut down").1 = r) :
    Became i o o' (d.published r) (x.driven d.run.state r.state r.state) [] := by
  obtain ⟨_, input⟩ := change_became hd hx fun r => r.abort o.wall "orchestrator shut down"
  simp only [aborted] at input
  have published := input.trans (publish_became (input.driver? hd) (input.executor? hx))
  have same : (x.observing d.run.state r.state).observing r.state r.state =
      x.observing d.run.state r.state := Executor.observing_same
  rw [← same] at published
  simp only [hangUp?, Option.bind_eq_bind, Option.bind_eq_some_iff] at h
  obtain ⟨_, _, h⟩ := h
  split at h
  · cases h
  · cases h
    exact finished_became hd hx published

end Laws

/-- What the driver `d` at position `i` with the executor `x` may take in at a turn: the driver and the
executor without the input, and the run after it. -/
inductive Intake (o : Orchestrator) (i : Nat) (d : Driver) (x : Executor) :
    Turn → Driver → Executor → Run → Prop
  | begin {r : Run} (unbegun : d.hasBegun = false)
      (started : d.run.start o.wall = (r, .ok ())) :
      Intake o i d x (.begin i) { d with hasBegun := true } x r
  | event {event : TaskEvent} {rest : List TaskEvent} {r : Run} (begun : d.hasBegun = true)
      (channel : x.channel = event :: rest) (applied : d.run.apply o.wall event = (r, .ok ())) :
      Intake o i d x (.event i) d { x with channel := rest } r
  | control {ticket : Ticket} {rest : List Ticket} {r : Run} (begun : d.hasBegun = true)
      (tickets : d.tickets = ticket :: rest)
      (controlled : (ticket.control.apply o.wall d.run).1 = r) :
      Intake o i d x (.control i) { d with tickets := rest } x r
  | hangUp {r : Run} (begun : d.hasBegun = true) (dropped : o.isDropped = true)
      (silent : d.tickets = [])
      (aborted : (d.run.abort o.wall "orchestrator shut down").1 = r) :
      Intake o i d x (.hangUp i) d x r

/-- A turn of the driver at position `i` that meets no fault: the driver takes something in, steps the
run, hands out the commands of the step, and publishes the run. -/
inductive Driven (i : Nat) (o o' : Orchestrator) (turn : Turn) : Prop
  | mk {d d₁ : Driver} {x x₁ : Executor} {r₁ r₂ : Run} {commands : List TaskCommand}
      (driver : o.drivers[i]? = some d) (executor : o.engine.executors[i]? = some x)
      (live : d.run.state.isTerminal = false) (going : d.isOver = false)
      (intake : Intake o i d x turn d₁ x₁ r₁) (stepped : r₁.step o.wall = (r₂, .ok commands))
      (became : Became i o o' (d₁.published r₂) (x₁.driven d.run.state r₁.state r₂.state)
        (Engine.starters i commands))

/-- What becomes of an orchestrator at a turn: its engine moves, a command waits for a driver, a driver
takes something in, or a run is added. -/
inductive Shift (o o' : Orchestrator) (turn : Turn) : Prop
  | quiet (drivers : o'.drivers = o.drivers) (engine : Engine.Quiet o.engine o'.engine)
  | deed {k : Nat} {w : Worker} {x : Executor} {f : Engine.Effect}
      (drivers : o'.drivers = o.drivers) (worker : o.engine.workers[k]? = some w)
      (executor : o.engine.executors[w.executor]? = some x) (deed : Engine.Deed o.engine k w x f)
      (engine : o'.engine = o.engine.put k w f)
  | queued {i : Nat} {d : Driver} {x : Executor} {tickets : List Ticket}
      (driver : o.drivers[i]? = some d) (executor : o.engine.executors[i]? = some x)
      (became : Became i o o' { d with tickets := tickets } x [])
  | driven {i : Nat} (driven : Driven i o o' turn)
  | added {id : RunId} {plan : Plan} {policy : Policy} {now : Timestamp}
      (fresh : ∀ d ∈ o.drivers, d.snapshot.id ≠ id)
      (added : o' = o.addRun (Run.create id plan policy now))

end Orchestrator

end Rollout
