-- SUMMARY: What drivers answer, and when: a turn answers the command that it takes, and a driver that ends answers all that wait.
import Rollout.Proofs.Orchestrator.DriverTurns

/-!
# Replies to commands of clients

Commands wait at the desk of a driver until they are answered. Nothing that a driver does during a turn
gives, takes or answers a command, but for three places: a turn may begin with a command that is taken, its
answer is given after the run was published, and a driver that ends answers the commands that still wait.
-/
namespace Rollout

/-- The answer to a command that an archived run finds waiting. -/
def Run.farewell (r : Run) (t : Ticket) : Answer := ⟨t.client, .error (t.control.gone r)⟩

/-- The answers to the commands that wait when a run was published, the latest first. -/
def Run.farewells (r : Run) (tickets : List Ticket) : List Answer :=
  if r.state.isTerminal then (tickets.map r.farewell).reverse else []

theorem Run.farewells_of_live {r : Run} (live : r.state.isTerminal = false) (tickets : List Ticket) :
    r.farewells tickets = [] := by
  simp [farewells, live]

namespace Orchestrator

/-- From `o` to `o'` no command was given, taken or answered. -/
structure Mute (o o' : Orchestrator) : Prop where
  tickets : o'.drivers.map Driver.tickets = o.drivers.map Driver.tickets
  answers : o'.answers = o.answers
  clients : o'.clients = o.clients

variable {o o' o₁ o₂ : Orchestrator} {i : Nat} {d : Driver}

namespace Mute

theorem refl (o : Orchestrator) : Mute o o := ⟨rfl, rfl, rfl⟩

theorem trans (h₁ : Mute o o₁) (h₂ : Mute o₁ o₂) : Mute o o₂ where
  tickets := h₂.tickets.trans h₁.tickets
  answers := h₂.answers.trans h₁.answers
  clients := h₂.clients.trans h₁.clients

theorem driver? (h : Mute o o') (hd : o.drivers[i]? = some d) :
    ∃ d', o'.drivers[i]? = some d' ∧ d'.tickets = d.tickets := by
  have here : (o'.drivers.map Driver.tickets)[i]? = some d.tickets := by
    rw [h.tickets, List.getElem?_map, hd]
    rfl
  rw [List.getElem?_map] at here
  exact Option.map_eq_some_iff.mp here

end Mute

-- ---------------------------------------------------------------------------
-- Silence
-- ---------------------------------------------------------------------------

theorem serve_mute (request : Request) (o : Orchestrator) : Mute o (o.serve request) := ⟨rfl, rfl, rfl⟩

theorem modifyDriver_mute (i : Nat) {f : Driver → Driver} (keeps : ∀ d, (f d).tickets = d.tickets)
    (o : Orchestrator) : Mute o (o.modifyDriver i f) where
  tickets := by
    refine List.ext_getElem? fun j => ?_
    simp only [modifyDriver, List.getElem?_map, List.getElem?_modify]
    cases o.drivers[j]? with
    | none => rfl
    | some d =>
      refine congrArg some ?_
      dsimp only
      split
      · exact keeps d
      · rfl
  answers := rfl
  clients := rfl

theorem setRun_mute (i : Nat) (r : Run) (o : Orchestrator) : Mute o (o.setRun i r) :=
  modifyDriver_mute i (f := fun d => { d with run := r }) (fun _ => rfl) o

theorem publish_mute (i : Nat) (o : Orchestrator) : Mute o (o.publish i) :=
  modifyDriver_mute i (f := fun d => { d with snapshot := d.run }) (fun _ => rfl) o

theorem observe_mute (i : Nat) (previous : RunState) (o : Orchestrator) :
    Mute o (o.observe i previous) := by
  unfold observe
  split
  · exact .refl o
  · dsimp only
    split
    · exact .refl o
    · split <;> split <;> exact ⟨rfl, rfl, rfl⟩

theorem change_mute {α : Type} (i : Nat) (f : Run → Run.Reply α) (o : Orchestrator) :
    Mute o (o.change i f).1 := by
  unfold change
  split
  · exact .refl o
  · exact (setRun_mute i _ o).trans (observe_mute i _ _)

theorem fail_mute (i : Nat) (fault : Fault) (o : Orchestrator) : Mute o (o.fail i fault) :=
  change_mute i _ o

theorem pump_mute (i : Nat) (o : Orchestrator) : Mute o (o.pump i) := by
  unfold pump
  split
  · exact .refl o
  next d _ =>
    have set := setRun_mute i (d.run.step o.wall).1 o
    dsimp only
    refine .trans ?_ (observe_mute i _ _)
    split
    · exact set
    · exact set.trans (serve_mute _ _)
    · exact set.trans (fail_mute i _ _)

theorem recordTask_mute (i : Nat) (event : TaskEvent) (o : Orchestrator) :
    Mute o (o.recordTask i event) := by
  unfold recordTask
  split
  · exact .refl o
  · split
    · exact .refl o
    · dsimp only
      split <;> exact ⟨rfl, rfl, rfl⟩

-- ---------------------------------------------------------------------------
-- Ends
-- ---------------------------------------------------------------------------

theorem foldl_reply_answers (tickets : List Ticket) (answer : Ticket → Except Fault Run)
    (o : Orchestrator) :
    (tickets.foldl (fun o t => o.reply t.client (answer t)) o).answers =
        (tickets.map fun t => ⟨t.client, answer t⟩).reverse ++ o.answers ∧
      (tickets.foldl (fun o t => o.reply t.client (answer t)) o).clients = o.clients := by
  induction tickets generalizing o with
  | nil => exact ⟨rfl, rfl⟩
  | cons t tickets ih =>
    obtain ⟨answers, clients⟩ := ih (o.reply t.client (answer t))
    refine ⟨?_, clients⟩
    rw [List.foldl_cons, answers, List.map_cons, List.reverse_cons, List.append_assoc]
    rfl

/-- A driver that ends answers the commands that wait. -/
theorem finish_desk (hd : o.drivers[i]? = some d) (current : d.snapshot = d.run) :
    ∃ d', (o.finish i).drivers[i]? = some d' ∧ d'.run = d.run ∧
      (o.finish i).answers = d.run.farewells d.tickets ++ o.answers ∧
      (o.finish i).clients = o.clients := by
  unfold finish
  simp only [hd, current]
  cases archived : d.run.state.isTerminal with
  | false => exact ⟨d, hd, rfl, by rw [Run.farewells_of_live archived]; rfl, rfl⟩
  | true =>
    obtain ⟨drivers, _⟩ := foldl_reply_same d.tickets (fun t => .error (t.control.gone d.run)) o
    obtain ⟨answers, clients⟩ :=
      foldl_reply_answers d.tickets (fun t => .error (t.control.gone d.run)) o
    refine ⟨{ d with tickets := [], isOver := true }, ?_, rfl, ?_, clients⟩
    · simp [modifyDriver, serve, drivers, hd]
    · rw [Run.farewells, if_pos archived]
      exact answers

/-- What stands at the desk of a driver that publishes its run after it was silent. -/
theorem Mute.publish (m : Mute o o₁) (hd : o.drivers[i]? = some d) :
    ∃ d₁, (o₁.publish i).drivers[i]? = some d₁ ∧ d₁.snapshot = d₁.run ∧ d₁.tickets = d.tickets := by
  obtain ⟨d₁, hd₁, tickets⟩ := m.driver? hd
  exact ⟨{ d₁ with snapshot := d₁.run }, by simp [Orchestrator.publish, modifyDriver, hd₁], rfl,
    tickets⟩

theorem Mute.settle (m : Mute o o₁) (hd : o.drivers[i]? = some d) :
    ∃ d', ((o₁.publish i).finish i).drivers[i]? = some d' ∧
      ((o₁.publish i).finish i).answers = d'.run.farewells d.tickets ++ o.answers ∧
      ((o₁.publish i).finish i).clients = o.clients := by
  have published := m.trans (publish_mute i o₁)
  obtain ⟨d₁, hd₁, current, tickets⟩ := m.publish hd
  obtain ⟨d', hd', run, answers, clients⟩ := finish_desk hd₁ current
  refine ⟨d', hd', ?_, clients.trans published.clients⟩
  rw [answers, published.answers, run, tickets]

-- ---------------------------------------------------------------------------
-- Turns
-- ---------------------------------------------------------------------------

section Turns

variable (hd : o.drivers[i]? = some d)
include hd

theorem change_answer {α : Type} (f : Run → Run.Reply α) : (o.change i f).2 = some (f d.run).2 := by
  simp only [change, hd]

theorem begin?_desk {r : Run} (started : d.run.start o.wall = (r, .ok ())) (h : o.begin? i = some o') :
    ∃ d', o'.drivers[i]? = some d' ∧ o'.answers = d'.run.farewells d.tickets ++ o.answers ∧
      o'.clients = o.clients := by
  have silent := modifyDriver_mute i (f := fun d => { d with hasBegun := true }) (fun _ => rfl) o
  obtain ⟨wall, begun⟩ : (o.modifyDriver i fun d => { d with hasBegun := true }).wall = o.wall ∧
      (o.modifyDriver i fun d => { d with hasBegun := true }).drivers[i]? =
        some { d with hasBegun := true } := ⟨rfl, by simp [modifyDriver, hd]⟩
  simp only [begin?, hd, Option.bind_eq_bind, Option.bind_some, wall] at h
  split at h
  · cases h
  · simp only [change_answer begun, started] at h
    cases h
    exact ((silent.trans (change_mute i (fun r => r.start o.wall) _)).trans (pump_mute i _)).settle hd

theorem takeEvent?_desk {x : Executor} {event : TaskEvent} {rest : List TaskEvent} {r : Run}
    (hx : o.engine.executors[i]? = some x) (channel : x.channel = event :: rest)
    (applied : d.run.apply o.wall event = (r, .ok ())) (h : o.takeEvent? i = some o') :
    ∃ d', o'.drivers[i]? = some d' ∧ o'.answers = d'.run.farewells d.tickets ++ o.answers ∧
      o'.clients = o.clients := by
  have taken : o.engine.receive? i =
      some (event, o.engine.modifyExecutor i fun x => { x with channel := rest }) := by
    simp [Engine.receive?, hx, channel]
  obtain ⟨_, _, h⟩ := Option.bind_eq_some_iff.mp h
  generalize o.engine.modifyExecutor i (fun x => { x with channel := rest }) = engine at taken
  have driver : ({ o with engine := engine } : Orchestrator).drivers[i]? = some d := hd
  have silent : Mute o { o with engine := engine } := ⟨rfl, rfl, rfl⟩
  simp only [taken, Option.bind_eq_bind, Option.bind_some, change_answer driver, applied] at h
  cases h
  exact (((silent.trans (change_mute i (fun r => r.apply o.wall event) _)).trans
    (recordTask_mute i event _)).trans (pump_mute i _)).settle hd

theorem hangUp?_desk (h : o.hangUp? i = some o') :
    ∃ d', o'.drivers[i]? = some d' ∧ o'.answers = d'.run.farewells d.tickets ++ o.answers ∧
      o'.clients = o.clients := by
  simp only [hangUp?, Option.bind_eq_bind, Option.bind_eq_some_iff] at h
  obtain ⟨_, _, h⟩ := h
  split at h
  · cases h
  · cases h
    exact (change_mute i (fun r => r.abort o.wall "orchestrator shut down") o).settle hd

/-- The command that a driver takes is answered with the fault of its call, or with the run after the step
that follows. -/
theorem takeControl?_desk {ticket : Ticket} {rest : List Ticket} (tickets : d.tickets = ticket :: rest)
    (h : o.takeControl? i = some o') :
    ∃ d', o'.drivers[i]? = some d' ∧
      o'.answers = d'.run.farewells rest ++
        ⟨ticket.client, (ticket.control.apply o.wall d.run).2.map fun _ => d'.run⟩ :: o.answers ∧
      o'.clients = o.clients := by
  obtain ⟨wall, popped⟩ : (o.modifyDriver i fun d => { d with tickets := rest }).wall = o.wall ∧
      (o.modifyDriver i fun d => { d with tickets := rest }).drivers[i]? =
        some { d with tickets := rest } := ⟨rfl, by simp [modifyDriver, hd]⟩
  obtain ⟨d₀, running, h⟩ := Option.bind_eq_some_iff.mp h
  obtain ⟨hd₀, _⟩ := running?_eq running
  cases hd.symm.trans hd₀
  have silent := (change_mute i (fun r => ticket.control.apply o.wall r)
    (o.modifyDriver i fun d => { d with tickets := rest })).trans (pump_mute i _)
  obtain ⟨d₁, hd₁, current, left⟩ := silent.publish popped
  have published := silent.trans (publish_mute i _)
  simp only [tickets, wall, hd₁, change_answer popped, Option.bind_eq_bind, Option.bind_some] at h
  generalize publish i _ = o₁ at h hd₁ published
  have ended (result : Except Fault Run) : ∃ d',
      (finish i (reply ticket.client result o₁)).drivers[i]? = some d' ∧ d'.run = d₁.run ∧
        (finish i (reply ticket.client result o₁)).answers =
          d₁.run.farewells rest ++ ⟨ticket.client, result⟩ :: o.answers ∧
        (finish i (reply ticket.client result o₁)).clients = o.clients := by
    have driver : (reply ticket.client result o₁).drivers[i]? = some d₁ := hd₁
    obtain ⟨d', hd', run, answers, clients⟩ := finish_desk driver current
    refine ⟨d', hd', run, ?_, clients.trans published.clients⟩
    rw [answers, left, reply, published.answers]
    rfl
  cases answered : (ticket.control.apply o.wall d.run).2 with
  | error fault =>
    simp only [answered] at h
    cases h
    obtain ⟨d', hd', run, answers, clients⟩ := ended (.error fault)
    exact ⟨d', hd', by rw [answers, run]; rfl, clients⟩
  | ok =>
    simp only [answered] at h
    cases h
    obtain ⟨d', hd', run, answers, clients⟩ := ended (.ok d₁.run)
    exact ⟨d', hd', by rw [answers, run]; rfl, clients⟩

end Turns

end Orchestrator

end Rollout
