-- SUMMARY: Turns that no client takes: drivers take inputs in, and nothing is dropped.
import Rollout.Proofs.Orchestrator.Logbook

/-!
# Inner turns

The engine and the drivers take turns without being asked. At an inner turn one driver takes an input in, or
nothing changes for drivers and clients. As long as the orchestrator is not dropped, no driver hangs up.
-/
namespace Rollout

/-- The engine or a driver takes the turn, and no client. -/
def Turn.isInner : Turn → Bool
  | .engine _ | .begin _ | .event _ | .control _ | .hangUp _ => true
  | .create .. | .submit .. | .drop => false

namespace Orchestrator

variable {o o' : Orchestrator} {i : Nat} {turn : Turn}

-- ---------------------------------------------------------------------------
-- Nothing is dropped
-- ---------------------------------------------------------------------------

@[simp] theorem modifyDriver_isDropped (i : Nat) (f : Driver → Driver) (o : Orchestrator) :
    (o.modifyDriver i f).isDropped = o.isDropped := rfl

@[simp] theorem serve_isDropped (request : Request) (o : Orchestrator) :
    (o.serve request).isDropped = o.isDropped := rfl

@[simp] theorem setRun_isDropped (i : Nat) (r : Run) (o : Orchestrator) :
    (o.setRun i r).isDropped = o.isDropped := rfl

@[simp] theorem reply_isDropped (client : Nat) (result : Except Fault Run) (o : Orchestrator) :
    (o.reply client result).isDropped = o.isDropped := rfl

@[simp] theorem publish_isDropped (i : Nat) (o : Orchestrator) :
    (o.publish i).isDropped = o.isDropped := rfl

@[simp] theorem observe_isDropped (i : Nat) (previous : RunState) (o : Orchestrator) :
    (o.observe i previous).isDropped = o.isDropped := by
  unfold observe
  split
  · rfl
  · dsimp only
    split
    · rfl
    · split <;> split <;> rfl

@[simp] theorem change_isDropped {α : Type} (i : Nat) (f : Run → Run.Reply α) (o : Orchestrator) :
    (o.change i f).1.isDropped = o.isDropped := by
  unfold change
  split
  · rfl
  · simp

@[simp] theorem fail_isDropped (i : Nat) (fault : Fault) (o : Orchestrator) :
    (o.fail i fault).isDropped = o.isDropped := change_isDropped ..

@[simp] theorem pump_isDropped (i : Nat) (o : Orchestrator) : (o.pump i).isDropped = o.isDropped := by
  unfold pump
  split
  · rfl
  · dsimp only
    split <;> simp

@[simp] theorem finish_isDropped (i : Nat) (o : Orchestrator) : (o.finish i).isDropped = o.isDropped := by
  have replied (tickets : List Ticket) (answer : Ticket → Except Fault Run) (o : Orchestrator) :
      (tickets.foldl (fun o t => o.reply t.client (answer t)) o).isDropped = o.isDropped := by
    induction tickets generalizing o with
    | nil => rfl
    | cons t tickets ih => simp [ih]
  unfold finish
  split
  · rfl
  · split
    · rfl
    · simp [replied]

@[simp] theorem settle_isDropped (i : Nat) (o : Orchestrator) : (o.settle i).isDropped = o.isDropped := by
  simp [settle]

@[simp] theorem recordTask_isDropped (i : Nat) (event : TaskEvent) (o : Orchestrator) :
    (o.recordTask i event).isDropped = o.isDropped := by
  unfold recordTask
  split
  · rfl
  · split
    · rfl
    · dsimp only
      split <;> rfl

/-- No other turn drops the orchestrator. -/
theorem isDropped_of_step (other : turn ≠ .drop) (stepped : o.step? turn = some o') :
    o'.isDropped = o.isDropped := by
  cases turn with
  | engine =>
    obtain ⟨_, _, rfl⟩ := Option.map_eq_some_iff.mp stepped
    rfl
  | begin i =>
    obtain ⟨d, _, stepped⟩ := Option.bind_eq_some_iff.mp stepped
    simp only [Option.bind_eq_bind] at stepped
    split at stepped
    · cases stepped
    · split at stepped <;> (cases stepped; simp)
  | event i =>
    obtain ⟨_, _, stepped⟩ := Option.bind_eq_some_iff.mp stepped
    obtain ⟨_, _, stepped⟩ := Option.bind_eq_some_iff.mp stepped
    dsimp only at stepped
    split at stepped <;> (cases stepped; simp)
  | control i =>
    obtain ⟨d, _, stepped⟩ := Option.bind_eq_some_iff.mp stepped
    split at stepped
    · cases stepped
    · simp only [Option.bind_eq_bind, Option.bind_eq_some_iff] at stepped
      obtain ⟨_, _, stepped⟩ := stepped
      rw [← Option.some.inj stepped]
      simp
  | hangUp i =>
    obtain ⟨d, _, stepped⟩ := Option.bind_eq_some_iff.mp stepped
    simp only [Option.bind_eq_bind] at stepped
    split at stepped
    · cases stepped
    · cases stepped
      simp
  | create =>
    simp only [step?] at stepped
    split at stepped
    · cases stepped
    · cases stepped
      unfold createRun
      split <;> rfl
  | submit =>
    simp only [step?] at stepped
    split at stepped
    · cases stepped
    · cases stepped
      unfold submit
      split
      · rfl
      · split <;> rfl
  | drop => exact absurd rfl other

/-- A driver hangs up only after the orchestrator was dropped. -/
theorem isDropped_of_hangUp (stepped : o.step? turn = some o')
    (hungUp : o.input? i turn = some .hangUp) : o.isDropped = true := by
  cases turn with
  | hangUp run =>
    obtain ⟨d, _, stepped⟩ := Option.bind_eq_some_iff.mp stepped
    simp only [Option.bind_eq_bind] at stepped
    split at stepped
    · cases stepped
    next given => simp_all
  | begin run => by_cases here : run = i <;> simp [input?, here] at hungUp
  | event run | control run =>
    simp only [input?] at hungUp
    split at hungUp
    · obtain ⟨_, _, other⟩ := Option.map_eq_some_iff.mp hungUp
      cases other
    · cases hungUp
  | engine | create | submit | drop => cases hungUp

-- ---------------------------------------------------------------------------
-- Desks
-- ---------------------------------------------------------------------------

/-- At an inner turn one driver takes an input in, or all desks are as before. -/
theorem Sound.inner_desks (h : o.Sound) (inner : turn.isInner = true) (stepped : o.step? turn = some o') :
    ((∀ i, o.input? i turn = none) ∧ o'.drivers = o.drivers ∧ o'.answers = o.answers) ∨
      ∃ i input d left, o.input? i turn = some input ∧ Takes i o o' input d left := by
  cases turn with
  | engine =>
    obtain ⟨_, _, rfl⟩ := Option.map_eq_some_iff.mp stepped
    exact .inl ⟨fun _ => rfl, rfl, rfl⟩
  | begin i => exact .inr ⟨i, (h.begin_driven stepped).takes stepped⟩
  | event i => exact .inr ⟨i, (h.event_driven stepped).takes stepped⟩
  | control i => exact .inr ⟨i, (h.control_driven stepped).takes stepped⟩
  | hangUp i => exact .inr ⟨i, (h.hangUp_driven stepped).takes stepped⟩
  | create | submit | drop => cases inner

/-- Drivers whose runs are archived take no turn. -/
theorem Sound.inner_of_archived (h : o.Sound) (archived : ∀ d ∈ o.drivers, d.run.state.isTerminal = true)
    (inner : turn.isInner = true) (stepped : o.step? turn = some o') :
    o'.drivers = o.drivers ∧ ∀ i, o.input? i turn = none := by
  obtain ⟨idle, drivers, _⟩ | ⟨i, _, d, _, _, takes⟩ := h.inner_desks inner stepped
  · exact ⟨drivers, idle⟩
  · have here := archived d (List.mem_of_getElem? takes.driver)
    rw [takes.live] at here
    cases here

end Orchestrator

end Rollout
