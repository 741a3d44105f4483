-- SUMMARY: How a run goes that is retried whenever it holds, up to a number of times, and is aborted then.
import Rollout.Apply
import Rollout.Proofs.Orchestrator.Logbook
import Rollout.Proofs.Run.Lifecycle

/-!
# Conducts

The journey of a run is the legs of its history that lead to another state. The journey of a run that is
followed begins with its start. Then come rounds, in each of which the run holds and is retried. It ends when the
run is completed, or when it holds once more after the budget of retries is spent, and is aborted for
that. No other order is given to the run.
-/
namespace Rollout

namespace Run

/-- The leg leads to another state. -/
def Leg.moves (leg : Leg) : Bool := leg.source ≠ leg.target

/-- The legs of a history that lead to another state, the oldest first. -/
def journey (r : Run) (history : List (Timestamp × Call)) : List Leg :=
  (r.legs history).filter Leg.moves

variable {r : Run} {now : Timestamp} {c : Call} {history : List (Timestamp × Call)}

/-- A call that changes the state is accepted. -/
theorem journey_cons (r : Run) (now : Timestamp) (c : Call) (history : List (Timestamp × Call)) :
    r.journey ((now, c) :: history) =
      (if (r.call now c).state = r.state then [] else [⟨r.state, c, (r.call now c).state⟩]) ++
        (r.call now c).journey history := by
  rw [journey, legs, journey]
  cases accepted : r.accepts now c with
  | false => simp [call_of_refused accepted]
  | true =>
    by_cases same : (r.call now c).state = r.state
    · rw [if_pos rfl, if_pos same, List.filter_cons_of_neg (by simp [Leg.moves, same]), List.nil_append]
    · rw [if_pos rfl, if_neg same, List.filter_cons_of_pos (by simp [Leg.moves, Ne.symm same])]
      rfl

theorem journey_append (r : Run) (history history' : List (Timestamp × Call)) :
    r.journey (history ++ history') = r.journey history ++ (r.after history).journey history' := by
  induction history generalizing r with
  | nil => rfl
  | cons c history ih =>
    obtain ⟨now, c⟩ := c
    rw [List.cons_append, journey_cons, journey_cons, ih, List.append_assoc]
    rfl

/-- A step of a run that is not running changes nothing. -/
theorem step_of_idle (idle : r.state ≠ .running) : r.call now .step = r := by
  simp [call, step, idle]

/-- A task event changes no state. -/
theorem apply_state (r : Run) (now : Timestamp) (event : TaskEvent) :
    (r.call now (.apply event)).state = r.state := by
  have applied := apply_applied r now event
  rw [call]
  generalize r.apply now event = reply at applied
  cases applied <;> rfl

/-- A run that holds goes on holding when it hears of tasks. -/
theorem taking_news_of_holding (event : TaskEvent) (now : Timestamp) (holding : r.state = .holding) :
    (r.taking now (.news event)).state = .holding := by
  have same := (apply_state r now event).trans holding
  have idle : (r.call now (Input.news event).call).state ≠ .running := by
    rw [Input.call, same]
    exact RunState.noConfusion
  exact (congrArg Run.state (step_of_idle idle)).trans same

/-- The journey through an input and the step that follows. -/
theorem journey_taking (r : Run) (now : Timestamp) (input : Input) :
    r.journey [(now, input.call), (now, .step)] =
      (if (r.call now input.call).state = r.state then []
        else [⟨r.state, input.call, (r.call now input.call).state⟩]) ++
      (if (r.taking now input).state = (r.call now input.call).state then []
        else [⟨(r.call now input.call).state, .step, (r.taking now input).state⟩]) := by
  have stepped : (r.call now input.call).call now .step = r.taking now input := rfl
  rw [journey_cons, journey_cons, stepped]
  simp [journey, legs]

end Run

/-- The orders that a driver took in. -/
def Logbook.orders (log : Logbook) : List Control :=
  log.filterMap fun (_, input) => input.ticket?.map Ticket.control

open Run (Leg)

/-- A run begins, and then it holds and is retried a number of times. -/
def rounds (k : Nat) : List Leg :=
  ⟨.pending, .start, .running⟩ ::
    (List.replicate k [⟨.running, .step, .holding⟩, ⟨.holding, .retry, .running⟩]).flatten

theorem rounds_succ (k : Nat) :
    rounds (k + 1) = rounds k ++ [⟨.running, .step, .holding⟩, ⟨.holding, .retry, .running⟩] := by
  simp [rounds, List.replicate_succ', List.flatten_append]

/-- The state, the journey and the orders of a run that was retried `k` times. It is aborted only if these were
as many times as it may be retried. -/
inductive Conduct (budget : Nat) : Nat → RunState → List Leg → List Control → Prop
  | pending : Conduct budget 0 .pending [] []
  | running (k : Nat) : Conduct budget k .running (rounds k) (List.replicate k .retry)
  | holding (k : Nat) : Conduct budget k .holding (rounds k ++ [⟨.running, .step, .holding⟩])
      (List.replicate k .retry)
  | completed (k : Nat) : Conduct budget k .completed (rounds k ++ [⟨.running, .step, .completed⟩])
      (List.replicate k .retry)
  | aborted (stage : String) : Conduct budget budget .aborted
      (rounds budget ++ [⟨.running, .step, .holding⟩,
        ⟨.holding, .abort (Attendant.holdReason stage), .aborted⟩])
      (List.replicate budget .retry ++ [.abort (Attendant.holdReason stage)])

namespace Conduct

variable {budget k : Nat} {s : RunState} {legs : List Leg} {orders : List Control} {r : Run}

theorem of_pending (h : Conduct budget k .pending legs orders) : k = 0 ∧ legs = [] ∧ orders = [] := by
  cases h
  exact ⟨rfl, rfl, rfl⟩

theorem of_holding (h : Conduct budget k .holding legs orders) :
    legs = rounds k ++ [⟨.running, .step, .holding⟩] ∧ orders = List.replicate k .retry := by
  cases h
  exact ⟨rfl, rfl⟩

/-- A run holds at most once more than it is retried. -/
theorem holds_le (h : Conduct budget k s legs orders) :
    legs.countP (fun leg => leg.target = .holding) ≤ k + 1 := by
  have retried (k : Nat) : (rounds k).countP (fun leg => leg.target = .holding) = k := by
    induction k with
    | zero => rfl
    | succ k ih =>
      rw [rounds_succ, List.countP_append, ih]
      rfl
  cases h with
  | pending => exact Nat.zero_le _
  | running k => exact Nat.le_succ_of_le (Nat.le_of_eq (retried k))
  | holding k | completed k =>
    rw [List.countP_append, retried]
    exact Nat.add_le_add_left (by decide) k
  | aborted =>
    rw [List.countP_append, retried]
    exact Nat.le_refl _

/-- A running run goes on, holds or is completed by a step. -/
theorem step (h : Conduct budget k .running legs orders) (running : r.state = .running) (now : Timestamp) :
    Conduct budget k (r.call now .step).state
      (legs ++ if (r.call now .step).state = r.state then []
        else [⟨r.state, .step, (r.call now .step).state⟩]) orders := by
  have leads := Run.leads_step r now
  rw [running] at leads ⊢
  cases h
  generalize (r.call now .step).state = s at leads
  cases leads with
  | hold => exact .holding k
  | complete => exact .completed k
  | step =>
    rw [if_pos rfl, List.append_nil]
    exact .running k

end Conduct

/-- The run is what the inputs of the logbook make of another one, and went as it should. -/
structure Conducted (budget k : Nat) (first : Run) (log : Logbook) (r : Run) : Prop where
  run : r = first.after log.calls
  conduct : Conduct budget k r.state (first.journey log.calls) log.orders

namespace Conducted

variable {budget k : Nat} {first r : Run} {log : Logbook} {now : Timestamp}

/-- A new run did not go anywhere yet. -/
theorem new (pending : first.state = .pending) : Conducted budget 0 first [] first := by
  refine ⟨rfl, ?_⟩
  rw [pending]
  exact .pending

/-- A further input adds to the journey and to the orders. -/
theorem snoc {k' : Nat} {input : Input} (h : Conducted budget k first log r)
    (conduct : Conduct budget k' (r.taking now input).state
      (first.journey log.calls ++ r.journey [(now, input.call), (now, .step)])
      (log.orders ++ (input.ticket?.map Ticket.control).toList)) :
    Conducted budget k' first (log ++ [(now, input)]) (r.taking now input) := by
  have calls : Logbook.calls (log ++ [(now, input)]) =
      log.calls ++ [(now, input.call), (now, .step)] := by simp [Logbook.calls]
  have orders : Logbook.orders (log ++ [(now, input)]) =
      log.orders ++ (input.ticket?.map Ticket.control).toList := by
    cases asked : input.ticket? <;> simp [Logbook.orders, asked]
  refine ⟨?_, ?_⟩
  · rw [Run.after_calls_append, ← h.run]
    rfl
  · rw [calls, Run.journey_append, ← h.run, orders]
    exact conduct

/-- An input makes a run go on, and it goes as far as a step takes it. -/
theorem go_on {k' : Nat} {input : Input} (h : Conducted budget k first log r)
    (running : (r.call now input.call).state = .running)
    (conduct : Conduct budget k' .running
      (first.journey log.calls ++ if RunState.running = r.state then []
        else [⟨r.state, input.call, .running⟩])
      (log.orders ++ (input.ticket?.map Ticket.control).toList)) :
    Conducted budget k' first (log ++ [(now, input)]) (r.taking now input) := by
  refine h.snoc ?_
  have stepped := conduct.step running now
  rw [Run.journey_taking, ← List.append_assoc, running]
  rw [running] at stepped
  exact stepped

/-- An input after which a run does not go on. -/
theorem stay {k' : Nat} {input : Input} (h : Conducted budget k first log r)
    (idle : (r.call now input.call).state ≠ .running)
    (conduct : Conduct budget k' (r.call now input.call).state
      (first.journey log.calls ++ if (r.call now input.call).state = r.state then []
        else [⟨r.state, input.call, (r.call now input.call).state⟩])
      (log.orders ++ (input.ticket?.map Ticket.control).toList)) :
    Conducted budget k' first (log ++ [(now, input)]) (r.taking now input) := by
  have same : r.taking now input = r.call now input.call := Run.step_of_idle idle
  refine h.snoc ?_
  rw [Run.journey_taking, same, if_pos rfl, List.append_nil]
  exact conduct

theorem begin (h : Conducted budget k first log r) (pending : r.state = .pending) :
    Conducted budget k first (log ++ [(now, .begin)]) (r.taking now .begin) := by
  have started : (r.call now Input.begin.call).state = .running :=
    congrArg (fun reply => reply.1.state) (Run.start_of_pending pending)
  refine h.go_on started ?_
  obtain ⟨rfl, journey, orders⟩ := (pending ▸ h.conduct).of_pending
  rw [journey, orders, pending]
  exact .running 0

/-- A task event makes a running run go on, and no other one. -/
theorem news {event : TaskEvent} (h : Conducted budget k first log r) :
    Conducted budget k first (log ++ [(now, .news event)]) (r.taking now (.news event)) := by
  have same : (r.call now (Input.news event).call).state = r.state := Run.apply_state r now event
  by_cases running : r.state = .running
  · refine h.go_on (same.trans running) ?_
    rw [running, if_pos rfl, List.append_nil]
    exact (List.append_nil _).symm ▸ running ▸ h.conduct
  · refine h.stay (by rw [same]; exact running) ?_
    rw [same, if_pos rfl, List.append_nil]
    exact (List.append_nil _).symm ▸ h.conduct

theorem retry {t : Ticket} (h : Conducted budget k first log r) (holding : r.state = .holding)
    (asks : t.control = .retry) :
    Conducted budget (k + 1) first (log ++ [(now, .order t)]) (r.taking now (.order t)) := by
  obtain ⟨client, control⟩ := t
  cases asks
  have retried : (r.call now (Input.order ⟨client, .retry⟩).call).state = .running :=
    congrArg (fun reply => reply.1.state) (Run.retry_of_holding holding)
  refine h.go_on retried ?_
  obtain ⟨journey, orders⟩ := (holding ▸ h.conduct).of_holding
  rw [journey, orders, holding, List.append_assoc]
  have all : Conduct budget _ _ _ _ := .running (k + 1)
  rw [rounds_succ, List.replicate_succ'] at all
  exact all

theorem abort {t : Ticket} {stage : String} (h : Conducted budget budget first log r)
    (holding : r.state = .holding) (asks : t.control = .abort (Attendant.holdReason stage)) :
    (r.taking now (.order t)).state = .aborted ∧
      Conducted budget budget first (log ++ [(now, .order t)]) (r.taking now (.order t)) := by
  obtain ⟨client, control⟩ := t
  cases asks
  have live : r.state.isTerminal = false := by rw [holding]; rfl
  have aborted : (r.call now (Control.abort (Attendant.holdReason stage)).call).state = .aborted :=
    congrArg (fun reply => reply.1.state) (Run.abort_of_live live)
  have idle : (r.call now (Control.abort (Attendant.holdReason stage)).call).state ≠ .running := by
    rw [aborted]
    exact RunState.noConfusion
  refine ⟨(congrArg Run.state (Run.step_of_idle idle)).trans aborted, h.stay idle ?_⟩
  obtain ⟨journey, orders⟩ := (holding ▸ h.conduct).of_holding
  rw [Input.call, aborted, journey, orders, holding, List.append_assoc]
  exact .aborted stage

end Conducted

end Rollout
