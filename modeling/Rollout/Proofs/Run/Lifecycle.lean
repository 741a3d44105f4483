-- SUMMARY: The lifecycle of a run: the states that its accepted calls lead through, whatever is called.
import Rollout.Proofs.Run.Refusal

/-!
# Lifecycles

The accepted calls of a history make a path through the states of a run, one leg for each call. Every leg
follows the graph of the lifecycle, but for one kind: the guard of a start is the table of legal changes
alone, which also lets a run that holds or is suspended go on. A history without such restarts follows the
graph.
-/
namespace Rollout.Run

-- ---------------------------------------------------------------------------
-- Legs
-- ---------------------------------------------------------------------------

/-- An accepted call, with the states of the run before and after it. -/
structure Leg where
  source : RunState
  call : Call
  target : RunState
  deriving DecidableEq, Repr

/-- The call is answered without a fault. -/
def accepts (r : Run) (now : Timestamp) : Call → Bool
  | .start => (r.start now).2.isOk
  | .step => (r.step now).2.isOk
  | .advance => (r.advance now).2.isOk
  | .retry => (r.retry now).2.isOk
  | .suspend => (r.suspend now).2.isOk
  | .resume => (r.resume now).2.isOk
  | .abort reason => (r.abort now reason).2.isOk
  | .apply event => (r.apply now event).2.isOk

/-- The accepted calls of a history, the oldest first. -/
def legs (r : Run) : List (Timestamp × Call) → List Leg
  | [] => []
  | (now, c) :: history =>
    let rest := (r.call now c).legs history
    if r.accepts now c then ⟨r.state, c, (r.call now c).state⟩ :: rest else rest

/-- The legs lead from one state to another, each along an edge and from where the last one ended. -/
inductive Path (edge : Leg → Prop) : RunState → List Leg → RunState → Prop
  | nil (s : RunState) : Path edge s [] s
  | cons {leg : Leg} {legs : List Leg} {s : RunState} (first : edge leg)
      (rest : Path edge leg.target legs s) : Path edge leg.source (leg :: legs) s

/-- The graph of the lifecycle. -/
inductive Leads : Leg → Prop
  | start : Leads ⟨.pending, .start, .running⟩
  | retry : Leads ⟨.holding, .retry, .running⟩
  | resume {s : RunState} (idle : s = .suspended ∨ s = .holding) : Leads ⟨s, .resume, .running⟩
  | suspend {s : RunState} (active : s = .running ∨ s = .holding) : Leads ⟨s, .suspend, .suspended⟩
  | hold {c : Call} (moves : c = .advance ∨ c = .step) : Leads ⟨.running, c, .holding⟩
  | complete : Leads ⟨.running, .step, .completed⟩
  | abort {s : RunState} {reason : String} (live : s.isTerminal = false) :
      Leads ⟨s, .abort reason, .aborted⟩
  /-- A stage is closed. -/
  | advance : Leads ⟨.running, .advance, .running⟩
  /-- There is nothing to enter a state for; an archived run does not step either. -/
  | step {s : RunState} : Leads ⟨s, .step, s⟩
  | apply {s : RunState} {event : TaskEvent} : Leads ⟨s, .apply event, s⟩

/-- The leg of a start. -/
def Leg.starts (leg : Leg) : Bool := leg.call = .start

/-- The leg of a start that finds the run idle although it began before. -/
def Leg.restarts (leg : Leg) : Bool :=
  leg.starts && (leg.source = .holding || leg.source = .suspended)

/-- The graph of the lifecycle, with restarts. -/
def Passes (leg : Leg) : Prop := Leads leg ∨ leg.restarts = true ∧ leg.target = .running

variable {r : Run} {now : Timestamp} {edge edge' : Leg → Prop} {legs : List Leg} {s s' : RunState}

theorem Path.mono (path : Path edge s legs s') (imp : ∀ leg ∈ legs, edge leg → edge' leg) :
    Path edge' s legs s' := by
  induction path with
  | nil s => exact .nil s
  | cons first _ ih =>
    obtain ⟨here, behind⟩ := List.forall_mem_cons.mp imp
    exact .cons (here first) (ih behind)

theorem Path.edges (path : Path edge s legs s') : ∀ leg ∈ legs, edge leg := by
  induction path with
  | nil => exact List.forall_mem_nil _
  | cons first _ ih => exact List.forall_mem_cons.mpr ⟨first, ih⟩

theorem Leads.restarts_eq_false {leg : Leg} (leads : Leads leg) : leg.restarts = false := by
  cases leads with
  | hold moves => obtain rfl | rfl := moves <;> rfl
  | _ => rfl

/-- A path with restarts follows the graph of the lifecycle just when it has none. -/
theorem Path.leads_iff (path : Path Passes s legs s') :
    Path Leads s legs s' ↔ ∀ leg ∈ legs, leg.restarts = false := by
  constructor
  · exact fun follows leg member => (follows.edges leg member).restarts_eq_false
  · intro none
    refine path.mono fun leg member passes => passes.resolve_right fun restarted => ?_
    rw [none leg member] at restarted
    exact absurd restarted.1 Bool.false_ne_true

/-- A start that is no restart takes the run out of the pending state. -/
theorem Passes.of_starts {leg : Leg} (passes : Passes leg) (starts : leg.starts = true) :
    leg.restarts = true ∨ leg.source = .pending ∧ leg.target = .running := by
  obtain leads | restarts := passes
  · cases leads with
    | start => exact .inr ⟨rfl, rfl⟩
    | hold moves => obtain rfl | rfl := moves <;> simp [Leg.starts] at starts
    | _ => simp [Leg.starts] at starts
  · exact .inl restarts.1

/-- No leg enters the pending state. -/
theorem Passes.target_ne_pending {leg : Leg} (passes : Passes leg)
    (begun : leg.source ≠ .pending) : leg.target ≠ .pending := by
  obtain leads | restarts := passes
  · cases leads with
    | step | apply => exact begun
    | _ => exact RunState.noConfusion
  · rw [restarts.2]
    exact RunState.noConfusion

/-- All starts of a path are restarts, but for one if the run is pending at its head. -/
theorem Path.countP_starts_le (path : Path Passes s legs s') :
    legs.countP Leg.starts ≤ legs.countP Leg.restarts + if s = .pending then 1 else 0 := by
  induction path with
  | nil => exact Nat.zero_le _
  | @cons leg legs s first _ ih =>
    rw [List.countP_cons, List.countP_cons]
    have behind : legs.countP Leg.starts ≤
        legs.countP Leg.restarts + if leg.source = .pending then 1 else 0 := by
      by_cases pending : leg.source = .pending
      · rw [if_pos pending]
        split at ih <;> omega
      · rw [if_neg (first.target_ne_pending pending)] at ih
        rwa [if_neg pending]
    cases starts : leg.starts with
    | false => exact Nat.le_trans behind (Nat.add_le_add_right (Nat.le_add_right ..) _)
    | true =>
      obtain restarts | ⟨source, target⟩ := first.of_starts starts
      · rw [restarts]
        omega
      · rw [target] at ih
        rw [source]
        simp at ih ⊢
        omega

-- ---------------------------------------------------------------------------
-- Calls
-- ---------------------------------------------------------------------------

@[simp] theorem refuse_isOk {α : Type} {op : String} : (r.refuse op : Reply α).2.isOk = false := rfl

/-- A refused call leaves the run as it was. -/
theorem call_of_refused {c : Call} (refused : r.accepts now c = false) : r.call now c = r := by
  have fault {α : Type} {reply : Reply α} (h : reply.2.isOk = false) :
      ∃ fault, reply.2 = .error fault := by
    cases answer : reply.2 with
    | error fault => exact ⟨fault, rfl⟩
    | ok a =>
      rw [answer] at h
      cases h
  have same {α : Type} {reply : Reply α} (atomic : r.Atomic reply)
      (h : reply.2.isOk = false) : reply.1 = r := by
    obtain ⟨fault, answer⟩ := fault h
    exact atomic fault answer
  cases c with
  | start => exact same (atomic_start r now) refused
  | step =>
    obtain ⟨fault, answer⟩ := fault refused
    obtain ⟨commands, ok⟩ := step_ok r now
    cases answer.symm.trans ok
  | advance => exact same (atomic_advance r now) refused
  | retry => exact same (atomic_retry r now) refused
  | suspend => exact same (atomic_suspend r now) refused
  | resume => exact same (atomic_resume r now) refused
  | abort reason => exact same (atomic_abort r now reason) refused
  | apply event => exact same (atomic_apply r now event) refused

theorem passes_start (accepted : r.accepts now .start = true) :
    Passes ⟨r.state, .start, (r.call now .start).state⟩ := by
  cases allowed : r.state.allows .running with
  | false =>
    rw [accepts, start, enter_refused allowed] at accepted
    cases accepted
  | true =>
    rw [call, start, enter_allowed allowed rfl]
    cases state : r.state with
    | pending => exact .inl .start
    | holding | suspended => exact .inr ⟨rfl, rfl⟩
    | running | completed | aborted => simp [state, RunState.allows] at allowed

/-- A step follows the graph of the lifecycle. -/
theorem leads_step (r : Run) (now : Timestamp) :
    Leads ⟨r.state, .step, (r.call now .step).state⟩ := by
  by_cases running : r.state = .running
  · have moved : (r.step now).1.state = .running ∨ (r.step now).1.state = .holding ∨
        (r.step now).1.state = .completed := by
      refine step_induction (P := fun r' => r'.state = .running ∨ r'.state = .holding ∨
        r'.state = .completed) (.inl running) (fun stride _ => ?_) fun running _ _ _ => .inl running
      cases stride with
      | handOut running | closeStage running | closeGroup running => exact .inl running
      | hold => exact .inr (.inl rfl)
      | complete => exact .inr (.inr rfl)
    rw [call, running]
    obtain state | state | state := moved
    · rw [state]; exact .step
    · rw [state]; exact .hold (.inr rfl)
    · rw [state]; exact .complete
  · have same : r.call now .step = r := by simp [call, step, running]
    rw [same]
    exact .step

theorem leads_advance (accepted : r.accepts now .advance = true) :
    Leads ⟨r.state, .advance, (r.call now .advance).state⟩ := by
  by_cases running : r.state = .running
  · cases closed : r.stageIsOpen with
    | true => simp [accepts, advance, running, closed] at accepted
    | false =>
      by_cases clear : r.blocking = []
      · rw [call, advance_of_clear running closed clear, closeStage, running]
        exact .advance
      · rw [call, advance_of_blocked running closed clear, hold, running]
        exact .hold (.inl rfl)
  · simp [accepts, advance, running] at accepted

theorem suspend_of_accepted (accepted : (r.suspend now).2.isOk = true) :
    (r.state = .running ∨ r.state = .holding) ∧
      r.suspend now = (r.inState now .suspended, .ok ()) := by
  unfold suspend at accepted ⊢
  split
  next running => exact ⟨.inl running, enter_allowed (by rw [running]; rfl) rfl⟩
  next holding => exact ⟨.inr holding, enter_allowed (by rw [holding]; rfl) rfl⟩
  next other_running other_holding =>
    split at accepted
    next running => exact absurd running other_running
    next holding => exact absurd holding other_holding
    · cases accepted

theorem resume_of_accepted (accepted : (r.resume now).2.isOk = true) :
    (r.state = .suspended ∨ r.state = .holding) ∧
      r.resume now = (r.inState now .running, .ok ()) := by
  unfold resume at accepted ⊢
  split
  next suspended => exact ⟨.inl suspended, enter_allowed (by rw [suspended]; rfl) rfl⟩
  next holding => exact ⟨.inr holding, enter_allowed (by rw [holding]; rfl) rfl⟩
  next other_suspended other_holding =>
    split at accepted
    next suspended => exact absurd suspended other_suspended
    next holding => exact absurd holding other_holding
    · cases accepted

/-- An accepted call is a leg of the lifecycle, or a restart. -/
theorem passes_of_accepted {c : Call} (accepted : r.accepts now c = true) :
    Passes ⟨r.state, c, (r.call now c).state⟩ := by
  cases c with
  | start => exact passes_start accepted
  | step => exact .inl (leads_step r now)
  | advance => exact .inl (leads_advance accepted)
  | retry =>
    by_cases holding : r.state = .holding
    · rw [call, retry_of_holding holding, requeue, holding]
      exact .inl .retry
    · simp [accepts, retry, holding] at accepted
  | suspend =>
    obtain ⟨active, ends⟩ := suspend_of_accepted accepted
    rw [call, ends]
    exact .inl (.suspend active)
  | resume =>
    obtain ⟨idle, ends⟩ := resume_of_accepted accepted
    rw [call, ends]
    exact .inl (.resume idle)
  | abort reason =>
    cases live : r.state.isTerminal with
    | true =>
      rw [accepts, abort_of_archived live] at accepted
      cases accepted
    | false =>
      rw [call, abort_of_live live]
      exact .inl (.abort live)
  | apply event =>
    have same : (r.call now (.apply event)).state = r.state := by
      have applied := apply_applied r now event
      rw [call]
      generalize r.apply now event = reply at applied
      cases applied with
      | dropped | refused | begun | ended => rfl
    rw [same]
    exact .inl .apply

/-- The accepted calls of a history make a path. -/
theorem legs_path (r : Run) (history : List (Timestamp × Call)) :
    Path Passes r.state (r.legs history) (r.after history).state := by
  induction history generalizing r with
  | nil => exact .nil r.state
  | cons c history ih =>
    obtain ⟨now, c⟩ := c
    have rest : Path Passes (r.call now c).state ((r.call now c).legs history)
        (r.after ((now, c) :: history)).state := ih (r.call now c)
    rw [legs]
    cases accepted : r.accepts now c with
    | true => exact .cons (passes_of_accepted accepted) rest
    | false =>
      rw [call_of_refused accepted] at rest ⊢
      exact rest

/-- The lifecycle of a run. Whatever is called on a new run, the accepted calls make a path from the pending
state to the state it is in, along the graph of the lifecycle and restarts, and a refused call changes
nothing. The path follows the graph just when it has no restart, and all of its starts but one are restarts.
A restart is never refused: a start is accepted when the run is pending, holds or is suspended. -/
theorem lifecycle_up_to_restarts (id : RunId) (plan : Plan) (policy : Policy) (created : Timestamp)
    (history : List (Timestamp × Call)) :
    let first := create id plan policy created
    let last := first.after history
    Path Passes .pending (first.legs history) last.state ∧
    (Path Leads .pending (first.legs history) last.state ↔
      ∀ leg ∈ first.legs history, leg.restarts = false) ∧
    (first.legs history).countP Leg.starts ≤ (first.legs history).countP Leg.restarts + 1 ∧
    (∀ now c, last.accepts now c = false → last.call now c = last) ∧
    ∀ now, last.accepts now .start = true ↔
      last.state = .pending ∨ last.state = .holding ∨ last.state = .suspended := by
  intro first last
  have path : Path Passes .pending (first.legs history) last.state := legs_path first history
  refine ⟨path, path.leads_iff, path.countP_starts_le, fun now c => call_of_refused, fun now => ?_⟩
  cases state : last.state with
  | pending | holding | suspended =>
    rw [accepts, start, enter_allowed (by rw [state]; rfl) rfl]
    simp [Except.isOk, Except.toBool]
  | running | completed | aborted =>
    rw [accepts, start, enter_refused (by rw [state]; rfl)]
    simp

def soloPlan : Plan :=
  ⟨"solo", "1.0", "1.1", [⟨"db", false,
    [⟨"restart db (1.1)", .restart, [⟨"alpha", "db", "server", .restart, "1.1"⟩]⟩]⟩]⟩

/-- The task fails and the run holds; then it is started again, suspended, and started once more. -/
def restarted : List (Timestamp × Call) :=
  [.start, .step, .apply (.finished 0 (.failed (.hostUnreachable "alpha" 3) 0)), .step, .start, .suspend,
    .start].map fun c => (.epoch, c)

theorem lifecycle_up_to_restarts_restarted :
    let first := create (.ofNat 0) soloPlan .upgrade .epoch
    Path Passes .pending (first.legs restarted) .running ∧
    (first.legs restarted).countP Leg.starts = 3 ∧ (first.legs restarted).countP Leg.restarts = 2 ∧
    (first.after restarted).accepts .epoch .resume = false ∧
    (first.after restarted).call .epoch .resume = first.after restarted := by
  intro first
  have running : (first.after restarted).state = .running := by decide +kernel
  have refused : (first.after restarted).accepts .epoch .resume = false := by decide +kernel
  obtain ⟨path, _, _, still, _⟩ :=
    lifecycle_up_to_restarts (.ofNat 0) soloPlan .upgrade .epoch restarted
  exact ⟨running ▸ path, by decide +kernel, by decide +kernel, refused, still .epoch .resume refused⟩

theorem restarts_are_accepted :
    let first := create (.ofNat 0) soloPlan .upgrade .epoch
    (first.legs restarted).filter Leg.starts =
      [⟨.pending, .start, .running⟩, ⟨.holding, .start, .running⟩, ⟨.suspended, .start, .running⟩] ∧
    ¬ Path Leads .pending (first.legs restarted) (first.after restarted).state := by
  intro first
  have starts : (first.legs restarted).filter Leg.starts =
      [⟨.pending, .start, .running⟩, ⟨.holding, .start, .running⟩, ⟨.suspended, .start, .running⟩] := by
    decide +kernel
  refine ⟨starts, fun follows => ?_⟩
  have member : ⟨.holding, .start, .running⟩ ∈ first.legs restarted := by
    refine (List.mem_filter.mp (?_ : _ ∈ (first.legs restarted).filter Leg.starts)).1
    rw [starts]
    decide
  exact absurd (follows.edges _ member).restarts_eq_false (by decide)

end Rollout.Run
