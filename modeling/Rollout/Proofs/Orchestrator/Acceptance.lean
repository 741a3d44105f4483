-- SUMMARY: Runs take all news of their workers, and are aborted only when someone asks for it.
import Rollout.Proofs.Orchestrator.Sound

/-!
# Acceptance

A driver that meets a fault aborts its run. In no history does it meet one: the run can be begun, it
takes every event of its own workers, and a step never fails. So a run that is aborted was aborted by a
command, or because nobody gives commands any more.
-/
namespace Rollout

namespace Run

variable {r : Run} {now : Timestamp}

/-- A step aborts nothing. -/
theorem state_of_step_aborted {reply : Reply (List TaskCommand)} (stepped : r.step now = reply)
    (aborted : reply.1.state = .aborted) : r.state = .aborted := by
  subst stepped
  refine step_induction (P := fun r' => r'.state = .aborted → r.state = .aborted)
    (fun aborted => aborted) ?_ ?_ aborted
  · intro r₁ r₂ stride ih aborted
    cases stride with
    | handOut => exact ih aborted
    | closeStage => exact ih aborted
    | closeGroup => exact ih aborted
    | hold => cases aborted
    | complete => cases aborted
  · intro r₁ _ _ _ _ ih aborted
    exact ih aborted

theorem Applied.state {event : TaskEvent} {reply : Reply Unit} (h : Applied now r event reply) :
    reply.1.state = r.state := by
  cases h <;> rfl

theorem state_of_started {r' : Run} (h : r.start now = (r', .ok ())) : r'.state = .running := by
  unfold start enter at h
  split at h
  · cases h
    rfl
  · cases h

end Run

/-- No command but an abort archives a run. -/
theorem Control.eq_abort (c : Control) {now : Timestamp} {r : Run} (before : r.state.isTerminal = false)
    (after : (c.apply now r).1.state.isTerminal = true) : ∃ reason, c = .abort reason := by
  cases c with
  | abort reason => exact ⟨reason, rfl⟩
  | retry =>
    by_cases holding : r.state = .holding
    · simp [apply, Run.retry_of_holding holding, Run.requeue, RunState.isTerminal] at after
    · simp [apply, Run.retry, holding, Run.refuse, before] at after
  | suspend =>
    simp only [apply, Run.suspend] at after
    split at after
    next running =>
      rw [Run.enter_allowed (by rw [running]; rfl) rfl] at after
      cases after
    next holding =>
      rw [Run.enter_allowed (by rw [holding]; rfl) rfl] at after
      cases after
    · cases before.symm.trans after
  | resume =>
    simp only [apply, Run.resume] at after
    split at after
    next suspended =>
      rw [Run.enter_allowed (by rw [suspended]; rfl) rfl] at after
      cases after
    next holding =>
      rw [Run.enter_allowed (by rw [holding]; rfl) rfl] at after
      cases after
    · cases before.symm.trans after

namespace Orchestrator

variable {o o' : Orchestrator} {i : Nat} {d d' : Driver} {x : Executor} {turn : Turn}

/-- Someone asks for the end of the run at position `i`: its driver takes the command to abort it, or
finds that nobody gives commands any more. -/
def Demands (o : Orchestrator) (i : Nat) (d : Driver) (turn : Turn) : Prop :=
  (turn = .control i ∧ ∃ client reason rest, d.tickets = ⟨client, .abort reason⟩ :: rest) ∨
    (turn = .hangUp i ∧ o.isDropped = true)

/-- What archives a run when its driver takes it in is a demand to end the run. -/
theorem Intake.demands {d₁ : Driver} {x₁ : Executor} {r : Run} (h : Intake o i d x turn d₁ x₁ r)
    (before : d.run.state.isTerminal = false) (after : r.state.isTerminal = true) :
    o.Demands i d turn := by
  cases h with
  | begin _ started =>
    rw [Run.state_of_started started] at after
    cases after
  | @event event _ _ _ _ applied =>
    have same := (Run.apply_applied d.run o.wall event).state
    rw [applied] at same
    cases before.symm.trans ((congrArg RunState.isTerminal same).symm.trans after)
  | @control ticket rest _ _ tickets controlled =>
    obtain ⟨client, control⟩ := ticket
    rw [← controlled] at after
    obtain ⟨reason, rfl⟩ := control.eq_abort before after
    exact .inl ⟨rfl, client, reason, rest, tickets⟩
  | hangUp _ dropped => exact .inr ⟨rfl, dropped⟩

/-- A run is changed by turns of its own driver only. -/
theorem Sound.run_eq_or_driven (h : o.Sound) (stepped : o.step? turn = some o')
    (hd : o.drivers[i]? = some d) (hd' : o'.drivers[i]? = some d') :
    d'.run = d.run ∨ Driven i o o' turn := by
  obtain driven | ⟨d₁, hd₁, same, _⟩ := (h.shift stepped).driver hd
  · exact .inr driven
  · cases hd₁.symm.trans hd'
    exact .inl same

/-- In every history no driver meets a fault. A run that was not begun can be begun, a run that is not
archived takes the next event of its workers, whatever the time, and no step of a run fails. So a run
that a turn aborts is aborted because someone asks for it. -/
theorem aborted_only_on_demand {settings : EngineSettings} {o : Orchestrator}
    (reachable : o.Reachable settings) :
    (∀ (i : Nat) (d : Driver) (x : Executor) event rest, o.drivers[i]? = some d →
      o.engine.executors[i]? = some x → d.run.state.isTerminal = false →
      x.channel = event :: rest → ∀ now, (d.run.apply now event).2 = .ok ()) ∧
    (∀ (i : Nat) (d : Driver), o.drivers[i]? = some d → d.hasBegun = false →
      ∀ now, (d.run.start now).2 = .ok ()) ∧
    (∀ (r : Run) now, ∃ commands, (r.step now).2 = .ok commands) ∧
    ∀ turn (o' : Orchestrator) (i : Nat) (d d' : Driver), o.step? turn = some o' →
      o.drivers[i]? = some d → o'.drivers[i]? = some d' → d.run.state ≠ .aborted →
      d'.run.state = .aborted → o.Demands i d turn := by
  have sound := Sound.of_reachable reachable
  refine ⟨?_, ?_, Run.step_ok, ?_⟩
  · intro i d x event rest hd hx live channel now
    obtain ⟨orderly, account⟩ := sound.agreed hd hx live
    obtain ⟨r', applied, _⟩ := account.take orderly live channel now
    rw [applied]
  · intro i d hd unbegun now
    rw [Run.start_of_pending (sound.begun d (List.mem_of_getElem? hd) unbegun)]
  · intro turn o' i d d' stepped hd hd' before after
    obtain same | driven := sound.run_eq_or_driven stepped hd hd'
    · rw [same] at after
      exact absurd after before
    · obtain @⟨_, _, _, _, _, _, _, driver, _, live, _, intake, step, became⟩ := driven
      cases hd.symm.trans driver
      cases (became.driver? hd).symm.trans hd'
      rw [Driver.published_run] at after
      refine intake.demands live ?_
      rw [Run.state_of_step_aborted step after]
      rfl

/-- A component on two hosts, and the turns until a worker announces the first command. -/
def firstNews : List Turn :=
  let topology : Topology :=
    ⟨"small", "1.0", "1.1", [⟨"db", false, [⟨"server", ["alpha", "beta"], false⟩]⟩]⟩
  [.create (.ofNat 0) topology [] none, .begin 0] ++
  List.replicate 5 (.engine (.work 0)) ++
  [.engine (.supervise 0 "alpha"), .engine (.work 0), .engine (.supervise 0 "alpha"),
    .engine (.pong 0 "alpha" (some .epoch))] ++
  List.replicate 3 (.engine (.work 0))

/-- The worker sends the first command. -/
def firstCall : List Turn := firstNews ++ [.engine (.work 0)]

/-- A fresh orchestrator after turns that are possible. -/
def after (turns : List Turn) : Orchestrator :=
  ((start .default .epoch).play? turns).getD (start .default .epoch)

theorem play?_after {turns : List Turn}
    (possible : ((start .default .epoch).play? turns).isSome = true) :
    (start .default .epoch).play? turns = some (after turns) := by
  obtain ⟨o, played⟩ := Option.isSome_iff_exists.mp possible
  rw [after, played]
  rfl

theorem after_reachable {turns : List Turn}
    (possible : ((start .default .epoch).play? turns).isSome = true) :
    (after turns).Reachable .default :=
  ⟨.epoch, turns, play?_after possible⟩

theorem aborted_only_on_demand_firstCall :
    (after firstCall).Reachable .default ∧
      ∃ d x, (after firstCall).drivers[0]? = some d ∧
        (after firstCall).engine.executors[0]? = some x ∧ x.channel = [.started 0 1] ∧
        d.run.state = .running ∧ (d.run.apply .epoch (.started 0 1)).2 = .ok () := by
  have reachable : (after firstCall).Reachable .default := after_reachable (by decide +kernel)
  have run : ((after firstCall).drivers[0]?).map (fun d => d.run.state) = some .running := by
    decide +kernel
  have news : ((after firstCall).engine.executors[0]?).map Executor.channel =
      some [.started 0 1] := by decide +kernel
  obtain ⟨d, hd, running⟩ := Option.map_eq_some_iff.mp run
  obtain ⟨x, hx, channel⟩ := Option.map_eq_some_iff.mp news
  have live : d.run.state.isTerminal = false := by rw [running]; rfl
  exact ⟨reachable, d, x, hd, hx, channel, running,
    (aborted_only_on_demand reachable).1 0 d x _ _ hd hx live channel .epoch⟩

end Orchestrator

end Rollout
