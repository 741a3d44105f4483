-- SUMMARY: Applying an upgrade ends as it should: runs are retried within the budget, nothing fails, and the exit code is honest.
import Rollout.Program
import Rollout.Proofs.Application.Progress
import Rollout.Proofs.Orchestrator.AttemptCounts

/-!
# Outcomes

Whatever agents, engine and drivers do, an upgrade that is applied without an operator comes out as its options
say. Each run is retried within a budget of its own and aborted when it holds once more. Nothing fails after the
upgrade was accepted. The downgrade is asked for just when it is wanted and is always accepted, and the exit
code tells how the upgrade ended.
-/
namespace Rollout.Undertaking

open Orchestrator

/-- The undertaking comes out as its options say. -/
structure Honest (u : Undertaking) (s : Situation) : Prop where
  /-- The turns are turns of an orchestrator. -/
  played : u.fresh.play? s.turns = some s.orchestrator
  /-- There is the upgrade, and there may be the downgrade that reverses it. Both run the checks, or both skip
  them. -/
  runs : s.orchestrator.drivers.map (fun d => (d.run.id, d.run.policy)) =
    [(u.upgradeId, u.forth), (u.downgradeId, u.back)].take s.orchestrator.drivers.length
  /-- Each run goes as it should, with a budget of its own, and holds at most once more than the budget. -/
  conduct : ∀ i d, s.orchestrator.drivers[i]? = some d → ∃ k plan now,
    let first := Run.create d.run.id plan d.run.policy now
    let log := u.fresh.logbook i s.turns
    Plan.build u.topology d.run.policy = .ok plan ∧ k ≤ u.options.budget ∧
      Conducted u.options.budget k first log d.run ∧
      (first.journey log.calls).countP (fun leg => leg.target = .holding) ≤ u.options.budget + 1
  /-- Nothing is asked for but these runs, and nothing is refused but the upgrade. -/
  requested : s.turns.filterMap Turn.request? = u.requests.take (max 1 s.orchestrator.drivers.length)
  accepted : u.fresh.commissions s.turns = u.requests.take s.orchestrator.drivers.length
  refused : ∀ fault, s.application.phase = .failed fault → s.orchestrator.drivers = [] ∧
    u.fresh.prepare u.topology (Application.directives u.options false) none = .error fault ∧
    ∀ filter, (Program.reported filter s.application).exit = some 1
  /-- The upgrade is followed without a failure. -/
  upgrade : ∀ attendant, s.application.phase = .upgrade attendant →
    s.orchestrator.drivers.length = 1 ∧ ∀ fault, attendant.watch ≠ .failed fault
  /-- The downgrade is followed without a failure, after the upgrade was aborted. -/
  downgrade : ∀ upgrade attendant, s.application.phase = .downgrade upgrade attendant →
    (upgrade.state = .aborted ∧ u.options.downgradeOnAbort = true) ∧
      s.orchestrator.drivers.length = 2 ∧ ∀ fault, attendant.watch ≠ .failed fault
  /-- At the end all runs are archived, and there is a downgrade just when the upgrade was aborted and a
  downgrade is wanted then. The exit code tells how the upgrade ended. -/
  done : ∀ upgrade, s.application.phase = .done upgrade →
    (∀ d ∈ s.orchestrator.drivers, d.run.state.isTerminal = true) ∧
    (s.orchestrator.drivers[0]?).map Driver.run = some upgrade ∧
    s.orchestrator.drivers.length =
      (if upgrade.state = .aborted ∧ u.options.downgradeOnAbort = true then 2 else 1) ∧
    ∀ filter, (Program.reported filter s.application).exit =
      some (if upgrade.state = .completed then 0 else 1)
  /-- Once the runs are archived, the application goes on to its end. -/
  lively : (∀ d ∈ s.orchestrator.drivers, d.run.state.isTerminal = true) →
    s.application.success? = none → (s.act? .go).isSome = true

variable {u : Undertaking} {s : Situation} {acts : List Situation.Act}

/-- The run is one that the undertaking may have. -/
theorem Carries.conduct {turns : List Turn} {i k : Nat} {id : RunId} {policy : Policy} {r : Run}
    (h : u.Carries turns i k id policy r) : ∃ k plan now,
      let first := Run.create r.id plan r.policy now
      let log := u.fresh.logbook i turns
      Plan.build u.topology r.policy = .ok plan ∧ k ≤ u.options.budget ∧
        Conducted u.options.budget k first log r ∧
        (first.journey log.calls).countP (fun leg => leg.target = .holding) ≤ u.options.budget + 1 := by
  obtain ⟨same, same', _⟩ := h.charter
  obtain ⟨within, plan, now, built, conducted⟩ := h
  rw [same, same']
  exact ⟨k, plan, now, built, within, conducted,
    Nat.le_trans conducted.conduct.holds_le (Nat.succ_le_succ within)⟩

namespace Progress

variable {turns : List Turn} {o : Orchestrator} {phase : ApplyPhase}

theorem runs (h : Progress u turns o phase) : o.drivers.map (fun d => (d.run.id, d.run.policy)) =
    [(u.upgradeId, u.forth), (u.downgradeId, u.back)].take o.drivers.length := by
  cases h with
  | refused nothing => simp [nothing]
  | upgrade alone forward | finished alone forward =>
    obtain ⟨id, policy, _⟩ := forward.charter
    simp [alone, id, policy]
  | downgrade both forward _ _ backward | reversed both forward _ _ backward =>
    obtain ⟨id, policy, _⟩ := forward.charter
    obtain ⟨id', policy', _⟩ := backward.charter
    simp [both, id, policy, id', policy']

/-- Each run is one that the undertaking carries. -/
theorem carries (h : Progress u turns o phase) {i : Nat} {d : Driver} (hd : o.drivers[i]? = some d) :
    ∃ k id policy, u.Carries turns i k id policy d.run := by
  cases h with
  | refused nothing => simp [nothing] at hd
  | @upgrade d₀ _ _ alone forward | @finished d₀ _ alone forward =>
    rw [alone] at hd
    match i with
    | 0 =>
      cases hd
      exact ⟨_, _, _, forward⟩
    | i + 1 => cases hd
  | @downgrade d₀ d₁ _ _ _ both forward _ _ backward | @reversed d₀ d₁ _ _ both forward _ _ backward =>
    rw [both] at hd
    match i with
    | 0 =>
      cases hd
      exact ⟨_, _, _, forward⟩
    | 1 =>
      cases hd
      exact ⟨_, _, _, backward⟩
    | i + 2 => cases hd

/-- At the end the runs are archived. -/
theorem done {upgrade : Run} (h : Progress u turns o (.done upgrade)) :
    (∀ d ∈ o.drivers, d.run.state.isTerminal = true) ∧ (o.drivers[0]?).map Driver.run = some upgrade ∧
      o.drivers.length =
        if upgrade.state = .aborted ∧ u.options.downgradeOnAbort = true then 2 else 1 := by
  cases h with
  | finished alone _ archived unwanted =>
    rw [alone]
    refine ⟨by simpa using archived, rfl, (if_neg fun wanted => ?_).symm⟩
    simp [wanted.1, wanted.2] at unwanted
  | reversed both _ aborted wanted _ archived =>
    rw [both]
    refine ⟨?_, rfl, (if_pos ⟨aborted, wanted⟩).symm⟩
    simpa [aborted, RunState.isTerminal] using archived

/-- Once the runs are archived, the application goes on to its end. -/
theorem lively {a : Application} (h : Progress u turns o a.phase) (published : o.Published)
    (archived : ∀ d ∈ o.drivers, d.run.state.isTerminal = true) (unfinished : a.success? = none) :
    (a.step? o).isSome = true := by
  generalize phase : a.phase = p at h
  cases h with
  | refused | finished | reversed => simp [Application.success?, phase] at unfinished
  | @upgrade d _ attendant alone _ attends =>
    have hd : o.drivers[0]? = some d := by rw [alone]; rfl
    obtain ⟨seen, _⟩ | ⟨follows, fit⟩ := attends.over_or_at_work
    · simp only [Application.step?, phase, seen, Option.isSome_some]
    · rw [(Application.step?_upgrade phase follows fit).1, Option.isSome_map]
      exact attends.goes_on published hd (archived d (List.mem_of_getElem? hd)) follows _
  | @downgrade _ d _ _ attendant both _ _ _ _ attends =>
    have hd : o.drivers[1]? = some d := by rw [both]; rfl
    obtain ⟨seen, _⟩ | ⟨follows, fit⟩ := attends.over_or_at_work
    · simp only [Application.step?, phase, seen, Option.isSome_some]
    · rw [(Application.step?_downgrade phase follows fit).1, Option.isSome_map]
      exact attends.goes_on published hd (archived d (List.mem_of_getElem? hd)) follows _

end Progress

/-- Whatever phase an undertaking is in, it is honest about its runs. -/
theorem Underway.honest (h : u.Underway s) : u.Honest s where
  played := h.played
  runs := h.progress.runs
  conduct i d hd := by
    obtain ⟨_, _, _, carries⟩ := h.progress.carries hd
    exact carries.conduct
  requested := h.requested
  accepted := h.accepted
  refused fault phase := by
    have progress := h.progress
    rw [phase] at progress
    cases progress with
    | refused nothing refused =>
      refine ⟨nothing, refused, fun filter => ?_⟩
      simp only [Program.reported, phase, Program.failed]
  upgrade attendant phase := by
    have progress := h.progress
    rw [phase] at progress
    cases progress with
    | upgrade alone _ attends => exact ⟨by rw [alone]; rfl, attends.not_failed⟩
  downgrade upgrade attendant phase := by
    have progress := h.progress
    rw [phase] at progress
    cases progress with
    | downgrade both _ aborted wanted _ attends =>
      exact ⟨⟨aborted, wanted⟩, by rw [both]; rfl, attends.not_failed⟩
  done upgrade phase := by
    have progress := h.progress
    rw [phase] at progress
    obtain ⟨archived, first, length⟩ := progress.done
    refine ⟨archived, first, length, fun filter => ?_⟩
    simp only [Program.reported, phase, Application.success?, Option.map_some]
    by_cases completed : upgrade.state = .completed <;> simp [completed]
  lively archived unfinished := by
    have published := Published.of_reachable ⟨u.wall, s.turns, h.played⟩
    rw [Situation.act?, Option.isSome_map]
    exact h.progress.lively published archived unfinished

/-- Applying an upgrade is bounded and honest. -/
theorem applying_is_bounded_and_honest (automatic : u.options.onHold ≠ .wait)
    (distinct : u.downgradeId ≠ u.upgradeId) (played : u.begun.play? acts = some s) : u.Honest s :=
  (u.begun_underway.play distinct automatic played).honest

/-- An upgrade of a single host, whose run may be retried once, and which is reversed if it is aborted. -/
def stubborn : Undertaking where
  settings := .default
  wall := .epoch
  options := ⟨"lonely.yaml", true, .retry, 1, true⟩
  topology := lonely
  upgradeId := .ofNat 0
  downgradeId := .ofNat 1

/-- A worker asks for the session with its host. -/
def seeking (registry worker : Nat) : List Turn :=
  working worker 5 ++ [.engine (.supervise registry "alpha")]

/-- The host answers the first ping. -/
def meeting (registry worker : Nat) : List Turn :=
  [.engine (.work worker), .engine (.supervise registry "alpha"),
    .engine (.pong registry "alpha" (some .epoch))]

/-- A worker calls, the host refuses the command, and the driver hears of it. -/
def failing (run worker call : Nat) : List Turn :=
  working worker 4 ++ .engine (.answer worker call (some (.commandRejected "alpha" "busy"))) ::
    working worker 3 ++ [.event run, .event run]

/-- A run holds and is retried, and it holds again and is aborted. -/
def holdsTwice (run call call' : Nat) : List Situation.Act :=
  (.begin run :: seeking run (2 * run) ++ meeting run (2 * run) ++
      failing run (2 * run) call).map .turn ++ [.go, .turn (.control run), .go] ++
    (seeking run (2 * run + 1) ++ failing run (2 * run + 1) call').map .turn ++
    [.go, .turn (.control run), .go, .go, .go]

theorem applying_is_bounded_and_honest_stubborn :
    ∃ s, stubborn.begun.play? (holdsTwice 0 2 6 ++ holdsTwice 1 11 15) = some s ∧ stubborn.Honest s ∧
      s.application.success? = some false ∧
      s.orchestrator.drivers.map (fun d => d.run.state) = [.aborted, .aborted] ∧
      [0, 1].map (fun i => (stubborn.fresh.logbook i s.turns).orders) =
        [[.retry, .abort "held at stop db (1.0)"], [.retry, .abort "held at stop db (1.1)"]] := by
  have possible : (stubborn.begun.play? (holdsTwice 0 2 6 ++ holdsTwice 1 11 15)).map (fun s =>
      (s.application.success?, s.orchestrator.drivers.map (fun d => d.run.state),
        [0, 1].map fun i => (stubborn.fresh.logbook i s.turns).orders)) =
      some (some false, [.aborted, .aborted],
        [[.retry, .abort "held at stop db (1.0)"], [.retry, .abort "held at stop db (1.1)"]]) := by
    decide +kernel
  obtain ⟨s, played, seen⟩ := Option.map_eq_some_iff.mp possible
  obtain ⟨ended, seen⟩ := Prod.mk.inj seen
  obtain ⟨states, orders⟩ := Prod.mk.inj seen
  exact ⟨s, played, applying_is_bounded_and_honest (by decide) (by decide) played, ended, states, orders⟩

end Rollout.Undertaking
