-- SUMMARY: Which requests for a run are prepared, and that all others are refused by validation.
import Rollout.Orchestrator.Basic
import Rollout.Proofs.Plan.Placement
import Rollout.Proofs.Policy.Directives

/-!
# Requests

A request for a run is prepared in three steps: its directives are read, the run that it reverses is looked
up, and its plan is built. Each step says just when it succeeds, and fails by validation if it does not.
-/
namespace Rollout

theorem Plan.expand_error {t : Topology} {downgrade skip : Bool} {fault : Fault}
    (refused : expand t downgrade skip = .error fault) : fault.isValidation = true := by
  cases valid : t.validate with
  | error fault' =>
    rw [expand, valid] at refused
    cases refused
    unfold Topology.validate at valid
    split at valid
    · cases valid
    · cases valid
      rfl
  | ok =>
    rw [expand_of_wellFormed (Topology.validate_eq_ok_iff.mp valid)] at refused
    split at refused
    · cases refused
      rfl
    · cases refused

namespace Orchestrator

variable {o : Orchestrator} {id : RunId} {t : Topology} {directives : Directives}
  {reference : Option RunId} {fault : Fault}

/-- The runs that a downgrade of a topology may reverse: known forward runs that are archived and had a
topology of that name. -/
theorem checkReference_eq_ok_iff : o.checkReference id t = .ok () ↔
    ∃ i d, o.find? id = some (i, d) ∧ d.snapshot.policy.isDowngrade = false ∧
      d.snapshot.state.isTerminal = true ∧ d.snapshot.plan.topology = t.name := by
  unfold checkReference
  dsimp only
  cases found : o.find? id with
  | none => simp
  | some entry =>
    obtain ⟨i, d⟩ := entry
    have only : (∃ i' d', some (i, d) = some (i', d') ∧ d'.snapshot.policy.isDowngrade = false ∧
        d'.snapshot.state.isTerminal = true ∧ d'.snapshot.plan.topology = t.name) ↔
        d.snapshot.policy.isDowngrade = false ∧ d.snapshot.state.isTerminal = true ∧
          d.snapshot.plan.topology = t.name := by
      constructor
      · rintro ⟨_, _, ⟨⟩, fits⟩
        exact fits
      · exact fun fits => ⟨i, d, rfl, fits⟩
    rw [only]
    cases down : d.snapshot.policy.isDowngrade with
    | true => simp [down]
    | false =>
      cases archived : d.snapshot.state.isTerminal with
      | false => simp [down, archived]
      | true => by_cases same : d.snapshot.plan.topology = t.name <;> simp [down, archived, same]

theorem checkReference_error (refused : o.checkReference id t = .error fault) :
    fault.isValidation = true := by
  unfold checkReference at refused
  dsimp only at refused
  split at refused
  · cases refused
    rfl
  · split at refused
    · cases refused
      rfl
    · split at refused
      · cases refused
        rfl
      · split at refused
        · cases refused
          rfl
        · cases refused

/-- A request is prepared with the policy that the directives ask for and with the plan of its topology,
and when it reverses a run, that run may be reversed. -/
theorem prepare_eq_ok_iff {policy : Policy} {plan : Plan} :
    o.prepare t directives reference = .ok (policy, plan) ↔
      directives.policy reference = .ok policy ∧
      (∀ id, policy.direction.reverses? = some id → o.checkReference id t = .ok ()) ∧
      Plan.build t policy = .ok plan := by
  simp only [prepare, bind, Except.bind, pure, Except.pure]
  cases asked : directives.policy reference with
  | error fault => simp
  | ok policy' =>
    dsimp only
    constructor
    · intro prepared
      split at prepared
      next id reverses =>
        cases checked : o.checkReference id t with
        | error fault => simp [checked] at prepared
        | ok =>
          cases built : Plan.build t policy' with
          | error fault => simp [checked, built] at prepared
          | ok plan' =>
            simp only [checked, built] at prepared
            cases prepared
            refine ⟨rfl, fun id' reverses' => ?_, built⟩
            cases reverses.symm.trans reverses'
            exact checked
      next forward =>
        cases built : Plan.build t policy' with
        | error fault => simp [built] at prepared
        | ok plan' =>
          simp only [built] at prepared
          cases prepared
          exact ⟨rfl, fun id reverses => absurd reverses (forward id), built⟩
    · rintro ⟨same, checked, built⟩
      cases same
      split
      next id reverses => rw [checked id reverses, built]
      next => rw [built]

/-- A request that is not prepared is refused by validation. -/
theorem prepare_error (refused : o.prepare t directives reference = .error fault) :
    fault.isValidation = true := by
  simp only [prepare, bind, Except.bind, pure, Except.pure] at refused
  split at refused
  next asked =>
    cases refused
    exact Directives.policy_error asked
  · split at refused
    · split at refused
      next checked =>
        cases refused
        exact checkReference_error checked
      · split at refused
        next built =>
          cases refused
          exact Plan.expand_error built
        · cases refused
    · split at refused
      next built =>
        cases refused
        exact Plan.expand_error built
      · cases refused

theorem createRun_of_ok {policy : Policy} {plan : Plan}
    (prepared : o.prepare t directives reference = .ok (policy, plan)) :
    o.createRun id t directives reference = (o.addRun (Run.create id plan policy o.wall), .ok id) := by
  unfold createRun
  rw [prepared]

theorem createRun_of_error (refused : o.prepare t directives reference = .error fault) :
    o.createRun id t directives reference = (o, .error fault) := by
  unfold createRun
  rw [refused]

end Orchestrator

end Rollout
