-- SUMMARY: A request for a run is accepted just when it is valid, and a refused one leaves no trace.
import Rollout.Proofs.Orchestrator.Commission
import Rollout.Proofs.Orchestrator.Progress
import Rollout.Proofs.Orchestrator.Reversal
import Rollout.Proofs.Plan.Coverage

/-!
# Admission

Whether a request is accepted can be said without the order in which it is checked: of its directives, of its
topology, and of the requests that were accepted before. Nothing is changed before all checks are made.
-/
namespace Rollout.Orchestrator

/-- A downgrade of a topology of this name may reverse the run: it was asked for without a reference, for a
topology of the name, and is archived. -/
def IsReversible (o : Orchestrator) (past : List Commission) (id : RunId) (topology : String) : Prop :=
  ∃ forward ∈ past, forward.id = id ∧ forward.reference = none ∧ forward.topology.name = topology ∧
    ∃ r, o.getRun id = .ok r ∧ (r.state = .completed ∨ r.state = .aborted)

/-- The request may be accepted after the requests of the past: its directives are fit, they ask for a
downgrade just when a run is referenced, this run may be reversed, and the topology is valid and places
something. -/
structure Admits (o : Orchestrator) (past : List Commission) (q : Commission) : Prop where
  directives : q.directives.AreFit
  referenced : q.directives.IsSet Directives.downgradeKey ↔ q.reference.isSome = true
  reversible : ∀ id, q.reference = some id → o.IsReversible past id q.topology.name
  topology : q.topology.validate = .ok ()
  placed : ∃ p, q.topology.Places p

variable {o : Orchestrator} {settings : EngineSettings} {wall : Timestamp} {turns : List Turn}

/-- The runs that are found reversible are those that may be reversed. -/
theorem checkReference_iff (played : (start settings wall).play? turns = some o) {id : RunId}
    {t : Topology} : o.checkReference id t = .ok () ↔
      o.IsReversible ((start settings wall).commissions turns) id t.name := by
  rw [checkReference_eq_ok_iff]
  constructor
  · rintro ⟨i, d, found, forward, archived, name⟩
    have read := getRun_eq_ok_iff.mpr ⟨i, d, found, rfl⟩
    obtain ⟨q, accepted, named, grants⟩ := commission_of_read played read
    exact ⟨q, accepted, named, grants.forward_iff.mp forward, grants.topology.symm.trans name,
      d.snapshot, read, RunState.isTerminal_iff.mp archived⟩
  · rintro ⟨q, accepted, rfl, forward, name, r, read, archived⟩
    have grants := grants_of_read played accepted read
    obtain ⟨i, d, found, rfl⟩ := getRun_eq_ok_iff.mp read
    exact ⟨i, d, found, grants.forward_iff.mpr forward, RunState.isTerminal_iff.mpr archived,
      grants.topology.trans name⟩

/-- Only requests that are valid are prepared. -/
theorem admits_of_prepared (played : (start settings wall).play? turns = some o) {q : Commission}
    {policy : Policy} {plan : Plan}
    (prepared : o.prepare q.topology q.directives q.reference = .ok (policy, plan)) :
    o.Admits ((start settings wall).commissions turns) q := by
  obtain ⟨asked, checked, built⟩ := prepare_eq_ok_iff.mp prepared
  obtain ⟨fit, referenced, direction, _⟩ := Directives.policy_eq_ok_iff.mp asked
  obtain ⟨valid, placed⟩ := Plan.expand_isOk_iff.mp ⟨plan, built⟩
  refine ⟨fit, referenced, fun id reference => ?_, valid, placed⟩
  exact (checkReference_iff played).mp (checked id (by rw [direction, reference]; rfl))

/-- Every valid request is prepared, with the policy that it asks for. -/
theorem Admits.prepared (played : (start settings wall).play? turns = some o) {q : Commission}
    (admitted : o.Admits ((start settings wall).commissions turns) q) :
    ∃ skip plan, (skip = true ↔ q.directives.IsSet Directives.skipServiceChecksKey) ∧
      Plan.build q.topology ⟨q.reference.elim .upgrade .downgrade, skip⟩ = .ok plan ∧
      o.prepare q.topology q.directives q.reference =
        .ok (⟨q.reference.elim .upgrade .downgrade, skip⟩, plan) := by
  obtain ⟨_, _, skip, skipped⟩ := Directives.areFit_iff.mp admitted.directives
  have skips := (Directives.flag_eq_ok_iff.mp skipped).2
  obtain ⟨plan, built⟩ : ∃ plan,
      Plan.build q.topology ⟨q.reference.elim .upgrade .downgrade, skip⟩ = .ok plan :=
    Plan.expand_isOk_iff.mpr ⟨admitted.topology, admitted.placed⟩
  refine ⟨skip, plan, skips, built, prepare_eq_ok_iff.mpr ⟨?_, fun id reverses => ?_, built⟩⟩
  · exact Directives.policy_eq_ok_iff.mpr ⟨admitted.directives, admitted.referenced, rfl, skips⟩
  · cases reference : q.reference with
    | none =>
      rw [reference] at reverses
      cases reverses
    | some id' =>
      rw [reference] at reverses
      cases reverses
      exact (checkReference_iff played).mpr (admitted.reversible id reference)

/-- Requests are accepted just when they are valid. In every history of an orchestrator, a request is accepted
exactly if its directives are fit and ask for a downgrade just when it references a run, this run is the
archived forward run of an accepted request for a topology of the same name, and its own topology is valid and
places something. Then a run is added behind the others, with the policy that the request asks for and the plan
of its topology. Any other request is refused by validation and changes nothing. -/
theorem requests_are_accepted_iff_valid (played : (start settings wall).play? turns = some o)
    (q : Commission) :
    let past := (start settings wall).commissions turns
    let reply := o.createRun q.id q.topology q.directives q.reference
    (reply.2 = .ok q.id ↔ o.Admits past q) ∧
    (o.Admits past q → ∃ skip plan, (skip = true ↔ q.directives.IsSet Directives.skipServiceChecksKey) ∧
      Plan.build q.topology ⟨q.reference.elim .upgrade .downgrade, skip⟩ = .ok plan ∧
      let r := Run.create q.id plan ⟨q.reference.elim .upgrade .downgrade, skip⟩ o.wall
      reply.1.drivers = o.drivers ++ [⟨r, r, [], false, false⟩]) ∧
    (¬ o.Admits past q → ∃ fault, fault.isValidation = true ∧ reply = (o, .error fault)) := by
  intro past reply
  cases prepared : o.prepare q.topology q.directives q.reference with
  | error fault =>
    have refused : ¬ o.Admits past q := by
      intro admitted
      obtain ⟨_, _, _, _, prepared'⟩ := admitted.prepared played
      cases prepared.symm.trans prepared'
    have same : reply = (o, .error fault) := createRun_of_error prepared
    refine ⟨⟨fun accepted => ?_, fun admitted => absurd admitted refused⟩,
      fun admitted => absurd admitted refused, fun _ => ⟨fault, prepare_error prepared, same⟩⟩
    rw [same] at accepted
    cases accepted
  | ok entry =>
    have admitted : o.Admits past q := admits_of_prepared played prepared
    obtain ⟨skip, plan, skips, built, prepared⟩ := admitted.prepared played
    have same : reply = (o.addRun (Run.create q.id plan _ o.wall), .ok q.id) :=
      createRun_of_ok prepared
    refine ⟨⟨fun _ => admitted, fun _ => congrArg Prod.snd same⟩, fun _ => ?_,
      fun refused => absurd admitted refused⟩
    exact ⟨skip, plan, skips, built, by rw [same, addRun_drivers]⟩

/-- A request to reverse a run of the small topology, spelled carelessly. -/
def carelessRequest (forward : RunId) : Commission where
  id := .ofNat 1
  topology := smallTopology
  directives := [("skip_service_checks", "False"), ("downgrade", " TRUE\n")]
  reference := some forward

theorem requests_are_accepted_iff_valid_calledOff :
    let past := (start .default .epoch).commissions calledOff
    (start .default .epoch).play? calledOff = some (after calledOff) ∧
    (after calledOff).Admits past (carelessRequest (.ofNat 0)) ∧
    ¬ (after calledOff).Admits past (carelessRequest (.ofNat 7)) ∧
    ∃ skip plan, Plan.build smallTopology ⟨.downgrade (.ofNat 0), skip⟩ = .ok plan := by
  intro past
  have played : (start .default .epoch).play? calledOff = some (after calledOff) :=
    play?_after (by decide +kernel)
  have known := requests_are_accepted_iff_valid played (carelessRequest (.ofNat 0))
  have unknown := requests_are_accepted_iff_valid played (carelessRequest (.ofNat 7))
  have admitted : (after calledOff).Admits past (carelessRequest (.ofNat 0)) :=
    known.1.mp (by decide +kernel)
  refine ⟨played, admitted, fun admitted => ?_, ?_⟩
  · exact absurd (unknown.1.mpr admitted) (by decide +kernel)
  · obtain ⟨skip, plan, _, built, _⟩ := known.2.1 admitted
    exact ⟨skip, plan, built⟩

end Rollout.Orchestrator
