-- SUMMARY: What an accepted downgrade undoes: the run that it references, if its topology agrees with that of the run.
import Rollout.Proofs.Orchestrator.Admission

/-!
# Compensation

A downgrade references a forward run, but its plan is built from the topology of its own request. All that
is asked of this topology is the name of the other one. So the downgrade undoes the forward run just when the two
topologies agree in what plans depend on.
-/
namespace Rollout.Orchestrator

/-- The request was accepted without a reference, and its run is archived. -/
structure IsForward (o : Orchestrator) (past : List Commission) (q : Commission) (r : Run) : Prop where
  accepted : q ∈ past
  forward : q.reference = none
  read : o.getRun q.id = .ok r
  archived : r.state = .completed ∨ r.state = .aborted
  built : Plan.build q.topology r.policy = .ok r.plan

variable {o : Orchestrator} {settings : EngineSettings} {wall : Timestamp} {turns : List Turn}

/-- The run that an admitted request references. -/
theorem Admits.reverses (played : (start settings wall).play? turns = some o) {q : Commission}
    (admitted : o.Admits ((start settings wall).commissions turns) q) {id : RunId}
    (reference : q.reference = some id) :
    ∃ f r, o.IsForward ((start settings wall).commissions turns) f r ∧ f.id = id ∧
      f.topology.name = q.topology.name := by
  obtain ⟨f, accepted, rfl, forward, name, r, read, archived⟩ := admitted.reversible id reference
  exact ⟨f, r, ⟨accepted, forward, read, archived, (grants_of_read played accepted read).plan⟩, rfl, name⟩

/-- An accepted downgrade references the archived run of an accepted forward request for a topology of the
same name. Its own plan goes back between the versions of its own topology and covers the placements of this
topology, with the services in opposite order. So it reverses the plan of the run that it references just
when the two topologies agree, which nobody checks. -/
theorem downgrade_reverses_iff_topologies_agree (played : (start settings wall).play? turns = some o)
    {id forward : RunId} {t : Topology} {directives : Directives}
    (accepted : (o.createRun id t directives (some forward)).2 = .ok id) :
    ∃ f r plan policy, o.IsForward ((start settings wall).commissions turns) f r ∧ f.id = forward ∧
      f.topology.name = t.name ∧
      (let new := Run.create id plan policy o.wall
       policy.direction = .downgrade forward ∧ Plan.build t policy = .ok plan ∧
        (o.createRun id t directives (some forward)).1.drivers =
          o.drivers ++ [⟨new, new, [], false, false⟩]) ∧
      plan.fromVersion = t.targetVersion ∧ plan.toVersion = t.sourceVersion ∧
      (∀ p, plan.Covers p ↔ t.Places p) ∧
      plan.services = (t.services.map Service.name).reverse ∧
      (plan.Reverses r.plan ↔ t.Agrees f.topology) := by
  have admitted : o.Admits ((start settings wall).commissions turns) ⟨id, t, directives, some forward⟩ := by
    cases prepared : o.prepare t directives (some forward) with
    | error fault =>
      rw [createRun_of_error prepared] at accepted
      cases accepted
    | ok entry => exact admits_of_prepared (q := ⟨id, t, directives, some forward⟩) played prepared
  obtain ⟨f, r, upgrade, named, name⟩ := admitted.reverses played rfl
  obtain ⟨skip, plan, _, built, prepared⟩ := admitted.prepared played
  have upward : r.policy.isDowngrade = false :=
    (grants_of_read played upgrade.accepted upgrade.read).forward_iff.mpr upgrade.forward
  have built' : Plan.expand f.topology false r.policy.skipServiceChecks = .ok r.plan := by
    rw [← upward]
    exact upgrade.built
  refine ⟨f, r, plan, ⟨.downgrade forward, skip⟩, upgrade, named, name,
    ⟨rfl, built, by rw [createRun_of_ok prepared, addRun_drivers]; rfl⟩, ?_, ?_,
    fun p => Plan.covers_iff built, Plan.services_eq built, Plan.reverses_iff built built'⟩
  · rw [Plan.eq_along built]
    rfl
  · rw [Plan.eq_along built]
    rfl

theorem downgrade_reverses_iff_topologies_agree_calledOff :
    (start .default .epoch).play? calledOff = some (after calledOff) ∧
    ((after calledOff).createRun (.ofNat 1) smallTopology [("downgrade", "true")]
      (some (.ofNat 0))).2 = .ok (.ofNat 1) ∧
    ∃ r plan skip, (after calledOff).getRun (.ofNat 0) = .ok r ∧
      Plan.build smallTopology ⟨.downgrade (.ofNat 0), skip⟩ = .ok plan ∧ plan.Reverses r.plan := by
  have played : (start .default .epoch).play? calledOff = some (after calledOff) :=
    play?_after (by decide +kernel)
  have past : (start .default .epoch).commissions calledOff = [⟨.ofNat 0, smallTopology, [], none⟩] := by
    decide +kernel
  have accepted : ((after calledOff).createRun (.ofNat 1) smallTopology [("downgrade", "true")]
      (some (.ofNat 0))).2 = .ok (.ofNat 1) := by decide +kernel
  obtain ⟨f, r, plan, ⟨_, skip⟩, upgrade, named, _, ⟨rfl, built, _⟩, _, _, _, _, agrees⟩ :=
    downgrade_reverses_iff_topologies_agree played accepted
  have known := upgrade.accepted
  rw [past, List.mem_singleton] at known
  subst known
  exact ⟨played, accepted, r, plan, skip, upgrade.read, built, agrees.mpr (.refl smallTopology)⟩

/-- Another topology of the same name. -/
def namesake : Topology := ⟨"small", "3.0", "4.0", [⟨"web", true, [⟨"proxy", ["gamma"], true⟩]⟩]⟩

theorem downgrade_of_namesake_is_accepted :
    ((after calledOff).createRun (.ofNat 1) namesake [("downgrade", "true")] (some (.ofNat 0))).2 =
      .ok (.ofNat 1) ∧
    ∃ up down, ((after calledOff).createRun (.ofNat 1) namesake [("downgrade", "true")]
        (some (.ofNat 0))).1.drivers.map (fun d => (d.run.id, d.run.policy.direction, d.run.plan)) =
        [(.ofNat 0, .upgrade, up), (.ofNat 1, .downgrade (.ofNat 0), down)] ∧
      (up.fromVersion, up.toVersion, down.fromVersion, down.toVersion) = ("1.0", "1.1", "4.0", "3.0") ∧
      up.services = ["db"] ∧ down.services = ["web"] ∧
      up.Covers ⟨"db", "server", "alpha"⟩ ∧ ¬ down.Covers ⟨"db", "server", "alpha"⟩ ∧
      ¬ down.Reverses up := by
  refine ⟨by decide +kernel, .along (.of smallTopology false false) smallTopology,
    .along (.of namesake true false) namesake, by decide +kernel, rfl, rfl, rfl, ?_, ?_, ?_⟩
  · exact ⟨⟨"alpha", "db", "server", .stop, "1.0"⟩, by decide, rfl⟩
  · have elsewhere : ∀ spec ∈ (Plan.along (.of namesake true false) namesake).specs,
        spec.placement ≠ ⟨"db", "server", "alpha"⟩ := by decide
    exact fun ⟨spec, member, place⟩ => elsewhere spec member place
  · intro reverses
    exact absurd reverses.fromVersion (by decide)

end Rollout.Orchestrator
