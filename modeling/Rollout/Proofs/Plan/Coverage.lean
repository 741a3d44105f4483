-- SUMMARY: What a built plan covers, and when a plan reverses another one.
import Rollout.Proofs.Plan.Placement

/-!
# Coverage

A plan that is built from a topology covers the placements of the topology, whatever the direction and whether
checks are skipped or not. So whether the plan down one topology reverses the plan up another one can be read
off the topologies.
-/
namespace Rollout

/-- The topology has the component of the service on the host. -/
def Topology.Places (t : Topology) (p : Placement) : Prop :=
  ∃ s ∈ t.services, ∃ component ∈ s.components, ∃ host ∈ component.hosts,
    p = ⟨s.name, component.name, host⟩

theorem Topology.placementCount_eq_zero_iff {t : Topology} :
    t.placementCount = 0 ↔ ∀ p, ¬ t.Places p := by
  have sum (sizes : List Nat) : sizes.foldr (· + ·) 0 = 0 ↔ ∀ n ∈ sizes, n = 0 := by
    induction sizes with
    | nil => simp
    | cons n sizes ih => simp [ih]
  rw [placementCount, sum, components]
  simp only [List.forall_mem_map, List.length_eq_zero_iff, List.forall_mem_flatMap]
  constructor
  · rintro empty _ ⟨s, hs, component, hc, host, hh, rfl⟩
    rw [empty s hs component hc] at hh
    cases hh
  · intro empty s hs component hc
    exact List.eq_nil_iff_forall_not_mem.mpr fun host hh =>
      empty _ ⟨s, hs, component, hc, host, hh, rfl⟩

/-- Two topologies go between the same versions, and have the same services in the same order with the same
placements. -/
structure Topology.Agrees (t t' : Topology) : Prop where
  source : t.sourceVersion = t'.sourceVersion
  target : t.targetVersion = t'.targetVersion
  services : t.services.map Service.name = t'.services.map Service.name
  places : ∀ p, t.Places p ↔ t'.Places p

theorem Topology.Agrees.refl (t : Topology) : t.Agrees t := ⟨rfl, rfl, rfl, fun _ => .rfl⟩

namespace Plan

/-- Some task of the plan is carried out there. -/
def Covers (plan : Plan) (p : Placement) : Prop := ∃ spec ∈ plan.specs, spec.placement = p

/-- The services of the plan, in order. -/
def services (plan : Plan) : List String := plan.groups.map Group.name

/-- A plan goes back between the versions of another one, and covers the same placements with the services in
opposite order. -/
structure Reverses (down up : Plan) : Prop where
  fromVersion : down.fromVersion = up.toVersion
  toVersion : down.toVersion = up.fromVersion
  covers : ∀ p, down.Covers p ↔ up.Covers p
  services : down.services = up.services.reverse

variable {t t' : Topology} {downgrade skip skip' : Bool} {plan down up : Plan}

/-- Every placement needs something, even without checks. -/
theorem needs_ne_nil (outgoing incoming : String) (restartOnly skip : Bool) :
    needs outgoing incoming restartOnly skip ≠ [] := by
  cases restartOnly <;> simp [needs]

/-- A plan covers the placements of its topology. -/
theorem covers_iff (expanded : expand t downgrade skip = .ok plan) {p : Placement} :
    plan.Covers p ↔ t.Places p := by
  constructor
  · rintro ⟨spec, member, rfl⟩
    exact expand_placement expanded member
  · rintro ⟨s, hs, component, hc, host, hh, rfl⟩
    have something : (plan.specs.filter fun spec =>
        spec.placement = ⟨s.name, component.name, host⟩) ≠ [] := by
      rw [expand_filter expanded hs hc hh]
      exact fun nothing => needs_ne_nil _ _ component.restartOnly _ (List.map_eq_nil_iff.mp nothing)
    obtain ⟨spec, member⟩ := List.exists_mem_of_ne_nil _ something
    obtain ⟨member, place⟩ := List.mem_filter.mp member
    exact ⟨spec, member, of_decide_eq_true place⟩

/-- A topology has a plan just when it is valid and places something. -/
theorem expand_isOk_iff :
    (∃ plan, expand t downgrade skip = .ok plan) ↔ t.validate = .ok () ∧ ∃ p, t.Places p := by
  constructor
  · rintro ⟨plan, expanded⟩
    have fit := expand_valid expanded
    refine ⟨Topology.validate_eq_ok_iff.mpr fit, not_forall_not.mp fun empty => ?_⟩
    rw [expand_of_wellFormed fit, if_pos (Topology.placementCount_eq_zero_iff.mpr empty)] at expanded
    cases expanded
  · rintro ⟨valid, p, places⟩
    have something : t.placementCount ≠ 0 := fun empty =>
      Topology.placementCount_eq_zero_iff.mp empty p places
    exact ⟨_, (expand_of_wellFormed (Topology.validate_eq_ok_iff.mp valid)).trans (if_neg something)⟩

theorem services_eq (expanded : expand t downgrade skip = .ok plan) :
    plan.services = (Course.of t downgrade skip).order (t.services.map Service.name) := by
  rw [eq_along expanded, services, along]
  cases downgrade <;> simp [Course.of, Course.order, group, Function.comp_def]

/-- The plan down a topology reverses the plan up a topology just when the two agree. -/
theorem reverses_iff (expanded : expand t true skip = .ok down)
    (expanded' : expand t' false skip' = .ok up) : down.Reverses up ↔ t.Agrees t' := by
  have covers : (∀ p, down.Covers p ↔ up.Covers p) ↔ ∀ p, t.Places p ↔ t'.Places p := by
    simp only [covers_iff expanded, covers_iff expanded']
  have services : down.services = up.services.reverse ↔
      t.services.map Service.name = t'.services.map Service.name := by
    rw [services_eq expanded, services_eq expanded']
    exact List.reverse_inj
  have versions : (down.fromVersion = t.targetVersion ∧ down.toVersion = t.sourceVersion) ∧
      up.fromVersion = t'.sourceVersion ∧ up.toVersion = t'.targetVersion := by
    rw [eq_along expanded, eq_along expanded']
    exact ⟨⟨rfl, rfl⟩, rfl, rfl⟩
  obtain ⟨⟨outgoing, incoming⟩, outgoing', incoming'⟩ := versions
  constructor
  · intro h
    refine ⟨?_, ?_, services.mp h.services, covers.mp h.covers⟩
    · rw [← incoming, h.toVersion, outgoing']
    · rw [← outgoing, h.fromVersion, incoming']
  · intro h
    refine ⟨?_, ?_, covers.mpr h.places, services.mpr h.services⟩
    · rw [outgoing, h.target, incoming']
    · rw [incoming, h.source, outgoing']

end Plan

end Rollout
