-- SUMMARY: A downgrade is the upgrade of the mirrored topology, and it does the work of the upgrade in the other order.
import Mathlib.Algebra.BigOperators.Group.List.Lemmas
import Rollout.Proofs.Plan.Placement

/-!
# Mirrored topologies

The mirror of a topology has its versions swapped and its services, with the components of each, in the other
order. The hosts of a component keep their order. Going down in a topology is going up in its mirror.
-/
namespace Rollout

/-- The service with its components in the other order. -/
def Service.mirror (s : Service) : Service := { s with components := s.components.reverse }

/-- The topology that goes the other way. -/
def Topology.mirror (t : Topology) : Topology :=
  { t with
    sourceVersion := t.targetVersion
    targetVersion := t.sourceVersion
    services := (t.services.map Service.mirror).reverse }

@[simp] theorem Service.mirror_mirror (s : Service) : s.mirror.mirror = s := by
  simp [mirror]

theorem Service.IsWellFormed.mirror {s : Service} (fit : s.IsWellFormed) : s.mirror.IsWellFormed where
  named := fit.named
  nodup := by
    rw [Service.mirror, List.map_reverse]
    exact List.nodup_reverse.mpr fit.nodup
  components c hc := fit.components c (List.mem_reverse.mp hc)

namespace Topology

variable {t : Topology}

@[simp] theorem mirror_mirror (t : Topology) : t.mirror.mirror = t := by
  simp [mirror, Function.comp_def]

theorem IsWellFormed.mirror (fit : t.IsWellFormed) : t.mirror.IsWellFormed where
  named := fit.named
  source := fit.target
  target := fit.source
  nodup := by
    have names : t.mirror.services.map Service.name = (t.services.map Service.name).reverse := by
      simp [Topology.mirror, Service.mirror, Function.comp_def]
    rw [names]
    exact List.nodup_reverse.mpr fit.nodup
  services s hs := by
    obtain ⟨original, ho, rfl⟩ := List.mem_map.mp (List.mem_reverse.mp hs)
    exact (fit.services original ho).mirror

theorem mirror_isWellFormed_iff : t.mirror.IsWellFormed ↔ t.IsWellFormed :=
  ⟨fun fit => mirror_mirror t ▸ fit.mirror, IsWellFormed.mirror⟩

theorem mirror_components (t : Topology) : t.mirror.components = t.components.reverse := by
  simp [components, mirror, Service.mirror, List.reverse_flatMap, Function.comp_def,
    ← List.map_reverse, List.flatMap_map]

theorem mirror_placementCount (t : Topology) : t.mirror.placementCount = t.placementCount := by
  rw [placementCount, mirror_components, List.map_reverse]
  exact List.sum_reverse _

end Topology

-- ---------------------------------------------------------------------------
-- The same work
-- ---------------------------------------------------------------------------

/-- Two stages carry out the same operation on the same placements. -/
structure Stage.SameWork (a b : Stage) : Prop where
  operation : a.operation = b.operation
  tasks : (a.tasks.map TaskSpec.work).Perm (b.tasks.map TaskSpec.work)

/-- Two groups go through the same work stage by stage. -/
structure Group.SameWork (a b : Group) : Prop where
  name : a.name = b.name
  skippable : a.skippable = b.skippable
  stages : List.Forall₂ Stage.SameWork a.stages b.stages

namespace Plan

/-- The same course in the other direction through the lists. -/
def Course.turned (c : Course) : Course := { c with backwards := !c.backwards }

theorem Course.turned_order {α : Type} (c : Course) (xs : List α) :
    c.turned.order xs.reverse = c.order xs := by
  unfold order turned
  cases c.backwards <;> simp

theorem group_mirror (c : Course) (s : Service) : group c.turned s.mirror = group c s := by
  have stages (op : Operation) : stage? c.turned s.mirror op = stage? c s op := by
    simp only [stage?, Service.mirror, c.turned_order]
    rfl
  simp only [group, funext stages]
  rfl

/-- The course down a topology is the course up its mirror, turned. -/
theorem Course.of_mirror (t : Topology) (skip : Bool) :
    of t.mirror false skip = (of t true skip).turned := rfl

theorem along_mirror (t : Topology) (skip : Bool) :
    along (.of t.mirror false skip) t.mirror = along (.of t true skip) t := by
  have services : t.mirror.services.map (group (Course.of t true skip).turned) =
      t.services.reverse.map (group (.of t true skip)) := by
    simp [Topology.mirror, Function.comp_def, group_mirror]
  rw [along, along, Course.of_mirror]
  congr 1

/-- Every operation has the same work in both directions. -/
theorem stageSpecs_work (c d : Course) (s : Service) (op : Operation) :
    ((stageSpecs c s op).map TaskSpec.work).Perm ((stageSpecs d s op).map TaskSpec.work) := by
  have order : (c.order s.components).Perm (d.order s.components) := by
    unfold Course.order
    split <;> split <;> simp [List.reverse_perm, (List.reverse_perm s.components).symm]
  have work (c : Course) (component : Component) :
      (componentTasks c s.name op component).map TaskSpec.work =
        component.hosts.map fun host => (⟨s.name, component.name, host⟩, op) := by
    simp [componentTasks, TaskSpec.work, TaskSpec.placement, Function.comp_def]
  simp only [stageSpecs, List.map_flatMap, work]
  exact (order.filter _).flatMap_right _

/-- The stage of an operation has the same work in both directions. -/
theorem stage?_sameWork (c d : Course) (s : Service) (op : Operation) :
    Option.Rel Stage.SameWork (stage? c s op) (stage? d s op) := by
  have work := stageSpecs_work c d s op
  rw [← stage?_tasks, ← stage?_tasks] at work
  cases up : stage? c s op with
  | none =>
    cases down : stage? d s op with
    | none => exact .none
    | some b =>
      rw [up, down] at work
      exact absurd (List.map_eq_nil_iff.mp (List.nil_perm.mp work)) (stage?_ne_nil down)
  | some a =>
    cases down : stage? d s op with
    | none =>
      rw [up, down] at work
      exact absurd (List.map_eq_nil_iff.mp (List.perm_nil.mp work)) (stage?_ne_nil up)
    | some b =>
      rw [up, down] at work
      exact .some ⟨by rw [(stage?_operation up).1, (stage?_operation down).1], work⟩

/-- A service has the same work in both directions, if both check it or both do not. -/
theorem group_sameWork {c d : Course} (skip : c.skipServiceChecks = d.skipServiceChecks) (s : Service) :
    (group c s).SameWork (group d s) where
  name := rfl
  skippable := by
    rw [group, group, skip]
  stages := by
    have operations : c.operations = d.operations := by
      rw [Course.operations, Course.operations, skip]
    rw [group, group, operations]
    dsimp only
    induction d.operations with
    | nil => exact .nil
    | cons op ops ih =>
      have here := stage?_sameWork c d s op
      cases up : stage? c s op <;> cases down : stage? d s op <;> rw [up, down] at here
      case none.none => rwa [List.filterMap_cons_none up, List.filterMap_cons_none down]
      case none.some => cases here
      case some.none => cases here
      case some.some a b =>
        cases here with
        | some same =>
          rw [List.filterMap_cons_some up, List.filterMap_cons_some down]
          exact .cons same ih

/-- The groups of the plans in both directions do the same work, in opposite orders. -/
theorem along_sameWork (t : Topology) (skip : Bool) :
    List.Forall₂ Group.SameWork (along (.of t false skip) t).groups
      (along (.of t true skip) t).groups.reverse := by
  have checks : (Course.of t false skip).skipServiceChecks = (Course.of t true skip).skipServiceChecks :=
    rfl
  have down : (along (.of t true skip) t).groups.reverse =
      t.services.map (group (.of t true skip)) := by
    simp [along, Course.of, Course.order]
  rw [down, along, List.forall₂_map_left_iff, List.forall₂_map_right_iff]
  exact List.forall₂_same.mpr fun s _ => group_sameWork checks s

/-- Going down is going up the mirrored topology: the mirror is accepted whenever the topology is, and then the
plans are equal, or there are none for want of a placement. If there are plans, the one down has the groups of
the one up in opposite order, with the same operations and the same tasks at each of them. -/
theorem downgrade_mirrors_upgrade (t : Topology) :
    (t.mirror.validate = .ok () ↔ t.validate = .ok ()) ∧
    (t.validate = .ok () → ∀ skip,
      expand t true skip = expand t.mirror false skip ∧
      (t.placementCount = 0 → ∀ downgrade,
        expand t downgrade skip = .error (.emptyTopology t.name)) ∧
      (t.placementCount ≠ 0 → ∃ up down, expand t false skip = .ok up ∧
        expand t true skip = .ok down ∧
        List.Forall₂ Group.SameWork up.groups down.groups.reverse)) := by
  rw [Topology.validate_eq_ok_iff, Topology.validate_eq_ok_iff]
  refine ⟨Topology.mirror_isWellFormed_iff, fun fit skip =>
    ⟨?_, fun empty downgrade => ?_, fun placed => ?_⟩⟩
  · rw [expand_of_wellFormed fit, expand_of_wellFormed fit.mirror, Topology.mirror_placementCount,
      along_mirror]
    rfl
  · rw [expand_of_wellFormed fit, if_pos empty]
  · refine ⟨_, _, ?_, ?_, along_sameWork t skip⟩
    · rw [expand_of_wellFormed fit, if_neg placed]
    · rw [expand_of_wellFormed fit, if_neg placed]

theorem downgrade_mirrors_upgrade_twoServices :
    expand twoServices true false = expand twoServices.mirror false false ∧
    ∃ up down, expand twoServices false false = .ok up ∧ expand twoServices true false = .ok down ∧
      List.Forall₂ Group.SameWork up.groups down.groups.reverse := by
  have fit : twoServices.IsWellFormed := Topology.defect?_eq_none_iff.mp (by decide +kernel)
  obtain ⟨mirrored, _, both⟩ :=
    (downgrade_mirrors_upgrade twoServices).2 (Topology.validate_eq_ok_iff.mpr fit) false
  exact ⟨mirrored, both (by decide)⟩

end Plan

end Rollout
