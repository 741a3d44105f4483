-- SUMMARY: The shape of plans that are built from a topology.
import Rollout.Plan

/-!
# The shape of built plans

A built plan has one group for each service, in the order of its course, and each stage of a group was made
for one operation. So all tasks of a stage carry out the same operation.
-/
namespace Rollout.Plan

/-- The tasks of each stage carry out the operation of the stage. -/
def IsUniform (p : Plan) : Prop :=
  ∀ g ∈ p.groups, ∀ s ∈ g.stages, ∀ spec ∈ s.tasks, spec.operation = s.operation

/-- The plan of a topology that can be expanded. -/
theorem expand_eq {t : Topology} {downgrade skip : Bool} {plan : Plan}
    (expanded : expand t downgrade skip = .ok plan) :
    let c := Course.of t downgrade skip
    plan = ⟨t.name, c.fromVersion, c.toVersion, (c.order t.services).map (group c)⟩ := by
  simp only [expand, bind, Except.bind, pure, Except.pure] at expanded
  split at expanded
  · cases expanded
  · split at expanded
    · cases expanded
    · cases expanded
      rfl

theorem stage?_operation {c : Course} {service : Service} {op : Operation} {s : Stage}
    (made : stage? c service op = some s) :
    s.operation = op ∧ ∀ spec ∈ s.tasks, spec.operation = op := by
  simp only [stage?] at made
  split at made
  · cases made
  · cases made
    refine ⟨rfl, fun spec hspec => ?_⟩
    obtain ⟨component, _, hspec⟩ := List.mem_flatMap.mp hspec
    obtain ⟨host, _, rfl⟩ := List.mem_map.mp hspec
    rfl

theorem expand_isUniform {t : Topology} {downgrade skip : Bool} {plan : Plan}
    (expanded : expand t downgrade skip = .ok plan) : plan.IsUniform := by
  rw [expand_eq expanded]
  intro g hg s hs spec hspec
  obtain ⟨service, _, rfl⟩ := List.mem_map.mp hg
  obtain ⟨op, _, made⟩ := List.mem_filterMap.mp hs
  obtain ⟨operation, tasks⟩ := stage?_operation made
  rw [tasks spec hspec, operation]

theorem build_isUniform {t : Topology} {policy : Policy} {plan : Plan}
    (built : build t policy = .ok plan) : plan.IsUniform :=
  expand_isUniform built

end Rollout.Plan
