-- SUMMARY: Skipping service checks erases the check stages of a plan and leaves everything else where it is.
import Rollout.Proofs.Run.Itinerary

/-!
# Plans without checks

In every group the check comes last. So a plan that is built without service checks is the plan with them,
less its check stages: what is left keeps its position, and the only other difference is that every group
counts as skippable.
-/
namespace Rollout

/-- The group without its check. Nothing tells whether to go on then, so it counts as skippable. -/
def Group.withoutChecks (g : Group) : Group :=
  { g with skippable := true, stages := g.stages.filter fun stage => stage.operation ≠ .check }

namespace Plan

def withoutChecks (p : Plan) : Plan := { p with groups := p.groups.map Group.withoutChecks }

/-- The same course without checks. -/
def Course.skipping (c : Course) : Course := { c with skipServiceChecks := true }

variable {c : Course} {t : Topology}

-- ---------------------------------------------------------------------------
-- Groups
-- ---------------------------------------------------------------------------

theorem Course.operations_eq (checks : c.skipServiceChecks = false) :
    c.operations = c.skipping.operations ++ [.check] := by
  simp [operations, skipping, checks, Operation.precedence]

/-- A group that is checked has the stages of one that is not, and its check behind them. -/
theorem group_stages_eq (checks : c.skipServiceChecks = false) (s : Service) :
    (group c s).stages = (group c.skipping s).stages ++ (stage? c s .check).toList := by
  have stages : stage? c.skipping s = stage? c s := rfl
  rw [group, group, Course.operations_eq checks, stages, List.filterMap_append]
  rfl

theorem skipping_operation {s : Service} {stage : Stage}
    (member : stage ∈ (group c.skipping s).stages) : stage.operation ≠ .check := by
  obtain ⟨op, hop, made⟩ := List.mem_filterMap.mp member
  rw [(stage?_operation made).1]
  simpa [Course.skipping] using (List.mem_filter.mp hop).2

theorem check_operation {s : Service} {stage : Stage}
    (member : stage ∈ (stage? c s .check).toList) : stage.operation = .check :=
  (stage?_operation (Option.mem_toList.mp member)).1

theorem group_skipping (checks : c.skipServiceChecks = false) (s : Service) :
    group c.skipping s = (group c s).withoutChecks := by
  have stages : (group c s).stages.filter (fun stage => stage.operation ≠ .check) =
      (group c.skipping s).stages := by
    rw [group_stages_eq checks, List.filter_append, List.filter_eq_self.mpr ?work,
      List.filter_eq_nil_iff.mpr ?check, List.append_nil]
    case work => exact fun stage member => decide_eq_true (skipping_operation member)
    case check => exact fun stage member => by simp [check_operation member]
  rw [Group.withoutChecks, stages]
  simp [group, Course.skipping]

theorem along_skipping (checks : c.skipServiceChecks = false) (t : Topology) :
    along c.skipping t = (along c t).withoutChecks := by
  have groups : group c.skipping = Group.withoutChecks ∘ group c :=
    funext fun s => group_skipping checks s
  rw [along, groups, along, withoutChecks, List.map_map]
  rfl

-- ---------------------------------------------------------------------------
-- Positions
-- ---------------------------------------------------------------------------

/-- Without its checks a plan visits the other stages at the same positions. -/
theorem itinerary_skipping (checks : c.skipServiceChecks = false) (t : Topology) :
    (along c.skipping t).itinerary =
      (along c t).itinerary.filter fun place => place.2.operation ≠ .check := by
  have places (s : Service) (g : Nat) :
      (group c.skipping s).stages.zipIdx.map (fun entry => ((⟨g, entry.2⟩ : Cursor), entry.1)) =
        ((group c s).stages.zipIdx.map fun entry => ((⟨g, entry.2⟩ : Cursor), entry.1)).filter
          fun place => place.2.operation ≠ .check := by
    rw [group_stages_eq checks, List.zipIdx_append, List.map_append, List.filter_append,
      List.filter_eq_self.mpr ?work, List.filter_eq_nil_iff.mpr ?check, List.append_nil]
    case work =>
      intro place member
      obtain ⟨entry, hentry, rfl⟩ := List.mem_map.mp member
      exact decide_eq_true (skipping_operation (List.fst_mem_of_mem_zipIdx hentry))
    case check =>
      intro place member
      obtain ⟨entry, hentry, rfl⟩ := List.mem_map.mp member
      simp [check_operation (List.fst_mem_of_mem_zipIdx hentry)]
  simp only [itinerary, along, List.zipIdx_map, List.flatMap_map, List.filter_flatMap]
  exact List.flatMap_congr fun entry _ => places entry.1 entry.2

/-- If the parts of a list are kept or dropped as a whole, this may be decided before they are joined. -/
theorem flatMap_filter_of_uniform {α β : Type} {l : List α} {f : α → List β} {keep : α → Bool}
    {test : β → Bool} (uniform : ∀ a ∈ l, ∀ b ∈ f a, test b = keep a) :
    (l.filter keep).flatMap f = (l.flatMap f).filter test := by
  induction l with
  | nil => rfl
  | cons a l ih =>
    obtain ⟨here, uniform⟩ := List.forall_mem_cons.mp uniform
    rw [List.flatMap_cons, List.filter_append, ← ih uniform]
    cases kept : keep a with
    | true =>
      have whole : (f a).filter test = f a :=
        List.filter_eq_self.mpr fun b hb => (here b hb).trans kept
      rw [List.filter_cons_of_pos kept, List.flatMap_cons, whole]
    | false =>
      have nothing : (f a).filter test = [] :=
        List.filter_eq_nil_iff.mpr fun b hb => by rw [here b hb, kept]; exact Bool.false_ne_true
      rw [List.filter_cons_of_neg (by simp [kept]), nothing, List.nil_append]

/-- Skipping service checks erases them. In both directions a topology has a plan without checks just when
it has one with them, and is refused with the same fault if not. The one is the other without its check
stages and with all groups skippable; the stages that are left, and their tasks, keep their positions. -/
theorem skipping_erases_checks (t : Topology) (downgrade : Bool) :
    expand t downgrade true = (expand t downgrade false).map withoutChecks ∧
    ∀ checked unchecked, expand t downgrade false = .ok checked →
      expand t downgrade true = .ok unchecked →
      unchecked.itinerary = checked.itinerary.filter (fun place => place.2.operation ≠ .check) ∧
      unchecked.tasks = checked.tasks.filter fun entry => entry.2.2.operation ≠ .check := by
  have course : Course.of t downgrade true = (Course.of t downgrade false).skipping := by
    cases downgrade <;> rfl
  have checks : (Course.of t downgrade false).skipServiceChecks = false := by
    cases downgrade <;> rfl
  refine ⟨?_, fun checked unchecked with_checks without => ?_⟩
  · cases valid : t.validate with
    | error fault =>
      rw [expand, expand, valid]
      rfl
    | ok =>
      have fit := Topology.validate_eq_ok_iff.mp valid
      rw [expand_of_wellFormed fit, expand_of_wellFormed fit, course, along_skipping checks]
      split <;> rfl
  · have itinerary : unchecked.itinerary =
        checked.itinerary.filter fun place => place.2.operation ≠ .check := by
      rw [eq_along with_checks, eq_along without, course]
      exact itinerary_skipping checks t
    refine ⟨itinerary, ?_⟩
    rw [tasks_eq, tasks_eq, itinerary]
    refine flatMap_filter_of_uniform fun place here entry hentry => ?_
    obtain ⟨spec, hspec, rfl⟩ := List.mem_map.mp hentry
    obtain ⟨g, group, placed⟩ := mem_itinerary.mp here
    have same : spec.operation = place.2.operation := expand_isUniform with_checks g
      (List.mem_of_getElem? group) place.2 (List.mem_of_getElem? placed) spec hspec
    exact congrArg (fun op : Operation => decide (op ≠ .check)) same

theorem skipping_erases_checks_twoServices :
    ∃ checked unchecked, expand twoServices true false = .ok checked ∧
      expand twoServices true true = .ok unchecked ∧
      checked.itinerary.map (fun place => (place.1, place.2.operation)) =
        [(⟨0, 0⟩, .restart), (⟨0, 1⟩, .check), (⟨1, 0⟩, .stop), (⟨1, 1⟩, .install), (⟨1, 2⟩, .start),
          (⟨1, 3⟩, .check)] ∧
      unchecked.itinerary = checked.itinerary.filter fun place => place.2.operation ≠ .check := by
  have fit : twoServices.IsWellFormed := Topology.defect?_eq_none_iff.mp (by decide +kernel)
  have expanded (skip : Bool) :
      expand twoServices true skip = .ok (along (.of twoServices true skip) twoServices) := by
    rw [expand_of_wellFormed fit, if_neg (by decide)]
  obtain ⟨itinerary, _⟩ :=
    (skipping_erases_checks twoServices true).2 _ _ (expanded false) (expanded true)
  exact ⟨_, _, expanded false, expanded true, by decide, itinerary⟩

end Plan

end Rollout
