-- SUMMARY: What a built plan does: for each placement the operations that it needs, once each and in order, and nothing else.
import Mathlib.Data.List.Nodup
import Rollout.Proofs.Plan.Shape
import Rollout.Proofs.Topology.WellFormed

/-!
# Placements

A placement is a component of a service on a host. A plan that is built from a topology goes through services,
operations, components and hosts. Seen from one placement, what is left of this are the operations that its
component needs, in the order of precedence, each at its version.
-/
namespace Rollout

/-- A component of a service on a host. -/
structure Placement where
  service : String
  component : String
  host : String
  deriving DecidableEq, Repr

/-- Where a task is carried out. -/
def TaskSpec.placement (spec : TaskSpec) : Placement := ⟨spec.service, spec.component, spec.host⟩

/-- Where a task is carried out, and what it does there. -/
def TaskSpec.work (spec : TaskSpec) : Placement × Operation := (spec.placement, spec.operation)

def Group.specs (g : Group) : List TaskSpec := g.stages.flatMap Stage.tasks

namespace Plan

/-- The tasks in order, without their positions. -/
def specs (p : Plan) : List TaskSpec := p.tasks.map fun (_, _, spec) => spec

/-- The tasks of one operation on a service. -/
def stageSpecs (c : Course) (s : Service) (op : Operation) : List TaskSpec :=
  ((c.order s.components).filter op.appliesTo).flatMap (componentTasks c s.name op)

variable {c : Course} {s : Service} {op : Operation}

-- ---------------------------------------------------------------------------
-- Tasks in order
-- ---------------------------------------------------------------------------

theorem flatMap_zipIdx {α β : Type} (l : List α) (f : α → List β) :
    (l.zipIdx.flatMap fun entry => f entry.1) = l.flatMap f := by
  rw [← List.flatMap_map, List.zipIdx_map_fst]

theorem specs_eq (p : Plan) : p.specs = p.groups.flatMap Group.specs := by
  have stages (g : Group) : (g.stages.zipIdx.flatMap fun entry => entry.1.tasks) = g.specs :=
    flatMap_zipIdx g.stages Stage.tasks
  simp only [specs, tasks, List.map_flatMap, List.map_map, Function.comp_def, List.map_id', stages]
  exact flatMap_zipIdx p.groups Group.specs

/-- An operation has its stage in the group unless nothing needs it. -/
theorem stage?_tasks : ((stage? c s op).map Stage.tasks).getD [] = stageSpecs c s op := by
  unfold stage?
  dsimp only
  split
  next nothing => exact (List.isEmpty_iff.mp nothing).symm
  · rfl

theorem group_specs : (group c s).specs = c.operations.flatMap (stageSpecs c s) := by
  rw [Group.specs, group]
  dsimp only
  induction c.operations with
  | nil => rfl
  | cons op ops ih =>
    have here : _ = stageSpecs c s op := stage?_tasks
    cases made : stage? c s op with
    | none =>
      rw [made] at here
      rw [List.filterMap_cons_none made, List.flatMap_cons, ih, ← here]
      rfl
    | some stage =>
      rw [made] at here
      rw [List.filterMap_cons_some made, List.flatMap_cons, List.flatMap_cons, ih, ← here]
      rfl

-- ---------------------------------------------------------------------------
-- Tasks of a placement
-- ---------------------------------------------------------------------------

/-- If only one element of a list contributes, nothing else is there. -/
theorem flatMap_eq_of_only {α β : Type} {l : List α} {f : α → List β} {a : α} (nodup : l.Nodup)
    (ha : a ∈ l) (only : ∀ b ∈ l, b ≠ a → f b = []) : l.flatMap f = f a := by
  obtain ⟨front, back, rfl⟩ := List.append_of_mem ha
  obtain ⟨_, behind, apart⟩ := List.nodup_append.mp nodup
  have none_before : front.flatMap f = [] := List.flatMap_eq_nil_iff.mpr fun b hb =>
    only b (List.mem_append_left _ hb) (apart b hb a List.mem_cons_self)
  have none_behind : back.flatMap f = [] := List.flatMap_eq_nil_iff.mpr fun b hb =>
    only b (List.mem_append_right _ (List.mem_cons_of_mem _ hb)) fun same =>
      (List.nodup_cons.mp behind).1 (same ▸ hb)
  rw [List.flatMap_append, List.flatMap_cons, none_before, none_behind, List.nil_append,
    List.append_nil]

theorem mem_order {α : Type} {l : List α} {a : α} : a ∈ c.order l ↔ a ∈ l := by
  unfold Course.order
  split <;> simp

theorem order_nodup {α : Type} {l : List α} (nodup : l.Nodup) : (c.order l).Nodup := by
  unfold Course.order
  split
  · exact List.nodup_reverse.mpr nodup
  · exact nodup

/-- Names that do not repeat tell the elements of a list apart. -/
theorem name_ne {α : Type} {name : α → String} {l : List α} (nodup : (l.map name).Nodup) {a b : α}
    (ha : a ∈ l) (hb : b ∈ l) (other : b ≠ a) : name b ≠ name a :=
  fun same => other (List.inj_on_of_nodup_map nodup hb ha same)

/-- The tasks of one operation on a placement: one if the component needs the operation. -/
theorem stageSpecs_filter (fit : s.IsWellFormed) {component : Component}
    (hc : component ∈ s.components) {host : String} (hh : host ∈ component.hosts) :
    (stageSpecs c s op).filter (fun spec => spec.placement = ⟨s.name, component.name, host⟩) =
      if op.appliesTo component then [⟨host, s.name, component.name, op, c.version op⟩] else [] := by
  have nodup : (c.order s.components).Nodup := order_nodup (.of_map _ fit.nodup)
  rw [stageSpecs, List.filter_flatMap]
  split
  next applies =>
    rw [flatMap_eq_of_only (nodup.filter _) (List.mem_filter.mpr ⟨mem_order.mpr hc, applies⟩)]
    · simp only [componentTasks, List.filter_map, Function.comp_def, TaskSpec.placement,
        Placement.mk.injEq, true_and]
      rw [List.filter_eq, List.count_eq_one_of_mem (fit.components component hc).nodup hh]
      rfl
    · intro other ho ne
      have elsewhere := name_ne fit.nodup hc (mem_order.mp (List.mem_filter.mp ho).1) ne
      simp [componentTasks, TaskSpec.placement, elsewhere]
  next spared =>
    refine List.flatMap_eq_nil_iff.mpr fun other ho => ?_
    obtain ⟨ho, applies⟩ := List.mem_filter.mp ho
    have ne : other ≠ component := by
      rintro rfl
      exact spared applies
    have elsewhere := name_ne fit.nodup hc (mem_order.mp ho) ne
    simp [componentTasks, TaskSpec.placement, elsewhere]

/-- What is done to a component on a host, with the versions: what has files of its own is stopped, installed
and started, anything else is restarted, and in the end it is checked unless checks are skipped. -/
def needs (outgoing incoming : String) (restartOnly skip : Bool) : List (Operation × String) :=
  (if restartOnly then [(.restart, incoming)]
    else [(.stop, outgoing), (.install, incoming), (.start, incoming)]) ++
  if skip then [] else [(.check, incoming)]

/-- The tasks of a service on a placement. -/
theorem group_specs_filter (fit : s.IsWellFormed) {component : Component}
    (hc : component ∈ s.components) {host : String} (hh : host ∈ component.hosts) :
    (group c s).specs.filter (fun spec => spec.placement = ⟨s.name, component.name, host⟩) =
      (needs c.fromVersion c.toVersion component.restartOnly c.skipServiceChecks).map
        fun (op, version) => ⟨host, s.name, component.name, op, version⟩ := by
  rw [group_specs, List.filter_flatMap]
  simp only [stageSpecs_filter fit hc hh, Course.operations, Operation.precedence, needs]
  cases restart : component.restartOnly <;> cases skip : c.skipServiceChecks <;>
    simp [Operation.appliesTo, Course.version, restart]

theorem mem_stageSpecs {spec : TaskSpec} : spec ∈ stageSpecs c s op ↔
    ∃ component ∈ s.components, op.appliesTo component = true ∧ ∃ host ∈ component.hosts,
      ⟨host, s.name, component.name, op, c.version op⟩ = spec := by
  simp only [stageSpecs, componentTasks, List.mem_flatMap, List.mem_filter, mem_order, List.mem_map,
    and_assoc]

/-- The tasks of a group are on the placements of its service. -/
theorem group_specs_placement {spec : TaskSpec} (hspec : spec ∈ (group c s).specs) :
    ∃ component ∈ s.components, ∃ host ∈ component.hosts,
      spec.placement = ⟨s.name, component.name, host⟩ := by
  rw [group_specs] at hspec
  obtain ⟨op, _, hspec⟩ := List.mem_flatMap.mp hspec
  obtain ⟨component, hc, _, host, hh, rfl⟩ := mem_stageSpecs.mp hspec
  exact ⟨component, hc, host, hh, rfl⟩

/-- No need comes twice. -/
theorem needs_nodup (outgoing incoming : String) (restartOnly skip : Bool) :
    ((needs outgoing incoming restartOnly skip).map Prod.fst).Nodup := by
  cases restartOnly <;> cases skip <;> simp [needs]

-- ---------------------------------------------------------------------------
-- Stages of a group
-- ---------------------------------------------------------------------------

/-- A stage that nothing is to be done in is left out. -/
theorem stage?_ne_nil {stage : Stage} (made : stage? c s op = some stage) : stage.tasks ≠ [] := by
  have tasks : _ = stageSpecs c s op := stage?_tasks
  unfold stage? at made
  dsimp only at made
  split at made
  · cases made
  next some_tasks =>
    cases made
    exact fun nothing => some_tasks (List.isEmpty_iff.mpr nothing)

/-- The stages of a group are in the order of precedence. -/
theorem group_operations : ((group c s).stages.map Stage.operation).Sublist Operation.precedence := by
  have along (ops : List Operation) :
      ((ops.filterMap (stage? c s)).map Stage.operation).Sublist ops := by
    induction ops with
    | nil => exact .slnil
    | cons op ops ih =>
      cases made : stage? c s op with
      | none => rw [List.filterMap_cons_none made]; exact ih.cons op
      | some stage =>
        rw [List.filterMap_cons_some made, List.map_cons, (stage?_operation made).1]
        exact ih.cons_cons op
  exact (along c.operations).trans List.filter_sublist

-- ---------------------------------------------------------------------------
-- The whole plan
-- ---------------------------------------------------------------------------

variable {t : Topology} {downgrade skip : Bool} {plan : Plan}

/-- The plan of a topology along a course. -/
def along (c : Course) (t : Topology) : Plan :=
  ⟨t.name, c.fromVersion, c.toVersion, (c.order t.services).map (group c)⟩

/-- A well-formed topology has a plan if it has a placement. -/
theorem expand_of_wellFormed (fit : t.IsWellFormed) : expand t downgrade skip =
    if t.placementCount = 0 then .error (.emptyTopology t.name)
    else .ok (along (.of t downgrade skip) t) := by
  rw [expand, Topology.validate_eq_ok_iff.mpr fit]
  simp only [bind, Except.bind, pure, Except.pure]
  split <;> rfl

theorem expand_valid (expanded : expand t downgrade skip = .ok plan) : t.IsWellFormed := by
  rw [← Topology.validate_eq_ok_iff]
  cases valid : t.validate with
  | ok => rfl
  | error =>
    rw [expand, valid] at expanded
    cases expanded

theorem eq_along (expanded : expand t downgrade skip = .ok plan) :
    plan = along (.of t downgrade skip) t :=
  expand_eq expanded

theorem along_specs (c : Course) :
    (along c t).specs = (c.order t.services).flatMap fun s => (group c s).specs := by
  rw [specs_eq, along, List.flatMap_map]

/-- The tasks of a plan are on the placements of the topology. -/
theorem expand_placement (expanded : expand t downgrade skip = .ok plan) {spec : TaskSpec}
    (hspec : spec ∈ plan.specs) : ∃ s ∈ t.services, ∃ component ∈ s.components,
      ∃ host ∈ component.hosts, spec.placement = ⟨s.name, component.name, host⟩ := by
  rw [eq_along expanded, along_specs] at hspec
  obtain ⟨s, hs, hspec⟩ := List.mem_flatMap.mp hspec
  exact ⟨s, mem_order.mp hs, group_specs_placement hspec⟩

/-- The tasks of a plan on a placement are those of its service. -/
theorem expand_filter (expanded : expand t downgrade skip = .ok plan) {s : Service}
    (hs : s ∈ t.services) {component : Component} (hc : component ∈ s.components) {host : String}
    (hh : host ∈ component.hosts) :
    let c := Course.of t downgrade skip
    plan.specs.filter (fun spec => spec.placement = ⟨s.name, component.name, host⟩) =
      (needs c.fromVersion c.toVersion component.restartOnly c.skipServiceChecks).map
        fun (op, version) => ⟨host, s.name, component.name, op, version⟩ := by
  intro c
  have fit := expand_valid expanded
  rw [eq_along expanded, along_specs, List.filter_flatMap,
    flatMap_eq_of_only (order_nodup (.of_map _ fit.nodup)) (mem_order.mpr hs) ?elsewhere,
    group_specs_filter (fit.services s hs) hc hh]
  case elsewhere =>
    intro other ho ne
    have elsewhere := name_ne fit.nodup hs (mem_order.mp ho) ne
    refine List.filter_eq_nil_iff.mpr fun spec hspec => ?_
    obtain ⟨_, _, _, _, place⟩ := group_specs_placement hspec
    simp [place, elsewhere]

/-- Pairs do not repeat if those with the same first part differ in the second. -/
theorem nodup_of_filter {α β γ : Type} [DecidableEq β] [DecidableEq γ] {f : α → β} {g : α → γ}
    {l : List α} (apart : ∀ a ∈ l, ((l.filter fun b => f b = f a).map g).Nodup) :
    (l.map fun a => (f a, g a)).Nodup := by
  induction l with
  | nil => exact .nil
  | cons a l ih =>
    refine List.nodup_cons.mpr ⟨fun again => ?_, ih fun b hb => ?_⟩
    · obtain ⟨b, hb, same⟩ := List.mem_map.mp again
      obtain ⟨first, second⟩ := Prod.mk.inj same
      have alone := apart a List.mem_cons_self
      rw [List.filter_cons_of_pos (by simp), List.map_cons, List.nodup_cons] at alone
      exact alone.1 (List.mem_map.mpr ⟨b, List.mem_filter.mpr ⟨hb, by simpa using first⟩, second⟩)
    · refine (apart b (List.mem_cons_of_mem _ hb)).sublist ?_
      exact ((List.sublist_cons_self a l).filter _).map g

/-- No operation is planned twice on a placement. -/
theorem expand_nodup (expanded : expand t downgrade skip = .ok plan) :
    (plan.specs.map TaskSpec.work).Nodup := by
  refine nodup_of_filter (f := TaskSpec.placement) (g := TaskSpec.operation) fun spec hspec => ?_
  obtain ⟨s, hs, component, hc, host, hh, place⟩ := expand_placement expanded hspec
  rw [place, expand_filter expanded hs hc hh, List.map_map]
  exact needs_nodup _ _ component.restartOnly _

/-- A plan does to each placement of its topology what the placement needs, in order, and it does nothing else
and nothing twice. It has one group for each service, in the order of the direction, and the stages of a group
are not empty, hold the tasks of one operation and follow one another in the order of precedence. -/
theorem expand_is_exact (expanded : expand t downgrade skip = .ok plan) :
    let outgoing := if downgrade then t.targetVersion else t.sourceVersion
    let incoming := if downgrade then t.sourceVersion else t.targetVersion
    (∀ s ∈ t.services, ∀ component ∈ s.components, ∀ host ∈ component.hosts,
      plan.specs.filter (fun spec => spec.placement = ⟨s.name, component.name, host⟩) =
        (needs outgoing incoming component.restartOnly skip).map
          fun (op, version) => ⟨host, s.name, component.name, op, version⟩) ∧
    (∀ spec ∈ plan.specs, ∃ s ∈ t.services, ∃ component ∈ s.components, ∃ host ∈ component.hosts,
      spec.placement = ⟨s.name, component.name, host⟩) ∧
    (plan.specs.map TaskSpec.work).Nodup ∧
    plan.groups.map Group.name =
      (if downgrade then (t.services.map Service.name).reverse else t.services.map Service.name) ∧
    ∀ g ∈ plan.groups, (g.stages.map Stage.operation).Sublist Operation.precedence ∧
      ∀ stage ∈ g.stages, stage.tasks ≠ [] ∧ ∀ spec ∈ stage.tasks,
        spec.operation = stage.operation ∧ spec.service = g.name := by
  intro outgoing incoming
  refine ⟨fun s hs component hc host hh => ?_, fun spec => expand_placement expanded,
    expand_nodup expanded, ?_, fun g hg => ?_⟩
  · rw [expand_filter expanded hs hc hh]
    cases downgrade <;> rfl
  · rw [eq_along expanded, along]
    cases downgrade <;> simp [Course.of, Course.order, group, Function.comp_def]
  · rw [eq_along expanded] at hg
    obtain ⟨s, _, rfl⟩ := List.mem_map.mp hg
    refine ⟨group_operations, fun stage hstage => ?_⟩
    obtain ⟨op, _, made⟩ := List.mem_filterMap.mp hstage
    obtain ⟨operation, tasks⟩ := stage?_operation made
    refine ⟨stage?_ne_nil made, fun spec hspec => ⟨by rw [tasks spec hspec, operation], ?_⟩⟩
    have placed : spec ∈ (group (Course.of t downgrade skip) s).specs :=
      List.mem_flatMap.mpr ⟨stage, hstage, hspec⟩
    obtain ⟨_, _, _, _, place⟩ := group_specs_placement placed
    exact congrArg Placement.service place

/-- A service with files of its own on two hosts, and after it a proxy that is only restarted. -/
def twoServices : Topology := ⟨"pair", "1.0", "1.1",
  [⟨"db", false, [⟨"server", ["alpha", "beta"], false⟩]⟩,
    ⟨"web", true, [⟨"proxy", ["beta"], true⟩]⟩]⟩

theorem expand_is_exact_twoServices : ∃ plan, expand twoServices true false = .ok plan ∧
    plan.specs.filter (fun spec => spec.placement = ⟨"web", "proxy", "beta"⟩) =
      [⟨"beta", "web", "proxy", .restart, "1.0"⟩, ⟨"beta", "web", "proxy", .check, "1.0"⟩] ∧
    plan.groups.map Group.name = ["web", "db"] := by
  have fit : twoServices.IsWellFormed := Topology.defect?_eq_none_iff.mp (by decide +kernel)
  have expanded :
      expand twoServices true false = .ok (along (.of twoServices true false) twoServices) := by
    rw [expand_of_wellFormed fit, if_neg (by decide)]
  obtain ⟨needed, _, _, names, _⟩ := expand_is_exact expanded
  exact ⟨_, expanded, needed ⟨"web", true, [⟨"proxy", ["beta"], true⟩]⟩ (by simp [twoServices])
    ⟨"proxy", ["beta"], true⟩ (by simp) "beta" (by simp), names⟩

end Plan

end Rollout
