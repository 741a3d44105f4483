-- SUMMARY: Which topologies are accepted: those whose texts are not blank and whose names do not repeat in their scopes.
import Mathlib.Data.List.TakeWhile
import Rollout.Topology

/-!
# Well-formed topologies

Validation looks for the first offence in document order and remembers the names that it has seen. What it
accepts can be said without any order: no text is blank, and no name comes twice in its scope, which is the
topology for a service, the service for a component and the component for a host.
-/
namespace Rollout

/-- Nothing is left of the blank texts when they are trimmed, and of no other. -/
theorem Text.trim_eq_empty_iff {s : String} : Text.trim s = "" ↔ Text.allBlank s = true := by
  have kept : Text.trim s = "" ↔ Text.trimEnd (Text.trimStart s.toList) = [] := String.ofList_eq_empty_iff
  rw [kept, Text.trimEnd, List.reverse_eq_nil_iff, List.dropWhile_eq_nil_iff, Text.allBlank, List.all_eq_true]
  constructor
  · intro end_blank c hc
    rw [← List.takeWhile_append_dropWhile (p := Text.isBlank) (l := s.toList)] at hc
    obtain in_front | behind := List.mem_append.mp hc
    · exact List.mem_takeWhile_imp in_front
    · exact end_blank c (List.mem_reverse.mpr behind)
  · intro blank c hc
    exact blank c (List.dropWhile_subset _ (List.mem_reverse.mp hc))

/-- The hosts of a component are named, and no host comes twice. -/
structure Component.IsWellFormed (c : Component) : Prop where
  named : ∀ host ∈ c.hosts, Text.allBlank host = false
  nodup : c.hosts.Nodup

/-- A service is named, and no component comes twice. -/
structure Service.IsWellFormed (s : Service) : Prop where
  named : Text.allBlank s.name = false
  nodup : (s.components.map Component.name).Nodup
  components : ∀ c ∈ s.components, c.IsWellFormed

namespace Topology

/-- A topology and its versions are named, and no service comes twice. -/
structure IsWellFormed (t : Topology) : Prop where
  named : Text.allBlank t.name = false
  source : Text.allBlank t.sourceVersion = false
  target : Text.allBlank t.targetVersion = false
  nodup : (t.services.map Service.name).Nodup
  services : ∀ s ∈ t.services, s.IsWellFormed

/-- The texts of a topology that have to say something. -/
def texts (t : Topology) : List String :=
  t.name :: t.sourceVersion :: t.targetVersion ::
    t.services.flatMap fun s => s.name :: s.components.flatMap Component.hosts

/-! ## Names that were not seen -/

/-- The names of a list were not seen before, and none of them comes twice. -/
def Fresh {α : Type} (name : α → String) (seen : List String) (l : List α) : Prop :=
  (∀ a ∈ l, name a ∉ seen) ∧ (l.map name).Nodup

variable {α : Type} {name : α → String} {seen : List String}

theorem fresh_nil_iff {l : List α} : Fresh name [] l ↔ (l.map name).Nodup := by
  simp [Fresh]

/-- Names are fresh when the first one is, and the others are once it was seen. -/
theorem fresh_cons_iff {a : α} {l : List α} :
    Fresh name seen (a :: l) ↔ name a ∉ seen ∧ Fresh name (name a :: seen) l := by
  rw [Fresh, List.forall_mem_cons]
  simp only [Fresh, List.map_cons, List.nodup_cons, List.mem_cons, not_or, List.mem_map, not_exists,
    not_and]
  constructor
  · rintro ⟨⟨first, others⟩, once, nodup⟩
    exact ⟨first, fun b hb => ⟨once b hb, others b hb⟩, nodup⟩
  · rintro ⟨first, others, nodup⟩
    exact ⟨⟨first, fun b hb => (others b hb).2⟩, fun b hb => (others b hb).1, nodup⟩

-- ---------------------------------------------------------------------------
-- Offences
-- ---------------------------------------------------------------------------

theorem badHost?_eq_none_iff {hosts : List String} : badHost? seen hosts = none ↔
    Fresh id seen hosts ∧ ∀ host ∈ hosts, Text.allBlank host = false := by
  induction hosts generalizing seen with
  | nil => simp [badHost?, Fresh]
  | cons host rest ih =>
    rw [badHost?, fresh_cons_iff, List.forall_mem_cons]
    split
    next offence =>
      obtain blank | again : Text.allBlank host = true ∨ host ∈ seen := by simpa using offence
      · simp [blank]
      · simp [again]
    next fine =>
      obtain ⟨named, fresh⟩ : Text.allBlank host = false ∧ host ∉ seen := by simpa using fine
      simp [ih, named, fresh]

theorem hosts_fine_iff {c : Component} : badHost? [] c.hosts = none ↔ c.IsWellFormed := by
  rw [badHost?_eq_none_iff, fresh_nil_iff, List.map_id]
  exact ⟨fun ⟨nodup, named⟩ => ⟨named, nodup⟩, fun h => ⟨h.nodup, h.named⟩⟩

/-- The components of a service pass when their names are fresh and each is well formed. -/
theorem componentDefect?_eq_none_iff {service : String} {components : List Component} :
    componentDefect? service seen components = none ↔
      Fresh Component.name seen components ∧ ∀ c ∈ components, c.IsWellFormed := by
  induction components generalizing seen with
  | nil => simp [componentDefect?, Fresh]
  | cons c rest ih =>
    rw [componentDefect?, fresh_cons_iff, List.forall_mem_cons]
    split
    next again =>
      have again : c.name ∈ seen := by simpa using again
      simp [again]
    next fresh =>
      have fresh : c.name ∉ seen := by simpa using fresh
      cases hosts : badHost? [] c.hosts with
      | some host =>
        have unfit : ¬ c.IsWellFormed := fun fit => by simp [hosts_fine_iff.mpr fit] at hosts
        simp [unfit]
      | none =>
        have fit : c.IsWellFormed := hosts_fine_iff.mp hosts
        simp [ih, fresh, fit]

theorem components_fine_iff {s : Service} (named : Text.allBlank s.name = false) :
    componentDefect? s.name [] s.components = none ↔ s.IsWellFormed := by
  rw [componentDefect?_eq_none_iff, fresh_nil_iff]
  exact ⟨fun ⟨nodup, components⟩ => ⟨named, nodup, components⟩, fun h => ⟨h.nodup, h.components⟩⟩

/-- The services pass when their names are fresh and each is well formed. -/
theorem serviceDefect?_eq_none_iff {services : List Service} :
    serviceDefect? seen services = none ↔
      Fresh Service.name seen services ∧ ∀ s ∈ services, s.IsWellFormed := by
  induction services generalizing seen with
  | nil => simp [serviceDefect?, Fresh]
  | cons s rest ih =>
    rw [serviceDefect?, fresh_cons_iff, List.forall_mem_cons]
    split
    next blank =>
      have unfit : ¬ s.IsWellFormed := fun fit => by simp [fit.named] at blank
      simp [unfit]
    next named =>
      have named : Text.allBlank s.name = false := by simpa using named
      split
      next again =>
        have again : s.name ∈ seen := by simpa using again
        simp [again]
      next fresh =>
        have fresh : s.name ∉ seen := by simpa using fresh
        cases components : componentDefect? s.name [] s.components with
        | some defect =>
          have unfit : ¬ s.IsWellFormed := fun fit => by
            simp [(components_fine_iff named).mpr fit] at components
          simp [unfit]
        | none =>
          have fit : s.IsWellFormed := (components_fine_iff named).mp components
          simp [ih, fresh, fit]

-- ---------------------------------------------------------------------------
-- Acceptance
-- ---------------------------------------------------------------------------

/-- No defect is found in the well-formed topologies, and in no others. -/
theorem defect?_eq_none_iff {t : Topology} : t.defect? = none ↔ t.IsWellFormed := by
  unfold defect?
  split
  next blank =>
    have unfit : ¬ t.IsWellFormed := fun fit => by simp [fit.named] at blank
    simp [unfit]
  next named =>
    split
    next blank =>
      have unfit : ¬ t.IsWellFormed := fun fit => by simp [fit.source, fit.target] at blank
      simp [unfit]
    next versions =>
      have named : Text.allBlank t.name = false := by simpa using named
      obtain ⟨source, target⟩ :
          Text.allBlank t.sourceVersion = false ∧ Text.allBlank t.targetVersion = false := by
        simpa using versions
      rw [serviceDefect?_eq_none_iff, fresh_nil_iff]
      exact ⟨fun ⟨nodup, services⟩ => ⟨named, source, target, nodup, services⟩,
        fun h => ⟨h.nodup, h.services⟩⟩

/-- The topologies that are accepted are the well-formed ones. -/
theorem validate_eq_ok_iff {t : Topology} : t.validate = .ok () ↔ t.IsWellFormed := by
  rw [← defect?_eq_none_iff, validate]
  cases t.defect? <;> simp

/-- Something is left of every text of an accepted topology when it is trimmed: a character that is not blank. -/
theorem texts_of_accepted {t : Topology} (accepted : t.validate = .ok ()) :
    ∀ text ∈ t.texts, Text.trim text ≠ "" ∧ ∃ c ∈ text.toList, Text.isBlank c = false := by
  have fit := validate_eq_ok_iff.mp accepted
  suffices named : ∀ text ∈ t.texts, Text.allBlank text = false by
    intro text htext
    refine ⟨fun empty => ?_, Text.allBlank_eq_false_iff.mp (named text htext)⟩
    exact Bool.false_ne_true ((named text htext).symm.trans (Text.trim_eq_empty_iff.mp empty))
  simp only [texts, List.forall_mem_cons, List.forall_mem_flatMap]
  exact ⟨fit.named, fit.source, fit.target, fun s hs =>
    ⟨(fit.services s hs).named, fun c hc => ((fit.services s hs).components c hc).named⟩⟩

end Topology

end Rollout
