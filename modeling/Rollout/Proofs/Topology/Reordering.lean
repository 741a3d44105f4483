-- SUMMARY: Topologies that differ in the order of services, components and hosts only: one is well formed just when the other is.
import Mathlib.Data.List.Forall2
import Rollout.Proofs.Topology.WellFormed

/-!
# Reordering

Services are listed in upgrade order, and components and hosts in some order, too. A topology may be listed in
another order at each of the three levels. Whether it is well formed does not depend on that.
-/
namespace Rollout

/-- The elements of two lists are related one to one, in any order. -/
def Shuffled {α : Type} (R : α → α → Prop) (l l' : List α) : Prop :=
  ∃ m, l.Perm m ∧ List.Forall₂ R m l'

/-- The components differ in the order of their hosts at most. -/
structure Component.Reordered (c c' : Component) : Prop where
  name : c.name = c'.name
  restartOnly : c.restartOnly = c'.restartOnly
  hosts : c.hosts.Perm c'.hosts

/-- The services differ in the order of their components, and in the order of hosts, at most. -/
structure Service.Reordered (s s' : Service) : Prop where
  name : s.name = s'.name
  skippable : s.skippable = s'.skippable
  components : Shuffled Component.Reordered s.components s'.components

/-- The topologies differ in the order of services, components and hosts at most. -/
structure Topology.Reordered (t t' : Topology) : Prop where
  name : t.name = t'.name
  source : t.sourceVersion = t'.sourceVersion
  target : t.targetVersion = t'.targetVersion
  services : Shuffled Service.Reordered t.services t'.services

section Shuffled

variable {α β : Type} {R : α → α → Prop} {l l' : List α}

theorem Shuffled.map_perm {f : α → β} (h : Shuffled R l l') (same : ∀ {a b}, R a b → f a = f b) :
    (l.map f).Perm (l'.map f) := by
  obtain ⟨m, perm, related⟩ := h
  refine (perm.map f).trans (.of_eq ?_)
  clear perm
  induction related with
  | nil => rfl
  | cons first _ ih => rw [List.map_cons, List.map_cons, same first, ih]

theorem Shuffled.forall_iff {P : α → Prop} (h : Shuffled R l l')
    (same : ∀ {a b}, R a b → (P a ↔ P b)) : (∀ a ∈ l, P a) ↔ ∀ b ∈ l', P b := by
  obtain ⟨m, perm, related⟩ := h
  have pointwise : (∀ a ∈ l, P a) ↔ ∀ a ∈ m, P a := forall_congr' fun a => by rw [perm.mem_iff]
  rw [pointwise]
  clear perm pointwise
  induction related with
  | nil => rfl
  | cons first _ ih =>
    rw [List.forall_mem_cons, List.forall_mem_cons]
    exact and_congr (same first) ih

end Shuffled

theorem Component.Reordered.isWellFormed_iff {c c' : Component} (h : c.Reordered c') :
    c.IsWellFormed ↔ c'.IsWellFormed := by
  have named : (∀ host ∈ c.hosts, Text.allBlank host = false) ↔
      ∀ host ∈ c'.hosts, Text.allBlank host = false :=
    forall_congr' fun host => by rw [h.hosts.mem_iff]
  exact ⟨fun fit => ⟨named.mp fit.named, h.hosts.nodup_iff.mp fit.nodup⟩,
    fun fit => ⟨named.mpr fit.named, h.hosts.nodup_iff.mpr fit.nodup⟩⟩

theorem Service.Reordered.isWellFormed_iff {s s' : Service} (h : s.Reordered s') :
    s.IsWellFormed ↔ s'.IsWellFormed := by
  have names := (h.components.map_perm Component.Reordered.name).nodup_iff
  have components := h.components.forall_iff Component.Reordered.isWellFormed_iff
  have named : Text.allBlank s.name = Text.allBlank s'.name := congrArg _ h.name
  exact ⟨fun fit => ⟨named ▸ fit.named, names.mp fit.nodup, components.mp fit.components⟩,
    fun fit => ⟨named ▸ fit.named, names.mpr fit.nodup, components.mpr fit.components⟩⟩

theorem Topology.Reordered.isWellFormed_iff {t t' : Topology} (h : t.Reordered t') :
    t.IsWellFormed ↔ t'.IsWellFormed := by
  have names := (h.services.map_perm Service.Reordered.name).nodup_iff
  have services := h.services.forall_iff Service.Reordered.isWellFormed_iff
  have named : Text.allBlank t.name = Text.allBlank t'.name := congrArg _ h.name
  have source : Text.allBlank t.sourceVersion = Text.allBlank t'.sourceVersion := congrArg _ h.source
  have target : Text.allBlank t.targetVersion = Text.allBlank t'.targetVersion := congrArg _ h.target
  exact
    ⟨fun fit => ⟨named ▸ fit.named, source ▸ fit.source, target ▸ fit.target, names.mp fit.nodup,
      services.mp fit.services⟩,
    fun fit => ⟨named ▸ fit.named, source ▸ fit.source, target ▸ fit.target, names.mpr fit.nodup,
      services.mpr fit.services⟩⟩

end Rollout
