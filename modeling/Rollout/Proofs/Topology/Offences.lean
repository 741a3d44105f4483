-- SUMMARY: Where a topology offends: validation names the first offence in document order, and accepts whatever the order when there is none.
import Mathlib.Data.List.Lex
import Rollout.Proofs.Topology.Reordering

/-!
# Offences

A place in a topology is the way that leads down to it, by positions, and document order is the lexicographic
order of these ways: a service comes before its components, and those before the services behind it. An offence
is said of a place and of the names before it in the same scope. Validation walks through a topology and
remembers names; what it reports is the offence with none before it in document order.
-/
namespace Rollout

namespace Topology

/-- The way down to a place: 0 for the name, 1 for the versions, and 2 for the services, where the positions of a
service, of a component in it and of a host in that follow. -/
abbrev Place := List Nat

theorem Place.nil_le (p : Place) : [] ≤ p := not_lt.mp (List.not_lt_nil p)

theorem Place.cons_le_cons_iff {i k : Nat} {p q : Place} :
    i :: p ≤ k :: q ↔ i < k ∨ i = k ∧ p ≤ q := by
  rw [← not_lt, List.cons_lt_cons_iff, ← not_lt]
  by_cases same : i = k
  · simp [same]
  · simp [same, Ne.symm same, lt_iff_le_and_ne]

/-- What offends at a place. A name offends when it stands at an earlier position of its scope, too. -/
inductive Offends (t : Topology) : Place → Defect → Prop
  | name (blank : Text.allBlank t.name = true) : Offends t [0] .blankName
  | version (blank : Text.allBlank t.sourceVersion = true ∨ Text.allBlank t.targetVersion = true) :
      Offends t [1] .blankVersion
  | service {i : Nat} {s : Service} (service : t.services[i]? = some s)
      (blank : Text.allBlank s.name = true) : Offends t [2, i] .blankService
  | serviceAgain {i : Nat} {s : Service} (service : t.services[i]? = some s)
      (named : Text.allBlank s.name = false)
      (again : s.name ∈ (t.services.take i).map Service.name) :
      Offends t [2, i] (.repeatedService s.name)
  | componentAgain {i k : Nat} {s : Service} {c : Component} (service : t.services[i]? = some s)
      (component : s.components[k]? = some c)
      (again : c.name ∈ (s.components.take k).map Component.name) :
      Offends t [2, i, k] (.repeatedComponent s.name c.name)
  | host {i k m : Nat} {s : Service} {c : Component} {host : String}
      (service : t.services[i]? = some s) (component : s.components[k]? = some c)
      (there : c.hosts[m]? = some host)
      (bad : Text.allBlank host = true ∨ host ∈ c.hosts.take m) :
      Offends t [2, i, k, m] (.badHost s.name c.name host)

/-- The defect of the first place in document order that offends. -/
def FirstOffence (t : Topology) (d : Defect) : Prop :=
  ∃ p, t.Offends p d ∧ ∀ p' d', t.Offends p' d' → p ≤ p'

/-- A place offends in one way. -/
theorem Offends.unique {t : Topology} {p : Place} {d d' : Defect} (h : t.Offends p d)
    (h' : t.Offends p d') : d = d' := by
  cases h with
  | name => cases h'; rfl
  | version => cases h'; rfl
  | service service blank =>
    cases h' with
    | service => rfl
    | serviceAgain service' named =>
      cases service.symm.trans service'
      simp [named] at blank
  | serviceAgain service named =>
    cases h' with
    | service service' blank =>
      cases service.symm.trans service'
      simp [named] at blank
    | serviceAgain service' =>
      cases service.symm.trans service'
      rfl
  | componentAgain service component =>
    cases h' with
    | componentAgain service' component' =>
      cases service.symm.trans service'
      cases component.symm.trans component'
      rfl
  | host service component host =>
    cases h' with
    | host service' component' host' =>
      cases service.symm.trans service'
      cases component.symm.trans component'
      cases host.symm.trans host'
      rfl

theorem FirstOffence.unique {t : Topology} {d d' : Defect} (h : t.FirstOffence d)
    (h' : t.FirstOffence d') : d = d' := by
  obtain ⟨p, offends, first⟩ := h
  obtain ⟨p', offends', first'⟩ := h'
  have same : p = p' := le_antisymm (first p' d' offends') (first' p d offends)
  subst same
  exact offends.unique offends'

-- ---------------------------------------------------------------------------
-- Searches
-- ---------------------------------------------------------------------------

/-- The result of a search for the first of the offences that `O` says. -/
def Finds (O : Place → Defect → Prop) : Option Defect → Prop
  | none => ∀ p d, ¬ O p d
  | some d => ∃ p, O p d ∧ ∀ p' d', O p' d' → p ≤ p'

section Searches

variable {α : Type} {name : α → String} {here : List String → α → Option Defect}
  {inner : List String → α → Place → Defect → Prop} {O O' : Place → Defect → Prop} {d : Defect}
  {seen : List String}

/-- Nothing comes before the place where the search begins. -/
theorem Finds.root (h : O [] d) : Finds O (some d) := ⟨[], h, fun p' _ _ => Place.nil_le p'⟩

theorem Finds.congr {found : Option Defect} (h : Finds O found) (same : ∀ p d, O' p d ↔ O p d) :
    Finds O' found := by
  have equal : O' = O := funext fun p => funext fun d => propext (same p d)
  rwa [equal]

/-- A search through a list that remembers the names which it has seen. -/
def search (name : α → String) (here : List String → α → Option Defect) (seen : List String) :
    List α → Option Defect
  | [] => none
  | a :: l => (here seen a).or (search name here (name a :: seen) l)

/-- The offences in a list: those of an element depend on the names before it. -/
def Within (name : α → String) (inner : List String → α → Place → Defect → Prop)
    (seen : List String) (l : List α) : Place → Defect → Prop
  | [], _ => False
  | i :: p, d => ∃ a, l[i]? = some a ∧ inner (((l.take i).map name).reverse ++ seen) a p d

theorem within_head {a : α} {l : List α} {p : Place} :
    Within name inner seen (a :: l) (0 :: p) d ↔ inner seen a p d := by
  simp [Within]

theorem within_tail {a : α} {l : List α} {i : Nat} {p : Place} :
    Within name inner seen (a :: l) ((i + 1) :: p) d ↔
      Within name inner (name a :: seen) l (i :: p) d := by
  simp [Within]

/-- A search through a list finds the first offence when it finds the first one of each element. -/
theorem finds_within (l : List α) (each : ∀ seen, ∀ a ∈ l, Finds (inner seen a) (here seen a)) :
    Finds (Within name inner seen l) (search name here seen l) := by
  induction l generalizing seen with
  | nil =>
    rintro (_ | ⟨i, p⟩) d offends
    · exact offends
    · simp [Within] at offends
  | cons a l ih =>
    have first := each seen a List.mem_cons_self
    have rest : Finds (Within name inner (name a :: seen) l) (search name here (name a :: seen) l) :=
      ih fun seen b hb => each seen b (List.mem_cons_of_mem a hb)
    rw [search]
    cases found : here seen a with
    | some d =>
      rw [found] at first
      obtain ⟨p, offends, least⟩ := first
      refine ⟨0 :: p, within_head.mpr offends, ?_⟩
      rintro (_ | ⟨_ | i, p'⟩) d' offends'
      · exact offends'.elim
      · exact Place.cons_le_cons_iff.mpr (.inr ⟨rfl, least p' d' (within_head.mp offends')⟩)
      · exact Place.cons_le_cons_iff.mpr (.inl (Nat.succ_pos i))
    | none =>
      rw [found] at first
      rw [Option.none_or]
      -- The first element is fine, so the places of the others count.
      cases later : search name here (name a :: seen) l with
      | none =>
        rw [later] at rest
        rintro (_ | ⟨_ | i, p'⟩) d' offends'
        · exact offends'
        · exact first p' d' (within_head.mp offends')
        · exact rest (i :: p') d' (within_tail.mp offends')
      | some d =>
        rw [later] at rest
        obtain ⟨_ | ⟨i, p⟩, offends, least⟩ := rest
        · exact offends.elim
        refine ⟨(i + 1) :: p, within_tail.mpr offends, ?_⟩
        rintro (_ | ⟨_ | i', p'⟩) d' offends'
        · exact offends'.elim
        · exact absurd (within_head.mp offends') (first p' d')
        · have before := least (i' :: p') d' (within_tail.mp offends')
          exact Place.cons_le_cons_iff.mpr ((Place.cons_le_cons_iff.mp before).imp
            Nat.succ_lt_succ fun ⟨same, le⟩ => ⟨congrArg Nat.succ same, le⟩)

end Searches

-- ---------------------------------------------------------------------------
-- Hosts, components and services
-- ---------------------------------------------------------------------------

/-- What offends at a host of a component. -/
def HostOffends (service component : String) (seen : List String) (host : String) (p : Place)
    (d : Defect) : Prop :=
  p = [] ∧ (Text.allBlank host = true ∨ host ∈ seen) ∧ d = .badHost service component host

/-- What offends at a component of a service, or in it. -/
def ComponentOffends (service : String) (seen : List String) (c : Component) (p : Place)
    (d : Defect) : Prop :=
  (p = [] ∧ c.name ∈ seen ∧ d = .repeatedComponent service c.name) ∨
    Within id (HostOffends service c.name) [] c.hosts p d

/-- What offends at a service, or in it. -/
def ServiceOffends (seen : List String) (s : Service) (p : Place) (d : Defect) : Prop :=
  (p = [] ∧ Text.allBlank s.name = true ∧ d = .blankService) ∨
    (p = [] ∧ Text.allBlank s.name = false ∧ s.name ∈ seen ∧ d = .repeatedService s.name) ∨
    Within Component.name (ComponentOffends s.name) [] s.components p d

section Levels

variable {seen : List String}

/-- The search among the hosts finds the first one that offends. -/
theorem badHost?_finds (service : String) (c : Component) :
    Finds (Within id (HostOffends service c.name) seen c.hosts)
      ((badHost? seen c.hosts).map (.badHost service c.name)) := by
  let here (seen : List String) (host : String) : Option Defect :=
    if Text.allBlank host || seen.contains host then some (.badHost service c.name host) else none
  have searched (hosts : List String) (seen : List String) :
      (badHost? seen hosts).map (.badHost service c.name) = search id here seen hosts := by
    induction hosts generalizing seen with
    | nil => rfl
    | cons host rest ih =>
      simp only [badHost?, search, here]
      split
      · rfl
      · exact (ih (host :: seen)).trans (Option.none_or).symm
  rw [searched]
  refine finds_within c.hosts fun seen host _ => ?_
  simp only [here]
  split
  next bad => exact .root ⟨rfl, by simpa using bad, rfl⟩
  next fine =>
    rintro p d ⟨_, bad, _⟩
    exact fine (by simpa using bad)

/-- The search among the components finds the first offence in one. -/
theorem componentDefect?_finds (s : Service) :
    Finds (Within Component.name (ComponentOffends s.name) seen s.components)
      (componentDefect? s.name seen s.components) := by
  let here (seen : List String) (c : Component) : Option Defect :=
    if seen.contains c.name then some (.repeatedComponent s.name c.name)
    else (badHost? [] c.hosts).map (.badHost s.name c.name)
  have searched (components : List Component) (seen : List String) :
      componentDefect? s.name seen components = search Component.name here seen components := by
    induction components generalizing seen with
    | nil => rfl
    | cons c rest ih =>
      simp only [componentDefect?, search, here]
      split
      · rfl
      · cases badHost? [] c.hosts with
        | some host => rfl
        | none => exact (ih (c.name :: seen)).trans (Option.none_or).symm
  rw [searched]
  refine finds_within s.components fun seen c _ => ?_
  simp only [here]
  split
  next again => exact .root (.inl ⟨rfl, by simpa using again, rfl⟩)
  next fresh =>
    refine (badHost?_finds s.name c).congr fun p d => or_iff_right ?_
    rintro ⟨_, again, _⟩
    exact fresh (by simpa using again)

/-- The search among the services finds the first offence in one. -/
theorem serviceDefect?_finds (services : List Service) :
    Finds (Within Service.name ServiceOffends seen services) (serviceDefect? seen services) := by
  let here (seen : List String) (s : Service) : Option Defect :=
    if Text.allBlank s.name then some .blankService
    else if seen.contains s.name then some (.repeatedService s.name)
    else componentDefect? s.name [] s.components
  have searched (services : List Service) (seen : List String) :
      serviceDefect? seen services = search Service.name here seen services := by
    induction services generalizing seen with
    | nil => rfl
    | cons s rest ih =>
      simp only [serviceDefect?, search, here]
      split
      · rfl
      · split
        · rfl
        · cases componentDefect? s.name [] s.components with
          | some d => rfl
          | none => exact (ih (s.name :: seen)).trans (Option.none_or).symm
  rw [searched]
  refine finds_within services fun seen s _ => ?_
  simp only [here]
  split
  next blank => exact .root (.inl ⟨rfl, blank, rfl⟩)
  next named =>
    have named : Text.allBlank s.name = false := by simpa using named
    split
    next again => exact .root (.inr (.inl ⟨rfl, named, by simpa using again, rfl⟩))
    next fresh =>
      refine (componentDefect?_finds s).congr fun p d => ?_
      simp only [ServiceOffends, named]
      simp at fresh
      simp [fresh]

end Levels

-- ---------------------------------------------------------------------------
-- The first offence
-- ---------------------------------------------------------------------------

section First

variable {t : Topology} {d : Defect} {p : Place}

theorem within_hosts_iff {c : Component} {service : String} :
    Within id (HostOffends service c.name) [] c.hosts p d ↔ ∃ m host, p = [m] ∧
      c.hosts[m]? = some host ∧ (Text.allBlank host = true ∨ host ∈ c.hosts.take m) ∧
      d = .badHost service c.name host := by
  cases p with
  | nil => simp [Within]
  | cons m p => simp [Within, HostOffends, and_left_comm]

/-- The search through services, components and hosts is about the offences at their places. -/
theorem within_services_iff :
    Within Service.name ServiceOffends [] t.services p d ↔ t.Offends (2 :: p) d := by
  constructor
  · intro h
    obtain _ | ⟨i, p⟩ := p
    · exact h.elim
    obtain ⟨s, service, ⟨rfl, blank, rfl⟩ | ⟨rfl, named, again, rfl⟩ | inside⟩ := h
    · exact .service service blank
    · exact .serviceAgain service named (by simpa using again)
    obtain _ | ⟨k, p⟩ := p
    · exact inside.elim
    obtain ⟨c, component, ⟨rfl, again, rfl⟩ | inside⟩ := inside
    · exact .componentAgain service component (by simpa using again)
    obtain ⟨m, host, rfl, there, bad, rfl⟩ := within_hosts_iff.mp inside
    exact .host service component there bad
  · intro h
    cases h with
    | service service blank => exact ⟨_, service, .inl ⟨rfl, blank, rfl⟩⟩
    | serviceAgain service named again =>
      exact ⟨_, service, .inr (.inl ⟨rfl, named, by simpa using again, rfl⟩)⟩
    | componentAgain service component again =>
      exact ⟨_, service, .inr (.inr ⟨_, component, .inl ⟨rfl, by simpa using again, rfl⟩⟩)⟩
    | host service component there bad =>
      refine ⟨_, service, .inr (.inr ⟨_, component, .inr ?_⟩)⟩
      exact within_hosts_iff.mpr ⟨_, _, rfl, there, bad, rfl⟩

/-- Validation finds the first offence. -/
theorem defect?_finds (t : Topology) : Finds t.Offends t.defect? := by
  have services : Finds (Within Service.name ServiceOffends [] t.services) (serviceDefect? [] t.services) :=
    serviceDefect?_finds t.services
  -- Every place is the name, the versions, or among the services.
  have places {p : Place} {d : Defect} (h : t.Offends p d) :
      (p = [0] ∧ Text.allBlank t.name = true) ∨
      (p = [1] ∧ (Text.allBlank t.sourceVersion = true ∨ Text.allBlank t.targetVersion = true)) ∨
      ∃ q, p = 2 :: q := by
    cases h with
    | name blank => exact .inl ⟨rfl, blank⟩
    | version blank => exact .inr (.inl ⟨rfl, blank⟩)
    | service | serviceAgain | componentAgain | host => exact .inr (.inr ⟨_, rfl⟩)
  unfold defect?
  split
  next blank =>
    refine ⟨[0], .name blank, fun p' d' h => ?_⟩
    obtain ⟨rfl, _⟩ | ⟨rfl, _⟩ | ⟨q, rfl⟩ := places h
    · exact le_refl _
    · exact Place.cons_le_cons_iff.mpr (.inl (by decide))
    · exact Place.cons_le_cons_iff.mpr (.inl (by decide))
  next named =>
    split
    next blank =>
      refine ⟨[1], .version (by simpa using blank), fun p' d' h => ?_⟩
      obtain ⟨_, blank⟩ | ⟨rfl, _⟩ | ⟨q, rfl⟩ := places h
      · exact absurd blank named
      · exact le_refl _
      · exact Place.cons_le_cons_iff.mpr (.inl (by decide))
    next versions =>
      have versions : ¬ (Text.allBlank t.sourceVersion = true ∨ Text.allBlank t.targetVersion = true) := by
        simpa using versions
      have below {p : Place} {d : Defect} (h : t.Offends p d) : ∃ q, p = 2 :: q :=
        ((places h).resolve_left fun blank => named blank.2).resolve_left fun blank =>
          versions blank.2
      cases found : serviceDefect? [] t.services with
      | none =>
        rw [found] at services
        intro p d h
        obtain ⟨q, rfl⟩ := below h
        exact services q d (within_services_iff.mpr h)
      | some d =>
        rw [found] at services
        obtain ⟨p, offends, least⟩ := services
        refine ⟨2 :: p, within_services_iff.mp offends, fun p' d' h => ?_⟩
        obtain ⟨q, rfl⟩ := below h
        exact Place.cons_le_cons_iff.mpr (.inr ⟨rfl, least q d' (within_services_iff.mpr h)⟩)

theorem defect?_eq_some_iff : t.defect? = some d ↔ t.FirstOffence d := by
  have finds := t.defect?_finds
  constructor
  · intro found
    rwa [found] at finds
  · intro first
    cases found : t.defect? with
    | none =>
      rw [found] at finds
      obtain ⟨p, offends, _⟩ := first
      exact absurd offends (finds p d)
    | some d' =>
      rw [found] at finds
      exact congrArg some (FirstOffence.unique finds first)

/-- A topology is refused with the wording of its first offence. -/
theorem validate_eq_error_iff {fault : Fault} : t.validate = .error fault ↔
    ∃ d, t.FirstOffence d ∧ fault = .invalidTopology (d.message t.name) := by
  simp only [← defect?_eq_some_iff, validate]
  cases t.defect? <;> simp [eq_comm]

end First

/-- A topology is accepted just when it is well formed, which does not change with the order of services,
components or hosts. Any other is refused, and the message is about its first offence in document order. -/
theorem refused_for_the_first_offence (t : Topology) :
    (t.validate = .ok () ↔ t.IsWellFormed) ∧
    (∀ t', t.Reordered t' → (t.validate = .ok () ↔ t'.validate = .ok ())) ∧
    ∀ fault, t.validate = .error fault ↔
      ∃ d, t.FirstOffence d ∧ fault = .invalidTopology (d.message t.name) := by
  refine ⟨validate_eq_ok_iff, fun t' reordered => ?_, fun _ => validate_eq_error_iff⟩
  rw [validate_eq_ok_iff, validate_eq_ok_iff, reordered.isWellFormed_iff]

/-- The service of the name on the given hosts. -/
def serviceOn (name : String) (hosts : List String) : Service :=
  ⟨name, false, [⟨"server", hosts, false⟩]⟩

/-- The topology with the given services. -/
def upgradeOf (services : List Service) : Topology := ⟨"prod", "1.0", "2.0", services⟩

/-- With the services and the hosts of one of them in another order a topology is accepted as before. When a
host and a service behind it are repeated, the host is named. -/
theorem refused_for_the_first_offence_threeServices :
    let t := upgradeOf [serviceOn "db" ["alpha", "beta"], serviceOn "web" ["alpha"]]
    let t' := upgradeOf [serviceOn "web" ["alpha"], serviceOn "db" ["beta", "alpha"]]
    let bad := upgradeOf [serviceOn "db" ["alpha", "beta", "alpha"], serviceOn "db" ["beta"]]
    t.Reordered t' ∧ t.validate = .ok () ∧ t'.validate = .ok () ∧
      bad.Offends [2, 1] (.repeatedService "db") ∧ bad.FirstOffence (.badHost "db" "server" "alpha") ∧
      bad.validate = .error
        (.invalidTopology "prod: invalid or duplicate host 'alpha' for db/server") := by
  intro t t' bad
  have reordered : t.Reordered t' := by
    refine ⟨rfl, rfl, rfl, _, .swap _ _ [], ?_⟩
    have same : (serviceOn "web" ["alpha"]).Reordered (serviceOn "web" ["alpha"]) :=
      ⟨rfl, rfl, _, .refl _, .cons ⟨rfl, rfl, .refl _⟩ .nil⟩
    have turned : (serviceOn "db" ["alpha", "beta"]).Reordered (serviceOn "db" ["beta", "alpha"]) :=
      ⟨rfl, rfl, _, .refl _, .cons ⟨rfl, rfl, .swap _ _ []⟩ .nil⟩
    exact .cons same (.cons turned .nil)
  have accepted : t.validate = .ok () := by decide +kernel
  have second : bad.services[1]? = some (serviceOn "db" ["beta"]) := rfl
  have again : bad.Offends [2, 1] (.repeatedService "db") :=
    .serviceAgain second (by decide +kernel) (by decide +kernel)
  have first : bad.FirstOffence (.badHost "db" "server" "alpha") :=
    defect?_eq_some_iff.mp (by decide +kernel)
  obtain ⟨_, orders, _⟩ := refused_for_the_first_offence t
  obtain ⟨_, _, refusals⟩ := refused_for_the_first_offence bad
  exact ⟨reordered, accepted, (orders t' reordered).mp accepted, again, first,
    (refusals _).mpr ⟨_, first, by decide +kernel⟩⟩

end Topology

end Rollout
