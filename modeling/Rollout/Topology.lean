-- SUMMARY: Cluster topologies: services, components and the hosts they run on, and their validation.
import Rollout.Fault

/-!
# Topologies

A topology lists the services of a cluster in upgrade order, each with its components and their
hosts, and the versions to leave and to reach. `Topology.defect?` finds the first offence in
document order; a topology without one is well formed.
-/
namespace Rollout

/-- A component on one or more hosts. -/
structure Component where
  name : String
  hosts : List String
  /-- Without versioned files of its own: it is only restarted. -/
  restartOnly : Bool
  deriving DecidableEq, Repr

structure Service where
  name : String
  /-- Failed checks of this service do not hold the run. -/
  skippable : Bool
  components : List Component
  deriving DecidableEq, Repr

/-- A cluster that goes from its source version to its target version. -/
structure Topology where
  name : String
  sourceVersion : String
  targetVersion : String
  services : List Service
  deriving DecidableEq, Repr

namespace Topology

/-- All components in document order. -/
def components (t : Topology) : List Component := t.services.flatMap Service.components

/-- How many times a component is placed on a host. -/
def placementCount (t : Topology) : Nat := (t.components.map fun c => c.hosts.length).foldr (· + ·) 0

/-- Insert into an ascending list without repeats. -/
def insertHost (host : String) : List String → List String
  | [] => [host]
  | h :: hs =>
    if host < h then host :: h :: hs
    else if host = h then h :: hs
    else h :: insertHost host hs

/-- The distinct hosts in ascending order. -/
def hosts (t : Topology) : List String :=
  (t.components.flatMap Component.hosts).foldr insertHost []

/-! ## Validation -/

/-- What is wrong with a topology. -/
inductive Defect where
  | blankName
  | blankVersion
  | blankService
  | repeatedService (service : String)
  | repeatedComponent (service component : String)
  | badHost (service component host : String)
  deriving DecidableEq, Repr

/-- The wording of a defect in the topology of the given name. -/
def Defect.message (topology : String) : Defect → String
  | blankName => "name must not be empty"
  | blankVersion => s!"{topology}: sourceVersion and targetVersion are required"
  | blankService => s!"{topology}: service name must not be empty"
  | repeatedService service => s!"{topology}: duplicate service {service}"
  | repeatedComponent service component => s!"{topology}: duplicate component {service}/{component}"
  | badHost service component host =>
    s!"{topology}: invalid or duplicate host '{host}' for {service}/{component}"

/-- The first host that is blank or was seen before. -/
def badHost? (seen : List String) : List String → Option String
  | [] => none
  | host :: rest =>
    if Text.allBlank host || seen.contains host then some host else badHost? (host :: seen) rest

/-- The first offence among the components of a service. -/
def componentDefect? (service : String) (seen : List String) : List Component → Option Defect
  | [] => none
  | c :: rest =>
    if seen.contains c.name then some (.repeatedComponent service c.name)
    else match badHost? [] c.hosts with
      | some host => some (.badHost service c.name host)
      | none => componentDefect? service (c.name :: seen) rest

/-- The first offence among the services. -/
def serviceDefect? (seen : List String) : List Service → Option Defect
  | [] => none
  | s :: rest =>
    if Text.allBlank s.name then some .blankService
    else if seen.contains s.name then some (.repeatedService s.name)
    else match componentDefect? s.name [] s.components with
      | some defect => some defect
      | none => serviceDefect? (s.name :: seen) rest

/-- The first offence of a topology. -/
def defect? (t : Topology) : Option Defect :=
  if Text.allBlank t.name then some .blankName
  else if Text.allBlank t.sourceVersion || Text.allBlank t.targetVersion then some .blankVersion
  else serviceDefect? [] t.services

/-- Accept a topology without a defect. Whether any host is named is asked when a plan is built. -/
def validate (t : Topology) : Except Fault Unit :=
  match t.defect? with
  | none => .ok ()
  | some defect => .error (.invalidTopology (defect.message t.name))

end Topology

end Rollout
