-- SUMMARY: Plans: the ordered groups, stages and tasks of a rollout, built from a topology.
import Rollout.Policy
import Rollout.Topology

/-!
# Plans

A plan has one group for each service and, in a group, one stage for each kind of operation that
some component of the service needs. The tasks of a stage may run side by side; stages and groups
follow one another. `Plan.expand` builds the plan of a topology in either direction.
-/
namespace Rollout

/-- What a task does on its host. -/
inductive Operation where
  | stop
  | install
  | start
  | restart
  | check
  deriving DecidableEq, Repr

namespace Operation

/-- The order of the stages in a group. -/
def precedence : List Operation := [stop, install, start, restart, check]

def name : Operation → String
  | stop => "stop"
  | install => "install"
  | start => "start"
  | restart => "restart"
  | check => "check"

/-- Components without versioned files are only restarted; all components are checked. -/
def appliesTo : Operation → Component → Bool
  | stop, c | install, c | start, c => !c.restartOnly
  | restart, c => c.restartOnly
  | check, _ => true

end Operation

/-- One operation on a component on one host. -/
structure TaskSpec where
  host : String
  service : String
  component : String
  operation : Operation
  /-- The version that the operation acts on: the outgoing one for a stop. -/
  version : String
  deriving DecidableEq, Repr

/-- Tasks of one operation that all have to end before the next stage starts. -/
structure Stage where
  name : String
  operation : Operation
  tasks : List TaskSpec
  deriving DecidableEq, Repr

/-- The stages of one service. -/
structure Group where
  name : String
  skippable : Bool
  stages : List Stage
  deriving DecidableEq, Repr

/-- The whole of a rollout in order. -/
structure Plan where
  topology : String
  fromVersion : String
  toVersion : String
  groups : List Group
  deriving DecidableEq, Repr

def Group.taskCount (g : Group) : Nat := (g.stages.map fun s => s.tasks.length).foldr (· + ·) 0

namespace Plan

def taskCount (p : Plan) : Nat := (p.groups.map Group.taskCount).foldr (· + ·) 0

def stageCount (p : Plan) : Nat := (p.groups.map fun g => g.stages.length).foldr (· + ·) 0

/-- Every task with the positions of its group and its stage, in order. -/
def tasks (p : Plan) : List (Nat × Nat × TaskSpec) :=
  p.groups.zipIdx.flatMap fun (group, g) =>
    group.stages.zipIdx.flatMap fun (stage, s) =>
      stage.tasks.map fun task => (g, s, task)

/-! ## Building a plan -/

/-- The direction-dependent part of a plan: the versions to leave and to reach, and whether
services and components are taken backwards. -/
structure Course where
  fromVersion : String
  toVersion : String
  backwards : Bool
  skipServiceChecks : Bool
  deriving DecidableEq, Repr

namespace Course

/-- The course of a topology: a downgrade goes from the target version to the source version. -/
def of (t : Topology) (downgrade skipServiceChecks : Bool) : Course :=
  if downgrade then ⟨t.targetVersion, t.sourceVersion, true, skipServiceChecks⟩
  else ⟨t.sourceVersion, t.targetVersion, false, skipServiceChecks⟩

/-- A list in the order of the course. -/
def order {α : Type} (c : Course) (xs : List α) : List α := if c.backwards then xs.reverse else xs

/-- The operations of the course, in order of precedence. -/
def operations (c : Course) : List Operation :=
  Operation.precedence.filter fun op => !(op = .check && c.skipServiceChecks)

/-- The version that an operation acts on. -/
def version (c : Course) (op : Operation) : String :=
  if op = .stop then c.fromVersion else c.toVersion

end Course

/-- The tasks of one operation on one component, one for each host. -/
def componentTasks (c : Course) (service : String) (op : Operation) (component : Component) :
    List TaskSpec :=
  component.hosts.map fun host => ⟨host, service, component.name, op, c.version op⟩

/-- The stage of one operation, if any component of the service needs it on some host. -/
def stage? (c : Course) (service : Service) (op : Operation) : Option Stage :=
  let components := (c.order service.components).filter op.appliesTo
  let tasks := components.flatMap (componentTasks c service.name op)
  if tasks.isEmpty then none
  else some ⟨s!"{op.name} {service.name} ({c.version op})", op, tasks⟩

/-- The group of a service. Without its check stage nothing tells whether to go on, so then it
counts as skippable. -/
def group (c : Course) (service : Service) : Group where
  name := service.name
  skippable := service.skippable || c.skipServiceChecks
  stages := c.operations.filterMap (stage? c service)

/-- The plan of a topology for given flags. -/
def expand (t : Topology) (downgrade skipServiceChecks : Bool) : Except Fault Plan := do
  t.validate
  if t.placementCount = 0 then
    throw (.emptyTopology t.name)
  let c := Course.of t downgrade skipServiceChecks
  return {
    topology := t.name
    fromVersion := c.fromVersion
    toVersion := c.toVersion
    groups := (c.order t.services).map (group c) }

/-- The plan of a topology under a policy. -/
def build (t : Topology) (policy : Policy) : Except Fault Plan :=
  expand t policy.isDowngrade policy.skipServiceChecks

end Plan

end Rollout
