-- SUMMARY: Wire forms of directions, policies, topologies and plans.
import Rollout.Wire.Basic
import Rollout.Plan

/-!
# Wire forms of topologies, policies and plans

A direction is written as a tag with the reversed run beside it. In a policy and in every record
that carries a direction the two stand among the fields of the record.
-/
namespace Rollout

open Wire

/-! ## Directions and policies -/

namespace Direction

/-- The two tags, in the order in which their numbers count them. -/
def tags : List String := ["UPGRADE", "DOWNGRADE"]

/-- The fields of a direction. -/
def toFields : Direction → Fields
  | .upgrade => [("direction", Json.text "UPGRADE")]
  | .downgrade id => [("direction", Json.text "DOWNGRADE"), ("of", toJson id)]

/-- The only value of a key. -/
def only? (fs : Fields) (key : String) : Option Json :=
  match fs.filter fun (k, _) => k = key with
  | [(_, value)] => some value
  | _ => none

/-- The tag as a name. -/
def tagName? (j : Json) : Option String := do
  let tag ← text? j
  if tags.contains tag then some tag else none

/-- The tag as a name or as its number. -/
def tagOrNumber? (j : Json) : Option String :=
  match j with
  | .number n => do tags[← n.toNat?]?
  | _ => tagName? j

/-- The direction with a tag and the field beside it. -/
def ofTag? (fs : Fields) (tag : String) : Option Direction :=
  if tag = "UPGRADE" then some .upgrade else do return .downgrade (← ofJson? (← only? fs "of"))

/-- The direction among fields that were left over; there its tag may be a number. -/
def ofFields? (fs : Fields) : Option Direction := do
  ofTag? fs (← tagOrNumber? (← only? fs "direction"))

end Direction

/-- On its own a direction may also be an array of the tag and the reversed run. -/
instance : Wire Direction where
  toJson d := Json.record d.toFields
  ofJson?
    | .array [tag] => do
      if (← Direction.tagName? tag) = "UPGRADE" then some .upgrade else none
    | .array [tag, id] => do
      if (← Direction.tagName? tag) = "DOWNGRADE" then return .downgrade (← ofJson? id) else none
    | j => do
      let (_, fs) ← openFields? [] 1 j
      Direction.ofTag? fs (← Direction.tagName? (← Direction.only? fs "direction"))

namespace Policy

/-- The fields of a policy. -/
def toFields (p : Policy) : Fields :=
  p.direction.toFields ++ [("skipServiceChecks", toJson p.skipServiceChecks)]

/-- The policy of a record, from the fields of its own and what they leave over. -/
def ofFields? (own rest : Fields) : Option Policy := do
  return ⟨← Direction.ofFields? rest, ← own.get? "skipServiceChecks"⟩

/-- The policy in a document that lies inside of `level - 1` arrays and objects. -/
def ofJsonAt? (level : Nat) (j : Json) : Option Policy := do
  let (own, rest) ← openFields? ["skipServiceChecks"] level j
  ofFields? own rest

/-- The policy among fields that were left over. -/
def ofRest? (fs : Fields) : Option Policy := do
  ofFields? [("skipServiceChecks", ← Direction.only? fs "skipServiceChecks")]
    (fs.filter fun (key, _) => key ≠ "skipServiceChecks")

end Policy

instance : Wire Policy where
  toJson p := Json.record p.toFields
  ofJson? := Policy.ofJsonAt? 1

/-! ## Topologies -/

instance : Wire Component where
  toJson c := Json.record
    [("name", toJson c.name), ("hosts", toJson c.hosts), ("restartOnly", toJson c.restartOnly)]
  ofJson? j := do
    let fs ← fields? ["name", "hosts", "restartOnly"] j
    return {
      name := ← fs.get? "name"
      hosts := ← fs.getOr? "hosts" []
      restartOnly := ← fs.getOr? "restartOnly" false }

instance : Wire Service where
  toJson s := Json.record
    [("name", toJson s.name), ("skippable", toJson s.skippable),
     ("components", toJson s.components)]
  ofJson? j := do
    let fs ← fields? ["name", "skippable", "components"] j
    return {
      name := ← fs.get? "name"
      skippable := ← fs.getOr? "skippable" false
      components := ← fs.getOr? "components" [] }

instance : Wire Topology where
  toJson t := Json.record
    [("name", toJson t.name), ("sourceVersion", toJson t.sourceVersion),
     ("targetVersion", toJson t.targetVersion), ("services", toJson t.services)]
  ofJson? j := do
    let fs ← fields? ["name", "sourceVersion", "targetVersion", "services"] j
    return {
      name := ← fs.get? "name"
      sourceVersion := ← fs.get? "sourceVersion"
      targetVersion := ← fs.get? "targetVersion"
      services := ← fs.getOr? "services" [] }

/-! ## Plans -/

instance : Wire Operation where
  toJson op := Json.text op.name
  ofJson? := enum? Operation.precedence Operation.name

instance : Wire TaskSpec where
  toJson t := Json.record
    [("host", toJson t.host), ("service", toJson t.service), ("component", toJson t.component),
     ("operation", toJson t.operation), ("version", toJson t.version)]
  ofJson? j := do
    let fs ← fields? ["host", "service", "component", "operation", "version"] j
    return {
      host := ← fs.get? "host"
      service := ← fs.get? "service"
      component := ← fs.get? "component"
      operation := ← fs.get? "operation"
      version := ← fs.get? "version" }

instance : Wire Stage where
  toJson s := Json.record
    [("name", toJson s.name), ("operation", toJson s.operation), ("tasks", toJson s.tasks)]
  ofJson? j := do
    let fs ← fields? ["name", "operation", "tasks"] j
    return {
      name := ← fs.get? "name"
      operation := ← fs.get? "operation"
      tasks := ← fs.get? "tasks" }

instance : Wire Group where
  toJson g := Json.record
    [("name", toJson g.name), ("skippable", toJson g.skippable), ("stages", toJson g.stages)]
  ofJson? j := do
    let fs ← fields? ["name", "skippable", "stages"] j
    return {
      name := ← fs.get? "name"
      skippable := ← fs.get? "skippable"
      stages := ← fs.get? "stages" }

instance : Wire Plan where
  toJson p := Json.record
    [("topology", toJson p.topology), ("fromVersion", toJson p.fromVersion),
     ("toVersion", toJson p.toVersion), ("groups", toJson p.groups)]
  ofJson? j := do
    let fs ← fields? ["topology", "fromVersion", "toVersion", "groups"] j
    return {
      topology := ← fs.get? "topology"
      fromVersion := ← fs.get? "fromVersion"
      toVersion := ← fs.get? "toVersion"
      groups := ← fs.get? "groups" }

end Rollout
