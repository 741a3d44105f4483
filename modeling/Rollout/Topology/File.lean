-- SUMMARY: Topologies as YAML files.
import Rollout.Topology
import Rollout.Yaml.Decode

/-!
# Topology files

A topology is given as a YAML file. A file that holds no topology, or one with a defect, is
refused.
-/
namespace Rollout

open Yaml (Document Node Decode)

namespace Topology

/-- A component in a document. -/
def decodeComponent (d : Document) (node : Node Nat) : Decode Component := do
  let fs ← Decode.fields d ["name", "hosts", "restartOnly"] node
  return {
    name := ← Decode.required fs "name" (Decode.text d)
    hosts := ← Decode.optional fs "hosts" [] (Decode.list d (Decode.text d))
    restartOnly := ← Decode.optional fs "restartOnly" false (Decode.truth d) }

/-- A service in a document. -/
def decodeService (d : Document) (node : Node Nat) : Decode Service := do
  let fs ← Decode.fields d ["name", "skippable", "components"] node
  return {
    name := ← Decode.required fs "name" (Decode.text d)
    skippable := ← Decode.optional fs "skippable" false (Decode.truth d)
    components := ← Decode.optional fs "components" [] (Decode.list d (decodeComponent d)) }

/-- A topology in a document. -/
def decode (d : Document) (node : Node Nat) : Decode Topology := do
  let fs ← Decode.fields d ["name", "sourceVersion", "targetVersion", "services"] node
  return {
    name := ← Decode.required fs "name" (Decode.text d)
    sourceVersion := ← Decode.required fs "sourceVersion" (Decode.text d)
    targetVersion := ← Decode.required fs "targetVersion" (Decode.text d)
    services := ← Decode.optional fs "services" [] (Decode.list d (decodeService d)) }

/-- The topology that a text holds, with or without a defect. -/
def ofText? (s : String) : Option Topology := do
  let d ← Document.ofText? s
  (decode d d.root).run' 0

/-- Why a text is refused. -/
inductive Refusal where
  | noTopology
  | defect (fault : Fault)
  deriving DecidableEq, Repr

namespace Refusal

/-- The fault of a refused text. -/
def fault : Refusal → Fault
  | noTopology => .invalidTopology "not a topology"
  | defect fault => fault

end Refusal

/-- The topology that a text holds, if it has no defect. -/
def ofText (s : String) : Except Refusal Topology :=
  match ofText? s with
  | none => .error .noTopology
  | some t => match t.validate with
    | .ok () => .ok t
    | .error fault => .error (.defect fault)

/-- What reading a file gives: its bytes, or the reason why there are none. -/
abbrev FileContent : Type := Except String ByteArray

/-- The topology in the file of the given name. -/
def ofFile (name : String) (content : FileContent) : Except Refusal Topology :=
  let unread (reason : String) : Except Refusal Topology :=
    .error (.defect (.invalidTopology s!"{name}: {reason}"))
  match content with
  | .error reason => unread reason
  | .ok bytes => match String.fromUTF8? bytes with
    | none => unread "stream did not contain valid UTF-8"
    | some s => ofText s

end Topology

end Rollout
