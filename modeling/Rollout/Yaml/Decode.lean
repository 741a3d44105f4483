-- SUMMARY: Reading typed values out of a YAML document, through its aliases.
import Rollout.Yaml.Node

/-!
# Typed reading

A document is read by the types that are wanted: every scalar is a text, a truth value is a plain
word, a list may be left empty, and a record has named fields, of which unknown ones are skipped.
Aliases are followed where they are met, a limited number of times.
-/
namespace Rollout.Yaml

/-! ## Anchors -/

/-- The numbers of the names that were anchored so far. -/
abbrev Anchors := List (String × Nat)

namespace Anchors

/-- Give a number to a name: how many names there were before. A name that is anchored again gets a
new number. -/
def add (names : Anchors) : Option String → Option Nat × Anchors
  | none => (none, names)
  | some name =>
    let number := names.length
    (some number, (name, number) :: names.filter fun (other, _) => other ≠ name)

end Anchors

namespace Node

mutual

/-- Replace the names of anchors by numbers. An alias must stand behind its anchor. -/
def number? (names : Anchors) : Node String → Option (Node Nat × Anchors)
  | .scalar anchor tag style text =>
    let (anchor, names) := names.add anchor
    some (.scalar anchor tag style text, names)
  | .alias target => do return (.alias (← names.lookup target), names)
  | .list anchor items => do
    let (anchor, names) := names.add anchor
    let (items, names) ← numberItems? names items
    return (.list anchor items, names)
  | .record anchor members => do
    let (anchor, names) := names.add anchor
    let (members, names) ← numberMembers? names members
    return (.record anchor members, names)

/-- Replace the names of anchors in a list. -/
def numberItems? (names : Anchors) : List (Node String) → Option (List (Node Nat) × Anchors)
  | [] => some ([], names)
  | item :: items => do
    let (item, names) ← number? names item
    let (items, names) ← numberItems? names items
    return (item :: items, names)

/-- Replace the names of anchors in a record. -/
def numberMembers? (names : Anchors) :
    List (Node String × Node String) → Option (List (Node Nat × Node Nat) × Anchors)
  | [] => some ([], names)
  | (key, value) :: members => do
    let (key, names) ← number? names key
    let (value, names) ← number? names value
    let (members, names) ← numberMembers? names members
    return ((key, value) :: members, names)

end

/-- The number under which a part is anchored. -/
def anchor? : Node Nat → Option Nat
  | .scalar anchor .. | .list anchor _ | .record anchor _ => anchor
  | .alias _ => none

mutual

/-- The part and its parts, in the order of the text. -/
def parts (node : Node Nat) : List (Node Nat) :=
  node :: match node with
    | .list _ items => itemParts items
    | .record _ members => memberParts members
    | _ => []

/-- The parts of the items of a list. -/
def itemParts : List (Node Nat) → List (Node Nat)
  | [] => []
  | item :: items => parts item ++ itemParts items

/-- The parts of the members of a record. -/
def memberParts : List (Node Nat × Node Nat) → List (Node Nat)
  | [] => []
  | (key, value) :: members => parts key ++ parts value ++ memberParts members

end

/-- The marks that a part takes: one, or one at its start and one at its end. -/
def markCount : Node Nat → Nat
  | .list .. | .record .. => 2
  | _ => 1

end Node

/-! ## Documents -/

/-- A document with what its aliases stand for. -/
structure Document where
  root : Node Nat
  /-- The anchored parts by number. Of several with one number the last one is found. -/
  anchored : List (Nat × Node Nat)
  /-- The number of aliases that may be followed. -/
  aliasLimit : Nat

namespace Document

def ofNode? (node : Node String) : Option Document := do
  let (root, _) ← node.number? []
  let parts := root.parts
  return {
    root := root
    anchored := (parts.filterMap fun part => part.anchor?.map (·, part)).reverse
    aliasLimit := 100 * (parts.map Node.markCount).foldr (· + ·) 0 }

/-- The only document of a text. -/
def ofText? (s : String) : Option Document := do
  ofNode? (← Node.ofTokens? (← Token.ofText? s))

end Document

/-- A reading that counts the aliases it follows. -/
abbrev Decode (α : Type) : Type := StateT Nat Option α

namespace Decode

/-- The part itself, or the part that an alias stands for. -/
def resolve (d : Document) : Node Nat → Decode (Node Nat)
  | .alias target => do
    let followed := (← get) + 1
    set followed
    if followed > d.aliasLimit then failure
    match d.anchored.lookup target with
    | some part => return part
    | none => failure
  | node => return node

/-- Any scalar is a text. -/
def text (d : Document) (node : Node Nat) : Decode String := do
  match ← resolve d node with
  | .scalar _ _ _ text => return text
  | _ => failure

/-- The tag of truth values. -/
def truthTag : String := "tag:yaml.org,2002:bool"

/-- A truth value is a plain word, or a literal block with the tag of truth values. -/
def truth (d : Document) (node : Node Nat) : Decode Bool := do
  match ← resolve d node with
  | .scalar _ tag style text =>
    if style = .plain || (style = .literal && tag = some truthTag) then
      match truthValue? text with
      | some b => return b
      | none => failure
    else failure
  | _ => failure

/-- A list, which is empty where nothing is written. -/
def list {α : Type} (d : Document) (item : Node Nat → Decode α) (node : Node Nat) :
    Decode (List α) := do
  match ← resolve d node with
  | .list _ items => items.mapM item
  | .scalar _ _ .plain "" => return []
  | _ => failure

/-- The known fields of a record. None of them may occur twice. -/
def fields (d : Document) (known : List String) (node : Node Nat) :
    Decode (List (String × Node Nat)) := do
  match ← resolve d node with
  | .record _ members =>
    members.foldlM (fun fs (key, value) => do
      let key ← text d key
      if !known.contains key then return fs
      else if (fs.lookup key).isSome then failure
      else return (key, value) :: fs) []
  | _ => failure

def required {α : Type} (fs : List (String × Node Nat)) (key : String)
    (read : Node Nat → Decode α) : Decode α :=
  match fs.lookup key with
  | some value => read value
  | none => failure

/-- A field that has a value when it is not there. -/
def optional {α : Type} (fs : List (String × Node Nat)) (key : String) (default : α)
    (read : Node Nat → Decode α) : Decode α :=
  match fs.lookup key with
  | some value => read value
  | none => return default

end Decode

end Rollout.Yaml
