-- SUMMARY: The class of types with a JSON form, records by field, and the forms of the basic types.
import Rollout.Json.Reader
import Rollout.RunId
import Rollout.Timestamp.Text

/-!
# Wire forms

A type with a wire form is written as a JSON document and read from one. Records are written as
objects. They are read from objects, in which every known field occurs at most once and unknown
fields are skipped, and from arrays that list the fields in order.

Some records are open: what their own fields leave over belongs to a part inside. What is left over
has to be kept, so there it must be meaningful and must not nest too deeply.
-/
namespace Rollout

/-- A JSON form. -/
class Wire (α : Type) where
  toJson : α → Json
  ofJson? : Json → Option α

export Wire (toJson ofJson?)

namespace Wire

/-- The value that a text holds in its wire form. -/
def parse? {α : Type} [Wire α] (s : String) : Option α := do ofJson? (← Json.parse? s)

def render {α : Type} [Wire α] (a : α) : String := (toJson a).render

/-! ## Basic types -/

/-- The text of a string document. -/
def text? : Json → Option String
  | .string body => Json.decodeBody? body
  | _ => none

instance : Wire String := ⟨Json.text, text?⟩

instance : Wire Bool where
  toJson := .bool
  ofJson?
    | .bool b => some b
    | _ => none

/-- A natural number below a bound. -/
def natBelow? (bound : Nat) : Json → Option Nat
  | .number n => do
    let n ← n.toNat?
    if n < bound then some n else none
  | _ => none

/-- Indices take 64 bits. -/
instance : Wire Nat := ⟨Json.nat, natBelow? (Nat.pow 2 64)⟩

instance : Wire UInt32 where
  toJson n := Json.nat n.toNat
  ofJson? j := (natBelow? (Nat.pow 2 32) j).map UInt32.ofNat

instance : Wire UInt8 where
  toJson n := Json.nat n.toNat
  ofJson? j := (natBelow? (Nat.pow 2 8) j).map UInt8.ofNat

instance {α : Type} [Wire α] : Wire (Option α) where
  toJson
    | some a => toJson a
    | none => .null
  ofJson?
    | .null => some none
    | j => (ofJson? j).map some

instance {α : Type} [Wire α] : Wire (List α) where
  toJson as := .array (as.map toJson)
  ofJson?
    | .array items => items.mapM ofJson?
    | _ => none

instance : Wire RunId where
  toJson id := Json.text id.render
  ofJson? j := do RunId.parse? (← text? j)

instance : Wire Timestamp where
  toJson t := Json.text t.render
  ofJson? j := do Timestamp.parse? (← text? j)

/-! ## Names

A value of an enumeration is written as its name. It is read from its name, or from an object whose
only member has the name as key and nothing as value. -/

/-- The value with the given name. -/
def named? {α : Type} (values : List α) (name : α → String) (s : String) : Option α :=
  values.find? fun a => name a = s

/-- The value of an enumeration that a document stands for. -/
def enum? {α : Type} (values : List α) (name : α → String) : Json → Option α
  | .object [(key, .null)] => do named? values name (← Json.decodeBody? key)
  | j => do named? values name (← text? j)

/-! ## Records -/

abbrev Fields := List (String × Json)

/-- Split the members of an object into the known fields and the rest. A key that stands for no
text and a known field that occurs twice are refused. -/
def splitMembers? (known : List String) : List (List Char × Json) → Option (Fields × Fields)
  | [] => some ([], [])
  | (key, value) :: members => do
    let key ← Json.decodeBody? key
    let (fields, rest) ← splitMembers? known members
    if known.contains key then
      if (fields.lookup key).isSome then none else some ((key, value) :: fields, rest)
    else some (fields, (key, value) :: rest)

def fields? (known : List String) : Json → Option Fields
  | .object members => (splitMembers? known members).map Prod.fst
  | .array items => if items.length ≤ known.length then some (known.zip items) else none
  | _ => none

/-- The number of arrays and objects that may be open at once. -/
def depthLimit : Nat := 127

/-- What is left over may be kept when `level` arrays and objects are open around it. -/
def isKept (level : Nat) (rest : Fields) : Bool :=
  rest.all fun (_, value) => value.isMeaningful && level + value.depth ≤ depthLimit

/-- The fields of an open record that lies inside of `level - 1` arrays and objects, and what its
fields leave over. -/
def openFields? (known : List String) (level : Nat) : Json → Option (Fields × Fields)
  | .object members => do
    let (fields, rest) ← splitMembers? known members
    if isKept level rest then some (fields, rest) else none
  | _ => none

/-- The value of a field that must be there. -/
def Fields.get? {α : Type} [Wire α] (fs : Fields) (key : String) : Option α := do
  ofJson? (← fs.lookup key)

/-- The value of a field that has a value when it is not there. -/
def Fields.getOr? {α : Type} [Wire α] (fs : Fields) (key : String) (default : α) : Option α :=
  match fs.lookup key with
  | none => some default
  | some j => ofJson? j

/-- A field that is written only when it has a value. -/
def presentField {α : Type} [Wire α] (key : String) (value : Option α) : List (String × Json) :=
  match value with
  | none => []
  | some a => [(key, toJson a)]

end Wire

end Rollout
