-- SUMMARY: JSON documents as trees that keep strings as they are written, and their printed form.
import Rollout.Json.Quoted

/-!
# JSON documents

A document is a tree. Its strings are kept as they stand between the quotes (`Quoted`), so that a
part nobody looks at is never decoded. `write` prints a document without any blank.
-/
namespace Rollout

namespace Json

/-- A number as written: `mantissa · 10 ^ exponent`, negated or not. It is `plain` when it has
neither a fraction nor an exponent. -/
structure Numeral where
  negative : Bool
  mantissa : Nat
  exponent : Int
  plain : Bool
  deriving DecidableEq, Repr

def Numeral.ofNat (n : Nat) : Numeral := ⟨false, n, 0, true⟩

/-- The natural number that is written without sign, fraction and exponent. -/
def Numeral.toNat? (n : Numeral) : Option Nat :=
  if n.negative || !n.plain then none else some n.mantissa

/-- The decimal digits of a natural number. -/
def digitCount (n : Nat) : Nat := (Nat.toDigits 10 n).length

/-- Whether the number lies within the range of binary64, whose largest value exceeds
`2 ^ 1024 - 2 ^ 970` in no rounding. Magnitudes far outside are told apart by their digits, so
that no huge power is formed. -/
def Numeral.inRange (n : Numeral) : Bool :=
  if n.mantissa = 0 then true
  else if n.exponent + digitCount n.mantissa > 400 then false
  else match n.exponent with
    | .ofNat e => n.mantissa * Nat.pow 10 e < Nat.pow 2 1024 - Nat.pow 2 970
    | .negSucc e =>
      digitCount n.mantissa ≤ 300 || n.mantissa < (Nat.pow 2 1024 - Nat.pow 2 970) * Nat.pow 10 (e + 1)

end Json

/-- A JSON document. Strings and keys are the bodies between their quotes. -/
inductive Json where
  | null
  | bool (value : Bool)
  | number (value : Json.Numeral)
  | string (body : List Char)
  | array (items : List Json)
  | object (members : List (List Char × Json))
  deriving Repr

namespace Json

def text (s : String) : Json := .string (Quoted.encode s.toList)

def nat (n : Nat) : Json := .number (.ofNat n)

/-- An object with the given fields, in order. -/
def record (fields : List (String × Json)) : Json :=
  .object (fields.map fun (key, value) => (Quoted.encode key.toList, value))

/-- The text that a body stands for. -/
def decodeBody? (body : List Char) : Option String :=
  (Quoted.decode body).map String.ofList

/-! ## Nesting -/

mutual

/-- How many arrays and objects are open at the deepest point. -/
def depth : Json → Nat
  | .array items => 1 + depthItems items
  | .object members => 1 + depthMembers members
  | _ => 0

def depthItems : List Json → Nat
  | [] => 0
  | item :: items => max (depth item) (depthItems items)

def depthMembers : List (List Char × Json) → Nat
  | [] => 0
  | (_, value) :: members => max (depth value) (depthMembers members)

end

mutual

/-- Every string stands for a text and every number is in range. -/
def isMeaningful : Json → Bool
  | .number n => n.inRange
  | .string body => (Quoted.decode body).isSome
  | .array items => areMeaningful items
  | .object members => membersAreMeaningful members
  | _ => true

def areMeaningful : List Json → Bool
  | [] => true
  | item :: items => isMeaningful item && areMeaningful items

def membersAreMeaningful : List (List Char × Json) → Bool
  | [] => true
  | (key, value) :: members =>
    (Quoted.decode key).isSome && isMeaningful value && membersAreMeaningful members

end

/-! ## Printing -/

def Numeral.write (n : Numeral) : List Char :=
  let sign := if n.negative then ['-'] else []
  let scale := if n.plain then [] else 'e' :: (toString n.exponent).toList
  sign ++ Nat.toDigits 10 n.mantissa ++ scale

mutual

/-- The characters of a document, without blanks. -/
def write : Json → List Char
  | .null => "null".toList
  | .bool true => "true".toList
  | .bool false => "false".toList
  | .number n => n.write
  | .string body => '"' :: body ++ ['"']
  | .array [] => ['[', ']']
  | .array (item :: items) => '[' :: (write item ++ writeItems items)
  | .object [] => ['\x7b', '\x7d']
  | .object ((key, value) :: members) =>
    '\x7b' :: '"' :: (key ++ '"' :: ':' :: (write value ++ writeMembers members))

/-- The items after the first one, and the closing bracket. -/
def writeItems : List Json → List Char
  | [] => [']']
  | item :: items => ',' :: (write item ++ writeItems items)

/-- The members after the first one, and the closing brace. -/
def writeMembers : List (List Char × Json) → List Char
  | [] => ['\x7d']
  | (key, value) :: members =>
    ',' :: '"' :: (key ++ '"' :: ':' :: (write value ++ writeMembers members))

end

def render (j : Json) : String := String.ofList j.write

end Json

end Rollout
