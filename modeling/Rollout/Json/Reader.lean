-- SUMMARY: Reading a JSON document from its characters.
import Rollout.Json.Basic

/-!
# Reading documents

`Json.parse?` accepts exactly one document, with blanks around it and between its parts. Strings
keep their bodies as written; whether a body stands for a text is asked where it is used.
-/
namespace Rollout.Json

/-- The four characters that may stand between the parts of a document. -/
def isSpace (c : Char) : Bool := c = ' ' || c = '\t' || c = '\n' || c = '\r'

/-- Drop the blanks in front. -/
def skipSpace (cs : List Char) : List Char := cs.dropWhile isSpace

/-- The number that a list of digits writes. -/
def digitsValue (cs : List Char) : Nat := cs.foldl (fun n c => 10 * n + (c.toNat - 48)) 0

/-- The digits in front, and the rest. -/
def takeDigits (cs : List Char) : List Char × List Char :=
  (cs.takeWhile Char.isDigit, cs.dropWhile Char.isDigit)

/-- The whole part: one zero, or digits that do not start with a zero. -/
def wholePart? (cs : List Char) : Option (List Char × List Char) :=
  match cs with
  | '0' :: rest => if (rest.head?.map Char.isDigit).getD false then none else some (['0'], rest)
  | _ => match takeDigits cs with
    | ([], _) => none
    | (digits, rest) => some (digits, rest)

/-- The digits after a point, none when there is no point. -/
def fractionPart? : List Char → Option (List Char × List Char)
  | '.' :: cs => match takeDigits cs with
    | ([], _) => none
    | (digits, rest) => some (digits, rest)
  | cs => some ([], cs)

/-- The power of ten, absent when there is no letter for it. -/
def exponentPart? : List Char → Option (Option Int × List Char)
  | [] => some (none, [])
  | c :: cs =>
    if c = 'e' || c = 'E' then
      let (sign, cs) : Int × List Char := match cs with
        | '+' :: cs => (1, cs)
        | '-' :: cs => (-1, cs)
        | cs => (1, cs)
      match takeDigits cs with
      | ([], _) => none
      | (digits, rest) => some (some (sign * digitsValue digits), rest)
    else some (none, c :: cs)

/-- A number and the rest. -/
def readNumber? (cs : List Char) : Option (Numeral × List Char) := do
  let (negative, cs) := match cs with
    | '-' :: cs => (true, cs)
    | cs => (false, cs)
  let (whole, cs) ← wholePart? cs
  let (fraction, cs) ← fractionPart? cs
  let (scale, cs) ← exponentPart? cs
  return (⟨negative, digitsValue (whole ++ fraction), scale.getD 0 - fraction.length,
    fraction.isEmpty && scale.isNone⟩, cs)

/-- A string body up to its closing quote, and the rest. The bound counts characters. -/
def readBody? : Nat → List Char → Option (List Char × List Char)
  | 0, _ => none
  | n + 1, cs => match cs with
    | '"' :: rest => some ([], rest)
    | _ => do
      let (written, rest) ← Quoted.skipChar? cs
      let (body, rest) ← readBody? n rest
      return (written ++ body, rest)

/-- Drop a given word in front. -/
def dropWord? (word cs : List Char) : Option (List Char) :=
  if word.isPrefixOf cs then some (cs.drop word.length) else none

mutual

/-- A document and the rest. The bound counts steps, of which each takes a character. -/
def readValue? : Nat → List Char → Option (Json × List Char)
  | 0, _ => none
  | n + 1, cs => match skipSpace cs with
    | '\x7b' :: cs => match skipSpace cs with
      | '\x7d' :: cs => some (.object [], cs)
      | cs => do
        let (member, cs) ← readMember? n cs
        let (members, cs) ← readMembers? n cs
        return (.object (member :: members), cs)
    | '[' :: cs => match skipSpace cs with
      | ']' :: cs => some (.array [], cs)
      | cs => do
        let (item, cs) ← readValue? n cs
        let (items, cs) ← readItems? n cs
        return (.array (item :: items), cs)
    | '"' :: cs => do
      let (body, cs) ← readBody? n cs
      return (.string body, cs)
    | 'n' :: cs => do return (.null, ← dropWord? ['u', 'l', 'l'] cs)
    | 't' :: cs => do return (.bool true, ← dropWord? ['r', 'u', 'e'] cs)
    | 'f' :: cs => do return (.bool false, ← dropWord? ['a', 'l', 's', 'e'] cs)
    | cs => do
      let (numeral, cs) ← readNumber? cs
      return (.number numeral, cs)

/-- What follows an item of an array: the closing bracket, or a comma and more items. -/
def readItems? : Nat → List Char → Option (List Json × List Char)
  | 0, _ => none
  | n + 1, cs => match skipSpace cs with
    | ']' :: cs => some ([], cs)
    | ',' :: cs => do
      let (item, cs) ← readValue? n cs
      let (items, cs) ← readItems? n cs
      return (item :: items, cs)
    | _ => none

/-- A key, a colon and a value. -/
def readMember? : Nat → List Char → Option ((List Char × Json) × List Char)
  | 0, _ => none
  | n + 1, cs => match skipSpace cs with
    | '"' :: cs => do
      let (key, cs) ← readBody? n cs
      match skipSpace cs with
      | ':' :: cs =>
        let (value, cs) ← readValue? n cs
        return ((key, value), cs)
      | _ => none
    | _ => none

/-- What follows a member of an object: the closing brace, or a comma and more members. -/
def readMembers? : Nat → List Char → Option (List (List Char × Json) × List Char)
  | 0, _ => none
  | n + 1, cs => match skipSpace cs with
    | '\x7d' :: cs => some ([], cs)
    | ',' :: cs => do
      let (member, cs) ← readMember? n cs
      let (members, cs) ← readMembers? n cs
      return (member :: members, cs)
    | _ => none

end

/-- The document that a text holds. Two steps for each character, and two more, are enough. -/
def parse? (s : String) : Option Json :=
  let cs := s.toList
  match readValue? (2 * cs.length + 2) cs with
  | some (j, rest) => if (skipSpace rest).isEmpty then some j else none
  | none => none

end Rollout.Json
