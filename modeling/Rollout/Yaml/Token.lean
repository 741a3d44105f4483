-- SUMMARY: The tokens of YAML: marks, names and texts in the order of a document.
import Rollout.Yaml.Plain
import Rollout.Yaml.Scalar

/-!
# Tokens

A document is a list of tokens. Some of them stand in the text; those that open and close block
collections, and the one in front of a key, come from the indentation and from the colon behind
the key. How the tokens of a text are found is the matter of `Rollout.Yaml.Token.Lexer`.
-/
namespace Rollout.Yaml

inductive Token where
  | version (major minor : Nat)
  /-- A handle for tags, and what it stands for. -/
  | tagHandle (handle stem : String)
  | documentStart
  | documentEnd
  | listOpen
  | listClose
  | recordOpen
  | recordClose
  /-- The comma inside of brackets. -/
  | separator
  | blockListOpen
  | blockRecordOpen
  | blockClose
  /-- The dash before an item of a block list. -/
  | dash
  | key
  | value
  | alias (name : String)
  | anchor (name : String)
  | tag (handle suffix : String)
  | scalar (style : Style) (text : String)
  deriving DecidableEq, Repr

/-! ## Names and tags -/

/-- The characters of names and handles. -/
def isNameChar (c : Char) : Bool := c.isAlphanum || c = '_' || c = '-'

/-- The name of an anchor or an alias. Only a gap or one of a few marks may follow it. -/
def readName? (s : Source) : Option (String × Source) :=
  let name := s.rest.takeWhile isNameChar
  let s := s.skip name.length
  let ends (c : Char) : Bool :=
    isBlankOrBreak c || ['?', ':', ',', ']', '\x7d', '%', '@', '\x60'].contains c
  if name.isEmpty || !(s.rest.head?.all ends) then none else some (String.ofList name, s)

/-- A handle of tags: an exclamation mark, or a name between two of them. In a directive nothing
else is allowed. -/
def readHandle? (inDirective : Bool) (s : Source) : Option (List Char × Source) :=
  if !s.isAtChar '!' then none
  else
    let s := s.skip 1
    let name := s.rest.takeWhile isNameChar
    let s := s.skip name.length
    if s.isAtChar '!' then some ('!' :: name ++ ['!'], s.skip 1)
    else if inDirective && !name.isEmpty then none
    else some ('!' :: name, s)

/-- The marks that a tag may hold. -/
def tagMarks : List Char :=
  [';', '/', '?', ':', '@', '&', '=', '+', '$', '.', '%', '!', '~', '*', '\'', '(', ')']

/-- The characters of a tag. Between angle brackets further ones are allowed. -/
def isTagChar (verbatim : Bool) (c : Char) : Bool :=
  isNameChar c || tagMarks.contains c || (verbatim && [',', '[', ']'].contains c)

/-- The number of bytes of the UTF-8 form that starts with a byte. -/
def utf8Width? (byte : Nat) : Option Nat :=
  if byte < 0x80 then some 1
  else if 0xC0 ≤ byte && byte < 0xE0 then some 2
  else if 0xE0 ≤ byte && byte < 0xF0 then some 3
  else if 0xF0 ≤ byte && byte < 0xF8 then some 4
  else none

/-- A byte that is written as a percent sign and two digits. -/
def percentByte? : List Char → Option Nat
  | '%' :: a :: b :: _ => hexNumber? [a, b]
  | _ => none

/-- The rest of an escaped character: continuation bytes. -/
def hasContinuation : Nat → List Char → Bool
  | 0, _ => true
  | n + 1, cs =>
    (percentByte? cs).any (fun b => 0x80 ≤ b && b < 0xC0) && hasContinuation n (cs.drop 3)

/-- The characters of a tag, with ASCII escapes resolved. Longer escapes have to be well formed;
they are kept as they are written. The bound counts characters. -/
def tagChars? (verbatim : Bool) : Nat → List Char → Option (List Char × Nat)
  | 0, _ => some ([], 0)
  | n + 1, cs => match cs with
    | [] => some ([], 0)
    | c :: rest =>
      if !isTagChar verbatim c then some ([], 0)
      else if c = '%' then do
        let byte ← percentByte? cs
        let width ← utf8Width? byte
        if !hasContinuation (width - 1) (cs.drop 3) then none
        let read := if width = 1 then [Char.ofNat byte] else cs.take (3 * width)
        let (more, length) ← tagChars? verbatim n (cs.drop (3 * width))
        return (read ++ more, 3 * width + length)
      else do
        let (more, length) ← tagChars? verbatim n rest
        return (c :: more, 1 + length)

/-- The text of a tag behind `lead`, which counts as its start. -/
def readTagText? (verbatim : Bool) (lead : List Char) (s : Source) :
    Option (List Char × Source) := do
  let (read, length) ← tagChars? verbatim s.rest.length s.rest
  if length = 0 && lead.isEmpty then none
  return (lead.drop 1 ++ read, s.skip length)

/-- A tag, from its exclamation mark on. Inside of brackets a comma may follow it, and a gap
everywhere. -/
def readTag? (inFlow : Bool) (s : Source) : Option (Token × Source) := do
  let (handle, suffix, s) ←
    if (s.skip 1).isAtChar '<' then do
      let (suffix, s) ← readTagText? true [] (s.skip 2)
      if s.isAtChar '>' then some (([] : List Char), suffix, s.skip 1) else none
    else do
      let (handle, s) ← readHandle? false s
      if handle.length > 1 && handle.getLast? = some '!' then
        let (suffix, s) ← readTagText? false [] s
        some (handle, suffix, s)
      else
        let (suffix, s) ← readTagText? false handle s
        if suffix.isEmpty then some ([], ['!'], s) else some (['!'], suffix, s)
  if atGap s.rest || (inFlow && s.isAtChar ',') then
    return (.tag (String.ofList handle) (String.ofList suffix), s)
  else none

/-! ## Directives -/

/-- A number of at most nine digits. -/
def readNumber? (s : Source) : Option (Nat × Source) :=
  let digits := s.rest.takeWhile Char.isDigit
  if digits.length > 9 then none
  else (valueIn? 10 digits).map fun n => (n, s.skip digits.length)

def readVersion? (s : Source) : Option (Token × Source) := do
  let (major, s) ← readNumber? (s.skipWhile isBlank)
  if !s.isAtChar '.' then none
  let (minor, s) ← readNumber? (s.skip 1)
  return (.version major minor, s)

/-- The handle of tags behind its directive, and what it stands for. -/
def readTagHandle? (s : Source) : Option (Token × Source) := do
  let (handle, s) ← readHandle? true (s.skipWhile isBlank)
  if !s.isAt isBlank then none
  let (stem, s) ← readTagText? true [] (s.skipWhile isBlank)
  if !atGap s.rest then none
  return (.tagHandle (String.ofList handle) (String.ofList stem), s)

/-- A directive, from its percent sign on to the end of its line. -/
def readDirective? (s : Source) : Option (Token × Source) := do
  let s := s.skip 1
  let name := s.rest.takeWhile isNameChar
  let s := s.skip name.length
  if !atGap s.rest then none
  let (token, s) ←
    if name = ['Y', 'A', 'M', 'L'] then readVersion? s
    else if name = ['T', 'A', 'G'] then readTagHandle? s
    else none
  let s := s.skipWhile isBlank
  let s := if s.isAtChar '#' then s.skipLine else s
  if s.rest.isEmpty || s.isAt isBreak then return (token, s.nextLine) else none

end Rollout.Yaml
