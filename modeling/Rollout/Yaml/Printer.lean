-- SUMMARY: The printed form of a document in YAML: block style, with quotes only where they are needed.
import Rollout.Yaml.Chars
import Rollout.Yaml.Plain

/-!
# Printing YAML

Records and lists are printed in block style with two spaces for each level; the items of a list
stand below its key without a further indentation. A text is printed without quotes if that reads
back as the same text, in single quotes else, in double quotes when it holds a character that needs
an escape, and as a literal block when it has several lines.
-/
namespace Rollout.Yaml

/-! ## The form of a text -/

/-- The forms in which a text may be printed. -/
inductive TextForm where
  | plain
  | single
  | double
  | block
  deriving DecidableEq, Repr

/-- The characters that mean something at the start of a plain text. -/
def leadingMarks : List Char :=
  ['#', ',', '[', ']', '\x7b', '\x7d', '&', '*', '!', '|', '>', '\'', '"', '%', '@', '\x60']

/-- A character at the start of a plain text, before `rest`, means something. -/
def startsMark (c : Char) (rest : List Char) : Bool :=
  leadingMarks.contains c || ((c = '?' || c = ':' || c = '-') && atGap rest)

/-- Some character inside of a plain text means something: a colon before a gap, or a number sign
behind a gap. -/
def holdsMark (previous : Char) : List Char → Bool
  | [] => false
  | c :: rest =>
    (c = ':' && atGap rest) || (c = '#' && isBlankOrBreak previous) || holdsMark c rest

/-- The text starts like the line between two documents. -/
def startsMarker (cs : List Char) : Bool :=
  ['-', '-', '-'].isPrefixOf cs || ['.', '.', '.'].isPrefixOf cs

/-- Without quotes the text would be taken for more than a text. -/
def holdsMarks (cs : List Char) : Bool :=
  startsMarker cs || match cs with
    | [] => false
    | c :: rest => startsMark c rest || holdsMark c rest

/-- Some character for which `p` holds stands right before one for which `q` holds. -/
def holdsPair (p q : Char → Bool) : List Char → Bool
  | a :: b :: rest => (p a && q b) || holdsPair p q (b :: rest)
  | _ => false

/-- Only double quotes can hold the text: it has a character that needs an escape, or a line that
ends with a space. -/
def needsEscapes (cs : List Char) : Bool :=
  cs.any (fun c => !isPrintable c) || holdsPair (· = ' ') isBreak cs

/-- The text starts or ends with a gap. -/
def hasLooseEnds (cs : List Char) : Bool :=
  let loose (c : Char) : Bool := c = ' ' || isBreak c
  (cs.head?.map loose).getD false || (cs.getLast?.map loose).getD false

/-- Quotes are needed, and single quotes are enough unless a line starts with a space. -/
def quotedForm (cs : List Char) : TextForm :=
  if needsEscapes cs || holdsPair isBreak (· = ' ') cs then .double else .single

/-- The form of a text. -/
def textForm (s : String) : TextForm :=
  let cs := s.toList
  if cs.contains '\n' then
    if needsEscapes cs || cs.getLast? = some ' ' then .double else .block
  else if isAmbiguous s then quotedForm cs
  else if needsEscapes cs || hasLooseEnds cs || cs.any isBreak || holdsMarks cs then quotedForm cs
  else .plain

/-! ## Quotes and blocks -/

/-- Start each line but the first at the given column; a line break before a line break adds
nothing. -/
def indentLines (column : Nat) (fresh : Bool) : List Char → List Char
  | [] => []
  | c :: cs =>
    if isBreak c then c :: indentLines column true cs
    else (if fresh then List.replicate column ' ' else []) ++ c :: indentLines column false cs

/-- A text between single quotes. -/
def writeSingle (column : Nat) (cs : List Char) : List Char :=
  let doubled := cs.flatMap fun c => if c = '\'' then ['\'', '\''] else [c]
  '\'' :: indentLines column false (doubled ++ ['\''])

/-- The letters of the short escapes. -/
def escapeLetters : List (Nat × Char) :=
  [(0x00, '0'), (0x07, 'a'), (0x08, 'b'), (0x09, 't'), (0x0A, 'n'), (0x0B, 'v'), (0x0C, 'f'),
   (0x0D, 'r'), (0x1B, 'e'), (0x22, '"'), (0x5C, '\\'), (0x85, 'N'), (0xA0, '_'), (0x2028, 'L'),
   (0x2029, 'P')]

/-- A number in upper-case hexadecimal digits, filled up with zeros. -/
def writeHex (width n : Nat) : List Char :=
  let digits := (Nat.toDigits 16 n).map Char.toUpper
  List.replicate (width - digits.length) '0' ++ digits

/-- A character between double quotes. -/
def writeEscaped (c : Char) : List Char :=
  let n := c.toNat
  if isPrintable c && !isBreak c && c ≠ '"' && c ≠ '\\' then [c]
  else match escapeLetters.lookup n with
    | some letter => ['\\', letter]
    | none =>
      if n ≤ 0xFF then '\\' :: 'x' :: writeHex 2 n
      else if n ≤ 0xFFFF then '\\' :: 'u' :: writeHex 4 n
      else '\\' :: 'U' :: writeHex 8 n

/-- A text between double quotes. -/
def writeDouble (cs : List Char) : List Char := '"' :: (cs.flatMap writeEscaped ++ ['"'])

/-- What the head of a block says about the breaks at its end: strip them, keep the only one, or
keep them all. -/
def chompingHint (cs : List Char) : List Char :=
  match cs.reverse with
  | [] => ['-']
  | [c] => if isBreak c then ['+'] else ['-']
  | c :: d :: _ => if !isBreak c then ['-'] else if isBreak d then ['+'] else []

/-- A text as a literal block. Its head says how far it is indented when the text starts with a
gap. -/
def writeBlock (column : Nat) (cs : List Char) : List Char :=
  let startsLoose := match cs with
    | [] => false
    | c :: _ => c = ' ' || isBreak c
  '|' :: ((if startsLoose then ['2'] else []) ++ chompingHint cs
    ++ '\n' :: indentLines column true cs)

/-- A text whose further lines start at the given column. -/
def writeText (column : Nat) (s : String) : List Char :=
  match textForm s with
  | .plain => s.toList
  | .single => writeSingle column s.toList
  | .double => writeDouble s.toList
  | .block => writeBlock column s.toList

/-! ## Documents -/

/-- Begin a new line, unless the text so far ends with a line break. -/
def startLine (written : List Char) : List Char :=
  if (written.getLast?).any isBreak then [] else ['\n']

/-- Spaces up to a column. -/
def indent (column : Nat) : List Char := List.replicate column ' '

/-- Entries below one another. The first one stands in a line that has begun. -/
def stack (column : Nat) : List (List Char) → List Char
  | [] => []
  | [entry] => entry
  | entry :: entries => entry ++ startLine entry ++ indent column ++ stack column entries

/-- The text of a key. -/
def writeKey (key : List Char) : List Char := writeText 0 ((Json.decodeBody? key).getD "")

/-- A value has parts that stand in lines of their own. -/
def hasLines : Json → Bool
  | .array items => !items.isEmpty
  | .object members => !members.isEmpty
  | _ => false

/-- The column of the value of a key. A list stands in the column of its key. -/
def valueColumn (column : Nat) : Json → Nat
  | .array _ => column
  | _ => column + 2

mutual

/-- A value that starts in the given column of a line that has begun. -/
def writeValue (column : Nat) : Json → List Char
  | .null => ['n', 'u', 'l', 'l']
  | .bool true => ['t', 'r', 'u', 'e']
  | .bool false => ['f', 'a', 'l', 's', 'e']
  | .number n => n.write
  | .string body => writeText column ((Json.decodeBody? body).getD "")
  | .array [] => ['[', ']']
  | .array (item :: items) => stack column (writeItems column (item :: items))
  | .object [] => ['\x7b', '\x7d']
  | .object (member :: members) => stack column (writeMembers column (member :: members))

/-- The items of a list, each behind its dash. -/
def writeItems (column : Nat) : List Json → List (List Char)
  | [] => []
  | item :: items => ('-' :: ' ' :: writeValue (column + 2) item) :: writeItems column items

/-- The members of a record, each behind its key. -/
def writeMembers (column : Nat) : List (List Char × Json) → List (List Char)
  | [] => []
  | (key, value) :: members =>
    let inner := valueColumn column value
    let gap := if hasLines value then '\n' :: indent inner else [' ']
    (writeKey key ++ ':' :: (gap ++ writeValue inner value)) :: writeMembers column members

end

/-- The printed document. It ends with a line break. -/
def render (j : Json) : String :=
  let written := writeValue 0 j
  String.ofList (written ++ startLine written)

end Rollout.Yaml
