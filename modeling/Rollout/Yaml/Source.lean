-- SUMMARY: Places in a text: what is left to read, and how many characters and lines lie behind.
import Rollout.Yaml.Chars

/-!
# Places in a text

A place knows the characters that are left, and its index, line and column. The functions here
move a place forward.
-/
namespace Rollout.Yaml

/-- A place in a text. -/
structure Source where
  rest : List Char
  index : Nat
  line : Nat
  column : Nat
  deriving DecidableEq, Repr

namespace Source

def ofString (s : String) : Source := ⟨s.toList, 0, 0, 0⟩

/-- Go on by a number of characters of a line. -/
def skip (n : Nat) (s : Source) : Source :=
  { s with rest := s.rest.drop n, index := s.index + n, column := s.column + n }

/-- Go on as long as the characters satisfy a test. The test must refuse line breaks. -/
def skipWhile (p : Char → Bool) (s : Source) : Source := s.skip (s.rest.takeWhile p).length

/-- Go on by one line break. A carriage return and the line feed behind it are one. -/
def nextLine (s : Source) : Source :=
  match s.rest with
  | '\r' :: '\n' :: rest => ⟨rest, s.index + 2, s.line + 1, 0⟩
  | c :: rest => if isBreak c then ⟨rest, s.index + 1, s.line + 1, 0⟩ else s
  | [] => s

/-- The text that a line break stands for: a line feed, or a Unicode separator as it is. -/
def breakText (s : Source) : List Char :=
  match s.rest with
  | c :: _ =>
    if c = '\u2028' || c = '\u2029' then [c] else if isBreak c then ['\n'] else []
  | [] => []

/-- Whether the next character satisfies a test. -/
def isAt (p : Char → Bool) (s : Source) : Bool := s.rest.head?.any p

/-- Whether the next character is `c`. -/
def isAtChar (c : Char) (s : Source) : Bool := s.rest.head? = some c

/-- Whether a line of three equal marks that separates documents starts here. -/
def isAtMarker (c : Char) (s : Source) : Bool :=
  s.column = 0 && match s.rest with
    | a :: b :: d :: rest => a = c && b = c && d = c && atGap rest
    | _ => false

/-- Whether a line that separates documents starts here. -/
def isAtAnyMarker (s : Source) : Bool := s.isAtMarker '-' || s.isAtMarker '.'

def skipLine (s : Source) : Source := s.skipWhile fun c => !isBreak c

end Source

end Rollout.Yaml
