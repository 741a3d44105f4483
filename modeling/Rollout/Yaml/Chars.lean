-- SUMMARY: The character classes of YAML: blanks, line breaks, what may be printed and what may be read.

/-!
# Characters of YAML

A line ends at a line feed, a carriage return, a next-line character, or one of the two Unicode
separators. Blanks are spaces and tabs.
-/
namespace Rollout.Yaml

def isBreak (c : Char) : Bool :=
  c = '\n' || c = '\r' || c = '\u0085' || c = '\u2028' || c = '\u2029'

/-- A space or a tab. -/
def isBlank (c : Char) : Bool := c = ' ' || c = '\t'

def isBlankOrBreak (c : Char) : Bool := isBlank c || isBreak c

/-- Whether a text starts with a blank or a line break, or is over. -/
def atGap : List Char → Bool
  | [] => true
  | c :: _ => isBlankOrBreak c

/-- The characters that may be printed without an escape. -/
def isPrintable (c : Char) : Bool :=
  let n := c.toNat
  c = '\n' || (0x20 ≤ n && n ≤ 0x7E) || (0xA0 ≤ n && n ≤ 0xD7FF)
    || (0xE000 ≤ n && n ≤ 0xFFFD && n ≠ 0xFEFF)

/-- The characters that a document may hold. -/
def isReadable (c : Char) : Bool :=
  let n := c.toNat
  n = 0x09 || n = 0x0A || n = 0x0D || (0x20 ≤ n && n ≤ 0x7E) || n = 0x85
    || (0xA0 ≤ n && n ≤ 0xD7FF) || (0xE000 ≤ n && n ≤ 0xFFFD) || 0x10000 ≤ n

end Rollout.Yaml
