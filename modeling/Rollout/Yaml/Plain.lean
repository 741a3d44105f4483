-- SUMMARY: What an unquoted word stands for: nothing, a truth value, a number, or its own text.
import Rollout.Json.Basic

/-!
# Plain words

Without quotes some words stand for nothing, for a truth value or for a number. A text that looks
like one of them has to be quoted, and so has a text of digits behind a needless zero, which
readers disagree about.
-/
namespace Rollout.Yaml

def trueWords : List String := ["true", "True", "TRUE"]

def falseWords : List String := ["false", "False", "FALSE"]

def nullWords : List String := ["", "~", "null", "Null", "NULL"]

/-- The truth value that a word stands for. -/
def truthValue? (word : String) : Option Bool :=
  if trueWords.contains word then some true
  else if falseWords.contains word then some false
  else none

/-- The words for numbers without digits. -/
def numberWords : List String :=
  [".inf", ".Inf", ".INF", "+.inf", "+.Inf", "+.INF", "-.inf", "-.Inf", "-.INF",
   ".nan", ".NaN", ".NAN"]

/-! ## Numbers -/

/-- The value of a digit in bases up to sixteen. -/
def digitValue? (c : Char) : Option Nat := Json.Quoted.hexValue? c

/-- The number that a text of digits writes in a base. -/
def valueIn? (base : Nat) (cs : List Char) : Option Nat :=
  if cs.isEmpty then none
  else cs.foldlM (fun n c => do
    let d ← digitValue? c
    if d < base then some (n * base + d) else none) 0

/-- The bases with a mark of their own. -/
def baseMarks : List (List Char × Nat) := [(['0', 'x'], 16), (['0', 'o'], 8), (['0', 'b'], 2)]

/-- Digits behind the mark of their base, for a number of at most `limit`. -/
def isMarkedNumber (limit : Nat) (cs : List Char) : Bool :=
  baseMarks.any fun (mark, base) =>
    mark.isPrefixOf cs && (valueIn? base (cs.drop mark.length)).any (· ≤ limit)

/-- Digits behind a mark, with a sign at will. Numbers take 128 bits. -/
def isMarkedInteger : List Char → Bool
  | '-' :: cs => isMarkedNumber (Nat.pow 2 127) cs
  | '+' :: cs => isMarkedNumber (Nat.pow 2 128 - 1) cs
  | cs => isMarkedNumber (Nat.pow 2 128 - 1) cs

/-- Drop one sign in front. -/
def dropSign : List Char → List Char
  | '+' :: cs | '-' :: cs => cs
  | cs => cs

/-- The power of ten behind the letter for it, or none at the end of the text. -/
def exponent? : List Char → Option Int
  | [] => some 0
  | c :: cs =>
    if c = 'e' || c = 'E' then do
      let digits := dropSign cs
      let n ← if digits.all Char.isDigit then valueIn? 10 digits else none
      return if cs.head? = some '-' then -(n : Int) else n
    else none

/-- The number that a text without a sign writes in decimal: digits with a point at will, and a
power of ten. -/
def decimal? (cs : List Char) : Option Json.Numeral := do
  let (whole, rest) := (cs.takeWhile Char.isDigit, cs.dropWhile Char.isDigit)
  let (fraction, rest) := match rest with
    | '.' :: rest => (rest.takeWhile Char.isDigit, rest.dropWhile Char.isDigit)
    | rest => ([], rest)
  let mantissa ← valueIn? 10 (whole ++ fraction)
  let exponent ← exponent? rest
  return ⟨false, mantissa, exponent - fraction.length, false⟩

/-- A decimal number with a sign at will that is not too large for binary64. -/
def isDecimal (cs : List Char) : Bool := (decimal? (dropSign cs)).any Json.Numeral.inRange

/-- Digits behind a needless zero, with a sign at will. -/
def isZeroPadded (cs : List Char) : Bool :=
  match dropSign cs with
  | '0' :: d :: ds => (d :: ds).all Char.isDigit
  | _ => false

/-- Without quotes some reader would take the word for more than its own text. -/
def isAmbiguous (word : String) : Bool :=
  let cs := word.toList
  nullWords.contains word || (truthValue? word).isSome
    || numberWords.contains word || isMarkedInteger cs || isDecimal cs || isZeroPadded cs

end Rollout.Yaml
