-- SUMMARY: Timestamps as text, after RFC 3339, with a lenient reader.
import Rollout.Timestamp.Basic
import Rollout.Text.Blank

/-!
# Timestamps as text

The printed form is that of RFC 3339 in universal time, with as many groups of three fractional
digits as needed. The reader is more lenient: it takes a space for the `T`, blanks between the
parts, numbers without leading zeros, fractions of any length, any offset below a day, and years
of more than four digits behind a sign.
-/
namespace Rollout.Timestamp

open Rollout.Text (trimStart isBlank)

/-! ## Printing -/

/-- The decimal digits of a number, filled up with zeros on the left. -/
def padded (width n : Nat) : List Char :=
  let digits := Nat.toDigits 10 n
  List.replicate (width - digits.length) '0' ++ digits

/-- Years of four digits stand alone; all others carry a sign. -/
def writeYear (year : Int) : List Char :=
  if 0 ≤ year ∧ year ≤ 9999 then padded 4 year.toNat
  else (if year < 0 then '-' else '+') :: padded 4 year.natAbs

/-- No fraction, or the shortest of milli-, micro- and nanoseconds that loses nothing. -/
def writeFraction (nano : Nat) : List Char :=
  if nano = 0 then []
  else if nano % 1000000 = 0 then '.' :: padded 3 (nano / 1000000)
  else if nano % 1000 = 0 then '.' :: padded 6 (nano / 1000)
  else '.' :: padded 9 nano

/-- The characters of a timestamp. -/
def write (t : Timestamp) : List Char :=
  writeYear t.year ++ '-' :: padded 2 t.month ++ '-' :: padded 2 t.day ++ 'T' :: padded 2 t.hour
    ++ ':' :: padded 2 t.minute ++ ':' :: padded 2 t.second ++ writeFraction t.nano ++ ['Z']

/-- The printed timestamp. -/
def render (t : Timestamp) : String := String.ofList t.write

/-! ## Reading -/

/-- The number that a list of digits writes. -/
def digitsValue (cs : List Char) : Nat := cs.foldl (fun n c => 10 * n + (c.toNat - 48)) 0

/-- One to `width` digits. -/
def digits? (width : Nat) (cs : List Char) : Option (Nat × List Char) :=
  let digits := (cs.take width).takeWhile Char.isDigit
  if digits.isEmpty then none else some (digitsValue digits, cs.drop digits.length)

/-- One to `width` digits behind blanks. -/
def field? (width : Nat) (cs : List Char) : Option (Nat × List Char) := digits? width (trimStart cs)

/-- A year: up to four digits, or a sign and any number of digits. -/
def year? (cs : List Char) : Option (Int × List Char) :=
  match trimStart cs with
  | '-' :: cs => (digits? cs.length cs).map fun (n, rest) => (-(n : Int), rest)
  | '+' :: cs => (digits? cs.length cs).map fun (n, rest) => ((n : Int), rest)
  | cs => (digits? 4 cs).map fun (n, rest) => ((n : Int), rest)

/-- A separator behind blanks. -/
def mark? (mark : Char) (cs : List Char) : Option (List Char) :=
  match trimStart cs with
  | c :: rest => if c = mark then some rest else none
  | [] => none

/-- The nanoseconds of a fraction, whose digits after the ninth are dropped. -/
def fraction? : List Char → Option (Nat × List Char)
  | '.' :: cs =>
    let digits := cs.takeWhile Char.isDigit
    if digits.isEmpty then none
    else
      let kept := digits.take 9
      some (digitsValue kept * Nat.pow 10 (9 - kept.length), cs.drop digits.length)
  | cs => some (0, cs)

/-- Two digits, the first of them below `limit`. -/
def pair? (limit : Nat) : List Char → Option (Nat × List Char)
  | a :: b :: rest =>
    if a.isDigit && b.isDigit && a.toNat - 48 < limit then some (digitsValue [a, b], rest) else none
  | _ => none

/-- The offset from universal time in minutes: `Z`, `UTC`, or a sign, hours and minutes. -/
def offset? (cs : List Char) : Option (Int × List Char) :=
  match cs with
  | 'Z' :: rest | 'z' :: rest => some (0, rest)
  | a :: b :: c :: rest =>
    if [a, b, c].map Char.toUpper = ['U', 'T', 'C'] then some (0, rest)
    else
      let sign? : Option Int :=
        if a = '+' then some 1 else if a = '-' || a = '\u2212' then some (-1) else none
      match sign?, pair? 10 (b :: c :: rest) with
      | some sign, some (hours, rest) =>
        match pair? 6 (rest.dropWhile fun x => x = ':' || isBlank x) with
        | some (minutes, rest) =>
          if hours < 24 then some (sign * (60 * hours + minutes), rest) else none
        | none => none
      | _, _ => none
  | _ => none

/-- The years that have timestamps. -/
def isSupportedYear (year : Int) : Bool := -262143 ≤ year && year ≤ 262142

/-- The timestamp that a text names. -/
def parse? (s : String) : Option Timestamp := do
  let (year, cs) ← year? s.toList
  let (month, cs) ← field? 2 (← mark? '-' cs)
  let (day, cs) ← field? 2 (← mark? '-' cs)
  let cs ← match cs with
    | 'T' :: cs | 't' :: cs | ' ' :: cs => some cs
    | _ => none
  let (hour, cs) ← field? 2 cs
  let (minute, cs) ← field? 2 (← mark? ':' cs)
  let (second, cs) ← field? 2 (← mark? ':' cs)
  let (nano, cs) ← fraction? cs
  let (offset, cs) ← offset? (trimStart cs)
  let zoned ← ofFields? year month day hour minute second nano
  let t ← if offset = 0 then some zoned else zoned.addMinutes? (-offset)
  if (trimStart cs).isEmpty && isSupportedYear year && isSupportedYear t.year then some t else none

end Rollout.Timestamp
