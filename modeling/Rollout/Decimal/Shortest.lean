-- SUMMARY: The shortest decimal that reads back as a binary64 number.

/-!
# Shortest decimals

A finite binary64 number is `significand · 2 ^ exponent`. All reals between the midpoints to its two
neighbours round to it, the midpoints themselves when the significand is even. The shortest decimal
is the one with the fewest digits among them, and of two with equally many the nearer one.
-/
namespace Rollout.Decimal

/-- A binary64 number without its sign. -/
structure Magnitude where
  significand : Nat
  exponent : Int
  /-- The next smaller number is half as far away as the next greater one. -/
  isPowerOfTwo : Bool
  deriving DecidableEq, Repr

namespace Magnitude

/-- The magnitude in the low 63 bits of a number that is finite. -/
def ofBits (bits : Nat) : Magnitude :=
  let fraction : Nat := bits % Nat.pow 2 52
  let scale : Nat := bits / Nat.pow 2 52 % Nat.pow 2 11
  if scale = 0 then ⟨fraction, -1074, false⟩
  else ⟨Nat.pow 2 52 + fraction, (scale : Int) - 1075, fraction = 0 && scale > 1⟩

/-- The number as a quotient of natural numbers, both multiplied by four so that the midpoints to
the neighbours are such quotients as well. -/
def quotient (m : Magnitude) : Nat × Nat :=
  match m.exponent with
  | .ofNat e => (4 * m.significand * Nat.pow 2 e, 4)
  | .negSucc e => (4 * m.significand, 4 * Nat.pow 2 (e + 1))

/-- Half the distance to the next greater number and to the next smaller one, over the denominator
of `quotient`. -/
def halfGaps (m : Magnitude) : Nat × Nat :=
  let unit := match m.exponent with
    | .ofNat e => Nat.pow 2 e
    | .negSucc _ => 1
  (2 * unit, if m.isPowerOfTwo then unit else 2 * unit)

end Magnitude

/-- Digits and a power of ten. -/
structure Digits where
  digits : Nat
  exponent : Int
  deriving DecidableEq, Repr

def powerOfTen (e : Int) : Nat × Nat :=
  match e with
  | .ofNat e => (Nat.pow 10 e, 1)
  | .negSucc e => (1, Nat.pow 10 (e + 1))

/-- Whether the decimal rounds to the number. -/
def readsBack (m : Magnitude) (d : Digits) : Bool :=
  let (n, den) := m.quotient
  let (above, below) := m.halfGaps
  let (tn, td) := powerOfTen d.exponent
  -- compare `d.digits * tn / td` with `n / den` in the common denominator `td * den`
  let decimal := d.digits * tn * den
  let value := n * td
  if decimal ≥ value then
    let off := decimal - value
    off < above * td || (off = above * td && m.significand % 2 = 0)
  else
    let off := value - decimal
    off < below * td || (off = below * td && m.significand % 2 = 0)

/-- How many digits the whole part has; zero or less counts the zeros behind the point. -/
def magnitudeOfTen (m : Magnitude) : Int :=
  let (n, den) := m.quotient
  if n ≥ den then ((Nat.toDigits 10 (n / den)).length : Int)
  else 1 - ((Nat.toDigits 10 (den / n)).length : Int)
    + (if den % n = 0 && den / n = Nat.pow 10 ((Nat.toDigits 10 (den / n)).length - 1) then 1 else 0)

/-- The two neighbours of the number among the multiples of a power of ten. -/
def neighbours (m : Magnitude) (exponent : Int) : Digits × Digits :=
  let (n, den) := m.quotient
  let (tn, td) := powerOfTen exponent
  let low := n * td / (den * tn)
  (⟨low, exponent⟩, ⟨low + 1, exponent⟩)

/-- Whether the lower neighbour is nearer than the upper one. Halfway between them the even one
counts as nearer. -/
def lowIsNearer (m : Magnitude) (exponent : Int) : Bool :=
  let (n, den) := m.quotient
  let (tn, td) := powerOfTen exponent
  let twice := 2 * (n * td % (den * tn))
  twice < den * tn || (twice = den * tn && n * td / (den * tn) % 2 = 0)

/-- The shortest decimal with at least as many digits as the position of `exponent` says; one more
digit is tried in each step. -/
def search (m : Magnitude) : Nat → Int → Digits
  | 0, exponent => (neighbours m exponent).1
  | n + 1, exponent =>
    let (low, high) := neighbours m exponent
    match readsBack m low, readsBack m high with
    | true, true => if lowIsNearer m exponent then low else high
    | true, false => low
    | false, true => high
    | false, false => search m n (exponent - 1)

/-- Drop the zeros at the end of the digits. The bound counts them. -/
def strip : Nat → Digits → Digits
  | 0, d => d
  | n + 1, d =>
    if d.digits ≠ 0 && d.digits % 10 = 0 then strip n ⟨d.digits / 10, d.exponent + 1⟩ else d

/-- The shortest decimal of a number that is neither zero nor infinite. Seventeen digits always
read back. -/
def shortest (m : Magnitude) : Digits := strip 20 (search m 17 (magnitudeOfTen m - 1))

/-! ## Text -/

/-- Digits with a point, at least one digit on either side, or with a power of ten where the point
would be more than twenty-one digits right or six digits left of the first digit. -/
def Digits.render (d : Digits) : String :=
  let digits := Nat.toDigits 10 d.digits
  let point := digits.length + d.exponent
  let zeros (n : Int) : List Char := List.replicate n.toNat '0'
  let written : List Char :=
    if 0 ≤ d.exponent && point ≤ 21 then digits ++ zeros d.exponent ++ ['.', '0']
    else if 0 < point && point ≤ 21 then digits.take point.toNat ++ '.' :: digits.drop point.toNat
    else if -6 < point && point ≤ 0 then '0' :: '.' :: (zeros (-point) ++ digits)
    else
      let scale := 'e' :: (toString (point - 1)).toList
      match digits with
      | [d] => d :: scale
      | d :: ds => d :: '.' :: ds ++ scale
      | [] => scale
  String.ofList written

def render (x : Float) : String :=
  let bits := x.toBits.toNat
  let sign := if bits ≥ Nat.pow 2 63 then "-" else ""
  if x.isNaN then "NaN"
  else if x.isInf then sign ++ "inf"
  else if bits % Nat.pow 2 63 = 0 then sign ++ "0.0"
  else sign ++ (shortest (.ofBits (bits % Nat.pow 2 63))).render

end Rollout.Decimal
