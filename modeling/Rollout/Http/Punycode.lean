-- SUMMARY: Punycode: labels with characters beyond ASCII, written with ASCII characters only.

/-!
# Punycode

The ASCII characters of a label come first. Every other character is written as a number behind
them, in ascending order of the code points: the number of steps from the character before it, where
a step goes one place further in the label or, at its end, to the next code point. Numbers have
digits of the base 36, the lowest first, and a digit below the threshold of its place is the last.
-/
namespace Rollout.Http.Punycode

/-- The digit of a value below 36. -/
def digit (value : Nat) : Char :=
  if value < 26 then Char.ofNat ('a'.toNat + value) else Char.ofNat ('0'.toNat + (value - 26))

/-- The threshold of a place; places are counted in steps of 36. -/
def threshold (bias place : Nat) : Nat := max 1 (min 26 (place - bias))

theorem one_le_threshold (bias place : Nat) : 1 ≤ threshold bias place :=
  Nat.le_max_left 1 _

/-- The digits of a number from a place on. -/
def digits (bias place n : Nat) : List Char :=
  let t := threshold bias place
  if _h : n < t then [digit n]
  else digit (t + (n - t) % (36 - t)) :: digits bias (place + 36) ((n - t) / (36 - t))
termination_by n
decreasing_by
  have ht := one_le_threshold bias place
  have hd : (n - threshold bias place) / (36 - threshold bias place) ≤ n - threshold bias place :=
    Nat.div_le_self _ _
  simp only [t] at _h
  omega

/-- How far the bias follows a number of steps. -/
def settle (delta offset : Nat) : Nat :=
  if 455 < delta then settle (delta / 35) (offset + 36) else offset + 36 * delta / (delta + 38)
termination_by delta
decreasing_by omega

/-- The bias after a number of steps, when `written` characters are written. -/
def adapt (delta written : Nat) (isFirst : Bool) : Nat :=
  let delta := if isFirst then delta / 700 else delta / 2
  settle (delta + delta / written) 0

/-- A label that is half written. -/
structure Progress where
  output : List Char
  /-- The steps since the last character. -/
  delta : Nat
  bias : Nat
  /-- The characters that are written. -/
  written : Nat

/-- Pass a character of the label while the characters with code point `point` are written. -/
def pass (basic point : Nat) (p : Progress) (c : Char) : Progress :=
  if c.toNat < point then { p with delta := p.delta + 1 }
  else if c.toNat = point then
    { output := p.output ++ digits p.bias 36 p.delta
      delta := 0
      bias := adapt p.delta (p.written + 1) (p.written = basic)
      written := p.written + 1 }
  else p

/-- Write the characters with the given code points, which ascend. -/
def writePoints (label : List Char) (basic : Nat) : Nat → List Nat → Progress → Progress
  | _, [], p => p
  | next, point :: points, p =>
    let p := { p with delta := p.delta + (point - next) * (p.written + 1) }
    let p := label.foldl (pass basic point) p
    writePoints label basic (point + 1) points { p with delta := p.delta + 1 }

def encode (label : List Char) : List Char :=
  let ascii := label.filter fun c => c.toNat < 128
  let points := ((label.filter fun c => 128 ≤ c.toNat).map Char.toNat).mergeSort
  let progress := writePoints label ascii.length 128 points.eraseDups ⟨[], 0, 72, ascii.length⟩
  ascii ++ (if ascii.isEmpty then [] else ['-']) ++ progress.output

end Rollout.Http.Punycode
