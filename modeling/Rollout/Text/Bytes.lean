-- SUMMARY: Bytes as text, with a replacement for those that encode none.

/-!
# Bytes as text

Bytes that encode no text are replaced: the longest beginning of an encoded character counts as one
fault, and so does a byte that begins none.
-/
namespace Rollout.Text

/-- What may follow a leading byte: the range of the second byte, the number of bytes behind it, and
the bits that the leading byte gives. -/
def lead? (b : Nat) : Option (Nat × Nat × Nat × Nat) :=
  if 0xC2 ≤ b ∧ b ≤ 0xDF then some (0x80, 0xBF, 0, b - 0xC0)
  else if b = 0xE0 then some (0xA0, 0xBF, 1, 0)
  else if b = 0xED then some (0x80, 0x9F, 1, 0xD)
  else if 0xE1 ≤ b ∧ b ≤ 0xEF then some (0x80, 0xBF, 1, b - 0xE0)
  else if b = 0xF0 then some (0x90, 0xBF, 2, 0)
  else if 0xF1 ≤ b ∧ b ≤ 0xF3 then some (0x80, 0xBF, 2, b - 0xF0)
  else if b = 0xF4 then some (0x80, 0x8F, 2, 4)
  else none

/-- The character that stands for a fault. -/
def replacement : Char := '\uFFFD'

/-- Decode bytes. `expected` is what a character that has begun still needs: the range of its next
byte, the number of bytes behind that one, and its bits so far. -/
def decodeBytes : Option (Nat × Nat × Nat × Nat) → List UInt8 → List Char
  | none, [] => []
  | some _, [] => [replacement]
  | expected, byte :: bytes =>
    let b := byte.toNat
    let fresh (front : List Char) : List Char :=
      if b < 0x80 then front ++ Char.ofNat b :: decodeBytes none bytes
      else match lead? b with
        | some expected => front ++ decodeBytes (some expected) bytes
        | none => front ++ replacement :: decodeBytes none bytes
    match expected with
    | none => fresh []
    | some (low, high, more, bits) =>
      if low ≤ b ∧ b ≤ high then
        let bits := 64 * bits + (b - 0x80)
        match more with
        | 0 => Char.ofNat bits :: decodeBytes none bytes
        | more + 1 => decodeBytes (some (0x80, 0xBF, more, bits)) bytes
      else fresh [replacement]

/-- The text of bytes. -/
def ofBytes (bytes : ByteArray) : String := String.ofList (decodeBytes none bytes.toList)

end Rollout.Text
