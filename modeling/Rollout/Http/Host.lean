-- SUMMARY: Hosts in addresses of web resources: names, and addresses of both families of the internet protocol.
import Rollout.Http.Punycode
import Rollout.Text.Blank

/-!
# Hosts

A host is a name or a numeric address. A name is written in lower case, and labels with characters
beyond ASCII in Punycode. A name whose last label is a number is an address of four bytes; a text
between brackets is an address of eight pieces.
-/
namespace Rollout.Http

/-- A host. -/
inductive Host where
  | name (text : String)
  /-- An address of 32 bits. -/
  | bytes (address : Nat)
  /-- An address of eight pieces of 16 bits. -/
  | pieces (address : List Nat)
  deriving DecidableEq, Repr

namespace Host

/-! ## Characters -/

/-- The value of a hexadecimal digit. -/
def hexValue? (c : Char) : Option Nat :=
  if '0' ≤ c ∧ c ≤ '9' then some (c.toNat - '0'.toNat)
  else if 'a' ≤ c ∧ c ≤ 'f' then some (c.toNat - 'a'.toNat + 10)
  else if 'A' ≤ c ∧ c ≤ 'F' then some (c.toNat - 'A'.toNat + 10)
  else none

/-- The number that digits of a base write, the highest first. No digits write zero. -/
def numeral? (base : Nat) (cs : List Char) : Option Nat :=
  cs.foldl (fun n c => do
    let n ← n
    let d ← hexValue? c
    if d < base then some (n * base + d) else none) (some 0)

/-- The marks that no host holds. -/
def forbiddenMarks : List Char :=
  ['\t', '\n', '\r', ' ', '#', '/', ':', '<', '>', '?', '@', '[', '\\', ']', '^', '|']

/-- The characters that no host holds. -/
def isForbidden (c : Char) : Bool := c.toNat = 0 || forbiddenMarks.contains c

/-- The characters that no name holds. -/
def isForbiddenInName (c : Char) : Bool := isForbidden c || c.toNat < 32 || c = '%' || c.toNat = 127

/-- The bytes of a text, with the escapes of bytes read. -/
def unescape : List Char → List UInt8
  | '%' :: a :: b :: rest => match hexValue? a, hexValue? b with
    | some high, some low => UInt8.ofNat (16 * high + low) :: unescape rest
    | _, _ => '%'.toNat.toUInt8 :: unescape (a :: b :: rest)
  | c :: rest => (String.singleton c).toUTF8.toList ++ unescape rest
  | [] => []
termination_by cs => cs.length

/-! ## Four bytes -/

/-- The number of a label: hexadecimal behind `0x`, octal behind another zero, else decimal. -/
def labelNumber? : List Char → Option Nat
  | [] => none
  | '0' :: 'x' :: cs | '0' :: 'X' :: cs => numeral? 16 cs
  | '0' :: c :: cs => numeral? 8 (c :: cs)
  | cs => numeral? 10 cs

/-- The labels of a name. An empty one at the end is dropped. -/
def labels (cs : List Char) : List (List Char) :=
  let parts := (String.ofList cs).splitOn "." |>.map String.toList
  if parts.length > 1 && parts.getLast? = some [] then parts.dropLast else parts

/-- A name that ends in a number is an address. -/
def endsInNumber (labels : List (List Char)) : Bool :=
  match labels.getLast? with
  | none | some [] => false
  | some last => last.all Char.isDigit || (labelNumber? last).isSome

/-- The address whose numbers these are: every number but the last one is a byte, and the last one
fills the bytes that are left. -/
def ofNumbers? (numbers : List Nat) : Option Nat := do
  let last ← numbers.getLast?
  let first := numbers.dropLast
  if numbers.length > 4 || first.any (255 < ·) || Nat.pow 256 (5 - numbers.length) ≤ last then none
  else some (first.zipIdx.foldl (fun n (byte, i) => n + byte * Nat.pow 256 (3 - i)) last)

/-! ## Eight pieces -/

/-- The pieces between colons. A group of four bytes at the end counts as two pieces. -/
def piecesOf? (cs : List Char) : Option (List Nat) :=
  if cs.isEmpty then some []
  else
    let parts := (String.ofList cs).splitOn ":" |>.map String.toList
    let piece? (part : List Char) : Option Nat :=
      if part.isEmpty || part.length > 4 then none else numeral? 16 part
    match parts.getLast? with
    | none => none
    | some last =>
      if last.contains '.' then do
        let bytes := (String.ofList last).splitOn "." |>.map String.toList
        if bytes.length ≠ 4 then none
        let numbers ← bytes.mapM fun b =>
          if b.isEmpty || b.length > 3 || (b.length > 1 && b.head? = some '0') then none
          else numeral? 10 b
        let address ← ofNumbers? numbers
        let pieces ← parts.dropLast.mapM piece?
        return pieces ++ [address / 65536, address % 65536]
      else parts.mapM piece?

/-- The eight pieces of an address. Two colons in a row stand for the zeros that are left out. -/
def eightPieces? (cs : List Char) : Option (List Nat) :=
  match (String.ofList cs).splitOn "::" with
  | [all] => do
    let pieces ← piecesOf? all.toList
    if pieces.length = 8 then some pieces else none
  | [front, back] => do
    if front.toList.contains '.' then none
    let front ← piecesOf? front.toList
    let back ← piecesOf? back.toList
    if front.length + back.length < 8 then
      some (front ++ List.replicate (8 - front.length - back.length) 0 ++ back)
    else none
  | _ => none

/-! ## Reading -/

/-- A name in the form in which it is asked for. -/
def asciiName (labels : List (List Char)) : String :=
  let label (cs : List Char) : String :=
    let cs := cs.map Char.toLower
    if cs.all fun c => c.toNat < 128 then String.ofList cs
    else "xn--" ++ String.ofList (Punycode.encode cs)
  ".".intercalate (labels.map label)

/-- The host that a name or a numeric address spells. -/
def ofName? (cs : List Char) : Option Host := do
  let name ← String.fromUTF8? ⟨(unescape cs).toArray⟩
  if name.isEmpty || name.toList.any isForbiddenInName then none
  let parts := labels name.toList
  if endsInNumber parts then
    return .bytes (← ofNumbers? (← parts.mapM labelNumber?))
  else return .name (asciiName ((name.splitOn ".").map String.toList))

/-- The host that a text spells. -/
def parse? (cs : List Char) : Option Host :=
  match cs with
  | '[' :: rest =>
    if rest.getLast? = some ']' then (eightPieces? rest.dropLast).map .pieces else none
  | _ => ofName? cs

/-- The host of an address with an unknown scheme. Its name is kept as it is. -/
def ofOpaque? (cs : List Char) : Option Host :=
  match cs with
  | '[' :: _ => parse? cs
  | _ => if cs.any isForbidden then none else some (.name (String.ofList cs))

/-! ## Writing -/

/-- The first longest run of zeros that has at least two of them, as its place and its length. -/
def zeroRun (pieces : List Nat) : Nat × Nat :=
  let runs := (List.range pieces.length).map fun i =>
    (i, ((pieces.drop i).takeWhile (· = 0)).length)
  runs.foldl (fun best run => if run.2 > best.2 && 1 < run.2 then run else best) (0, 0)

/-- A piece in hexadecimal digits. -/
def pieceText (n : Nat) : String := String.ofList (Nat.toDigits 16 n)

/-- Eight pieces, with two colons in a row for a run of zeros. -/
def piecesText (pieces : List Nat) : String :=
  let join (ns : List Nat) : String := ":".intercalate (ns.map pieceText)
  let (start, length) := zeroRun pieces
  if length = 0 then join pieces
  else join (pieces.take start) ++ "::" ++ join (pieces.drop (start + length))

/-- The written host. -/
def render : Host → String
  | name text => text
  | bytes address =>
    ".".intercalate ([3, 2, 1, 0].map fun i => toString (address / Nat.pow 256 i % 256))
  | pieces address => "[" ++ piecesText address ++ "]"

end Host

end Rollout.Http
