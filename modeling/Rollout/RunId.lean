-- SUMMARY: Identifiers of runs: universally unique identifiers, their spellings and their printed form.
import Rollout.Fault

/-!
# Run identifiers

An identifier has thirty-two hexadecimal digits. It is printed in lower case in five groups that
hyphens join. Four spellings are read, in either case: the bare digits, the groups, the groups
between braces, and the groups behind `urn:uuid:`.
Main statement: `parse?_render`.
-/
namespace Rollout

structure RunId where
  digits : Vector (Fin 16) 32
  deriving DecidableEq, Repr

namespace RunId

/-- A hexadecimal digit in lower case. -/
def digitChar (d : Fin 16) : Char :=
  if d.val < 10 then Char.ofNat (48 + d.val) else Char.ofNat (87 + d.val)

/-- The value of a hexadecimal digit in either case. -/
def digitValue? (c : Char) : Option (Fin 16) :=
  if '0' ≤ c ∧ c ≤ '9' then some (Fin.ofNat 16 (c.toNat - 48))
  else if 'a' ≤ c ∧ c ≤ 'f' then some (Fin.ofNat 16 (c.toNat - 87))
  else if 'A' ≤ c ∧ c ≤ 'F' then some (Fin.ofNat 16 (c.toNat - 55))
  else none

/-- The identifier with the given digits, if there are thirty-two. -/
def ofDigits? (ds : List (Fin 16)) : Option RunId :=
  if h : ds.length = 32 then some ⟨⟨ds.toArray, by simp [h]⟩⟩ else none

/-- The digits in order. -/
def toDigits (id : RunId) : List (Fin 16) := id.digits.toList

/-- The identifier whose digits write a number, the highest first; numbers wrap at `2 ^ 128`. -/
def ofNat (n : Nat) : RunId :=
  ⟨Vector.ofFn fun i => Fin.ofNat 16 (n / Nat.pow 16 (31 - i.val))⟩

/-- The identifier of the random kind with the digits of a number, but for those that say the kind. -/
def ofRandom (n : Nat) : RunId :=
  let id := RunId.ofNat n
  let variant := Fin.ofNat 16 (8 + id.digits[16].val % 4)
  ⟨(id.digits.set 12 4).set 16 variant⟩

/-- The sizes of the groups. -/
def groupSizes : List Nat := [8, 4, 4, 4, 12]

/-- Split into groups of the given sizes and join them with hyphens. -/
def joinGroups : List Nat → List Char → List Char
  | [], cs => cs
  | [_], cs => cs
  | n :: sizes, cs => cs.take n ++ '-' :: joinGroups sizes (cs.drop n)

/-- Undo `joinGroups`: the characters without the hyphens, which must stand after each group. -/
def splitGroups? : List Nat → List Char → Option (List Char)
  | [], cs => some cs
  | [_], cs => some cs
  | n :: sizes, cs => match cs.drop n with
    | '-' :: rest => (splitGroups? sizes rest).map (cs.take n ++ ·)
    | _ => none

def render (id : RunId) : String :=
  String.ofList (joinGroups groupSizes (id.toDigits.map digitChar))

/-- The identifier whose digits these characters are. -/
def ofBare? (cs : List Char) : Option RunId := do
  ofDigits? (← cs.mapM digitValue?)

/-- The identifier whose groups these characters are. -/
def ofGroups? (cs : List Char) : Option RunId := do
  ofBare? (← splitGroups? groupSizes cs)

/-- The characters between a pair of braces. -/
def unbrace? : List Char → Option (List Char)
  | '\x7b' :: cs => if cs.getLast? = some '\x7d' then some cs.dropLast else none
  | _ => none

/-- What introduces an identifier that is a name of the uniform kind, in either case. -/
def nameMark : List Char := ['u', 'r', 'n', ':', 'u', 'u', 'i', 'd', ':']

/-- The identifier that a text spells. The length tells the four spellings apart. -/
def parse? (s : String) : Option RunId :=
  let cs := s.toList
  match cs.length with
  | 32 => ofBare? cs
  | 36 => ofGroups? cs
  | 38 => (unbrace? cs).bind ofGroups?
  | 45 =>
    if nameMark.isPrefixOf (cs.map Char.toLower) then ofGroups? (cs.drop nameMark.length) else none
  | _ => none

/-- The identifier that a text spells. A text that spells none names no run. -/
def ofText (s : String) : Except Fault RunId :=
  match parse? s with
  | some id => .ok id
  | none => .error (.runNotFound s)

-- ---------------------------------------------------------------------------
-- Laws
-- ---------------------------------------------------------------------------

theorem digitValue?_digitChar (d : Fin 16) : digitValue? (digitChar d) = some d := by
  revert d; decide

theorem mapM_digitValue? (ds : List (Fin 16)) :
    (ds.map digitChar).mapM digitValue? = some ds := by
  induction ds with
  | nil => rfl
  | cons d ds ih => simp [digitValue?_digitChar, ih]

theorem ofDigits?_toDigits (id : RunId) : ofDigits? id.toDigits = some id := by
  obtain ⟨⟨a, h⟩⟩ := id
  simp [ofDigits?, toDigits, h]

theorem length_toDigits (id : RunId) : id.toDigits.length = 32 := by simp [toDigits]

theorem ofBare?_digits (id : RunId) : ofBare? (id.toDigits.map digitChar) = some id := by
  rw [ofBare?, mapM_digitValue?]
  exact ofDigits?_toDigits id

/-- Groups that were joined are split again, when there are characters for all of them. -/
theorem splitGroups?_joinGroups (sizes : List Nat) (cs : List Char)
    (h : sizes.dropLast.foldr (· + ·) 0 ≤ cs.length) :
    splitGroups? sizes (joinGroups sizes cs) = some cs := by
  induction sizes generalizing cs with
  | nil => rfl
  | cons n sizes ih =>
    cases sizes with
    | nil => rfl
    | cons m sizes =>
      simp only [List.dropLast_cons_cons, List.foldr_cons] at h
      have hn : n ≤ cs.length := by omega
      have htake : (cs.take n).length = n := by simp [hn]
      have hrest := ih (cs.drop n) (by simp; omega)
      simp only [joinGroups, splitGroups?]
      rw [List.drop_append_of_le_length (by omega), List.drop_of_length_le (by omega)]
      simp only [List.nil_append, hrest, Option.map_some, Option.some.injEq]
      rw [List.take_append_of_le_length (by omega), List.take_of_length_le (by omega)]
      exact List.take_append_drop n cs

theorem length_joinGroups (cs : List Char) (h : cs.length = 32) :
    (joinGroups groupSizes cs).length = 36 := by
  simp [joinGroups, groupSizes, h]

/-- Printed identifiers are read back. -/
theorem parse?_render (id : RunId) : parse? id.render = some id := by
  have hlen : (id.toDigits.map digitChar).length = 32 := by simp [length_toDigits]
  have hsplit := splitGroups?_joinGroups groupSizes (id.toDigits.map digitChar)
    (by rw [hlen]; decide)
  simp only [parse?, render, String.toList_ofList, length_joinGroups _ hlen, ofGroups?, hsplit]
  exact ofBare?_digits id

end RunId

end Rollout
