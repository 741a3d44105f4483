-- SUMMARY: Blank characters, trimming, lines, and a text folded into one line.

/-!
# Blank text

The blank characters are those with the Unicode property White_Space. Trimming drops them at both
ends of a text, and `oneLine` folds a text of many lines into one.
-/
namespace Rollout.Text

/-- The code points with the property White_Space, as inclusive ranges. -/
def blankRanges : List (Nat × Nat) :=
  [(0x09, 0x0D), (0x20, 0x20), (0x85, 0x85), (0xA0, 0xA0), (0x1680, 0x1680), (0x2000, 0x200A),
   (0x2028, 0x2029), (0x202F, 0x202F), (0x205F, 0x205F), (0x3000, 0x3000)]

/-- A character is blank when it has the property White_Space. -/
def isBlank (c : Char) : Bool :=
  blankRanges.any fun (low, high) => low ≤ c.toNat && c.toNat ≤ high

/-- Drop the blanks in front. -/
def trimStart (cs : List Char) : List Char := cs.dropWhile isBlank

/-- Drop the blanks at the end. -/
def trimEnd (cs : List Char) : List Char := (cs.reverse.dropWhile isBlank).reverse

/-- Drop the blanks at both ends. -/
def trim (s : String) : String := String.ofList (trimEnd (trimStart s.toList))

/-- A text of blanks only, the empty text included. -/
def allBlank (s : String) : Bool := s.toList.all isBlank

/-- Cut at every line feed. There is always at least one piece. -/
def lineList : List Char → List (List Char)
  | [] => [[]]
  | c :: cs =>
    if c = '\n' then [] :: lineList cs
    else match lineList cs with
      | [] => [[c]]
      | line :: rest => (c :: line) :: rest

/-- The lines of a text, trimmed, without the empty ones, joined by single spaces. -/
def oneLine (s : String) : String :=
  let lines := (lineList s.toList).map fun line => trimEnd (trimStart line)
  " ".intercalate ((lines.filter fun line => !line.isEmpty).map String.ofList)

/-- The ASCII capitals of a text in lower case; no other character changes. -/
def asciiLower (s : String) : String := String.ofList (s.toList.map Char.toLower)

/-- The ASCII small letters of a text in upper case; no other character changes. -/
def asciiUpper (s : String) : String := String.ofList (s.toList.map Char.toUpper)

-- ---------------------------------------------------------------------------
-- Laws
-- ---------------------------------------------------------------------------

/-- The blank characters are the control characters from tab to carriage return, next line, and the spaces and
separators of every width. -/
theorem isBlank_iff {c : Char} : isBlank c = true ↔
    c.toNat ∈ [0x09, 0x0A, 0x0B, 0x0C, 0x0D, 0x20, 0x85, 0xA0, 0x1680, 0x2000, 0x2001, 0x2002, 0x2003, 0x2004,
      0x2005, 0x2006, 0x2007, 0x2008, 0x2009, 0x200A, 0x2028, 0x2029, 0x202F, 0x205F, 0x3000] := by
  simp only [isBlank, blankRanges, List.any_cons, List.any_nil, Bool.or_false, Bool.or_eq_true,
    Bool.and_eq_true, decide_eq_true_eq, List.mem_cons, List.not_mem_nil, or_false]
  omega

/-- A text is not blank when one of its characters is not. -/
theorem allBlank_eq_false_iff {s : String} : allBlank s = false ↔ ∃ c ∈ s.toList, isBlank c = false := by
  rw [allBlank, List.all_eq_false]
  simp only [Bool.not_eq_true]

theorem lineList_ne_nil (cs : List Char) : lineList cs ≠ [] := by
  cases cs with
  | nil => simp [lineList]
  | cons c cs =>
    simp only [lineList]
    split
    · simp
    · split <;> simp

/-- No line holds a line feed. -/
theorem not_mem_of_mem_lineList {cs line : List Char} (h : line ∈ lineList cs) : '\n' ∉ line := by
  induction cs generalizing line with
  | nil => simp_all [lineList]
  | cons c cs ih =>
    simp only [lineList] at h
    split at h
    · rcases List.mem_cons.mp h with rfl | h
      · simp
      · exact ih h
    next hc =>
      split at h
      next heq => exact absurd heq (lineList_ne_nil cs)
      next first rest heq =>
        rcases List.mem_cons.mp h with rfl | h
        · have : '\n' ∉ first := ih (by simp [heq])
          simp only [List.mem_cons, not_or]
          exact ⟨fun e => hc e.symm, this⟩
        · exact ih (by simp [heq, h])

end Rollout.Text
