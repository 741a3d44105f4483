-- SUMMARY: The lines of a text: how many there are, and what becomes of them when texts are put together.
import Rollout.Proofs.Text.Digits
import Rollout.Text.Blank

/-!
# Lines

A text is cut at its line feeds, so it has one line more than line feeds. A text without a line feed is one line,
and put in front of another text it only makes the first line longer. Texts that are joined by line feeds keep
their lines.
-/
namespace Rollout.Text

def lines (s : String) : List String := (lineList s.toList).map String.ofList

variable {c : Char} {cs ds : List Char} {s : String}

-- ---------------------------------------------------------------------------
-- Lines of characters
-- ---------------------------------------------------------------------------

theorem lineList_cons (other : c ≠ '\n') : lineList (c :: cs) = (lineList cs).modifyHead (c :: ·) := by
  rw [lineList, if_neg other]
  obtain ⟨line, rest, eq⟩ := List.exists_cons_of_ne_nil (lineList_ne_nil cs)
  rw [eq]
  rfl

/-- A text without a line feed makes the first line longer. -/
theorem lineList_append (plain : '\n' ∉ cs) : lineList (cs ++ ds) = (lineList ds).modifyHead (cs ++ ·) := by
  induction cs with
  | nil => exact (congrFun List.modifyHead_id (lineList ds)).symm
  | cons c cs ih =>
    rw [List.mem_cons, not_or] at plain
    rw [List.cons_append, lineList_cons (Ne.symm plain.1), ih plain.2, List.modifyHead_modifyHead]
    rfl

theorem lineList_of_not_mem (plain : '\n' ∉ cs) : lineList cs = [cs] := by
  have alone : lineList (cs ++ []) = (lineList []).modifyHead (cs ++ ·) := lineList_append plain
  rwa [List.append_nil, lineList, List.modifyHead_cons, List.append_nil] at alone

/-- At a line feed the lines of what is behind begin. -/
theorem lineList_feed (cs ds : List Char) : lineList (cs ++ '\n' :: ds) = lineList cs ++ lineList ds := by
  induction cs with
  | nil => rfl
  | cons c cs ih =>
    by_cases feed : c = '\n'
    · rw [feed, List.cons_append, lineList, if_pos rfl, ih, lineList, if_pos rfl]
      rfl
    · rw [List.cons_append, lineList_cons feed, ih, lineList_cons feed]
      obtain ⟨line, rest, eq⟩ := List.exists_cons_of_ne_nil (lineList_ne_nil cs)
      rw [eq]
      rfl

theorem lineList_length (cs : List Char) : (lineList cs).length = cs.count '\n' + 1 := by
  induction cs with
  | nil => rfl
  | cons c cs ih =>
    by_cases feed : c = '\n'
    · rw [feed, lineList, if_pos rfl, List.length_cons, ih, List.count_cons_self]
    · rw [lineList_cons feed, List.length_modifyHead, ih, List.count_cons_of_ne feed]

-- ---------------------------------------------------------------------------
-- Lines of texts
-- ---------------------------------------------------------------------------

theorem lines_length (s : String) : (lines s).length = s.toList.count '\n' + 1 := by
  rw [lines, List.length_map, lineList_length]

theorem lines_append (plain : '\n' ∉ s.toList) (t : String) :
    lines (s ++ t) = (lines t).modifyHead (s ++ ·) := by
  rw [lines, String.toList_append, lineList_append plain, lines]
  obtain ⟨line, rest, eq⟩ := List.exists_cons_of_ne_nil (lineList_ne_nil t.toList)
  rw [eq]
  simp

/-- A text without a line feed is its only line. -/
theorem lines_of_not_mem (plain : '\n' ∉ s.toList) : lines s = [s] := by
  rw [lines, lineList_of_not_mem plain, List.map_cons, String.ofList_toList, List.map_nil]

theorem not_mem_of_mem_lines {line : String} (h : line ∈ lines s) : '\n' ∉ line.toList := by
  obtain ⟨cs, member, rfl⟩ := List.mem_map.mp h
  rw [String.toList_ofList]
  exact not_mem_of_mem_lineList member

/-- Texts that are joined by line feeds keep their lines. -/
theorem lines_intercalate {texts : List String} (some_text : texts ≠ []) :
    lines ("\n".intercalate texts) = texts.flatMap lines := by
  induction texts with
  | nil => exact absurd rfl some_text
  | cons t texts ih =>
    cases texts with
    | nil => simp
    | cons u texts =>
      have feed : (t ++ "\n" ++ "\n".intercalate (u :: texts)).toList =
          t.toList ++ '\n' :: ("\n".intercalate (u :: texts)).toList := by
        simp [String.toList_append]
      rw [String.intercalate_cons_cons, lines, feed, lineList_feed, List.map_append, List.flatMap_cons]
      exact congrArg (lines t ++ ·) (ih (List.cons_ne_nil u texts))

-- ---------------------------------------------------------------------------
-- Texts without line feeds
-- ---------------------------------------------------------------------------

theorem not_mem_append {t : String} :
    c ∉ (s ++ t).toList ↔ c ∉ s.toList ∧ c ∉ t.toList := by
  rw [String.toList_append, List.mem_append, not_or]

theorem not_mem_intercalate {texts : List String} (outside : c ∉ s.toList)
    (inside : ∀ t ∈ texts, c ∉ t.toList) : c ∉ (s.intercalate texts).toList := by
  induction texts with
  | nil => simp
  | cons t texts ih =>
    obtain ⟨first, inside⟩ := List.forall_mem_cons.mp inside
    cases texts with
    | nil => simpa using first
    | cons u texts =>
      rw [String.intercalate_cons_cons, not_mem_append, not_mem_append]
      exact ⟨⟨first, outside⟩, ih inside⟩

/-- A text that is folded into one line has no line feed. -/
theorem oneLine_plain (s : String) : '\n' ∉ (oneLine s).toList := by
  refine not_mem_intercalate (by decide) fun t ht => ?_
  obtain ⟨line, hline, rfl⟩ := List.mem_map.mp ht
  obtain ⟨raw, hraw, rfl⟩ := List.mem_map.mp (List.mem_filter.mp hline).1
  rw [String.toList_ofList]
  intro feed
  rw [trimEnd, List.mem_reverse] at feed
  have trimmed := List.mem_reverse.mp ((List.dropWhile_sublist _).subset feed)
  exact not_mem_of_mem_lineList hraw ((List.dropWhile_sublist _).subset trimmed)

/-- A number is written without a line feed. -/
theorem repr_plain (n : Nat) : '\n' ∉ n.repr.toList := by
  rw [Nat.toList_repr]
  intro feed
  exact absurd (toDigits_isDigit n _ feed) (by decide)

end Rollout.Text
