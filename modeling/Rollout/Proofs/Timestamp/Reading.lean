-- SUMMARY: Printed timestamps are read back, and those that are read have a supported year.
import Rollout.Timestamp.Text
import Rollout.Proofs.Text.Digits

/-!
# Reading printed timestamps

The printed form has no blanks and no offset, and each number in it has its full width. So the lenient reader
takes every number off as it was written, and all timestamps of supported years are read back.
-/
namespace Rollout.Timestamp

open Rollout.Text

-- ---------------------------------------------------------------------------
-- Padded numbers
-- ---------------------------------------------------------------------------

theorem padded_isDigit (width n : Nat) : ∀ c ∈ padded width n, c.isDigit = true := by
  intro c hc
  rw [padded, List.mem_append, List.mem_replicate] at hc
  obtain ⟨-, rfl⟩ | written := hc
  · rfl
  · exact toDigits_isDigit n c written

theorem padded_ne_nil (width n : Nat) : padded width n ≠ [] :=
  List.append_ne_nil_of_right_ne_nil _ Nat.toDigits_ne_nil

/-- A number that fits is filled up to the width. -/
theorem length_padded {width n : Nat} (positive : 0 < width) (fits : n < Nat.pow 10 width) :
    (padded width n).length = width := by
  have short : (Nat.toDigits 10 n).length ≤ width :=
    (Nat.length_toDigits_le_iff (by decide) positive).mpr fits
  rw [padded, List.length_append, List.length_replicate]
  omega

/-- Zeros in front do not count. -/
theorem digitsValue_padded (width n : Nat) : digitsValue (padded width n) = n := by
  change Nat.ofDigitChars 10 (padded width n) 0 = n
  rw [padded, Nat.ofDigitChars_append, Nat.ofDigitChars_replicate_zero, Nat.mul_zero]
  exact Nat.ofDigitChars_ten_toDigits

-- ---------------------------------------------------------------------------
-- Steps of the reader
-- ---------------------------------------------------------------------------

/-- Digits that fit into the width are taken off when something else stands behind them. -/
theorem digits?_append {width : Nat} {ds : List Char} (digits : ∀ c ∈ ds, c.isDigit = true)
    (some_digit : ds ≠ []) (short : ds.length ≤ width) {mark : Char} (other : mark.isDigit = false)
    (rest : List Char) : digits? width (ds ++ mark :: rest) = some (digitsValue ds, mark :: rest) := by
  have taken : ((ds ++ mark :: rest).take width).takeWhile Char.isDigit = ds := by
    rw [List.take_append, List.take_of_length_le short]
    refine (takeWhile_digits digits fun c hc => ?_).1
    cases left : width - ds.length with
    | zero => simp [left] at hc
    | succ n =>
      simp only [left, List.take_succ_cons, List.head?_cons, Option.some.injEq] at hc
      exact hc ▸ other
  simp only [digits?, taken, List.isEmpty_iff, some_digit, if_false, List.drop_left]

theorem isBlank_of_isDigit {c : Char} (digit : c.isDigit = true) : isBlank c = false := by
  have low : 48 ≤ c.toNat := (Char.isDigit_iff_toNat.mp digit).1
  have high : c.toNat ≤ 57 := (Char.isDigit_iff_toNat.mp digit).2
  refine Bool.eq_false_iff.mpr fun blank => ?_
  have listed := Text.isBlank_iff.mp blank
  simp only [List.mem_cons, List.not_mem_nil, or_false] at listed
  omega

theorem trimStart_cons {c : Char} (visible : isBlank c = false) (cs : List Char) :
    trimStart (c :: cs) = c :: cs :=
  List.dropWhile_cons_of_neg (by simp [visible])

/-- A number of full width is taken off when something else stands behind it. -/
theorem digits?_padded {width n : Nat} (positive : 0 < width) (fits : n < Nat.pow 10 width) {mark : Char}
    (other : mark.isDigit = false) (rest : List Char) :
    digits? width (padded width n ++ mark :: rest) = some (n, mark :: rest) := by
  rw [digits?_append (padded_isDigit width n) (padded_ne_nil width n)
    (Nat.le_of_eq (length_padded positive fits)) other rest, digitsValue_padded]

/-- No blanks stand before a number. -/
theorem trimStart_padded (width n : Nat) (rest : List Char) :
    trimStart (padded width n ++ rest) = padded width n ++ rest := by
  obtain ⟨d, ds, written⟩ := List.exists_cons_of_ne_nil (padded_ne_nil width n)
  have digit : d.isDigit = true := padded_isDigit width n d (by simp [written])
  rw [written, List.cons_append, trimStart_cons (isBlank_of_isDigit digit)]

theorem field?_padded {width n : Nat} (positive : 0 < width) (fits : n < Nat.pow 10 width) {mark : Char}
    (other : mark.isDigit = false) (rest : List Char) :
    field? width (padded width n ++ mark :: rest) = some (n, mark :: rest) := by
  rw [field?, trimStart_padded, digits?_padded positive fits other]

theorem mark?_cons {mark : Char} (visible : isBlank mark = false) (rest : List Char) :
    mark? mark (mark :: rest) = some rest := by
  rw [mark?, trimStart_cons visible]
  exact if_pos rfl

theorem year?_minus (cs : List Char) :
    year? ('-' :: cs) = (digits? cs.length cs).map fun (n, rest) => (-(n : Int), rest) := rfl

theorem year?_plus (cs : List Char) :
    year? ('+' :: cs) = (digits? cs.length cs).map fun (n, rest) => ((n : Int), rest) := rfl

theorem year?_padded (width n : Nat) (rest : List Char) : year? (padded width n ++ rest) =
    (digits? 4 (padded width n ++ rest)).map fun (n, rest) => ((n : Int), rest) := by
  obtain ⟨d, ds, written⟩ := List.exists_cons_of_ne_nil (padded_ne_nil width n)
  have digit : d.isDigit = true := padded_isDigit width n d (by simp [written])
  rw [year?, trimStart_padded, written, List.cons_append]
  split
  case h_3 => rfl
  all_goals
    next same =>
      cases (List.cons.inj same).1
      cases digit

/-- Any year is taken off, with or without its sign. -/
theorem year?_writeYear (year : Int) {mark : Char} (other : mark.isDigit = false) (rest : List Char) :
    year? (writeYear year ++ mark :: rest) = some (year, mark :: rest) := by
  have signed : digits? (padded 4 year.natAbs ++ mark :: rest).length
      (padded 4 year.natAbs ++ mark :: rest) = some (year.natAbs, mark :: rest) := by
    rw [digits?_append (padded_isDigit 4 _) (padded_ne_nil 4 _) (by simp) other rest,
      digitsValue_padded]
  unfold writeYear
  split
  case isTrue four =>
    have fits : year.toNat < 10000 := by omega
    rw [year?_padded, digits?_padded (by decide) fits other, Option.map_some]
    simp only [Int.toNat_of_nonneg four.1]
  case isFalse more =>
    rw [List.cons_append]
    split
    case isTrue negative =>
      rw [year?_minus, signed, Option.map_some]
      simp only [Option.some.injEq, Prod.mk.injEq, and_true]
      omega
    case isFalse positive =>
      rw [year?_plus, signed, Option.map_some]
      simp only [Option.some.injEq, Prod.mk.injEq, and_true]
      omega

-- ---------------------------------------------------------------------------
-- Fractions
-- ---------------------------------------------------------------------------

/-- Digits behind a point count as billionths. -/
theorem fraction?_padded {width n : Nat} (positive : 0 < width) (short : width ≤ 9)
    (fits : n < Nat.pow 10 width) {mark : Char} (other : mark.isDigit = false) (rest : List Char) :
    fraction? ('.' :: (padded width n ++ mark :: rest)) =
      some (n * Nat.pow 10 (9 - width), mark :: rest) := by
  have length := length_padded positive fits
  have taken : (padded width n ++ mark :: rest).takeWhile Char.isDigit = padded width n :=
    (takeWhile_digits (padded_isDigit width n) (by simp [other])).1
  have kept : (padded width n).take 9 = padded width n := List.take_of_length_le (by omega)
  simp only [fraction?, taken, List.isEmpty_iff, padded_ne_nil, if_false, kept, digitsValue_padded,
    length, List.drop_left']

/-- A fraction is taken off in each of its forms. -/
theorem fraction?_writeFraction {nano : Nat} (valid : nano < 1000000000) :
    fraction? (writeFraction nano ++ ['Z']) = some (nano, ['Z']) := by
  unfold writeFraction
  split
  case isTrue none =>
    subst none
    rfl
  split
  case isTrue milli =>
    have fits : nano / 1000000 < 1000 := by omega
    have value : nano / 1000000 * 1000000 = nano := by omega
    rw [List.cons_append, fraction?_padded (by decide) (by decide) fits (by decide)]
    exact congrArg (fun n => some (n, ['Z'])) value
  split
  case isTrue micro =>
    have fits : nano / 1000 < 1000000 := by omega
    have value : nano / 1000 * 1000 = nano := by omega
    rw [List.cons_append, fraction?_padded (by decide) (by decide) fits (by decide)]
    exact congrArg (fun n => some (n, ['Z'])) value
  case isFalse =>
    rw [List.cons_append, fraction?_padded (by decide) (by decide) valid (by decide)]
    exact congrArg (fun n => some (n, ['Z'])) (Nat.mul_one nano)

/-- A fraction begins with its point, and where there is none, the zone follows. -/
theorem exists_writeFraction (nano : Nat) :
    ∃ c cs, writeFraction nano ++ ['Z'] = c :: cs ∧ c.isDigit = false := by
  unfold writeFraction
  repeat' split
  all_goals exact ⟨_, _, rfl, by decide⟩

-- ---------------------------------------------------------------------------
-- Timestamps
-- ---------------------------------------------------------------------------

theorem month_le (t : Timestamp) : t.month ≤ 12 := by
  obtain ⟨first, last⟩ := t.day_valid
  unfold daysInMonth at last
  split at last <;> omega

theorem day_le (t : Timestamp) : t.day ≤ 31 := by
  obtain ⟨first, last⟩ := t.day_valid
  unfold daysInMonth at last
  repeat' split at last
  all_goals omega

theorem ofFields?_self (t : Timestamp) :
    ofFields? t.year t.month t.day t.hour t.minute t.second t.nano = some t := by
  rw [ofFields?, dif_pos t.day_valid, dif_pos t.time_valid]

/-- A reader goes on with what its first step gives. -/
theorem read_on {α β : Type} {x : Option α} {a : α} {next : α → Option β} {b : β} (first : x = some a)
    (rest : next a = some b) : x.bind next = some b := by
  rw [first, Option.bind_some, rest]

/-- A printed timestamp is read back when its year is supported. -/
theorem parse?_render {t : Timestamp} (supported : isSupportedYear t.year = true) :
    parse? t.render = some t := by
  obtain ⟨_, _, _, nano⟩ := t.time_valid
  have month : t.month < 100 := by have := t.month_le; omega
  have day : t.day < 100 := by have := t.day_le; omega
  have hour : t.hour < 100 := by omega
  have minute : t.minute < 100 := by omega
  have second : t.second < 100 := by omega
  obtain ⟨c, cs, fraction, other⟩ := exists_writeFraction t.nano
  have read := fraction?_writeFraction nano
  rw [fraction] at read
  have dash : isBlank '-' = false := by decide
  have colon : isBlank ':' = false := by decide
  simp only [parse?, render, String.toList_ofList, write, List.append_assoc, List.cons_append, fraction]
  -- Every step takes off what was written for it; what stands behind is no digit.
  refine read_on (year?_writeYear t.year (by decide) _) ?_
  refine read_on (mark?_cons dash _) (read_on (field?_padded (by decide) month (by decide) _) ?_)
  refine read_on (mark?_cons dash _) (read_on (field?_padded (by decide) day (by decide) _) ?_)
  refine read_on rfl (read_on (field?_padded (by decide) hour (by decide) _) ?_)
  refine read_on (mark?_cons colon _) (read_on (field?_padded (by decide) minute (by decide) _) ?_)
  refine read_on (mark?_cons colon _) (read_on (field?_padded (by decide) second other _) ?_)
  refine read_on read (read_on rfl (read_on t.ofFields?_self ?_))
  have tested : ((trimStart []).isEmpty && isSupportedYear t.year && isSupportedYear t.year) = true := by
    rw [supported]
    rfl
  exact if_pos tested

/-- A reader gives supported timestamps only when its last step does. -/
theorem supported_bind {α : Type} {x : Option α} {f : α → Option Timestamp}
    (each : ∀ a, ∀ t ∈ f a, isSupportedYear t.year = true) :
    ∀ t ∈ x.bind f, isSupportedYear t.year = true := by
  intro t ht
  obtain ⟨a, -, read⟩ := Option.bind_eq_some_iff.mp ht
  exact each a t read

/-- Timestamps that are read have a supported year, because the last step of the reader asks for it. -/
theorem isSupportedYear_of_parse? (s : String) : ∀ t ∈ parse? s, isSupportedYear t.year = true := by
  have tested (b : Bool) (t : Timestamp) :
      ∀ u ∈ (if (b && isSupportedYear t.year) = true then some t else none),
        isSupportedYear u.year = true := by
    intro u hu
    obtain ⟨accepted, same⟩ := Option.ite_none_right_eq_some.mp hu
    cases same
    exact (Bool.and_eq_true_iff.mp accepted).2
  unfold parse?
  -- The year, the month and the day, then any of the marks before the time of day, and what is behind it.
  iterate 5 refine supported_bind fun _ => ?_
  dsimp only
  split
  all_goals
    iterate 9 refine supported_bind fun _ => ?_
    split <;> exact supported_bind fun _ => tested _ _

end Rollout.Timestamp
