-- SUMMARY: Printed documents are read back: strings, numbers, and what they are nested in.
import Rollout.Json.Reader
import Rollout.Proofs.Text.Digits

/-!
# Printing and reading

A document is clean when its strings are the bodies that texts are written as, and its numbers are natural
numbers. The wire forms of all values are clean, and a clean document that is printed is read back. The reader
takes off a text exactly what was printed, whatever follows, as long as no number runs on into it.
-/
namespace Rollout.Json

open Text (toDigits_isDigit exists_toDigits takeWhile_digits head?_toDigits)

-- ---------------------------------------------------------------------------
-- Clean documents
-- ---------------------------------------------------------------------------

/-- The body writes a text. -/
def IsWritten (body : List Char) : Prop := ∃ cs, body = Quoted.encode cs

mutual

/-- All strings in the document write texts, and all numbers are natural numbers. -/
def IsClean : Json → Prop
  | .number n => ∃ m, n = .ofNat m
  | .string body => IsWritten body
  | .array items => AreClean items
  | .object members => MembersAreClean members
  | .null | .bool _ => True

/-- All items are clean. -/
def AreClean : List Json → Prop
  | [] => True
  | item :: items => IsClean item ∧ AreClean items

/-- All keys write texts, and all member values are clean. -/
def MembersAreClean : List (List Char × Json) → Prop
  | [] => True
  | (key, value) :: members => IsWritten key ∧ IsClean value ∧ MembersAreClean members

end

theorem isClean_text (s : String) : (text s).IsClean := by
  simp only [text, IsClean]
  exact ⟨s.toList, rfl⟩

theorem isClean_nat (n : Nat) : (nat n).IsClean := by
  simp only [nat, IsClean]
  exact ⟨n, rfl⟩

theorem isClean_array {items : List Json} (clean : ∀ item ∈ items, item.IsClean) :
    (array items).IsClean := by
  simp only [IsClean]
  induction items with
  | nil => simp only [AreClean]
  | cons item items ih =>
    simp only [AreClean]
    exact ⟨clean item List.mem_cons_self, ih fun i hi => clean i (List.mem_cons_of_mem _ hi)⟩

theorem isClean_record {fields : List (String × Json)} (clean : ∀ field ∈ fields, field.2.IsClean) :
    (record fields).IsClean := by
  simp only [record, IsClean]
  induction fields with
  | nil => simp only [List.map_nil, MembersAreClean]
  | cons field fields ih =>
    simp only [List.map_cons, MembersAreClean]
    exact ⟨⟨_, rfl⟩, clean field List.mem_cons_self, ih fun f hf => clean f (List.mem_cons_of_mem _ hf)⟩

-- ---------------------------------------------------------------------------
-- Characters
-- ---------------------------------------------------------------------------

/-- What is written for a character is taken off as one piece. -/
theorem skipChar?_encodeChar (c : Char) (rest : List Char) :
    Quoted.skipChar? (Quoted.encodeChar c ++ rest) = some (Quoted.encodeChar c, rest) := by
  unfold Quoted.encodeChar
  split
  · rfl
  split
  · rfl
  split
  · rfl
  split
  · rfl
  split
  · rfl
  split
  · rfl
  split
  · rfl
  split
  next control =>
    have zero : Quoted.hexValue? '0' = some 0 := by decide
    have high := Quoted.hexValue?_hexDigit (n := c.toNat / 16) (by omega)
    have low := Quoted.hexValue?_hexDigit (n := c.toNat % 16) (by omega)
    simp [Quoted.skipChar?, zero, high, low]
  next quote backslash _ _ _ _ _ plain =>
    simp only [List.cons_append, List.nil_append]
    unfold Quoted.skipChar?
    split
    next same => exact absurd (List.cons.inj same).1 backslash
    next same => exact absurd (List.cons.inj same).1 backslash
    next same =>
      obtain ⟨rfl, rfl⟩ := List.cons.inj same
      simp [quote, backslash, plain]
    next same => cases same

/-- No character is written as the quote that ends a body. -/
theorem encodeChar_head (c : Char) : ∃ d ds, Quoted.encodeChar c = d :: ds ∧ d ≠ '"' := by
  unfold Quoted.encodeChar
  repeat' split
  all_goals exact ⟨_, _, rfl, by first | decide | assumption⟩

/-- A body is read up to the quote behind it. -/
theorem readBody?_encode (cs rest : List Char) {n : Nat} (enough : (Quoted.encode cs).length < n) :
    readBody? n (Quoted.encode cs ++ '"' :: rest) = some (Quoted.encode cs, rest) := by
  induction cs generalizing n with
  | nil =>
    cases n with
    | zero => cases enough
    | succ n => rfl
  | cons c cs ih =>
    obtain ⟨d, ds, written, other⟩ := encodeChar_head c
    have split : Quoted.encode (c :: cs) = Quoted.encodeChar c ++ Quoted.encode cs := List.flatMap_cons
    have shorter : (Quoted.encode cs).length + 1 < n := by
      rw [split, written, List.length_append, List.length_cons] at enough
      omega
    obtain ⟨n, rfl⟩ : ∃ m, n = m + 1 := ⟨n - 1, by omega⟩
    have step := skipChar?_encodeChar c (Quoted.encode cs ++ '"' :: rest)
    rw [split, List.append_assoc]
    rw [written] at step ⊢
    simp only [List.cons_append] at step ⊢
    rw [readBody?]
    · rw [step, Option.bind_eq_bind, Option.bind_some]
      dsimp only
      rw [ih (by omega)]
      rfl
    · simpa using other

-- ---------------------------------------------------------------------------
-- Numbers
-- ---------------------------------------------------------------------------

/-- No number runs on into the text. -/
def Stops (rest : List Char) : Prop :=
  ∀ c, rest.head? = some c → c.isDigit = false ∧ c ≠ '.' ∧ c ≠ 'e' ∧ c ≠ 'E'

theorem wholePart?_toDigits (n : Nat) {rest : List Char} (stops : Stops rest) :
    wholePart? (Nat.toDigits 10 n ++ rest) = some (Nat.toDigits 10 n, rest) := by
  obtain ⟨taken, left⟩ := takeWhile_digits (toDigits_isDigit n) fun c hc => (stops c hc).1
  obtain rfl | positive := Nat.eq_zero_or_pos n
  · have none_behind : (rest.head?.map Char.isDigit).getD false = false := by
      cases hc : rest.head? with
      | none => rfl
      | some c => exact (stops c hc).1
    simp [Nat.toDigits_zero, wholePart?, none_behind]
  · obtain ⟨d, ds, written, _⟩ := exists_toDigits n
    have first := head?_toDigits positive
    rw [written, List.head?_cons, ne_eq, Option.some.injEq] at first
    rw [written] at taken left ⊢
    rw [List.cons_append, wholePart?]
    · rw [takeDigits, ← List.cons_append, taken, left]
    · simpa using first

theorem write_ofNat (n : Nat) : (Numeral.ofNat n).write = Nat.toDigits 10 n := by
  simp [Numeral.write, Numeral.ofNat]

/-- A number is read back where the text behind it does not run on. -/
theorem readNumber?_write (n : Nat) {rest : List Char} (stops : Stops rest) :
    readNumber? ((Numeral.ofNat n).write ++ rest) = some (.ofNat n, rest) := by
  have fraction : fractionPart? rest = some ([], rest) := by
    cases rest with
    | nil => rfl
    | cons c rest =>
      rw [fractionPart?]
      simpa using (stops c rfl).2.1
  have scale : exponentPart? rest = some (none, rest) := by
    cases rest with
    | nil => rfl
    | cons c rest => simp [exponentPart?, stops c rfl]
  have value : digitsValue (Nat.toDigits 10 n ++ []) = n := by
    rw [List.append_nil]
    exact Nat.ofDigitChars_ten_toDigits
  have unsigned (cs : List Char) : Nat.toDigits 10 n ++ rest ≠ '-' :: cs := by
    obtain ⟨d, ds, written, digit⟩ := exists_toDigits n
    rw [written, List.cons_append]
    intro same
    cases (List.cons.inj same).1
    cases digit
  rw [write_ofNat, readNumber?]
  · simp only [wholePart?_toDigits n stops, fraction, scale, value, Option.bind_eq_bind,
      Option.bind_some]
    rfl
  · exact unsigned

-- ---------------------------------------------------------------------------
-- Documents
-- ---------------------------------------------------------------------------

theorem stops_nil : Stops [] := nofun

theorem stops_cons {c : Char} (other : c.isDigit = false ∧ c ≠ '.' ∧ c ≠ 'e' ∧ c ≠ 'E')
    (rest : List Char) : Stops (c :: rest) := by
  intro d hd
  cases hd
  exact other

/-- What follows an item or a member. -/
theorem stops_writeItems (items : List Json) (rest : List Char) : Stops (writeItems items ++ rest) := by
  cases items <;> exact stops_cons (by decide) _

theorem stops_writeMembers (members : List (List Char × Json)) (rest : List Char) :
    Stops (writeMembers members ++ rest) := by
  rcases members with _ | ⟨⟨key, value⟩, members⟩ <;> exact stops_cons (by decide) _

theorem skipSpace_cons {c : Char} (visible : isSpace c = false) (cs : List Char) :
    skipSpace (c :: cs) = c :: cs := by
  rw [skipSpace, List.dropWhile_cons_of_neg (by simp [visible])]

theorem isSpace_of_isDigit {c : Char} (digit : c.isDigit = true) : isSpace c = false := by
  cases space : isSpace c with
  | false => rfl
  | true =>
    simp only [isSpace, Bool.or_eq_true, decide_eq_true_eq] at space
    obtain ((rfl | rfl) | rfl) | rfl := space <;> cases digit

/-- A document begins with no blank and no closing bracket. -/
theorem exists_write (j : Json) (clean : j.IsClean) :
    ∃ c cs, j.write = c :: cs ∧ isSpace c = false ∧ c ≠ ']' := by
  cases j with
  | null => exact ⟨'n', _, rfl, rfl, by decide⟩
  | bool b => cases b <;> exact ⟨_, _, rfl, rfl, by decide⟩
  | number k =>
    simp only [IsClean] at clean
    obtain ⟨n, rfl⟩ := clean
    obtain ⟨d, ds, written, digit⟩ := exists_toDigits n
    refine ⟨d, ds, by rw [write, write_ofNat, written], isSpace_of_isDigit digit, ?_⟩
    rintro rfl
    cases digit
  | string body => exact ⟨'"', _, rfl, rfl, by decide⟩
  | array items => cases items <;> exact ⟨'[', _, rfl, rfl, by decide⟩
  | object members =>
    rcases members with _ | ⟨⟨key, value⟩, members⟩ <;> exact ⟨'\x7b', _, rfl, rfl, by decide⟩

/-! ## Steps of the reader -/

theorem readValue?_quote (n : Nat) (cs : List Char) : readValue? (n + 1) ('"' :: cs) =
    (readBody? n cs).bind fun (body, cs) => some (.string body, cs) := rfl

theorem readValue?_bracket (n : Nat) {c : Char} (cs : List Char) (visible : isSpace c = false)
    (other : c ≠ ']') : readValue? (n + 1) ('[' :: c :: cs) =
      (readValue? n (c :: cs)).bind fun (item, cs) =>
        (readItems? n cs).bind fun (items, cs) => some (.array (item :: items), cs) := by
  have opened : skipSpace ('[' :: c :: cs) = '[' :: c :: cs := rfl
  rw [readValue?, opened]
  simp only [skipSpace_cons visible]
  split
  next same => exact absurd (List.cons.inj same).1 other
  · rfl

theorem readValue?_brace (n : Nat) (cs : List Char) : readValue? (n + 1) ('\x7b' :: '"' :: cs) =
    (readMember? n ('"' :: cs)).bind fun (member, cs) =>
      (readMembers? n cs).bind fun (members, cs) => some (.object (member :: members), cs) := rfl

theorem readItems?_comma (n : Nat) (cs : List Char) : readItems? (n + 1) (',' :: cs) =
    (readValue? n cs).bind fun (item, cs) =>
      (readItems? n cs).bind fun (items, cs) => some (item :: items, cs) := rfl

theorem readMembers?_comma (n : Nat) (cs : List Char) : readMembers? (n + 1) (',' :: cs) =
    (readMember? n cs).bind fun (member, cs) =>
      (readMembers? n cs).bind fun (members, cs) => some (member :: members, cs) := rfl

theorem readValue?_number {n m : Nat} {rest : List Char} (stops : Stops rest) :
    readValue? (n + 1) ((Numeral.ofNat m).write ++ rest) = some (.number (.ofNat m), rest) := by
  have read := readNumber?_write m stops
  obtain ⟨d, ds, written, digit⟩ := exists_toDigits m
  rw [write_ofNat, written, List.cons_append] at read ⊢
  rw [readValue?, skipSpace_cons (isSpace_of_isDigit digit)]
  -- No other document begins with a digit.
  split
  case h_7 => rw [read]; rfl
  all_goals
    next same =>
      cases (List.cons.inj same).1
      cases digit

/-- A member is read when its value is. -/
theorem readMember?_write {key : List Char} (written : IsWritten key) {value : Json} {n : Nat}
    {rest : List Char} (enough : key.length + 1 < n)
    (reads : readValue? (n - 1) (value.write ++ rest) = some (value, rest)) :
    readMember? n ('"' :: (key ++ '"' :: ':' :: (value.write ++ rest))) = some ((key, value), rest) := by
  obtain ⟨cs, rfl⟩ := written
  obtain ⟨n, rfl⟩ : ∃ m, n = m + 1 := ⟨n - 1, by omega⟩
  change (readBody? n (Quoted.encode cs ++ '"' :: ':' :: (value.write ++ rest))).bind _ = _
  rw [readBody?_encode cs _ (by omega), Option.bind_some]
  change (readValue? n (value.write ++ rest)).bind _ = _
  rw [show readValue? n (value.write ++ rest) = some (value, rest) from reads]
  rfl

mutual

/-- A printed document is read back with enough fuel. The induction follows the document, with its items and
members. -/
theorem readValue?_write (j : Json) (clean : j.IsClean) {n : Nat} {rest : List Char}
    (stops : Stops rest) (enough : j.write.length < n) :
    readValue? n (j.write ++ rest) = some (j, rest) := by
  obtain ⟨n, rfl⟩ : ∃ m, n = m + 1 := ⟨n - 1, by omega⟩
  match j with
  | .null => rfl
  | .bool true => rfl
  | .bool false => rfl
  | .number k =>
    simp only [IsClean] at clean
    obtain ⟨m, rfl⟩ := clean
    exact readValue?_number stops
  | .string body =>
    simp only [IsClean] at clean
    obtain ⟨cs, rfl⟩ := clean
    simp only [write, List.length_cons, List.length_append, List.length_nil] at enough
    rw [write, List.cons_append, List.cons_append, List.append_assoc, readValue?_quote,
      List.singleton_append, readBody?_encode cs rest (by omega)]
    rfl
  | .array [] => rfl
  | .array (item :: items) =>
    simp only [IsClean, AreClean] at clean
    obtain ⟨first, others⟩ := clean
    simp only [write, List.length_cons, List.length_append] at enough
    obtain ⟨c, cs, written, visible, other⟩ := exists_write item first
    have reads := readValue?_write item first (stops_writeItems items rest) (n := n) (by omega)
    rw [write, List.cons_append, List.append_assoc]
    rw [written, List.cons_append] at reads ⊢
    rw [readValue?_bracket n _ visible other, reads, Option.bind_some]
    dsimp only
    rw [readItems?_write items others (by omega)]
    rfl
  | .object [] => rfl
  | .object ((key, value) :: members) =>
    simp only [IsClean, MembersAreClean] at clean
    obtain ⟨written, first, others⟩ := clean
    simp only [write, List.length_cons, List.length_append] at enough
    have reads := readMember?_write written (n := n) (by omega)
      (readValue?_write value first (stops_writeMembers members rest) (by omega))
    simp only [write, List.cons_append, List.append_assoc]
    rw [readValue?_brace, reads, Option.bind_some]
    dsimp only
    rw [readMembers?_write members others (by omega)]
    rfl

theorem readItems?_write (items : List Json) (clean : AreClean items) {n : Nat} {rest : List Char}
    (enough : (writeItems items).length < n) :
    readItems? n (writeItems items ++ rest) = some (items, rest) := by
  obtain ⟨n, rfl⟩ : ∃ m, n = m + 1 := ⟨n - 1, by omega⟩
  match items with
  | [] => rfl
  | item :: items =>
    simp only [AreClean] at clean
    obtain ⟨first, others⟩ := clean
    simp only [writeItems, List.length_cons, List.length_append] at enough
    rw [writeItems, List.cons_append, List.append_assoc, readItems?_comma,
      readValue?_write item first (stops_writeItems items rest) (by omega), Option.bind_some]
    dsimp only
    rw [readItems?_write items others (by omega)]
    rfl

theorem readMembers?_write (members : List (List Char × Json)) (clean : MembersAreClean members)
    {n : Nat} {rest : List Char} (enough : (writeMembers members).length < n) :
    readMembers? n (writeMembers members ++ rest) = some (members, rest) := by
  obtain ⟨n, rfl⟩ : ∃ m, n = m + 1 := ⟨n - 1, by omega⟩
  match members with
  | [] => rfl
  | (key, value) :: members =>
    simp only [MembersAreClean] at clean
    obtain ⟨written, first, others⟩ := clean
    simp only [writeMembers, List.length_cons, List.length_append] at enough
    have reads := readMember?_write written (n := n) (by omega)
      (readValue?_write value first (stops_writeMembers members rest) (by omega))
    simp only [writeMembers, List.cons_append, List.append_assoc]
    rw [readMembers?_comma, reads, Option.bind_some]
    dsimp only
    rw [readMembers?_write members others (by omega)]
    rfl

end

/-- A clean document that is printed is read back. -/
theorem parse?_render {j : Json} (clean : j.IsClean) : parse? j.render = some j := by
  have read := readValue?_write j clean stops_nil (n := 2 * j.write.length + 2) (by omega)
  rw [List.append_nil] at read
  simp only [parse?, render, String.toList_ofList, read]
  rfl

end Rollout.Json
