-- SUMMARY: JSON string bodies: the characters between the quotes, and the text they stand for.

/-!
# Quoted text

Between its quotes a string holds characters and escapes. `encode` writes a text that way and
`decode` reads it. A body can be well formed and still stand for no text, when it holds half of a
surrogate pair; `decode` refuses those. Main statement: `decode_encode`.
-/
namespace Rollout.Json.Quoted

/-- The sixteen digits that `encode` uses. -/
def hexDigit (n : Nat) : Char :=
  if n < 10 then Char.ofNat (48 + n) else Char.ofNat (87 + n)

/-- The value of a hexadecimal digit in either case. -/
def hexValue? (c : Char) : Option Nat :=
  if '0' ≤ c ∧ c ≤ '9' then some (c.toNat - 48)
  else if 'a' ≤ c ∧ c ≤ 'f' then some (c.toNat - 87)
  else if 'A' ≤ c ∧ c ≤ 'F' then some (c.toNat - 55)
  else none

/-- The number that four hexadecimal digits write, and what follows them. -/
def hex4? : List Char → Option (Nat × List Char)
  | a :: b :: c :: d :: rest => do
    let a ← hexValue? a
    let b ← hexValue? b
    let c ← hexValue? c
    let d ← hexValue? d
    return (((a * 16 + b) * 16 + c) * 16 + d, rest)
  | _ => none

/-- The character that a one-letter escape stands for. -/
def shortEscape? : Char → Option Char
  | '"' => some '"'
  | '\\' => some '\\'
  | '/' => some '/'
  | 'b' => some (Char.ofNat 0x08)
  | 'f' => some (Char.ofNat 0x0C)
  | 'n' => some '\n'
  | 'r' => some '\r'
  | 't' => some '\t'
  | _ => none

def encodeChar (c : Char) : List Char :=
  if c = '"' then ['\\', '"']
  else if c = '\\' then ['\\', '\\']
  else if c = Char.ofNat 0x08 then ['\\', 'b']
  else if c = Char.ofNat 0x0C then ['\\', 'f']
  else if c = '\n' then ['\\', 'n']
  else if c = '\r' then ['\\', 'r']
  else if c = '\t' then ['\\', 't']
  else if c.toNat < 0x20 then
    ['\\', 'u', '0', '0', hexDigit (c.toNat / 16), hexDigit (c.toNat % 16)]
  else [c]

/-- The body that writes a text. -/
def encode (cs : List Char) : List Char := cs.flatMap encodeChar

/-- The half of a surrogate pair that opens it. -/
def isHighSurrogate (n : Nat) : Bool := 0xD800 ≤ n && n < 0xDC00

/-- The half of a surrogate pair that closes it. -/
def isLowSurrogate (n : Nat) : Bool := 0xDC00 ≤ n && n < 0xE000

/-- Take the first character off a body: the character it stands for and the rest of the body. -/
def decodeChar? : List Char → Option (Char × List Char)
  | [] => none
  | '\\' :: 'u' :: rest => do
    let (n, rest) ← hex4? rest
    if isHighSurrogate n then
      match rest with
      | '\\' :: 'u' :: rest =>
        let (m, rest) ← hex4? rest
        if isLowSurrogate m then
          return (Char.ofNat (0x10000 + (n - 0xD800) * 0x400 + (m - 0xDC00)), rest)
        else none
      | _ => none
    else if isLowSurrogate n then none
    else return (Char.ofNat n, rest)
  | '\\' :: c :: rest => do return (← shortEscape? c, rest)
  | c :: rest => if c = '"' ∨ c = '\\' ∨ c.toNat < 0x20 then none else some (c, rest)

/-- Decode with a bound on the number of characters. -/
def decodeWithin : Nat → List Char → Option (List Char)
  | _, [] => some []
  | 0, _ :: _ => none
  | n + 1, body => do
    let (c, rest) ← decodeChar? body
    return c :: (← decodeWithin n rest)

/-- The text that a body stands for. Each step takes at least one character off the body. -/
def decode (body : List Char) : Option (List Char) := decodeWithin body.length body

/-- Take one character or escape off a body, without asking what it stands for. -/
def skipChar? : List Char → Option (List Char × List Char)
  | '\\' :: 'u' :: a :: b :: c :: d :: rest =>
    if [a, b, c, d].all fun x => (hexValue? x).isSome then
      some (['\\', 'u', a, b, c, d], rest)
    else none
  | '\\' :: c :: rest => if (shortEscape? c).isSome then some (['\\', c], rest) else none
  | c :: rest => if c = '"' ∨ c = '\\' ∨ c.toNat < 0x20 then none else some ([c], rest)
  | [] => none

-- ---------------------------------------------------------------------------
-- Laws
-- ---------------------------------------------------------------------------

theorem hexValue?_hexDigit {n : Nat} (h : n < 16) : hexValue? (hexDigit n) = some n := by
  revert h; revert n; decide

/-- The escape of a control character reads back. -/
theorem hex4?_control {n : Nat} (h : n < 0x20) (rest : List Char) :
    hex4? ('0' :: '0' :: hexDigit (n / 16) :: hexDigit (n % 16) :: rest) = some (n, rest) := by
  have h0 : hexValue? '0' = some 0 := by decide
  have h1 := hexValue?_hexDigit (n := n / 16) (by omega)
  have h2 := hexValue?_hexDigit (n := n % 16) (by omega)
  simp only [hex4?, h0, h1, h2, Option.bind_eq_bind, Option.bind_some, Option.pure_def,
    Option.some.injEq, Prod.mk.injEq, and_true]
  omega

theorem decodeChar?_encodeChar (c : Char) (rest : List Char) :
    decodeChar? (encodeChar c ++ rest) = some (c, rest) := by
  unfold encodeChar
  split
  · subst c; rfl
  split
  · subst c; rfl
  split
  · subst c; rfl
  split
  · subst c; rfl
  split
  · subst c; rfl
  split
  · subst c; rfl
  split
  · subst c; rfl
  split
  next hc =>
    have hh : isHighSurrogate c.toNat = false := by simp [isHighSurrogate]; omega
    have hl : isLowSurrogate c.toNat = false := by simp [isLowSurrogate]; omega
    simp [decodeChar?, hex4?_control hc, hh, hl]
  next h1 h2 _ _ _ _ _ hc =>
    have hne : c ≠ '\\' := h2
    simp only [List.cons_append, List.nil_append]
    unfold decodeChar?
    split
    next h => simp at h
    next h => simp_all
    next h => simp_all
    next h =>
      simp only [List.cons.injEq] at h
      obtain ⟨rfl, rfl⟩ := h
      simp [h1, h2, hc]

theorem encodeChar_ne_nil (c : Char) : encodeChar c ≠ [] := by
  unfold encodeChar
  repeat' split
  all_goals simp

theorem decodeWithin_encode (cs : List Char) {n : Nat} (h : cs.length ≤ n) :
    decodeWithin n (encode cs) = some cs := by
  induction cs generalizing n with
  | nil => cases n <;> rfl
  | cons c cs ih =>
    cases n with
    | zero => simp at h
    | succ n =>
      have hne : encode (c :: cs) ≠ [] := by simp [encode, encodeChar_ne_nil]
      obtain ⟨d, ds, hd⟩ := List.exists_cons_of_ne_nil hne
      have hlen : cs.length ≤ n := by simpa using h
      have hsplit : d :: ds = encodeChar c ++ encode cs := by rw [← hd]; simp [encode]
      rw [hd, decodeWithin, hsplit, decodeChar?_encodeChar]
      · simp [ih hlen]
      · simp

theorem length_le_length_encode (cs : List Char) : cs.length ≤ (encode cs).length := by
  induction cs with
  | nil => simp
  | cons c cs ih =>
    have : 0 < (encodeChar c).length := List.length_pos_iff.mpr (encodeChar_ne_nil c)
    simp only [encode, List.flatMap_cons, List.length_append, List.length_cons] at ih ⊢
    omega

/-- Reading what was written gives the text back. -/
theorem decode_encode (cs : List Char) : decode (encode cs) = some cs :=
  decodeWithin_encode cs (length_le_length_encode cs)

end Rollout.Json.Quoted
