-- SUMMARY: Reading the scalars of YAML: plain, quoted and block texts.
import Rollout.Json.Quoted
import Rollout.Yaml.Source

/-!
# Scalars

A scalar is a text in one of five styles. Inside plain and quoted texts a gap of blanks and line
breaks is folded: one line break becomes a space, more of them lose the first. Block texts keep
their lines, or fold them as well.
-/
namespace Rollout.Yaml

/-- How a text was written. -/
inductive Style where
  | plain
  | single
  | double
  | literal
  | folded
  deriving DecidableEq, Repr

/-! ## Gaps -/

/-- A gap in a text: its blanks if it lies in one line, its first break and the other breaks if it
does not. -/
structure Gap where
  blanks : List Char
  firstBreak : List Char
  breaks : List Char
  isBroken : Bool
  deriving DecidableEq, Repr

namespace Gap

/-- No gap. -/
def none : Gap := ⟨[], [], [], false⟩

/-- The gap behind a line break that is escaped. -/
def escaped : Gap := ⟨[], [], [], true⟩

/-- What a gap stands for. -/
def text (g : Gap) : List Char :=
  if !g.isBroken then g.blanks
  else if g.firstBreak = ['\n'] then (if g.breaks.isEmpty then [' '] else g.breaks)
  else g.firstBreak ++ g.breaks

/-- Read on in a gap. In the columns below `margin` of a further line there must be no tab. The
bound counts characters. -/
def read? (margin : Nat) : Nat → Gap → Source → Option (Gap × Source)
  | 0, g, s => some (g, s)
  | n + 1, g, s => match s.rest with
    | [] => some (g, s)
    | c :: _ =>
      if isBlank c then
        if g.isBroken && s.column < margin && c = '\t' then Option.none
        else
          let g := if g.isBroken then g else { g with blanks := g.blanks ++ [c] }
          read? margin n g (s.skip 1)
      else if isBreak c then
        let g := if g.isBroken then { g with breaks := g.breaks ++ s.breakText }
          else { g with blanks := [], firstBreak := s.breakText, isBroken := true }
        read? margin n g s.nextLine
      else some (g, s)

end Gap

/-! ## Plain texts -/

/-- The characters that end a plain text inside of brackets. -/
def isFlowMark (c : Char) : Bool := [',', '[', ']', '\x7b', '\x7d'].contains c

/-- The characters in front that belong to a plain text, up to the next gap. Inside of brackets a
colon must not stand right before a mark. -/
def plainChunk? (inFlow : Bool) : List Char → Option (List Char)
  | [] => some []
  | c :: rest =>
    if isBlankOrBreak c then some []
    else if inFlow && c = ':' && rest.head?.any (fun d => d = '?' || isFlowMark d) then none
    else if (c = ':' && atGap rest) || (inFlow && isFlowMark c) then some []
    else (plainChunk? inFlow rest).map (c :: ·)

/-- Read on in a plain text whose further lines are indented by `margin`. The gap is the one right
before this place. The result tells whether the text ends behind a line break. -/
def readPlain? (inFlow : Bool) (margin : Nat) :
    Nat → List Char → Gap → Source → Option (List Char × Bool × Source)
  | 0, _, _, _ => none
  | n + 1, text, gap, s =>
    if s.isAtAnyMarker || s.isAtChar '#' then some (text, gap.isBroken, s)
    else do
      let chunk ← plainChunk? inFlow s.rest
      let s := s.skip chunk.length
      let (text, gap) :=
        if chunk.isEmpty then (text, gap) else (text ++ gap.text ++ chunk, Gap.none)
      if !s.isAt isBlankOrBreak then return (text, gap.isBroken, s)
      let (gap, s) ← Gap.read? margin s.rest.length gap s
      if !inFlow && s.column < margin then return (text, gap.isBroken, s)
      readPlain? inFlow margin n text gap s

/-! ## Quoted texts -/

/-- The characters that the one-letter escapes stand for. -/
def escapes : List (Char × Nat) :=
  [('0', 0x00), ('a', 0x07), ('b', 0x08), ('t', 0x09), ('\t', 0x09), ('n', 0x0A), ('v', 0x0B),
   ('f', 0x0C), ('r', 0x0D), ('e', 0x1B), (' ', 0x20), ('"', 0x22), ('/', 0x2F), ('\\', 0x5C),
   ('N', 0x85), ('_', 0xA0), ('L', 0x2028), ('P', 0x2029)]

/-- The number of hexadecimal digits behind a letter. -/
def escapeWidths : List (Char × Nat) := [('x', 2), ('u', 4), ('U', 8)]

/-- The number that hexadecimal digits write. -/
def hexNumber? (cs : List Char) : Option Nat :=
  cs.foldlM (fun n c => do return n * 16 + (← Json.Quoted.hexValue? c)) 0

/-- The character that an escape stands for, and the length of the escape, from the character
behind the backslash on. -/
def escape? : List Char → Option (Char × Nat)
  | [] => none
  | c :: rest => match escapes.lookup c with
    | some n => some (Char.ofNat n, 1)
    | none => do
      let width ← escapeWidths.lookup c
      let digits := rest.take width
      if digits.length < width then none
      let n ← hexNumber? digits
      if n.isValidChar then return (Char.ofNat n, 1 + width) else none

/-- The characters of a quoted text up to the next gap or the closing quote. The result tells
whether a line break that is escaped ended them. The bound counts characters. -/
def readChunk? (quote : Char) : Nat → Source → Option (List Char × Bool × Source)
  | 0, s => some ([], false, s)
  | n + 1, s => match s.rest with
    | [] => some ([], false, s)
    | c :: rest =>
      if isBlankOrBreak c then some ([], false, s)
      else if c = quote then
        if quote = '\'' && rest.head? = some '\'' then do
          let (chunk, escaped, s) ← readChunk? quote n (s.skip 2)
          return ('\'' :: chunk, escaped, s)
        else some ([], false, s)
      else if quote = '"' && c = '\\' then
        if rest.head?.any isBreak then some ([], true, (s.skip 1).nextLine)
        else do
          let (d, width) ← escape? rest
          let (chunk, escaped, s) ← readChunk? quote n (s.skip (1 + width))
          return (d :: chunk, escaped, s)
      else do
        let (chunk, escaped, s) ← readChunk? quote n (s.skip 1)
        return (c :: chunk, escaped, s)

/-- Read on in a quoted text, up to the place behind its closing quote. -/
def readQuoted? (quote : Char) : Nat → List Char → Source → Option (List Char × Source)
  | 0, _, _ => none
  | n + 1, text, s =>
    if s.isAtAnyMarker || s.rest.isEmpty then none
    else do
      let (chunk, escaped, s) ← readChunk? quote s.rest.length s
      let text := text ++ chunk
      if s.isAtChar quote then return (text, s.skip 1)
      let (gap, s) ← Gap.read? 0 s.rest.length (if escaped then Gap.escaped else Gap.none) s
      readQuoted? quote n (text ++ gap.text) s

/-! ## Block texts -/

/-- What becomes of the line breaks at the end of a block. -/
inductive Chomping where
  | strip
  | clip
  | keep
  deriving DecidableEq, Repr

/-- The head of a block: its chomping, and by how much it is indented if that is given. -/
def blockHead? (s : Source) : Option (Chomping × Option Nat × Source) :=
  let chomping? (s : Source) : Option Chomping :=
    if s.isAtChar '+' then some .keep else if s.isAtChar '-' then some .strip else none
  let digit? (s : Source) : Option Nat :=
    s.rest.head?.bind fun c => if c.isDigit then some (c.toNat - 48) else none
  let (chomping, digit, s) := match chomping? s with
    | some chomping =>
      let s := s.skip 1
      let digit := digit? s
      (chomping, digit, if digit.isSome then s.skip 1 else s)
    | none => match digit? s with
      | some digit =>
        let s := s.skip 1
        match chomping? s with
        | some chomping => (chomping, some digit, s.skip 1)
        | none => (.clip, some digit, s)
      | none => (.clip, none, s)
  if digit = some 0 then none
  else
    let s := s.skipWhile isBlank
    let s := if s.isAtChar '#' then s.skipLine else s
    if s.rest.isEmpty || s.isAt isBreak then some (chomping, digit, s.nextLine) else none

/-- The empty lines at this place: their breaks, the widest indentation among them and the line
behind them, and that line. Up to column `limit`, if it is given, spaces belong to the indentation;
a tab there is refused. -/
def blockGap? (limit : Option Nat) :
    Nat → List Char → Nat → Source → Option (List Char × Nat × Source)
  | 0, breaks, widest, s => some (breaks, widest, s)
  | n + 1, breaks, widest, s =>
    let spaces := (s.rest.takeWhile (· = ' ')).length
    let s := s.skip (match limit with
      | none => spaces
      | some limit => min spaces (limit - s.column))
    let widest := max widest s.column
    if (limit.all fun limit => s.column < limit) && s.isAtChar '\t' then none
    else if s.isAt isBreak then blockGap? limit n (breaks ++ s.breakText) widest s.nextLine
    else some (breaks, widest, s)

/-- The lines of a block that is indented by `margin`. `pending` is the break behind the line
before, `breaks` are those of the empty lines after it, and `wasBlank` tells that the line before
starts with a blank; such lines are not folded. -/
def blockLines? (style : Style) (margin : Nat) :
    Nat → List Char → List Char → List Char → Bool → Source →
    Option (List Char × List Char × List Char × Source)
  | 0, _, _, _, _, _ => none
  | n + 1, text, pending, breaks, wasBlank, s =>
    if s.column ≠ margin || s.rest.isEmpty then some (text, pending, breaks, s)
    else do
      let isBlankLine := s.isAt isBlank
      let fold := style = .folded && pending.head? = some '\n' && !wasBlank && !isBlankLine
      let joint := if fold then (if breaks.isEmpty then [' '] else []) else pending
      let line := s.rest.takeWhile fun c => !isBreak c
      let s := s.skip line.length
      let pending := s.breakText
      let s := s.nextLine
      let text := text ++ joint ++ breaks ++ line
      let (breaks, _, s) ← blockGap? (some margin) s.rest.length [] 0 s
      blockLines? style margin n text pending breaks isBlankLine s

/-- Read a block from the place behind its mark. `parent` is the column of the collection around
it, if there is one. -/
def readBlock? (style : Style) (parent : Option Nat) (s : Source) :
    Option (List Char × Source) := do
  let (chomping, digit, s) ← blockHead? s
  let least := max 1 ((parent.map (· + 1)).getD 0)
  let given := digit.map (parent.getD 0 + ·)
  let (breaks, widest, s) ← blockGap? given (s.rest.length + 1) [] 0 s
  let margin := given.getD (max widest least)
  let (text, pending, breaks, s) ← blockLines? style margin (s.rest.length + 1) [] [] breaks false s
  let tail := match chomping with
    | .strip => []
    | .clip => pending
    | .keep => pending ++ breaks
  return (text ++ tail, s)

end Rollout.Yaml
