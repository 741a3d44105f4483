-- SUMMARY: Finding the tokens of a text: indentation, keys that are known by their colon, and brackets.
import Rollout.Yaml.Token

/-!
# The tokens of a text

The lexer goes through a text once. A token in front of a key is put in only when the colon behind
the key is met, so the lexer remembers where a key may have started: one place for each level of
brackets. Such a key lies in one line and has at most 1024 characters.
-/
namespace Rollout.Yaml

/-- A place where a key may have started. -/
structure KeyStart where
  /-- The number of tokens before the key. -/
  token : Nat
  /-- A key has to stand here, because of the indentation. -/
  isRequired : Bool
  index : Nat
  line : Nat
  column : Nat
  deriving DecidableEq, Repr

/-- The lexer between two tokens. -/
structure Lexer where
  source : Source
  tokens : Array Token
  /-- The columns of the open block collections, the innermost first. -/
  columns : List Nat
  /-- For each level of brackets, the innermost first, the place where a key may have started. The
  last entry belongs to the level outside of all brackets. -/
  keys : List (Option KeyStart)
  /-- A key may start at this place. -/
  keyAllowed : Bool
  deriving Repr

namespace Lexer

/-- The lexer at the start of a text. -/
def start (s : String) : Lexer where
  source := Source.ofString s
  tokens := #[]
  columns := []
  keys := [none]
  keyAllowed := true

/-- Some bracket is open. -/
def inFlow (l : Lexer) : Bool := l.keys.length > 1

def push (token : Token) (l : Lexer) : Lexer := { l with tokens := l.tokens.push token }

/-- Add a token of a number of characters. -/
def pushMark (token : Token) (length : Nat) (l : Lexer) : Lexer :=
  { l.push token with source := l.source.skip length }

/-- Allow or forbid that a key starts at this place. -/
def allowKey (allowed : Bool) (l : Lexer) : Lexer := { l with keyAllowed := allowed }

/-! ## Indentation -/

/-- Open a block collection in a column that is further right than those of all open ones. Its
token goes to the given position. -/
def openBlock (column position : Nat) (token : Token) (l : Lexer) : Lexer :=
  if l.inFlow || !(l.columns.head?.all (· < column)) then l
  else { l with
    columns := column :: l.columns
    tokens := l.tokens.insertIdxIfInBounds position token }

/-- Close the block collections whose columns satisfy a test, the innermost first. -/
def closeBlocks (test : Nat → Bool) (l : Lexer) : Lexer :=
  if l.inFlow then l
  else
    let closed := l.columns.takeWhile test
    { l with
      columns := l.columns.drop closed.length
      tokens := closed.foldl (fun tokens _ => tokens.push .blockClose) l.tokens }

/-! ## Keys -/

/-- Forget the place where a key may have started. A key that has to stand there is missing. -/
def dropKey? (l : Lexer) : Option Lexer :=
  match l.keys with
  | some key :: keys => if key.isRequired then none else some { l with keys := none :: keys }
  | _ => some l

/-- Remember this place as one where a key may start, if it may. -/
def markKey? (l : Lexer) : Option Lexer :=
  if !l.keyAllowed then some l
  else do
    let l ← l.dropKey?
    let s := l.source
    let key : KeyStart := {
      token := l.tokens.size
      isRequired := !l.inFlow && l.columns.head? = some s.column
      index := s.index
      line := s.line
      column := s.column }
    return { l with keys := some key :: l.keys.drop 1 }

/-- A key that started there cannot end here any more. -/
def isStale (key : KeyStart) (s : Source) : Bool := key.line < s.line || key.index + 1024 < s.index

/-- Forget the places that are too far back for a key. -/
def dropStaleKeys? (l : Lexer) : Option Lexer := do
  let keys ← l.keys.mapM fun
    | some key =>
      if !isStale key l.source then some (some key) else if key.isRequired then none else some none
    | none => some none
  return { l with keys := keys }

/-! ## Marks -/

/-- Go on to the next token: over blanks, comments and line breaks. Where a key may start, tabs are
no blanks. A byte order mark may start a line. The bound counts characters. -/
def skipGap : Nat → Lexer → Lexer
  | 0, l => l
  | n + 1, l =>
    let s := if l.source.column = 0 && l.source.isAtChar '\uFEFF' then l.source.skip 1 else l.source
    let tabs := l.inFlow || !l.keyAllowed
    let s := s.skipWhile fun c => c = ' ' || (tabs && c = '\t')
    let s := if s.isAtChar '#' then s.skipLine else s
    if s.isAt isBreak then
      skipGap n { l with source := s.nextLine, keyAllowed := l.keyAllowed || !l.inFlow }
    else { l with source := s }

/-- A mark outside of all collections, which ends the document before it. -/
def endDocument? (l : Lexer) : Option Lexer := do
  return ((← (l.closeBlocks fun _ => true).dropKey?).allowKey false)

def openBracket? (token : Token) (l : Lexer) : Option Lexer := do
  let l ← l.markKey?
  return { (l.pushMark token 1).allowKey true with keys := none :: l.keys }

def closeBracket? (token : Token) (l : Lexer) : Option Lexer := do
  let l ← l.dropKey?
  return { (l.pushMark token 1).allowKey false with
    keys := if l.inFlow then l.keys.drop 1 else l.keys }

/-- The dash before an item. Inside of brackets the reader of nodes refuses it. -/
def dash? (l : Lexer) : Option Lexer := do
  if !l.inFlow && !l.keyAllowed then none
  let l := l.openBlock l.source.column l.tokens.size .blockListOpen
  return ((← l.dropKey?).allowKey true).pushMark .dash 1

def questionMark? (l : Lexer) : Option Lexer := do
  if !l.inFlow && !l.keyAllowed then none
  let l := l.openBlock l.source.column l.tokens.size .blockRecordOpen
  return ((← l.dropKey?).allowKey (!l.inFlow)).pushMark .key 1

/-- The colon behind a key. If a key may have started before, it did. -/
def colon? (l : Lexer) : Option Lexer :=
  match l.keys with
  | some key :: keys =>
    let l := { l with tokens := l.tokens.insertIdxIfInBounds key.token .key, keys := none :: keys }
    some (((l.openBlock key.column key.token .blockRecordOpen).allowKey false).pushMark .value 1)
  | _ =>
    if !l.inFlow && !l.keyAllowed then none
    else
      let l := l.openBlock l.source.column l.tokens.size .blockRecordOpen
      some ((l.allowKey (!l.inFlow)).pushMark .value 1)

/-- A token that may start a key and that a reader finds at this place. -/
def content? (read : Source → Option (Token × Source)) (l : Lexer) : Option Lexer := do
  let l := (← l.markKey?).allowKey false
  let (token, s) ← read l.source
  return { l.push token with source := s }

/-- A text without quotes. A key may start behind it if it ends with a line break. -/
def plain? (l : Lexer) : Option Lexer := do
  let l ← l.markKey?
  let margin := (l.columns.head?.map (· + 1)).getD 0
  let s := l.source
  let (text, broken, s) ← readPlain? l.inFlow margin (s.rest.length + 1) [] Gap.none s
  return { (l.push (.scalar .plain (String.ofList text))).allowKey broken with source := s }

/-- A block of lines. -/
def block? (style : Style) (l : Lexer) : Option Lexer := do
  let l := (← l.dropKey?).allowKey true
  let (text, s) ← readBlock? style l.columns.head? (l.source.skip 1)
  return { l.push (.scalar style (String.ofList text)) with source := s }

/-- The reader of a quoted text. -/
def quoted? (quote : Char) (style : Style) (s : Source) : Option (Token × Source) := do
  let (text, s) ← readQuoted? quote (s.rest.length + 1) [] (s.skip 1)
  return (.scalar style (String.ofList text), s)

/-- The marks that start no plain text. -/
def isIndicator (c : Char) : Bool :=
  ['-', '?', ':', ',', '[', ']', '\x7b', '\x7d', '#', '&', '*', '!', '|', '>', '\'', '"', '%', '@',
   '\x60'].contains c

/-- The token at this place, which starts with `c` before `rest`. -/
def token? (c : Char) (rest : List Char) (l : Lexer) : Option Lexer :=
  let s := l.source
  if s.column = 0 && c = '%' then do
    let l ← l.endDocument?
    let (token, s) ← readDirective? s
    return { l.push token with source := s }
  else if s.isAtMarker '-' then (l.endDocument?).map (pushMark .documentStart 3)
  else if s.isAtMarker '.' then (l.endDocument?).map (pushMark .documentEnd 3)
  else match c with
    | '[' => l.openBracket? .listOpen
    | '\x7b' => l.openBracket? .recordOpen
    | ']' => l.closeBracket? .listClose
    | '\x7d' => l.closeBracket? .recordClose
    | ',' => do return ((← l.dropKey?).allowKey true).pushMark .separator 1
    | '*' => l.content? fun s => (readName? (s.skip 1)).map fun (name, s) => (.alias name, s)
    | '&' => l.content? fun s => (readName? (s.skip 1)).map fun (name, s) => (.anchor name, s)
    | '!' => l.content? (readTag? l.inFlow)
    | '\'' => l.content? (quoted? '\'' .single)
    | '"' => l.content? (quoted? '"' .double)
    | _ =>
      if c = '-' && atGap rest then l.dash?
      else if c = '?' && (l.inFlow || atGap rest) then l.questionMark?
      else if c = ':' && (l.inFlow || atGap rest) then l.colon?
      else if c = '|' && !l.inFlow then l.block? .literal
      else if c = '>' && !l.inFlow then l.block? .folded
      else if !(isBlankOrBreak c || isIndicator c) || c = '-'
          || (!l.inFlow && (c = '?' || c = ':')) then
        l.plain?
      else none

/-- Go through the rest of a text. Each round takes at least one character. -/
def run? : Nat → Lexer → Option (List Token)
  | 0, _ => none
  | n + 1, l => do
    let l := skipGap (l.source.rest.length + 1) l
    let l ← l.dropStaleKeys?
    match l.source.rest with
    | [] => return (← l.endDocument?).tokens.toList
    | c :: rest =>
      let l := l.closeBlocks (· > l.source.column)
      run? n (← l.token? c rest)

end Lexer

/-- The tokens of a text, if every character of it is allowed and the marks are in order. -/
def Token.ofText? (s : String) : Option (List Token) :=
  if s.toList.all isReadable then Lexer.run? (s.length + 1) (Lexer.start s) else none

end Rollout.Yaml
