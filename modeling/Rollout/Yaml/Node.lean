-- SUMMARY: YAML documents as trees with anchors and aliases, built from tokens.
import Rollout.Yaml.Token.Lexer

/-!
# Documents

A document is a tree of scalars, lists and records. A part may be anchored under a name, and an
alias stands for an anchored part. `Node.ofTokens?` builds the tree of the only document of a text.
-/
namespace Rollout.Yaml

/-- A part of a document; `ν` is what anchors are known by. -/
inductive Node (ν : Type) where
  | scalar (anchor : Option ν) (tag : Option String) (style : Style) (text : String)
  | list (anchor : Option ν) (items : List (Node ν))
  | record (anchor : Option ν) (members : List (Node ν × Node ν))
  | alias (target : ν)
  deriving Repr

namespace Node

/-! ## Anchors and tags -/

/-- What the handles of tags stand for. -/
abbrev Handles := List (String × String)

/-- The handles that need no directive. -/
def standardHandles : Handles := [("!", "!"), ("!!", "tag:yaml.org,2002:")]

/-- The anchor and the tag in front of a part. -/
structure Properties where
  anchor : Option String
  tag : Option String
  deriving DecidableEq, Repr

/-- The tag that a handle and a suffix name. -/
def resolveTag? (handles : Handles) (handle suffix : String) : Option String :=
  if handle.isEmpty then some suffix else (handles.lookup handle).map (· ++ suffix)

/-- The anchor and the tag at the head of the tokens, in either order. -/
def properties? (handles : Handles) : List Token → Option (Properties × List Token)
  | .anchor name :: .tag handle suffix :: ts
  | .tag handle suffix :: .anchor name :: ts => do
    return (⟨some name, some (← resolveTag? handles handle suffix)⟩, ts)
  | .anchor name :: ts => some (⟨some name, none⟩, ts)
  | .tag handle suffix :: ts => do return (⟨none, some (← resolveTag? handles handle suffix)⟩, ts)
  | ts => some (⟨none, none⟩, ts)

/-- A scalar with its properties. An exclamation mark alone counts as no tag. -/
def ofScalar (p : Properties) (style : Style) (text : String) : Node String :=
  .scalar p.anchor (p.tag.filter (· ≠ "!")) style text

/-- The scalar where nothing is written. -/
def empty : Node String := .scalar none none .plain ""

/-! ## Trees -/

/-- Nothing is written before a token of the list, nor at the end of the text. -/
def isMissing (enders : List Token) (ts : List Token) : Bool :=
  ts.head?.all fun t => enders.contains t

/-- Read a part with `read`, unless nothing is written before the tokens of the list. -/
def orEmpty? (enders : List Token) (read : List Token → Option (Node String × List Token))
    (ts : List Token) : Option (Node String × List Token) :=
  if isMissing enders ts then some (empty, ts) else read ts

mutual

/-- A part of a document and the tokens behind it. Block collections are read where `block` is
set, and lists without a column of their own where `bare` is set. The bound counts steps. -/
def read? (handles : Handles) (block bare : Bool) :
    Nat → List Token → Option (Node String × List Token)
  | 0, _ => none
  | _ + 1, .alias name :: ts => some (.alias name, ts)
  | n + 1, ts => do
    let (p, ts) ← properties? handles ts
    match ts with
    | .scalar style text :: ts => return (ofScalar p style text, ts)
    | .listOpen :: ts =>
      let (items, ts) ← readFlowItems? handles true n ts
      return (.list p.anchor items, ts)
    | .recordOpen :: ts =>
      let (members, ts) ← readFlowMembers? handles true n ts
      return (.record p.anchor members, ts)
    | .dash :: _ =>
      if bare then
        let (items, ts) ← readBareItems? handles n ts
        return (.list p.anchor items, ts)
      else if p.anchor.isSome || p.tag.isSome then return (ofScalar p .plain "", ts)
      else none
    | .blockListOpen :: rest =>
      if block then
        let (items, ts) ← readBlockItems? handles n rest
        return (.list p.anchor items, ts)
      else if p.anchor.isSome || p.tag.isSome then return (ofScalar p .plain "", ts)
      else none
    | .blockRecordOpen :: rest =>
      if block then
        let (members, ts) ← readBlockMembers? handles n rest
        return (.record p.anchor members, ts)
      else if p.anchor.isSome || p.tag.isSome then return (ofScalar p .plain "", ts)
      else none
    | ts => if p.anchor.isSome || p.tag.isSome then return (ofScalar p .plain "", ts) else none

/-- The items of a block list, each behind a dash. -/
def readBlockItems? (handles : Handles) :
    Nat → List Token → Option (List (Node String) × List Token)
  | 0, _ => none
  | _ + 1, .blockClose :: ts => some ([], ts)
  | n + 1, .dash :: ts => do
    let (item, ts) ← orEmpty? [.dash, .blockClose] (read? handles true false n) ts
    let (items, ts) ← readBlockItems? handles n ts
    return (item :: items, ts)
  | _ + 1, _ => none

/-- The items of a list in the column of its key. -/
def readBareItems? (handles : Handles) :
    Nat → List Token → Option (List (Node String) × List Token)
  | 0, _ => none
  | n + 1, .dash :: ts => do
    let (item, ts) ← orEmpty? [.dash, .key, .value, .blockClose] (read? handles true false n) ts
    let (items, ts) ← readBareItems? handles n ts
    return (item :: items, ts)
  | _ + 1, ts => some ([], ts)

/-- The members of a block record. -/
def readBlockMembers? (handles : Handles) :
    Nat → List Token → Option (List (Node String × Node String) × List Token)
  | 0, _ => none
  | _ + 1, .blockClose :: ts => some ([], ts)
  | n + 1, .key :: ts => do
    let (key, ts) ← orEmpty? [.key, .value, .blockClose] (read? handles true true n) ts
    let (value, ts) ← match ts with
      | .value :: ts => orEmpty? [.key, .value, .blockClose] (read? handles true true n) ts
      | ts => some (empty, ts)
    let (members, ts) ← readBlockMembers? handles n ts
    return ((key, value) :: members, ts)
  | _ + 1, _ => none

/-- The items between brackets. An item may be a single pair. -/
def readFlowItems? (handles : Handles) (isFirst : Bool) :
    Nat → List Token → Option (List (Node String) × List Token)
  | 0, _ => none
  | _ + 1, .listClose :: ts => some ([], ts)
  | n + 1, ts => do
    let ts ← if isFirst then some ts else match ts with
      | .separator :: ts => some ts
      | _ => none
    match ts with
    | .listClose :: ts => return ([], ts)
    | .key :: ts =>
      let (pair, ts) ← readPair? handles n ts
      let (items, ts) ← readFlowItems? handles false n ts
      return (.record none [pair] :: items, ts)
    | ts =>
      let (item, ts) ← read? handles false false n ts
      let (items, ts) ← readFlowItems? handles false n ts
      return (item :: items, ts)

/-- A pair that is an item of a list. Where its key is missing, the token there is passed over. -/
def readPair? (handles : Handles) :
    Nat → List Token → Option ((Node String × Node String) × List Token)
  | 0, _ => none
  | n + 1, ts => do
    let (key, ts) ← if isMissing [.value, .separator, .listClose] ts then some (empty, ts.drop 1)
      else read? handles false false n ts
    let (value, ts) ← match ts with
      | .value :: ts => orEmpty? [.separator, .listClose] (read? handles false false n) ts
      | ts => some (empty, ts)
    return ((key, value), ts)

/-- The members between braces. A key may stand alone. -/
def readFlowMembers? (handles : Handles) (isFirst : Bool) :
    Nat → List Token → Option (List (Node String × Node String) × List Token)
  | 0, _ => none
  | _ + 1, .recordClose :: ts => some ([], ts)
  | n + 1, ts => do
    let ts ← if isFirst then some ts else match ts with
      | .separator :: ts => some ts
      | _ => none
    match ts with
    | .recordClose :: ts => return ([], ts)
    | .key :: ts =>
      let (key, ts) ← orEmpty? [.value, .separator, .recordClose] (read? handles false false n) ts
      let (value, ts) ← match ts with
        | .value :: ts => orEmpty? [.separator, .recordClose] (read? handles false false n) ts
        | ts => some (empty, ts)
      let (members, ts) ← readFlowMembers? handles false n ts
      return ((key, value) :: members, ts)
    | ts =>
      let (key, ts) ← read? handles false false n ts
      let (members, ts) ← readFlowMembers? handles false n ts
      return ((key, empty) :: members, ts)

end

/-! ## Documents -/

/-- The directives in front of a document: at most one version, 1.1 or 1.2, and handles that differ
from one another. -/
def directives? (hasVersion : Bool) (handles : Handles) :
    List Token → Option (Handles × List Token)
  | .version major minor :: ts =>
    if hasVersion || major ≠ 1 || (minor ≠ 1 && minor ≠ 2) then none
    else directives? true handles ts
  | .tagHandle handle stem :: ts =>
    if (handles.lookup handle).isSome then none
    else directives? hasVersion (handles ++ [(handle, stem)]) ts
  | ts => some (handles, ts)

/-- The content of the only document. A document without a start line has no directives. -/
def readDocument? (bound : Nat) (ts : List Token) : Option (Node String × List Token) :=
  match ts with
  | [] => none
  | .version .. :: _ | .tagHandle .. :: _ | .documentStart :: _ => do
    let (handles, ts) ← directives? false [] ts
    match ts with
    | .documentStart :: ts =>
      orEmpty? [.documentEnd] (read? (handles ++ standardHandles) true false bound) ts
    | _ => none
  | ts => read? standardHandles true false bound ts

/-- The tree of the only document. Each part takes at most four steps for a token. -/
def ofTokens? (ts : List Token) : Option (Node String) := do
  let (node, ts) ← readDocument? (4 * ts.length + 8) ts
  if (ts.dropWhile (· = .documentEnd)).isEmpty then return node else none

end Node

end Rollout.Yaml
