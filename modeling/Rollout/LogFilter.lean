-- SUMMARY: Log filters: which records of the log are shown, and the formats of the log.
import Rollout.Text.Blank

/-!
# Log filters

A filter is a list of rules between commas. A rule is a level, or a target with or without a level;
a rule about spans has brackets. Of the rules for a target the one with the longest target counts. A
filter without rules shows errors.
-/
namespace Rollout

/-- How much a rule lets pass. -/
inductive LogLevel where
  | off
  | error
  | warn
  | info
  | debug
  | trace
  deriving DecidableEq, Repr

namespace LogLevel

/-- Every level, in ascending order of what it lets pass. -/
def all : List LogLevel := [off, error, warn, info, debug, trace]

/-- The name of a level. -/
def name : LogLevel → String
  | off => "off"
  | error => "error"
  | warn => "warn"
  | info => "info"
  | debug => "debug"
  | trace => "trace"

/-- The position of a level. -/
def rank (level : LogLevel) : Nat := all.idxOf level

/-- The level that a text names: by its name in any case, or by its position. No text names
errors. -/
def parse? (s : String) : Option LogLevel :=
  if s.isEmpty then some error
  else
    let digits := if s.startsWith "+" then s.toList.drop 1 else s.toList
    if !digits.isEmpty && digits.all Char.isDigit then
      all[digits.foldl (fun n c => 10 * n + (c.toNat - '0'.toNat)) 0]?
    else all.find? fun level => level.name = Text.asciiLower s

end LogLevel

/-- A rule of a filter. -/
structure LogRule where
  /-- The beginning of the targets that the rule is about. -/
  target : String
  level : LogLevel
  /-- The rule is about what happens inside of spans only. -/
  inSpans : Bool
  deriving DecidableEq, Repr

namespace LogRule

/-- A target or a level alone. -/
def ofWord (s : String) : LogRule :=
  match LogLevel.parse? s with
  | some level => ⟨"", level, false⟩
  | none => ⟨s, .trace, false⟩

/-- What follows the brackets of a rule: nothing, or a level. -/
def levelBehind? : List Char → Option LogLevel
  | [] => some .trace
  | '=' :: cs => LogLevel.parse? (String.ofList cs)
  | _ => none

/-- The rule that a text spells. -/
def parse? (s : String) : Option LogRule :=
  let cs := (Text.trim s).toList
  match cs with
  | [] => none
  | first :: _ =>
    if !(first = '[' || first = '-' || first = ':' || first = '_' || first.isAlphanum
        || 128 ≤ first.toNat) then none
    else
      let (word, behind) := cs.span fun c => c ≠ '=' && c ≠ '['
      match behind with
      | [] => some (ofWord (String.ofList word))
      | '=' :: level => (LogLevel.parse? (String.ofList level)).map fun level =>
        ⟨String.ofList word, level, false⟩
      | _ :: cs => match cs.span (· ≠ ']') with
        | (_, _ :: cs) => (levelBehind? cs).map fun level => ⟨String.ofList word, level, true⟩
        | (_, []) => none

end LogRule

/-- A filter. -/
abbrev LogFilter := List LogRule

namespace LogFilter

/-- The filter that a text spells. -/
def parse? (s : String) : Option LogFilter :=
  ((s.splitOn ",").filter fun rule => !rule.isEmpty).mapM LogRule.parse?

/-- How much passes for a target outside of spans. A later rule replaces one for the same target. -/
def levelOf (filter : LogFilter) (target : String) : LogLevel :=
  if filter.isEmpty then .error
  else
    let rules := filter.filter fun rule => !rule.inSpans && rule.target.isPrefixOf target
    let better (best : Option LogRule) (rule : LogRule) : Option LogRule :=
      match best with
      | some old => if rule.target.length < old.target.length then best else some rule
      | none => some rule
    ((rules.foldl better none).map LogRule.level).getD .off

/-- Whether records of a level are shown for a target. -/
def shows (filter : LogFilter) (target : String) (level : LogLevel) : Bool :=
  level.rank ≤ (filter.levelOf target).rank

end LogFilter

/-! ## Formats -/

/-- The formats of the log. -/
inductive LogFormat where
  | json
  | pretty
  deriving DecidableEq, Repr

namespace LogFormat

/-- The format that a text names in any case, if there is one. -/
def parse? (s : String) : Option LogFormat :=
  match Text.asciiLower s with
  | "json" => some json
  | "pretty" | "compact" | "text" => some pretty
  | _ => none

/-- The warning about a text that names no format. -/
def warning (s : String) : String :=
  s!"WARN: Invalid log format '{s}', defaulting to 'json'. Valid options: json, pretty"

end LogFormat

end Rollout
