-- SUMMARY: Command lines: options and commands, how arguments are read, and why they are refused.

/-!
# Command lines

A command line names one command. Options stand before and behind it; those behind it win. An option
that takes a value is followed by it, or has it attached with an equals sign. What the arguments leave
open comes from the environment, and what that leaves open from the standard values.

An argument is looked at when the next option or the end comes, so of two faults the one that stops
the reading is named first.
-/
namespace Rollout.CommandLine

/-- Why a command line leads to no command. -/
inductive Refusal where
  /-- An explanation is asked for. -/
  | help
  | version
  /-- There are no arguments at all. -/
  | nothingGiven
  | missingCommand
  | unknownCommand
  | unknownArgument
  /-- A value that is missing, or not among the possible ones. -/
  | invalidValue
  /-- A text that is no number in range. -/
  | invalidNumber
  /-- An option occurs twice. -/
  | repeated
  /-- A value for an option that takes none. -/
  | unexpectedValue
  /-- An option without which the command cannot be carried out. -/
  | missingArgument
  deriving DecidableEq, Repr

inductive Value where
  | truth (value : Bool)
  | number (value : Nat)
  | text (value : String)
  deriving DecidableEq, Repr

/-- What values an option takes. -/
inductive ValueKind where
  | truth
  /-- A number below a bound. A minus sign in front of zero does not matter for a `signed` one. -/
  | number (bound : Nat) (signed : Bool)
  | text
  /-- The name of a file, which is not empty. -/
  | path
  | choice (names : List String)
  deriving DecidableEq, Repr

/-- The number that decimal digits write. -/
def digits? (cs : List Char) : Option Nat :=
  if !cs.isEmpty && cs.all Char.isDigit then
    some (cs.foldl (fun n c => 10 * n + (c.toNat - '0'.toNat)) 0)
  else none

/-- The number that a text writes, with or without a sign. -/
def number? (signed : Bool) (s : String) : Option Nat :=
  match s.toList with
  | '+' :: cs => digits? cs
  | '-' :: cs => if signed then (digits? cs).filter (· = 0) else none
  | cs => digits? cs

/-- The value that a text spells. -/
def ValueKind.read (s : String) : ValueKind → Except Refusal Value
  | truth =>
    if s = "true" then .ok (.truth true)
    else if s = "false" then .ok (.truth false)
    else .error .invalidValue
  | number bound signed => match number? signed s with
    | some n => if n < bound then .ok (.number n) else .error .invalidNumber
    | none => .error .invalidNumber
  | text => .ok (.text s)
  | path => if s.isEmpty then .error .invalidValue else .ok (.text s)
  | choice names => if names.contains s then .ok (.text s) else .error .invalidValue

/-- An option. One without a kind takes no value. -/
structure OptionSpec where
  name : String
  kind : Option ValueKind
  /-- The variable of the environment that gives a value. -/
  envVar : Option String
  standard : Option Value
  isRequired : Bool
  deriving DecidableEq, Repr

/-- A command with its own options. -/
structure CommandSpec where
  name : String
  options : List OptionSpec
  deriving DecidableEq, Repr

/-- A program with commands, and options that belong to all of them. -/
structure Grammar where
  options : List OptionSpec
  commands : List CommandSpec
  deriving DecidableEq, Repr

abbrev Values := List (String × Value)

/-- How far the arguments are read: the values so far, and the last option with its value once that
has come. -/
structure Reading where
  given : Values
  last : Option (OptionSpec × Option String)
  deriving DecidableEq, Repr

namespace Reading

/-- Nothing is read yet. -/
def start : Reading := ⟨[], none⟩

/-- The last option waits for its value. -/
def isExpecting (r : Reading) : Bool :=
  match r.last with
  | some (_, none) => true
  | _ => false

/-- An option has a value. -/
def give (r : Reading) (option : OptionSpec) (read : Except Refusal Value) :
    Except Refusal Reading := do
  if (r.given.lookup option.name).isSome then throw .repeated
  return { r with given := r.given ++ [(option.name, ← read)] }

/-- Look at the last option. -/
def close (r : Reading) : Except Refusal Reading :=
  match r.last with
  | none => .ok r
  | some (_, none) => .error .invalidValue
  | some (option, some s) => match option.kind with
    | some kind => { r with last := none }.give option (kind.read s)
    | none => .ok { r with last := none }

end Reading

/-- Which arguments are known where they are read. -/
structure Scope where
  options : List OptionSpec
  /-- The commands that may come; there are none behind a command. -/
  commands : List String
  deriving DecidableEq, Repr

namespace Scope

/-- Commands may come. -/
def isOuter (scope : Scope) : Bool := !scope.commands.isEmpty

/-- The refusal of an argument that belongs to nothing. -/
def stray (scope : Scope) : Refusal := if scope.isOuter then .unknownCommand else .unknownArgument

/-- The refusal of an argument behind two dashes. A command does not belong there. -/
def strayBehindDashes (scope : Scope) (arg : String) : Refusal :=
  if scope.commands.contains arg then .unknownArgument else scope.stray

/-- Read an option with a long name, and its value if that is attached. -/
def readLong (scope : Scope) (r : Reading) (name : String) (attached : Option String) :
    Except Refusal Reading :=
  let ask (refusal : Refusal) : Except Refusal Reading :=
    if attached.isSome then .error .unexpectedValue else r.close.bind fun _ => .error refusal
  match scope.options.find? fun o => o.name = name with
  | some option => match option.kind, attached with
    | none, some _ => .error .unexpectedValue
    | none, none => do (← r.close).give option (.ok (.truth true))
    | some kind, some s => do (← r.close).give option (kind.read s)
    | some _, none => do return { ← r.close with last := some (option, none) }
  | none =>
    if name = "help" then ask .help
    else if name = "version" && scope.isOuter then ask .version
    else .error .unknownArgument

/-- Read options with short names. Each of them asks for an explanation. -/
def readShort (scope : Scope) (r : Reading) (letters : List Char) : Except Refusal Reading :=
  match letters with
  | 'h' :: _ => r.close.bind fun _ => .error .help
  | 'V' :: _ =>
    if scope.isOuter then r.close.bind fun _ => .error .version else .error .unknownArgument
  | _ => .error .unknownArgument

/-- Read arguments up to a command, and give that command with the arguments behind it. -/
def read (scope : Scope) (r : Reading) :
    List String → Except Refusal (Reading × Option (String × List String))
  | [] => .ok (r, none)
  | arg :: args =>
    if !r.isExpecting && scope.commands.contains arg then .ok (r, some (arg, args))
    else match arg.toList with
      | ['-', '-'] => match args with
        | [] => .ok (r, none)
        | arg :: _ => .error (scope.strayBehindDashes arg)
      | '-' :: '-' :: body => do
        let (name, behind) := body.span (· ≠ '=')
        let attached := if behind.isEmpty then none else some (String.ofList (behind.drop 1))
        scope.read (← scope.readLong r (String.ofList name) attached) args
      | '-' :: letter :: letters => do scope.read (← scope.readShort r (letter :: letters)) args
      | _ => match r.last with
        | some (option, none) => scope.read { r with last := some (option, some arg) } args
        | _ => .error scope.stray

end Scope

/-- Read the values that the environment gives to options that have none yet. -/
def readEnvironment (env : String → Option String) (given : Values) :
    List OptionSpec → Except Refusal Values
  | [] => .ok []
  | option :: options => do
    let value : Option Value ← do
      match option.kind, option.envVar.bind env with
      | some kind, some s =>
        if (given.lookup option.name).isSome then pure none else some <$> kind.read s
      | _, _ => pure none
    let values ← readEnvironment env given options
    return (value.map (option.name, ·)).toList ++ values

/-- The refusal of a request for an explanation of commands. -/
def helpRefusal (commands : List String) : List String → Refusal
  | [] => .help
  | [topic] => if commands.contains topic then .help else .unknownCommand
  | _ => .unknownCommand

def standardValues (options : List OptionSpec) : Values :=
  options.filterMap fun o => o.standard.map (o.name, ·)

/-- An option that is required and has no value. -/
def isMissing (values : Values) (option : OptionSpec) : Bool :=
  option.isRequired && (values.lookup option.name).isNone

/-- The command that the arguments name, and its values. The first value of an option counts. -/
def parse (g : Grammar) (env : String → Option String) (args : List String) :
    Except Refusal (String × Values) := do
  let commands := g.commands.map CommandSpec.name ++ ["help"]
  let (outer, found) ← (Scope.mk g.options commands).read .start args
  match found with
  | none =>
    let outer ← outer.close
    let environment ← readEnvironment env outer.given g.options
    throw (if outer.given.isEmpty && environment.isEmpty then .nothingGiven else .missingCommand)
  | some (name, args) =>
    match g.commands.find? fun c => c.name = name with
    | none => throw (helpRefusal commands args)
    | some command =>
      let options := command.options ++ g.options
      let (inner, _) ← (Scope.mk options []).read .start args
      let inner ← inner.close
      let environment ← readEnvironment env inner.given options
      if options.any (isMissing (inner.given ++ environment)) then throw .missingArgument
      let outer ← outer.close
      let outerEnvironment ← readEnvironment env outer.given g.options
      return (name, inner.given ++ outer.given ++ environment ++ outerEnvironment
        ++ standardValues options)

end Rollout.CommandLine
