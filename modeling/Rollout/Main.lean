-- SUMMARY: The command line of the program.
import Rollout.Program
import Std.Time.DateTime.Timestamp

/-!
# Command line

Reads variables, the clock and the topology, runs the program, and prints what it prints. There is
no connection to agents, so every request to one fails.
-/
namespace Rollout

def readClock : IO Timestamp := do
  let t ← Std.Time.Timestamp.now
  return (Timestamp.ofNanos? t.toNanosecondsSinceUnixEpoch.val).getD .epoch

def newRunId : IO RunId := do
  let bytes ← IO.getRandomBytes 16
  return RunId.ofRandom (bytes.toList.foldl (fun n b => 256 * n + b.toNat) 0)

def readFile (path : String) : IO Topology.FileContent := do
  try
    return .ok (← IO.FS.readBinFile path)
  catch
    | .noFileOrDirectory .. => return .error "No such file or directory (os error 2)"
    | .permissionDenied .. => return .error "Permission denied (os error 13)"
    | e => return .error (toString e)

def readVariables (names : List String) : IO (List (String × String)) :=
  names.filterMapM fun name => do return (← IO.getEnv name).map (name, ·)

/-- What the program meets outside when it gets these arguments. -/
def readWorld (args : List String) : IO World := do
  let values ← readVariables Config.variableNames
  let env (name : String) : Option String := values.lookup name
  let path := match Config.parse env args with
    | .ok c => c.command.file?
    | .error _ => none
  let content ← readFile (path.getD "")
  return {
    env := env
    logFilter := none
    file := fun _ => content
    wall := ← readClock
    upgradeId := ← newRunId
    downgradeId := ← newRunId
    pings := fun _ => .unsent
    commands := fun _ => .unsent
    interruptOn := none }

end Rollout

open Rollout in
/-- Run the program. A run that waits for the operator ends the program without success. -/
def main (args : List String) : IO UInt32 := do
  let outcome := Program.run (← readWorld args) args
  outcome.warnings.forM fun line => IO.eprintln line
  outcome.documents.forM fun document => IO.print document.render
  outcome.failure.forM fun line => IO.eprintln line
  return UInt32.ofNat (outcome.exit.getD 1)
