-- SUMMARY: The program: what it prints for its arguments, and how it ends.
import Rollout.Agent.Client
import Rollout.Apply
import Rollout.LogFilter
import Rollout.Rehearsal.Play
import Rollout.Resource.Schema
import Rollout.Topology.File
import Rollout.Yaml.Printer

/-!
# The program

The program reads its arguments, carries one command out, and ends with an exit code. What it meets
outside is a `World`: variables and files, what agents answer, and what the operator does. Documents
are printed; warnings and a failure go to the log.
-/
namespace Rollout

/-- What the program meets outside. -/
structure World where
  env : String → Option String
  /-- A filter for the log that counts instead of the level in the configuration, if it is one. -/
  logFilter : Option String
  file : String → Topology.FileContent
  wall : Timestamp
  /-- The identifiers of an upgrade and of the downgrade that reverses it. -/
  upgradeId : RunId
  downgradeId : RunId
  /-- What becomes of the pings of a host. -/
  pings : String → Http.Exchange
  /-- What becomes of the commands to a host. -/
  commands : String → Http.Exchange
  /-- The operator interrupts the program when the log holds this text. -/
  interruptOn : Option String

/-- What the program prints. -/
inductive Document where
  | help
  | version
  | plan (plan : Plan)
  | resource (resource : UpgradeResource)
  | schema

namespace Document

def render : Document → String
  | help =>
    "Rolling upgrade and downgrade orchestrator for multi-host service clusters\n\n"
      ++ "Usage: ruo [OPTIONS] <COMMAND>\n"
  | version => "ruo\n"
  | plan p => Yaml.render (toJson p)
  | resource r => Yaml.render (toJson r)
  | schema => Schema.resource.render ++ "\n"

end Document

/-- How the program ends. -/
structure Outcome where
  /-- There is no exit code when the program does not end by itself. -/
  exit : Option Nat
  documents : List Document
  warnings : List String
  /-- The message about a failure, if the log shows it. -/
  failure : Option String

namespace Program

/-- What the log says while the program waits for the operator, with the levels of the records. -/
def heldRecords : List (LogLevel × String) :=
  [(.warn, "Run is holding"), (.info, "Waiting for interrupt before aborting the held run")]

/-- The target of the program's records. -/
def logTarget : String := "ruo"

/-- Whether the operator interrupts the program while it waits for that. -/
def isInterrupted (w : World) (filter : LogFilter) : Bool :=
  match w.interruptOn with
  | none => false
  | some text => heldRecords.any fun (level, record) =>
    filter.shows logTarget level && 1 < (record.splitOn text).length

/-! ## Topologies and plans -/

/-- Why a command fails. -/
inductive Failure where
  | topology (path : String) (refusal : Topology.Refusal)
  | fault (fault : Fault)
  deriving DecidableEq, Repr

def Failure.message : Failure → String
  | .topology path refusal => s!"ruo failed: Failed to load topology {path}: {refusal.fault.message}"
  | .fault f => s!"ruo failed: {f.message}"

def loadTopology (w : World) (path : String) : Except Failure Topology :=
  (Topology.ofFile path (w.file path)).mapError (.topology path)

/-- The plan for the topology in a file. -/
def plan (w : World) (path : String) (isDowngrade skipServiceChecks : Bool) :
    Except Failure Plan := do
  let t ← loadTopology w path
  (Plan.expand t isDowngrade skipServiceChecks).mapError .fault

/-! ## Applying an upgrade -/

/-- What an agent does when its pings and commands fare as in the world. -/
def script (w : World) (c : Config) (host : String) : Script :=
  let endpoint : AgentEndpoint := ⟨c.agentScheme, c.agentPort⟩
  let call : Action := match endpoint.execute host (w.commands host) with
    | .ok () => .ok
    | .error fault => ⟨.refuse fault, 0⟩
  let ping : Action := match endpoint.ping host (w.pings host) with
    | .ok reply => ⟨.contact reply.contactedAt, 0⟩
    | .error _ => ⟨.miss, 0⟩
  ⟨[], call, [], ping⟩

/-- An application within a rehearsal. -/
structure Stage where
  rehearsal : Rehearsal
  application : Application

namespace Stage

/-- Carry the result of a step on. -/
def carry (s : Stage) : Orchestrator × Application → Stage
  | (o, a) => ⟨s.rehearsal.withOrchestrator o, a⟩

/-- The application goes on by itself, or the operator interrupts it. -/
def step? (interrupted : Bool) (s : Stage) : Option Stage :=
  let o := s.rehearsal.orchestrator
  match s.application.step? o with
  | some next => some (s.carry next)
  | none =>
    if interrupted && s.application.isHeld then (s.application.interrupt? o).map s.carry else none

/-- Let time pass until the application can go on. -/
def wait (interrupted : Bool) (s : Stage) : Stage :=
  let goesOn (r : Rehearsal) : Bool := (step? interrupted ⟨r, s.application⟩).isSome
  { s with rehearsal := s.rehearsal.playUntil (Nat.pow 10 30) goesOn }

/-- Play an application to its end, or until it waits for the operator in vain. -/
def play (interrupted : Bool) : Nat → Stage → Stage
  | 0, s => s
  | n + 1, s =>
    if (s.application.success?).isSome then s
    else
      let settled := { s with rehearsal := s.rehearsal.settle }
      match settled.step? interrupted with
      | some s => play interrupted n s
      | none => if s.application.isHeld then s else play interrupted n (settled.wait interrupted)

end Stage

/-- The number of steps after which an application is given up. -/
def stepLimit : Nat := 1000000

/-- Apply an upgrade, and give the application as far as it comes. -/
def applied (w : World) (filter : LogFilter) (c : Config) (options : ApplyOptions) (t : Topology) :
    Application :=
  let fleet : Fleet := t.hosts.map fun host => (host, script w c host)
  let r := Rehearsal.start c.engine w.wall fleet
  let (o, a) := Application.start options t w.upgradeId w.downgradeId r.orchestrator
  match a.phase with
  | .upgrade _ =>
    if c.engine.isStartable then
      (Stage.play (isInterrupted w filter) stepLimit ⟨r.withOrchestrator o, a⟩).application
    else a
  | _ => a

/-! ## Running -/

/-- The end of a command that fails. -/
def failed (filter : LogFilter) (f : Failure) : Outcome where
  exit := some 1
  documents := []
  warnings := []
  failure := if filter.shows logTarget .error then some f.message else none

/-- The end of an application. -/
def reported (filter : LogFilter) (a : Application) : Outcome :=
  let documents := (a.reports.filterMap UpgradeResource.ofRun?).map .resource
  match a.phase with
  | .failed fault => { failed filter (.fault fault) with documents := documents }
  | _ => ⟨a.success?.map fun success => if success then 0 else 1, documents, [], none⟩

def carryOut (w : World) (filter : LogFilter) (c : Config) : Outcome :=
  match c.command with
  | .schema => ⟨some 0, [.schema], [], none⟩
  | .plan path isDowngrade skipServiceChecks => match plan w path isDowngrade skipServiceChecks with
    | .ok p => ⟨some 0, [.plan p], [], none⟩
    | .error f => failed filter f
  | .apply options => match loadTopology w options.topology with
    | .ok t => reported filter (applied w filter c options t)
    | .error f => failed filter f

def logFilter? (w : World) (c : Config) : Option LogFilter :=
  (w.logFilter.bind LogFilter.parse?).or (LogFilter.parse? c.logLevel)

/-- The exit code and the document for a command line that leads to no command. -/
def refused : CommandLine.Refusal → Outcome
  | .help => ⟨some 0, [.help], [], none⟩
  | .version => ⟨some 0, [.version], [], none⟩
  | _ => ⟨some 2, [], [], none⟩

def run (w : World) (args : List String) : Outcome :=
  match Config.parse w.env args with
  | .error refusal => refused refusal
  | .ok c => match logFilter? w c with
    | none => ⟨some 1, [], [], none⟩
    | some filter =>
      let warnings :=
        if (LogFormat.parse? c.logFormat).isSome then [] else [LogFormat.warning c.logFormat]
      { carryOut w filter c with warnings := warnings }

end Program

end Rollout
