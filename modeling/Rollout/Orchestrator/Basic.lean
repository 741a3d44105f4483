-- SUMMARY: Orchestrators: runs with their drivers, an engine, metrics and notices.
import Rollout.Engine.Move
import Rollout.Metrics.Basic
import Rollout.Run.Transition
import Rollout.Resource

/-!
# Orchestrators

Every run has a driver, which alone changes the run and publishes a snapshot of it after each input.
Its inputs are the events of the run's executor and the commands of clients. Readers see snapshots
only. The run, its executor and its supervisors have one position in their lists.
-/
namespace Rollout

/-- A command to a run. -/
inductive Control where
  | retry
  | suspend
  | resume
  | abort (reason : String)
  deriving DecidableEq, Repr

namespace Control

def name : Control → String
  | retry => "retry"
  | suspend => "suspend"
  | resume => "resume"
  | abort _ => "abort"

/-- What a command does to a run. -/
def apply (now : Timestamp) (r : Run) : Control → Run.Reply Unit
  | retry => let (r, answer) := r.retry now; (r, answer.map fun _ => ())
  | suspend => r.suspend now
  | resume => r.resume now
  | abort reason => r.abort now reason

/-- The fault of a command that finds the driver of an archived run gone. -/
def gone (control : Control) (snapshot : Run) : Fault :=
  .invalidTransition control.name snapshot.state.name

end Control

/-- A command that waits for the driver. Clients are told apart by numbers. -/
structure Ticket where
  client : Nat
  control : Control
  deriving DecidableEq, Repr

structure Driver where
  run : Run
  /-- What readers see. -/
  snapshot : Run
  /-- The commands that wait. -/
  tickets : List Ticket
  hasBegun : Bool
  /-- The run is archived and takes no more input. -/
  isOver : Bool
  deriving DecidableEq, Repr

structure Answer where
  client : Nat
  result : Except Fault Run

structure Orchestrator where
  settings : EngineSettings
  engine : Engine
  drivers : List Driver
  metrics : Metrics
  /-- The notices of runs that are announced, the oldest first. -/
  notices : List Notice
  /-- How many commands were given to drivers. -/
  clients : Nat
  /-- The answers to commands, the latest first. -/
  answers : List Answer
  /-- Nobody gives commands any more. -/
  isDropped : Bool

namespace Orchestrator

def start (settings : EngineSettings) (wall : Timestamp) : Orchestrator :=
  ⟨settings, .empty wall, [], .empty, [], 0, [], false⟩

/-- The time of the calendar. -/
def wall (o : Orchestrator) : Timestamp := o.engine.wall

def modifyDriver (i : Nat) (f : Driver → Driver) (o : Orchestrator) : Orchestrator :=
  { o with drivers := o.drivers.modify i f }

/-- A client of the engine makes a request. -/
def serve (request : Request) (o : Orchestrator) : Orchestrator :=
  { o with engine := o.engine.serve request }

def setRun (i : Nat) (r : Run) (o : Orchestrator) : Orchestrator :=
  o.modifyDriver i fun d => { d with run := r }

def reply (client : Nat) (result : Except Fault Run) (o : Orchestrator) : Orchestrator :=
  { o with answers := ⟨client, result⟩ :: o.answers }

/-! ## Reading -/

def find? (o : Orchestrator) (id : RunId) : Option (Nat × Driver) :=
  (o.drivers.zipIdx.map fun (d, i) => (i, d)).find? fun (_, d) => d.snapshot.id = id

def find (o : Orchestrator) (id : RunId) : Except Fault (Nat × Driver) :=
  match o.find? id with
  | some found => .ok found
  | none => .error (.runNotFound id.render)

def getRun (o : Orchestrator) (id : RunId) : Except Fault Run := do
  return (← o.find id).2.snapshot

/-- The snapshots that a filter takes, the oldest run first. -/
def listRuns (o : Orchestrator) (filter : HistoryFilter) : List Run :=
  let runs := (o.drivers.map Driver.snapshot).filter fun r => filter.accepts r.policy r.state
  runs.mergeSort fun a b => 0 ≤ Timestamp.nanosBetween a.createdAt b.createdAt

/-- The snapshot of a run that satisfies a predicate, `none` if a later one may. A run whose driver
is over stays as it is. -/
def awaited? (o : Orchestrator) (id : RunId) (p : Run → Bool) : Except Fault (Option Run) := do
  let (_, d) ← o.find id
  if p d.snapshot then return some d.snapshot
  else if d.isOver then throw (.fatal s!"run {id.render} stopped before reaching the awaited state")
  else return none

/-! ## Creating runs -/

/-- The forward run that a downgrade of a topology may reverse. -/
def checkReference (o : Orchestrator) (id : RunId) (t : Topology) : Except Fault Unit :=
  let refuse (reason : String) : Except Fault Unit := .error (.incompatibleDirective reason)
  match o.find? id with
  | none => refuse s!"downgrade references unknown run {id.render}"
  | some (_, d) =>
    let forward := d.snapshot
    if forward.policy.isDowngrade then
      refuse s!"run {id.render} is a downgrade and cannot be reversed"
    else if !forward.state.isTerminal then refuse s!"run {id.render} is still {forward.state.name}"
    else if forward.plan.topology ≠ t.name then
      refuse s!"run {id.render} targeted topology {forward.plan.topology}, not {t.name}"
    else .ok ()

/-- The policy and the plan of a request for a run, if the request is valid. -/
def prepare (o : Orchestrator) (t : Topology) (directives : Directives) (reference : Option RunId) :
    Except Fault (Policy × Plan) := do
  let policy ← directives.policy reference
  if let some id := policy.direction.reverses? then
    o.checkReference id t
  let plan ← Plan.build t policy
  return (policy, plan)

/-- Add a run with its driver, executor and supervisors. -/
def addRun (r : Run) (o : Orchestrator) : Orchestrator :=
  let registry := o.engine.registries.length
  let o := (o.serve (.openRegistry o.settings.probe)).serve
    (.openExecutor o.settings.dispatch registry)
  { o with
    drivers := o.drivers ++ [⟨r, r, [], false, false⟩]
    metrics := o.metrics.recordCreated r.id r.labels o.wall }

/-- Create a run with the given identifier, which no other run has. A request that is refused leaves
no trace. -/
def createRun (id : RunId) (t : Topology) (directives : Directives) (reference : Option RunId)
    (o : Orchestrator) : Orchestrator × Except Fault RunId :=
  match o.prepare t directives reference with
  | .error fault => (o, .error fault)
  | .ok (policy, plan) => (o.addRun (Run.create id plan policy o.wall), .ok id)

/-- Give a command to the driver of a run. The answer is the number of the client, or the fault of
a command that no driver takes. -/
def submit (id : RunId) (control : Control) (o : Orchestrator) : Orchestrator × Except Fault Nat :=
  match o.find id with
  | .error fault => (o, .error fault)
  | .ok (i, d) =>
    if d.isOver then (o, .error (control.gone d.snapshot))
    else
      let ticket : Ticket := ⟨o.clients, control⟩
      let o := { o with clients := o.clients + 1 }
      (o.modifyDriver i fun d => { d with tickets := d.tickets ++ [ticket] }, .ok ticket.client)

/-- Give no more commands. -/
def drop (o : Orchestrator) : Orchestrator := { o with isDropped := true }

end Orchestrator

end Rollout
