-- SUMMARY: Applying an upgrade: an attendant follows each run to its end and answers when it holds.
import Rollout.Config
import Rollout.Orchestrator.Move

/-!
# Applying an upgrade

An upgrade is applied by a run that an attendant follows to its end. When the run holds, the
attendant waits for the operator, retries the run, or aborts it, as the options say; it retries a run
only so many times. If the upgrade was aborted, a downgrade that reverses it may follow, with an
attendant of its own. The upgrade alone decides whether applying it succeeds.
-/
namespace Rollout

/-- What an attendant is doing. -/
inductive Watch where
  /-- It waits until the run holds or is archived. -/
  | watching
  /-- It waits for the operator, since the run holds at a stage. -/
  | held (stage : String)
  /-- It waits for the answer to a command. -/
  | asked (control : Control) (client : Nat)
  /-- The run is archived. -/
  | over (run : Run)
  /-- It gives up. -/
  | failed (fault : Fault)
  deriving DecidableEq, Repr

/-- One who follows a run. -/
structure Attendant where
  run : RunId
  /-- How often the run was retried. -/
  retries : UInt32
  watch : Watch
  deriving DecidableEq, Repr

namespace Attendant

/-- An attendant at the start of a run. -/
def start (run : RunId) : Attendant := ⟨run, 0, .watching⟩

/-- What follows the answer to a command. An abort that comes too late does not matter. -/
def afterAnswer (control : Control) : Except Fault Run → Watch
  | .ok _ => .watching
  | .error fault => match control, fault with
    | .abort _, .invalidTransition .. => .watching
    | _, fault => .failed fault

def command (control : Control) (o : Orchestrator) (a : Attendant) : Orchestrator × Attendant :=
  let (o, result) := o.submit a.run control
  match result with
  | .ok client => (o, { a with watch := .asked control client })
  | .error fault => (o, { a with watch := afterAnswer control (.error fault) })

/-- The reason for which a run is aborted that holds at a stage. -/
def holdReason (stage : String) : String := s!"held at {stage}"

/-- React to a run that holds. -/
def onHold (options : ApplyOptions) (r : Run) (o : Orchestrator) (a : Attendant) :
    Orchestrator × Attendant :=
  let stage := (r.currentStage?.map Stage.name).getD "unknown"
  let giveUp := a.command (.abort (holdReason stage)) o
  match options.onHold with
  | .wait => (o, { a with watch := .held stage })
  | .retry =>
    if a.retries < options.maxRunRetries then
      { a with retries := a.retries + 1 }.command .retry o
    else giveUp
  | .abort => giveUp

/-- An attendant goes on by itself, unless it waits for something. -/
def step? (options : ApplyOptions) (o : Orchestrator) (a : Attendant) :
    Option (Orchestrator × Attendant) :=
  match a.watch with
  | .watching => match o.awaited? a.run fun r => r.state.isSettled with
    | .error fault => some (o, { a with watch := .failed fault })
    | .ok none => none
    | .ok (some r) =>
      if r.state = .holding then some (a.onHold options r o)
      else some (o, { a with watch := .over r })
  | .asked control client => do
    let answer ← o.answers.find? fun answer => answer.client = client
    return (o, { a with watch := afterAnswer control answer.result })
  | .held _ | .over _ | .failed _ => none

/-- The operator interrupts an attendant that waits for a run. -/
def interrupt? (o : Orchestrator) (a : Attendant) : Option (Orchestrator × Attendant) :=
  match a.watch with
  | .watching => some (a.command (.abort "interrupted by operator") o)
  | .held stage => some (a.command (.abort (holdReason stage ++ ", aborted by operator")) o)
  | .asked .. | .over _ | .failed _ => none

end Attendant

/-- How far an application is. -/
inductive ApplyPhase where
  | upgrade (attendant : Attendant)
  | downgrade (upgrade : Run) (attendant : Attendant)
  | done (upgrade : Run)
  | failed (fault : Fault)
  deriving DecidableEq, Repr

/-- The application of an upgrade to a topology. -/
structure Application where
  options : ApplyOptions
  topology : Topology
  /-- The identifier for a downgrade. -/
  downgradeId : RunId
  phase : ApplyPhase
  /-- The runs that are archived, in the order in which they were. -/
  reports : List Run
  deriving DecidableEq, Repr

namespace Application

/-- The directives for the upgrade, or for the downgrade that reverses it. -/
def directives (options : ApplyOptions) (isDowngrade : Bool) : Directives :=
  (if isDowngrade then [(Directives.downgradeKey, "true")] else [])
    ++ (if options.skipServiceChecks then [(Directives.skipServiceChecksKey, "true")] else [])

/-- Ask for the upgrade. -/
def start (options : ApplyOptions) (t : Topology) (upgradeId downgradeId : RunId)
    (o : Orchestrator) : Orchestrator × Application :=
  let (o, result) := o.createRun upgradeId t (directives options false) none
  let phase := match result with
    | .ok id => .upgrade (.start id)
    | .error fault => .failed fault
  (o, ⟨options, t, downgradeId, phase, []⟩)

/-- The upgrade is archived: ask for the downgrade, or finish. -/
def afterUpgrade (upgrade : Run) (o : Orchestrator) (a : Application) :
    Orchestrator × Application :=
  if upgrade.state = .aborted && a.options.downgradeOnAbort then
    let (o, result) := o.createRun a.downgradeId a.topology (directives a.options true)
      (some upgrade.id)
    match result with
    | .ok id => (o, { a with phase := .downgrade upgrade (.start id) })
    | .error fault => (o, { a with phase := .failed fault })
  else (o, { a with phase := .done upgrade })

/-- The application goes on by itself, unless it waits for something or is finished. -/
def step? (o : Orchestrator) (a : Application) : Option (Orchestrator × Application) :=
  match a.phase with
  | .upgrade attendant => match attendant.watch with
    | .over r => some ({ a with reports := a.reports ++ [r] }.afterUpgrade r o)
    | .failed fault => some (o, { a with phase := .failed fault })
    | _ => (attendant.step? a.options o).map fun (o, attendant) =>
      (o, { a with phase := .upgrade attendant })
  | .downgrade upgrade attendant => match attendant.watch with
    | .over r => some (o, { a with phase := .done upgrade, reports := a.reports ++ [r] })
    | .failed fault => some (o, { a with phase := .failed fault })
    | _ => (attendant.step? a.options o).map fun (o, attendant) =>
      (o, { a with phase := .downgrade upgrade attendant })
  | .done _ | .failed _ => none

def interrupt? (o : Orchestrator) (a : Application) : Option (Orchestrator × Application) :=
  match a.phase with
  | .upgrade attendant => (attendant.interrupt? o).map fun (o, attendant) =>
    (o, { a with phase := .upgrade attendant })
  | .downgrade upgrade attendant => (attendant.interrupt? o).map fun (o, attendant) =>
    (o, { a with phase := .downgrade upgrade attendant })
  | .done _ | .failed _ => none

/-- The attendant waits for the operator. -/
def isHeld (a : Application) : Bool :=
  match a.phase with
  | .upgrade ⟨_, _, .held _⟩ | .downgrade _ ⟨_, _, .held _⟩ => true
  | _ => false

/-- Whether the application succeeded, once it is finished. -/
def success? (a : Application) : Option Bool :=
  match a.phase with
  | .done upgrade => some (upgrade.state = .completed)
  | .failed _ => some false
  | .upgrade _ | .downgrade .. => none

end Application

end Rollout
