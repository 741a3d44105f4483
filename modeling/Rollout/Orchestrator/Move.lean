-- SUMMARY: The moves of an orchestrator, in any order, and its histories.
import Rollout.Orchestrator.Drive

/-!
# Moves of an orchestrator

The engine, the drivers and the clients take turns in any order. `Reachable` holds of the
orchestrators that some order of moves leads to.
-/
namespace Rollout

/-- What may happen next. -/
inductive Turn where
  /-- The engine moves. -/
  | engine (move : Move)
  /-- A driver begins its run. -/
  | begin (run : Nat)
  /-- A driver takes the next event. -/
  | event (run : Nat)
  /-- A driver takes the next command. -/
  | control (run : Nat)
  /-- A driver finds that nobody gives commands any more. -/
  | hangUp (run : Nat)
  /-- A client asks for a run. -/
  | create (id : RunId) (topology : Topology) (directives : Directives) (reference : Option RunId)
  /-- A client gives a command. -/
  | submit (id : RunId) (control : Control)
  /-- Nobody gives commands any more. -/
  | drop
  deriving DecidableEq, Repr

namespace Orchestrator

/-- The orchestrator after a turn, if the turn is possible. A new run has an identifier of its
own. -/
def step? (o : Orchestrator) : Turn → Option Orchestrator
  | .engine move => (o.engine.step? move).map fun engine => { o with engine := engine }
  | .begin run => o.begin? run
  | .event run => o.takeEvent? run
  | .control run => o.takeControl? run
  | .hangUp run => o.hangUp? run
  | .create id topology directives reference =>
    if o.isDropped || (o.find? id).isSome then none
    else some (o.createRun id topology directives reference).1
  | .submit id control => if o.isDropped then none else some (o.submit id control).1
  | .drop => some o.drop

/-- The orchestrator after a sequence of turns, if all of them are possible. -/
def play? (o : Orchestrator) : List Turn → Option Orchestrator
  | [] => some o
  | turn :: turns => do (← o.step? turn).play? turns

/-- Some sequence of turns leads from a fresh orchestrator to this one. -/
def Reachable (settings : EngineSettings) (o : Orchestrator) : Prop :=
  ∃ wall turns, (start settings wall).play? turns = some o

end Orchestrator

end Rollout
