-- SUMMARY: The moves of an engine: what may happen next, in any order.
import Rollout.Engine.Work

/-!
# Moves

The processes of an engine take turns in any order, and agents answer whenever they like, or never.
`Engine.step?` gives the engine after a move that is possible. The inner moves are those that no
client of the engine makes.
-/
namespace Rollout

/-- What may happen next inside of an engine. -/
inductive Move where
  /-- A worker goes on. -/
  | work (worker : Nat)
  /-- An inquiry goes on. -/
  | inquire (inquiry : Nat)
  /-- A supervisor takes its next mail. -/
  | supervise (registry : Nat) (host : String)
  /-- A supervisor begins a ping that is due. -/
  | tick (registry : Nat) (host : String)
  /-- An agent answers a ping, with a contact or with a fault. -/
  | pong (registry : Nat) (host : String) (contact : Option Timestamp)
  /-- A ping is not answered in time. -/
  | pingTimeout (registry : Nat) (host : String)
  /-- An agent answers a call, with a fault or without one. -/
  | answer (worker call : Nat) (fault : Option Fault)
  /-- A call is not answered in time. -/
  | expire (worker : Nat)
  /-- Time passes. -/
  | pass (ms : Nat)
  /-- The calendar is set. -/
  | setWall (wall : Timestamp)
  deriving DecidableEq, Repr

/-- What the clients of an engine may do. -/
inductive Request where
  | openRegistry (settings : ProbeSettings)
  | openExecutor (settings : DispatchSettings) (registry : Nat)
  | dispatch (executor : Nat) (commands : List TaskCommand)
  | cancel (executor : Nat)
  | shutdown (executor : Nat)
  | closeChannel (executor : Nat)
  | closeRegistry (registry : Nat)
  | ask (registry : Nat) (host : String) (purpose : Purpose)
  deriving DecidableEq, Repr

namespace Engine

/-- The engine after a move, if the move is possible. -/
def step? (e : Engine) : Move → Option Engine
  | .work worker => e.work? worker
  | .inquire inquiry => e.inquire? inquiry
  | .supervise registry host => e.supervise? registry host
  | .tick registry host => e.tick? registry host
  | .pong registry host contact => e.pong? registry host contact
  | .pingTimeout registry host => e.pingTimeout? registry host
  | .answer worker call fault => e.answer? worker call fault
  | .expire worker => e.expire? worker
  | .pass ms => some { e with now := e.now + ms }
  | .setWall wall => some { e with wall := wall }

/-- The engine after a request of a client. -/
def serve (e : Engine) : Request → Engine
  | .openRegistry settings => { e with registries := e.registries ++ [.fresh settings] }
  | .openExecutor settings registry =>
    { e with executors := e.executors ++ [.fresh settings registry] }
  | .dispatch executor commands => e.dispatch executor commands
  | .cancel executor => e.modifyExecutor executor Executor.cancel
  | .shutdown executor => e.modifyExecutor executor Executor.shutdown
  | .closeChannel executor => e.modifyExecutor executor Executor.closeChannel
  | .closeRegistry registry => e.modifyRegistry registry Registry.close
  | .ask registry host purpose =>
    { e with inquiries := e.inquiries ++ [⟨registry, host, purpose, .opening⟩] }

/-- The oldest event in the channel of an executor, and the engine without it. -/
def receive? (e : Engine) (executor : Nat) : Option (TaskEvent × Engine) := do
  let x ← e.executors[executor]?
  match x.channel with
  | [] => none
  | event :: rest =>
    return (event, e.modifyExecutor executor fun x => { x with channel := rest })

end Engine

end Rollout
