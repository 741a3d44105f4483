-- SUMMARY: The engine that carries commands out: executors, their host workers, locks, slots and supervisors.
import Rollout.Agent.Supervisor

/-!
# Engines

An executor carries out the commands of one run. Each dispatch starts one worker for each host, and
a worker carries out its commands one after another. Before its first command a worker takes the
lock of its host, which all executors share, and then one of the slots of its executor; it keeps
both until it leaves. Before each command it asks the supervisor of the host whether the host can
be reached.

The order in which processes take turns, and what agents answer, is open: `Rollout.Engine.Move` says
what may happen next. The history of an engine records what others can observe.
-/
namespace Rollout

/-! ## Questions about hosts -/

/-- Why a supervisor is asked: to let a command pass, or for one of its answers. -/
inductive Purpose where
  | pass
  | look
  | probe
  deriving DecidableEq, Repr

/-- How far an inquiry is. -/
inductive InquiryState where
  | opening
  | asked (question : Question)
  | answered (question : Question) (session : Session)
  | passed (session : Session)
  | refused (fault : Fault)
  deriving DecidableEq, Repr

/-- An inquiry about a host with the supervisors of a registry. -/
structure Inquiry where
  registry : Nat
  host : String
  purpose : Purpose
  state : InquiryState
  deriving DecidableEq, Repr

/-- The supervisors that belong together, by host. A closed registry starts no supervisor and takes
no question. -/
structure Registry where
  settings : ProbeSettings
  isOpen : Bool
  supervisors : List (String × Supervisor)
  deriving DecidableEq, Repr

/-! ## Executors and workers -/

/-- An executor. Its events wait in the channel until they are received. -/
structure Executor where
  settings : DispatchSettings
  /-- The registry that its workers ask. -/
  registry : Nat
  /-- Slots are handed out. -/
  isOpen : Bool
  isCancelled : Bool
  /-- Somebody receives the events. -/
  isReceived : Bool
  channel : List TaskEvent
  /-- The workers that hold a slot or wait for one, in the order of arrival. -/
  slotOrder : List Nat
  deriving DecidableEq, Repr

/-- How far a worker is. -/
inductive Phase where
  | spawned
  | awaitingLock
  | awaitingSlot
  /-- About to take its next command. -/
  | choosing
  /-- Asks whether the host can be reached. -/
  | atGate (inquiry : Nat)
  /-- About to announce its command, after a number of retries. -/
  | sending (retries : UInt32)
  /-- The command is announced, and is about to go to the agent. Executor and driver may do anything before. -/
  | announced (retries : UInt32)
  /-- Waits for the agent, at most until the deadline. -/
  | calling (retries : UInt32) (call deadline : Nat)
  /-- The call is over, with a fault or without one. -/
  | called (retries : UInt32) (fault : Option Fault)
  /-- About to report how its command ended. -/
  | reporting (outcome : TaskOutcome)
  | gone
  deriving DecidableEq, Repr

/-- A worker for one host. The first of its commands is the one that it carries out. -/
structure Worker where
  executor : Nat
  host : String
  commands : List TaskCommand
  phase : Phase
  deriving DecidableEq, Repr

/-! ## History -/

/-- What others can observe. -/
inductive Happening where
  /-- A ping is sent on behalf of a registry. -/
  | pinged (registry : Nat) (request : PingRequest)
  /-- A worker sends a command to its agent. -/
  | callBegan (worker : Nat) (command : TaskCommand)
  /-- The agent answers a worker, with a fault or without one. -/
  | callEnded (worker task : Nat) (fault : Option Fault)
  /-- A worker gives a command up that the agent did not answer in time. -/
  | callExpired (worker task : Nat)
  /-- An executor reports an event. -/
  | reported (executor : Nat) (event : TaskEvent)
  deriving DecidableEq, Repr

/-- Something that happened on a host at a time. -/
structure Entry where
  time : Nat
  host : String
  happening : Happening
  deriving DecidableEq, Repr

/-- An engine. Workers, executors, registries and inquiries are known by their positions. -/
structure Engine where
  /-- Milliseconds since the start. -/
  now : Nat
  /-- The time of the calendar. -/
  wall : Timestamp
  registries : List Registry
  inquiries : List Inquiry
  executors : List Executor
  workers : List Worker
  /-- The workers that hold the lock of their host or wait for it, in the order of arrival. -/
  lockOrder : List Nat
  /-- What happened, the latest first. -/
  history : List Entry
  deriving DecidableEq, Repr

namespace Registry

/-- An open registry without supervisors. -/
def fresh (settings : ProbeSettings) : Registry := ⟨settings, true, []⟩

def supervisor? (r : Registry) (host : String) : Option Supervisor := r.supervisors.lookup host

/-- Replace the supervisor of a host, or add it. -/
def setSupervisor (host : String) (s : Supervisor) (r : Registry) : Registry :=
  let others := r.supervisors.map fun (h, old) => if h = host then (h, s) else (h, old)
  { r with supervisors :=
      if (r.supervisor? host).isSome then others else r.supervisors ++ [(host, s)] }

/-- Close a registry. Its supervisors stop once they come to the mail. -/
def close (r : Registry) : Registry :=
  if !r.isOpen then r
  else { r with
    isOpen := false
    supervisors := r.supervisors.map fun (h, s) => (h, s.post .shutdown) }

end Registry

namespace Executor

/-- An executor without workers. -/
def fresh (settings : DispatchSettings) (registry : Nat) : Executor :=
  ⟨settings, registry, true, false, true, [], []⟩

def slotCount (x : Executor) : Nat := max 1 x.settings.maxConcurrentHosts

/-- The workers that hold a slot. -/
def slotHolders (x : Executor) : List Nat := x.slotOrder.take x.slotCount

/-- Hand out no more slots. Those who wait for one get none. -/
def shutdown (x : Executor) : Executor := { x with isOpen := false, slotOrder := x.slotHolders }

/-- Start no further command. -/
def cancel (x : Executor) : Executor := { x with isCancelled := true }

/-- Nobody receives the events any more. -/
def closeChannel (x : Executor) : Executor := { x with isReceived := false, channel := [] }

end Executor

namespace Engine

def empty (wall : Timestamp) : Engine := ⟨0, wall, [], [], [], [], [], []⟩

def record (host : String) (happening : Happening) (e : Engine) : Engine :=
  { e with history := ⟨e.now, host, happening⟩ :: e.history }

def modifyRegistry (i : Nat) (f : Registry → Registry) (e : Engine) : Engine :=
  { e with registries := e.registries.modify i f }

def modifyExecutor (i : Nat) (f : Executor → Executor) (e : Engine) : Engine :=
  { e with executors := e.executors.modify i f }

def modifyWorker (i : Nat) (f : Worker → Worker) (e : Engine) : Engine :=
  { e with workers := e.workers.modify i f }

def enter (worker : Nat) (phase : Phase) (e : Engine) : Engine :=
  e.modifyWorker worker fun w => { w with phase := phase }

def setInquiry (i : Nat) (state : InquiryState) (e : Engine) : Engine :=
  { e with inquiries := e.inquiries.modify i fun q => { q with state := state } }

/-- The worker that holds the lock of a host: of those in the order of locks the first one for the
host. -/
def lockHolder? (e : Engine) (host : String) : Option Nat :=
  e.lockOrder.find? fun i => (e.workers[i]?.map Worker.host) = some host

/-- The calls that are under way: worker and host. -/
def callsUnderWay (e : Engine) : List (Nat × Worker) :=
  (e.workers.zipIdx.map fun (w, i) => (i, w)).filter fun (_, w) => match w.phase with
    | .calling .. => true
    | _ => false

end Engine

end Rollout
