-- SUMMARY: Rehearsals: an orchestrator with scripted agents on a clock that moves only when nothing else can.
import Rollout.Orchestrator.Move
import Rollout.Rehearsal.Fleet

/-!
# Rehearsals

A rehearsal plays an orchestrator in one definite order. Processes that can go on take turns, first
come, first served, and each goes on until it waits. Only when all of them wait does the clock jump
to the next time at which something is due.
-/
namespace Rollout

/-- What takes turns. -/
inductive Process where
  | worker (i : Nat)
  | supervisor (registry : Nat) (host : String)
  | inquiry (i : Nat)
  | driver (i : Nat)
  deriving DecidableEq, Repr

/-- An answer of an agent that is on its way. -/
structure Pending where
  due : Nat
  move : Move
  deriving DecidableEq, Repr

structure Rehearsal where
  orchestrator : Orchestrator
  fleet : Fleet
  /-- The answers that are on their way, in the order of their questions. -/
  pending : List Pending
  /-- The inquiries of clients. -/
  visitors : List Nat
  /-- The processes that can go on, in the order in which they came to it. -/
  ready : List Process

namespace Rehearsal

def start (settings : EngineSettings) (wall : Timestamp) (fleet : Fleet) : Rehearsal :=
  ⟨.start settings wall, fleet, [], [], []⟩

def engine (r : Rehearsal) : Engine := r.orchestrator.engine

def now (r : Rehearsal) : Nat := r.engine.now

def withOrchestrator (o : Orchestrator) (r : Rehearsal) : Rehearsal := { r with orchestrator := o }

/-- Take a turn of the orchestrator, if it is possible. -/
def turn? (t : Turn) (r : Rehearsal) : Option Rehearsal :=
  (r.orchestrator.step? t).map r.withOrchestrator

/-- Make a move of the engine, if it is possible. -/
def move (m : Move) (r : Rehearsal) : Rehearsal := (r.turn? (.engine m)).getD r

/-- A client of the engine makes a request. -/
def serve (request : Request) (r : Rehearsal) : Rehearsal :=
  { r with orchestrator := r.orchestrator.serve request }

/-! ## Agents -/

/-- An answer is given at once, or comes after a delay. -/
def schedule (m : Move) (delay : Nat) (r : Rehearsal) : Rehearsal :=
  if delay = 0 then r.move m else { r with pending := r.pending ++ [⟨r.now + delay, m⟩] }

/-- The agent of a host takes notice of a call or a ping. Calls are known by their position in the
history. -/
def attend (position : Nat) (entry : Entry) (r : Rehearsal) : Rehearsal :=
  match entry.happening with
  | .callBegan worker _ =>
    let (action, fleet) := r.fleet.nextCall entry.host
    let r := { r with fleet := fleet }
    match action.deed.callAnswer? with
    | some fault => r.schedule (.answer worker position fault) action.delay
    | none => r
  | .pinged registry _ =>
    let (action, fleet) := r.fleet.nextPing entry.host
    let r := { r with fleet := fleet }
    match action.deed.pingAnswer? r.engine.wall with
    | some contact => r.schedule (.pong registry entry.host contact) action.delay
    | none => r
  | _ => r

/-- The agents take notice of what happened since the history had a given length. -/
def attendSince (length : Nat) (r : Rehearsal) : Rehearsal :=
  let history := r.engine.history
  let news := (history.take (history.length - length)).reverse
  (news.zipIdx length).foldl (fun r (entry, position) => r.attend position entry) r

/-! ## Turns -/

/-- The turns that a process may take. -/
def turns : Process → List Turn
  | .worker i => [.engine (.work i)]
  | .supervisor registry host => [.engine (.supervise registry host)]
  | .inquiry i => [.engine (.inquire i)]
  | .driver i => [.begin i, .event i, .control i, .hangUp i]

/-- A process takes its first turn that is possible. -/
def goOn? (p : Process) (r : Rehearsal) : Option Rehearsal :=
  let length := r.engine.history.length
  ((turns p).findSome? fun t => r.turn? t).map (attendSince length)

/-- A process goes on until it waits. -/
def run (p : Process) : Nat → Rehearsal → Rehearsal
  | 0, r => r
  | n + 1, r => match r.goOn? p with
    | some r => run p n r
    | none => r

def processes (r : Rehearsal) : List Process :=
  let e := r.engine
  (List.range e.workers.length).map Process.worker
    ++ r.visitors.map Process.inquiry
    ++ e.registries.zipIdx.flatMap (fun (registry, i) =>
      registry.supervisors.map fun (host, _) => .supervisor i host)
    ++ (List.range r.orchestrator.drivers.length).map Process.driver

def canGoOn (r : Rehearsal) (p : Process) : Bool := (turns p).any fun t => (r.turn? t).isSome

/-- Queue the processes that came to be able to go on. -/
def wake (r : Rehearsal) : Rehearsal :=
  { r with ready := r.ready ++ (r.processes.filter fun p => !r.ready.contains p && r.canGoOn p) }

/-- Let the processes take turns until all of them wait. -/
def settleWithin : Nat → Rehearsal → Rehearsal
  | 0, r => r
  | n + 1, r => match r.wake.ready with
    | [] => r
    | p :: rest => settleWithin n (run p n { r with ready := rest })

/-- The number of turns after which a rehearsal stops. -/
def limit : Nat := 1000000

/-- Let the processes take turns until all of them wait. -/
def settle (r : Rehearsal) : Rehearsal := settleWithin limit r

/-! ## Time -/

/-- The supervisors, with their registries and hosts. -/
def supervisors (r : Rehearsal) : List (Nat × String × Supervisor) :=
  r.engine.registries.zipIdx.flatMap fun (registry, i) =>
    registry.supervisors.map fun (host, s) => (i, host, s)

/-- The next time of a supervisor and what is due then. -/
def supervisorAlarm? : Nat × String × Supervisor → Option Pending
  | (registry, host, s) => match s.activity with
    | .idle => some ⟨s.nextTick, .tick registry host⟩
    | .pinging ping => some ⟨ping.deadline, .pingTimeout registry host⟩
    | .stopped => none

/-- The next time of a worker and what is due then. -/
def workerAlarm? (i : Nat) (w : Worker) : Option Pending :=
  match w.phase with
  | .calling _ _ deadline => some ⟨deadline, .expire i⟩
  | _ => none

/-- Everything that waits for a time. Answers come before the ends of waiting for them. -/
def alarms (r : Rehearsal) : List Pending :=
  r.pending ++ r.supervisors.filterMap supervisorAlarm?
    ++ r.engine.workers.zipIdx.filterMap fun (w, i) => workerAlarm? i w

/-- The next time at which something is due. -/
def nextTime? (r : Rehearsal) : Option Nat := (r.alarms.map Pending.due).min?

/-- Forget an answer to a ping that was given up. -/
def forget (m : Move) (r : Rehearsal) : Rehearsal :=
  match m with
  | .pingTimeout registry host => { r with pending := r.pending.filter fun p => match p.move with
      | .pong g h _ => !(g = registry && h = host)
      | _ => true }
  | _ => r

/-- Let one thing happen that is due. -/
def fire (r : Rehearsal) (p : Pending) : Rehearsal :=
  let length := r.engine.history.length
  match r.turn? (.engine p.move) with
  | some r => (r.forget p.move).attendSince length
  | none => r

/-- Let everything happen that is due: first the answers on their way, then what the clock starts
or ends. -/
def fireDue (r : Rehearsal) : Rehearsal :=
  let due (ps : List Pending) : List Pending := ps.filter fun p => p.due ≤ r.now
  let answers := due r.pending
  let r := { r with pending := r.pending.filter fun p => r.now < p.due }
  let r := answers.foldl fire r
  (r.alarms.filter fun p => p.due ≤ r.now).foldl fire r

/-- Let time pass up to `target`, or until the rehearsal satisfies a test. -/
def playWithin (target : Nat) (test : Rehearsal → Bool) : Nat → Rehearsal → Rehearsal
  | 0, r => r
  | n + 1, r =>
    let r := r.settle
    if test r then r
    else match r.nextTime? with
      | some time =>
        if time ≤ target then playWithin target test n (r.move (.pass (time - r.now))).fireDue
        else r.move (.pass (target - r.now))
      | none => r.move (.pass (target - r.now))

/-- Let a number of milliseconds pass, or less if the rehearsal satisfies a test before. -/
def playUntil (ms : Nat) (test : Rehearsal → Bool) (r : Rehearsal) : Rehearsal :=
  playWithin (r.now + ms) test limit r

/-- Let a number of milliseconds pass. -/
def play (ms : Nat) (r : Rehearsal) : Rehearsal := r.playUntil ms fun _ => false

/-! ## Clients -/

def setFleet (fleet : Fleet) (r : Rehearsal) : Rehearsal :=
  { r with fleet := fleet.foldl (fun f (host, script) => f.set host script) r.fleet }

/-- The end of an inquiry. -/
def inquiryResult? (i : Nat) (r : Rehearsal) : Option (Except Fault Session) :=
  match (r.engine.inquiries[i]?).map Inquiry.state with
  | some (.passed session) => some (.ok session)
  | some (.refused fault) => some (.error fault)
  | _ => none

/-- Ask about a host and wait for the answer, at most for a number of milliseconds. -/
def ask (registry : Nat) (host : String) (purpose : Purpose) (ms : Nat) (r : Rehearsal) :
    Rehearsal × Option (Except Fault Session) :=
  let i := r.engine.inquiries.length
  let r := r.serve (.ask registry host purpose)
  let r := { r with visitors := r.visitors ++ [i] }
  let r := r.playUntil ms fun r => (r.inquiryResult? i).isSome
  ({ r with visitors := [] }, r.inquiryResult? i)

def create (id : RunId) (t : Topology) (directives : Directives) (reference : Option RunId)
    (r : Rehearsal) : Rehearsal × Except Fault RunId :=
  let (o, result) := r.orchestrator.createRun id t directives reference
  ((r.withOrchestrator o).settle, result)

/-- Give a command to a run and wait for the answer. -/
def control (id : RunId) (control : Control) (r : Rehearsal) :
    Rehearsal × Option (Except Fault Run) :=
  let (o, result) := r.orchestrator.submit id control
  match result with
  | .error fault => (r, some (.error fault))
  | .ok client =>
    let r := (r.withOrchestrator o).settle
    (r, (r.orchestrator.answers.find? fun a => a.client = client).map Answer.result)

/-- Wait until a run satisfies a predicate, at most for a number of milliseconds. -/
def await (id : RunId) (p : Run → Bool) (ms : Nat) (r : Rehearsal) :
    Rehearsal × Except Fault (Option Run) :=
  let isOver (r : Rehearsal) : Bool := match r.orchestrator.awaited? id p with
    | .ok none => false
    | _ => true
  let r := if isOver r then r else r.playUntil ms isOver
  (r, r.orchestrator.awaited? id p)

/-- Give no more commands. -/
def drop (r : Rehearsal) : Rehearsal := (r.withOrchestrator r.orchestrator.drop).settle

end Rehearsal

end Rollout
