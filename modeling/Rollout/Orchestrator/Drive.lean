-- SUMMARY: How the driver of a run takes its inputs: events, commands, and the end of the orchestrator.
import Rollout.Orchestrator.Basic

/-!
# Drivers

A driver begins its run and then takes one input at a time. After each input it steps the run, hands
the commands of the step to the executor, and publishes the run. Once the run is archived its
executor is cancelled and shut down, its supervisors stop, and the driver is over: nobody receives
events any more, and commands that still wait are told the state of the run.
-/
namespace Rollout.Orchestrator

/-- React to the state that a run entered from `previous`. -/
def observe (i : Nat) (previous : RunState) (o : Orchestrator) : Orchestrator :=
  match o.drivers[i]? with
  | none => o
  | some d =>
    let r := d.run
    if r.state = previous then o
    else
      let o := { o with metrics := o.metrics.recordTransition r.id r.labels r.state o.wall }
      let o := if r.state.isTerminal then
          ((o.serve (.cancel i)).serve (.shutdown i)).serve (.closeRegistry i)
        else o
      if o.settings.notification.covers r.policy then
        { o with notices := o.notices ++ (Notice.ofRun? r previous).toList }
      else o

/-- Change the run of a driver and react to its new state. -/
def change {α : Type} (i : Nat) (f : Run → Run.Reply α) (o : Orchestrator) :
    Orchestrator × Option (Except Fault α) :=
  match o.drivers[i]? with
  | none => (o, none)
  | some d =>
    let (r, answer) := f d.run
    ((o.setRun i r).observe i d.run.state, some answer)

/-- Abort a run that met a fault. -/
def fail (i : Nat) (fault : Fault) (o : Orchestrator) : Orchestrator :=
  (o.change i fun r => r.abort o.wall s!"Fatal: {fault.message}").1

/-- Step a run and hand the commands of the step to its executor. -/
def pump (i : Nat) (o : Orchestrator) : Orchestrator :=
  match o.drivers[i]? with
  | none => o
  | some d =>
    let previous := d.run.state
    let (r, answer) := d.run.step o.wall
    let o := o.setRun i r
    let o := match answer with
      | .ok [] => o
      | .ok commands => o.serve (.dispatch i commands)
      | .error fault => o.fail i fault
    o.observe i previous

def publish (i : Nat) (o : Orchestrator) : Orchestrator :=
  o.modifyDriver i fun d => { d with snapshot := d.run }

/-- End a driver whose run is archived. -/
def finish (i : Nat) (o : Orchestrator) : Orchestrator :=
  match o.drivers[i]? with
  | none => o
  | some d =>
    if !d.run.state.isTerminal then o
    else
      let o := d.tickets.foldl (fun o t => o.reply t.client (.error (t.control.gone d.snapshot))) o
      (o.serve (.closeChannel i)).modifyDriver i fun d => { d with tickets := [], isOver := true }

/-- Step a run after an input, publish it, and end its driver if it is archived. -/
def settle (i : Nat) (o : Orchestrator) : Orchestrator := ((o.pump i).publish i).finish i

/-- The driver of a run that takes input. -/
def running? (i : Nat) (o : Orchestrator) : Option Driver :=
  o.drivers[i]?.filter fun d => d.hasBegun && !d.isOver

def begin? (i : Nat) (o : Orchestrator) : Option Orchestrator := do
  let d ← o.drivers[i]?
  if d.hasBegun then none
  let o := o.modifyDriver i fun d => { d with hasBegun := true }
  let (o, answer) := o.change i fun r => r.start o.wall
  match answer with
  | some (.error fault) => return (o.fail i fault).settle i
  | _ => return o.settle i

/-- The seconds from the start to the end of a task, if it was started. -/
def taskSeconds (t : Task) : Option Float :=
  match t.startedAt, t.completedAt with
  | some start, some stop => match Timestamp.nanosBetween start stop with
    | .ofNat nanos => some (Metrics.secondsOfNanos nanos)
    | .negSucc _ => none
  | _, _ => none

/-- Count a task that is over. -/
def recordTask (i : Nat) (event : TaskEvent) (o : Orchestrator) : Orchestrator :=
  match event with
  | .started .. => o
  | .finished id outcome => match o.drivers[i]?.bind fun d => d.run.task? id with
    | none => o
    | some t =>
      let metrics := o.metrics.recordTask t.operation t.status (taskSeconds t)
      match outcome.fault with
      | some (.hostUnreachable ..) => { o with metrics := metrics.recordUnreachable t.host }
      | _ => { o with metrics := metrics }

/-- A driver takes the next event of its executor. -/
def takeEvent? (i : Nat) (o : Orchestrator) : Option Orchestrator := do
  let _ ← o.running? i
  let (event, engine) ← o.engine.receive? i
  let (o, answer) := { o with engine := engine }.change i fun r => r.apply o.wall event
  match answer with
  | some (.error fault) => return (o.fail i fault).settle i
  | _ => return (o.recordTask i event).settle i

/-- A driver takes the next command. The answer is the run after its next step. -/
def takeControl? (i : Nat) (o : Orchestrator) : Option Orchestrator := do
  let d ← o.running? i
  match d.tickets with
  | [] => none
  | ticket :: rest =>
    let o := o.modifyDriver i fun d => { d with tickets := rest }
    let (o, answer) := o.change i fun r => ticket.control.apply o.wall r
    let o := (o.pump i).publish i
    let d ← o.drivers[i]?
    let result : Except Fault Run := match answer with
      | some (.error fault) => .error fault
      | _ => .ok d.run
    return (o.reply ticket.client result).finish i

/-- A driver finds that nobody gives commands any more, and aborts its run. -/
def hangUp? (i : Nat) (o : Orchestrator) : Option Orchestrator := do
  let d ← o.running? i
  if !o.isDropped || !d.tickets.isEmpty then none
  let (o, _) := o.change i fun r => r.abort o.wall "orchestrator shut down"
  return (o.publish i).finish i

end Rollout.Orchestrator
