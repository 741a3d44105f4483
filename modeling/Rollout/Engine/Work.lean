-- SUMMARY: What a worker does: it takes lock and slot, lets each command pass the gate, announces it, sends it and reports.
import Rollout.Engine.Gate

/-!
# Work

A worker carries out its commands in order. A command that fails is sent again as often as the
settings allow, unless its executor is cancelled or the fault is not retryable. A worker leaves when
its commands are done, when its executor is cancelled between two commands, when it waits for a slot
of an executor that is shut down, and when nobody receives its reports.
-/
namespace Rollout

namespace Engine

/-- A worker leaves: it gives its slot and its lock back. -/
def leave (i : Nat) (w : Worker) (e : Engine) : Engine :=
  let e := e.modifyExecutor w.executor fun x => { x with slotOrder := x.slotOrder.erase i }
  { e with lockOrder := e.lockOrder.erase i }.enter i .gone

/-- An event goes into the channel of an executor. -/
def report (executor : Nat) (host : String) (event : TaskEvent) (e : Engine) : Engine :=
  (e.modifyExecutor executor fun x => { x with channel := x.channel ++ [event] }).record host
    (.reported executor event)

/-- A worker says that it starts with its command. A worker whose events nobody receives gives up. -/
def announce (i : Nat) (w : Worker) (x : Executor) (command : TaskCommand) (retries : UInt32)
    (e : Engine) : Engine :=
  if !x.isReceived then
    e.enter i (.reporting (.failed (.fatal "run driver is gone") retries))
  else
    (e.report w.executor w.host (.started command.taskId (command.attempt + retries))).enter i
      (.announced retries)

/-- A worker sends its command to the agent. It looks at nothing between the announcement and the call. -/
def send (i : Nat) (w : Worker) (x : Executor) (command : TaskCommand) (retries : UInt32)
    (e : Engine) : Engine :=
  let call := e.history.length
  let e := e.record w.host (.callBegan i { command with attempt := command.attempt + retries })
  e.enter i (.calling retries call (e.now + x.settings.taskTimeoutMs))

/-- Whether a command that failed is sent again. -/
def sendsAgain (x : Executor) (fault : Fault) (retries : UInt32) : Bool :=
  fault.isRetryable && retries < x.settings.maxTaskRetries && !x.isCancelled

def afterCall (x : Executor) (retries : UInt32) : Option Fault → Phase
  | none => .reporting (.completed retries)
  | some fault =>
    if sendsAgain x fault retries then .sending (retries + 1)
    else .reporting (.failed fault retries)

/-- A worker goes on by itself, unless it waits for something or is gone. -/
def work? (i : Nat) (e : Engine) : Option Engine := do
  let w ← e.workers[i]?
  let x ← e.executors[w.executor]?
  match w.phase with
  | .spawned => return { e with lockOrder := e.lockOrder ++ [i] }.enter i .awaitingLock
  | .awaitingLock =>
    if e.lockHolder? w.host ≠ some i then none
    else if !x.isOpen then return e.leave i w
    else
      let e := e.modifyExecutor w.executor fun x => { x with slotOrder := x.slotOrder ++ [i] }
      return e.enter i .awaitingSlot
  | .awaitingSlot =>
    if x.slotHolders.contains i then return e.enter i .choosing
    else if !x.isOpen then return e.leave i w
    else none
  | .choosing =>
    if w.commands.isEmpty || x.isCancelled then return e.leave i w
    else
      let inquiry : Inquiry := ⟨x.registry, w.host, .pass, .opening⟩
      return { e with inquiries := e.inquiries ++ [inquiry] }.enter i (.atGate e.inquiries.length)
  | .atGate inquiry => match ← e.inquiries[inquiry]? with
    | ⟨_, _, _, .passed _⟩ => return e.enter i (.sending 0)
    | ⟨_, _, _, .refused fault⟩ => return e.enter i (.reporting (.failed fault 0))
    | _ => e.inquire? inquiry
  | .sending retries => return e.announce i w x (← w.commands.head?) retries
  | .announced retries => return e.send i w x (← w.commands.head?) retries
  | .calling .. => none
  | .called retries fault => return e.enter i (afterCall x retries fault)
  | .reporting outcome =>
    if !x.isReceived then return e.leave i w
    else
      let command ← w.commands.head?
      let e := e.report w.executor w.host (.finished command.taskId outcome)
      return e.modifyWorker i fun w => { w with commands := w.commands.tail, phase := .choosing }
  | .gone => none

/-- The agent answers a call, with a fault or without one. An answer to a call that was given up is
lost. -/
def answer? (i call : Nat) (fault : Option Fault) (e : Engine) : Option Engine := do
  let w ← e.workers[i]?
  match w.phase with
  | .calling retries current _ =>
    if current ≠ call then none
    else
      let command ← w.commands.head?
      return (e.record w.host (.callEnded i command.taskId fault)).enter i (.called retries fault)
  | _ => none

/-- The fault of a call that took too long. -/
def timeoutFault (w : Worker) (x : Executor) : Fault :=
  .taskTimeout w.host (x.settings.taskTimeoutMs / 1000)

/-- A call that took too long is given up. -/
def expire? (i : Nat) (e : Engine) : Option Engine := do
  let w ← e.workers[i]?
  let x ← e.executors[w.executor]?
  match w.phase with
  | .calling retries _ deadline =>
    if deadline ≤ e.now then
      let command ← w.commands.head?
      let e := e.record w.host (.callExpired i command.taskId)
      return e.enter i (.called retries (some (timeoutFault w x)))
    else none
  | _ => none

/-! ## Dispatch -/

/-- Commands by host, in ascending order of the hosts. The commands of a host keep their order. -/
def byHost (commands : List TaskCommand) : List (String × List TaskCommand) :=
  let hosts := (commands.map TaskCommand.host).foldr Topology.insertHost []
  hosts.map fun host => (host, commands.filter fun c => c.host = host)

/-- Start one worker for each host that has commands. -/
def dispatch (executor : Nat) (commands : List TaskCommand) (e : Engine) : Engine :=
  let workers := (byHost commands).map fun (host, commands) =>
    (⟨executor, host, commands, .spawned⟩ : Worker)
  { e with workers := e.workers ++ workers }

end Engine

end Rollout
