-- SUMMARY: What can go wrong while a rollout is planned or driven, and the wording of each case.
import Rollout.Text.Blank

/-!
# Faults

A fault is the cause of a refusal or a failure. Faults of validation reject a request before a run
exists; faults of dispatch are recorded on a task; the retryable ones among these let the executor
send the task again. `Fault.message` holds the wording.
-/
namespace Rollout

/-- The cause of a refusal or a failure. -/
inductive Fault where
  /-- A directive has a value that it does not take. -/
  | invalidDirective (key reason : String)
  /-- Directives that do not go together. -/
  | incompatibleDirective (reason : String)
  /-- A directive that does not exist. -/
  | unsupportedDirective (key : String)
  /-- No component of the named topology is placed on any host. -/
  | emptyTopology (name : String)
  | invalidTopology (reason : String)
  | hostUnreachable (host : String) (missed : UInt32)
  | commandRejected (host reason : String)
  | taskTimeout (host : String) (seconds : Nat)
  | transport (host reason : String)
  | runNotFound (id : String)
  /-- An operation that the state of the run does not allow. -/
  | invalidTransition (op state : String)
  | fatal (reason : String)
  deriving DecidableEq, Repr

namespace Fault

def message : Fault → String
  | invalidDirective key reason => s!"Invalid directive {key}: {reason}"
  | incompatibleDirective reason => s!"Incompatible directives: {reason}"
  | unsupportedDirective key => s!"Unsupported directive: {key}"
  | emptyTopology name => s!"Topology has no target hosts: {name}"
  | invalidTopology reason => s!"Invalid topology: {reason}"
  | hostUnreachable host missed => s!"[{host}] host unreachable after {missed.toNat} missed pings"
  | commandRejected host reason => s!"[{host}] command rejected: {reason}"
  | taskTimeout host seconds => s!"[{host}] task timed out after {seconds}s"
  | transport host reason => s!"[{host}] agent transport error: {reason}"
  | runNotFound id => s!"Upgrade run not found: {id}"
  | invalidTransition op state => s!"Cannot {op} a run in state {state}"
  | fatal reason => s!"Fatal orchestration error: {reason}"

/-- A transport fault whose reason is folded into one line. -/
def inTransport (host reason : String) : Fault := .transport host (Text.oneLine reason)

/-- The fault is recorded on a task and does not reject a request. -/
def isDispatch : Fault → Bool
  | hostUnreachable .. | commandRejected .. | taskTimeout .. | transport .. => true
  | _ => false

/-- The executor may send the task again. An unreachable host gets nothing sent again. -/
def isRetryable : Fault → Bool
  | commandRejected .. | taskTimeout .. | transport .. => true
  | _ => false

/-- The fault rejects a request before a run exists. -/
def isValidation : Fault → Bool
  | invalidDirective .. | incompatibleDirective .. | unsupportedDirective .. | emptyTopology ..
  | invalidTopology .. => true
  | _ => false

end Fault

end Rollout
