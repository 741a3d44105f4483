-- SUMMARY: The configuration of the program: its options, its commands, and how arguments give one.
import Rollout.CommandLine
import Rollout.Settings

/-!
# Configuration

Every option of the program has a standard value. Times are given in seconds. The topology has to be
named by the commands that need one.
-/
namespace Rollout

/-- What happens to a run that holds. -/
inductive HoldAction where
  /-- It holds until the operator interrupts the program, and is aborted then. -/
  | wait
  /-- It is retried, up to a number of times, and is aborted then. -/
  | retry
  /-- It is aborted. -/
  | abort
  deriving DecidableEq, Repr

namespace HoldAction

def all : List HoldAction := [wait, retry, abort]

def name : HoldAction → String
  | wait => "wait"
  | retry => "retry"
  | abort => "abort"

end HoldAction

structure ApplyOptions where
  topology : String
  skipServiceChecks : Bool
  onHold : HoldAction
  maxRunRetries : UInt32
  /-- Apply the downgrade that reverses an upgrade that was aborted. -/
  downgradeOnAbort : Bool
  deriving DecidableEq, Repr

inductive Command where
  /-- Print the plan for a topology. -/
  | plan (topology : String) (isDowngrade skipServiceChecks : Bool)
  /-- Upgrade the hosts of a topology. -/
  | apply (options : ApplyOptions)
  /-- Print the schema of resources. -/
  | schema
  deriving DecidableEq, Repr

def Command.file? : Command → Option String
  | plan topology .. => some topology
  | apply options => some options.topology
  | schema => none

structure Config where
  command : Command
  engine : EngineSettings
  agentScheme : String
  agentPort : Nat
  /-- The address for notices. -/
  slackUrl : Option String
  healthPort : Nat
  metricsPort : Nat
  logFormat : String
  logLevel : String
  deriving DecidableEq, Repr

namespace Config

open CommandLine

/-! ## Options -/

/-- A number of 16, 32 or 64 bits. -/
def numberKind (bits : Nat) : ValueKind := .number (Nat.pow 2 bits) (bits < 64)

/-- An option of all commands, with its variable and its standard value. -/
def globalOption (name envVar : String) (kind : ValueKind) (standard : Value) : OptionSpec :=
  ⟨name, some kind, some envVar, some standard, false⟩

/-- A switch of one command. -/
def switch (name : String) : OptionSpec := ⟨name, none, none, some (.truth false), false⟩

def topologyOption : OptionSpec := ⟨"topology", some .path, some "RUO_TOPOLOGY", none, true⟩

def globalOptions : List OptionSpec :=
  [globalOption "max-task-retries" "RUO_MAX_TASK_RETRIES" (numberKind 32) (.number 0),
   globalOption "task-timeout-seconds" "RUO_TASK_TIMEOUT_SECONDS" (numberKind 64) (.number 600),
   globalOption "max-concurrent-hosts" "RUO_MAX_CONCURRENT_HOSTS" (numberKind 64) (.number 8),
   globalOption "ping-interval-seconds" "RUO_PING_INTERVAL_SECONDS" (numberKind 64) (.number 30),
   globalOption "ping-timeout-seconds" "RUO_PING_TIMEOUT_SECONDS" (numberKind 64) (.number 5),
   globalOption "ping-failure-threshold" "RUO_PING_FAILURE_THRESHOLD" (numberKind 32) (.number 3),
   globalOption "agent-port" "RUO_AGENT_PORT" (numberKind 16) (.number 8670),
   globalOption "agent-scheme" "RUO_AGENT_SCHEME" .text (.text "http"),
   globalOption "username" "RUO_USERNAME" .text (.text "ruo"),
   globalOption "instance-name" "RUO_INSTANCE_NAME" .text (.text "ruo"),
   ⟨"slack-webhook-url", some .text, some "RUO_SLACK_WEBHOOK_URL", none, false⟩,
   globalOption "notify-on-upgrade" "RUO_NOTIFY_ON_UPGRADE" .truth (.truth true),
   globalOption "notify-on-downgrade" "RUO_NOTIFY_ON_DOWNGRADE" .truth (.truth true),
   globalOption "health-port" "RUO_HEALTH_PORT" (numberKind 16) (.number 8080),
   globalOption "metrics-port" "RUO_METRICS_PORT" (numberKind 16) (.number 8081),
   globalOption "log-format" "RUO_LOG_FORMAT" .text (.text "json"),
   globalOption "log-level" "RUO_LOG_LEVEL" .text (.text "info")]

def commands : List CommandSpec :=
  [⟨"plan", [topologyOption, switch "downgrade", switch "skip-service-checks"]⟩,
   ⟨"apply",
    [topologyOption, switch "skip-service-checks",
     ⟨"on-hold", some (.choice (HoldAction.all.map HoldAction.name)), some "RUO_ON_HOLD",
      some (.text HoldAction.wait.name), false⟩,
     ⟨"max-run-retries", some (numberKind 32), some "RUO_MAX_RUN_RETRIES", some (.number 3), false⟩,
     switch "downgrade-on-abort"]⟩,
   ⟨"schema", []⟩]

/-- All that may stand on the command line. -/
def grammar : Grammar := ⟨globalOptions, commands⟩

/-- The variables of the environment that are looked at. -/
def variableNames : List String :=
  (globalOptions ++ commands.flatMap CommandSpec.options).filterMap OptionSpec.envVar

/-! ## Values -/

def numberOf (values : Values) (name : String) : Nat :=
  match values.lookup name with
  | some (.number n) => n
  | _ => 0

def textOf (values : Values) (name : String) : String :=
  match values.lookup name with
  | some (.text s) => s
  | _ => ""

def truthOf (values : Values) (name : String) : Bool :=
  match values.lookup name with
  | some (.truth b) => b
  | _ => false

def milliseconds (values : Values) (name : String) : Nat := 1000 * numberOf values name

def engineOf (values : Values) : EngineSettings where
  dispatch :=
    { maxTaskRetries := UInt32.ofNat (numberOf values "max-task-retries")
      taskTimeoutMs := milliseconds values "task-timeout-seconds"
      maxConcurrentHosts := numberOf values "max-concurrent-hosts" }
  probe :=
    { username := textOf values "username"
      instanceName := textOf values "instance-name"
      intervalMs := milliseconds values "ping-interval-seconds"
      timeoutMs := milliseconds values "ping-timeout-seconds"
      failureThreshold := UInt32.ofNat (numberOf values "ping-failure-threshold") }
  notification :=
    { onUpgrade := truthOf values "notify-on-upgrade"
      onDowngrade := truthOf values "notify-on-downgrade" }

def commandOf (name : String) (values : Values) : Command :=
  match name with
  | "plan" =>
    .plan (textOf values "topology") (truthOf values "downgrade")
      (truthOf values "skip-service-checks")
  | "apply" => .apply
    { topology := textOf values "topology"
      skipServiceChecks := truthOf values "skip-service-checks"
      onHold := (HoldAction.all.find? fun a => a.name = textOf values "on-hold").getD .wait
      maxRunRetries := UInt32.ofNat (numberOf values "max-run-retries")
      downgradeOnAbort := truthOf values "downgrade-on-abort" }
  | _ => .schema

/-- The configuration that values give. An empty address for notices is none. -/
def ofValues (name : String) (values : Values) : Config where
  command := commandOf name values
  engine := engineOf values
  agentScheme := textOf values "agent-scheme"
  agentPort := numberOf values "agent-port"
  slackUrl := some (textOf values "slack-webhook-url") |>.filter fun url => !url.isEmpty
  healthPort := numberOf values "health-port"
  metricsPort := numberOf values "metrics-port"
  logFormat := textOf values "log-format"
  logLevel := textOf values "log-level"

/-- The configuration that arguments and the environment give. -/
def parse (env : String → Option String) (args : List String) : Except Refusal Config := do
  let (name, values) ← CommandLine.parse grammar env args
  return ofValues name values

end Config

end Rollout
