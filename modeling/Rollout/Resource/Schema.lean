-- SUMMARY: The schema of resources, by which other programs can check the documents that are printed.
import Rollout.Json.Basic
import Rollout.Resource

/-!
# The schema of resources

A schema says which members a document has and of what types they are. The members of every object
stand in alphabetical order.
-/
namespace Rollout.Schema

/-- A list of words. -/
def words (ws : List String) : Json := .array (ws.map Json.text)

/-- A type that a format narrows. -/
def typed (kind : Json) (format : Option String) : Json :=
  Json.record ((format.map fun f => ("format", Json.text f)).toList ++ [("type", kind)])

/-- A text. -/
def text (format : Option String) : Json := typed (Json.text "string") format

/-- A text or nothing. -/
def textOrNothing (format : Option String) : Json := typed (words ["string", "null"]) format

/-- A truth value. -/
def truth : Json := typed (Json.text "boolean") none

/-- A natural number. -/
def natural (format : String) : Json := Json.record
  [("format", Json.text format), ("minimum", Json.nat 0), ("type", Json.text "integer")]

/-- A type with a name. -/
def reference (name : String) : Json :=
  Json.record [("$ref", Json.text s!"#/$defs/{name}")]

/-- One of some words. -/
def choice (description : String) (names : List String) : Json := Json.record
  [("description", Json.text description), ("enum", words names), ("type", Json.text "string")]

/-- A text that is always the same. -/
def constant (value : String) : Json :=
  Json.record [("const", Json.text value), ("type", Json.text "string")]

/-- An object with some members. -/
def object (properties : List (String × Json)) (required : List String) : Json := Json.record
  [("properties", Json.record properties), ("required", words required),
   ("type", Json.text "object")]

/-- The members of a task in a resource. -/
def taskProperties : List (String × Json) :=
  [("component", text none), ("group", text none), ("host", text none), ("id", natural "uint"),
   ("lastError", textOrNothing none), ("operation", reference "OperationKind"),
   ("retryCount", natural "uint32"), ("service", text none), ("stage", text none),
   ("status", reference "TaskStatus")]

/-- A task in a resource. -/
def task : Json :=
  let required := ["id", "group", "stage", "host", "service", "component", "operation", "status",
    "retryCount"]
  Json.record
    [("description", Json.text "Per-task row of an [`UpgradeResource`]."),
     ("properties", Json.record taskProperties), ("required", words required),
     ("type", Json.text "object")]

/-- The types with a name. -/
def definitions : List (String × Json) :=
  let runId := Json.record
    [("description", Json.text "Identifier of an upgrade run."), ("format", Json.text "uuid"),
     ("type", Json.text "string")]
  [("OperationKind", choice "Operation a task performs on one host."
      (Operation.precedence.map Operation.name)),
   ("ResourceType", choice "Closed set of resource types the orchestrator exposes."
      (ResourceType.all.map ResourceType.name)),
   ("RunId", runId),
   ("RunState", choice "Overall state of a run." (RunState.all.map RunState.name)),
   ("TaskStatus", choice "Status of a single task." (TaskStatus.all.map TaskStatus.name)),
   ("TaskView", task)]

/-- The two directions, of which one names the run that it reverses. -/
def directions : Json := .array
  [object [("direction", constant "UPGRADE")] ["direction"],
   object [("direction", constant "DOWNGRADE"), ("of", reference "RunId")] ["direction", "of"]]

/-- A list of tasks, which may be left out. -/
def tasks (description : Option String) : Json := Json.record <|
  ("default", .array []) :: (description.map fun d => ("description", Json.text d)).toList
    ++ [("items", reference "TaskView"), ("type", Json.text "array")]

/-- The members of a resource. -/
def resourceProperties : List (String × Json) :=
  let progress := Json.record
    [("description", Json.text "Share of tasks in a terminal status (0-100)."),
     ("format", Json.text "uint8"), ("maximum", Json.nat 255), ("minimum", Json.nat 0),
     ("type", Json.text "integer")]
  [("completedAt", textOrNothing (some "date-time")), ("createdAt", text (some "date-time")),
   ("currentGroup", textOrNothing none), ("currentStage", textOrNothing none),
   ("failedTasks", tasks (some "Tasks that are FAILED or TIMED_OUT, with their last error.")),
   ("fromVersion", text none), ("id", reference "RunId"), ("kind", reference "ResourceType"),
   ("message", textOrNothing none), ("progressPercent", progress), ("skipServiceChecks", truth),
   ("state", reference "RunState"), ("tasks", tasks none), ("toVersion", text none),
   ("topology", text none), ("updatedAt", text (some "date-time"))]

/-- The schema of resources. -/
def resource : Json :=
  let required := ["kind", "id", "topology", "fromVersion", "toVersion", "state",
    "skipServiceChecks", "progressPercent", "createdAt", "updatedAt"]
  Json.record
    [("$defs", Json.record definitions),
     ("$schema", Json.text "https://json-schema.org/draft/2020-12/schema"),
     ("description", Json.text "Read-only projection of an upgrade run."),
     ("oneOf", directions), ("properties", Json.record resourceProperties),
     ("required", words required), ("title", Json.text "UpgradeResource"),
     ("type", Json.text "object")]

end Rollout.Schema
