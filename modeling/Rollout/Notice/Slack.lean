-- SUMMARY: Notices as messages of a Slack webhook.
import Rollout.Http.Message
import Rollout.Notice.Basic
import Rollout.Wire.Basic

/-!
# Slack messages

A notice becomes a message of blocks: a header, sections of facts, the failed tasks with one line
for each, and a context line. The members of every object stand in alphabetical order.
-/
namespace Rollout.Notice

/-- The sign in front of the title. -/
def sign : RunState → String
  | .pending | .running => ":arrow_forward:"
  | .holding => ":warning:"
  | .suspended => ":double_vertical_bar:"
  | .completed => ":white_check_mark:"
  | .aborted => ":x:"

/-- The greatest number of facts in one section. -/
def sectionLimit : Nat := 10

/-- Cut a list into pieces of at most `size` entries. -/
def chunks {α : Type} (size : Nat) (xs : List α) : List (List α) :=
  (List.range ((xs.length + size - 1) / size)).map fun i => (xs.drop (i * size)).take size

/-- A text with mark-up. -/
def markdown (text : String) : Json :=
  Json.record [("text", Json.text text), ("type", Json.text "mrkdwn")]

def headerBlock (n : Notice) : Json :=
  let title := Json.record
    [("emoji", .bool true), ("text", Json.text s!"{sign n.state} {n.title}"),
     ("type", Json.text "plain_text")]
  Json.record [("text", title), ("type", Json.text "header")]

/-- A section with the facts as fields, each label in bold over its value. -/
def factsBlock (facts : List (String × String)) : Json :=
  let fields := facts.map fun (label, value) => markdown s!"*{label}*\n{value}"
  Json.record [("fields", .array fields), ("type", Json.text "section")]

def failedLine (row : FailedTaskRow) : String :=
  s!"• `{row.host}` {row.target} *{row.status}*: {row.error}"

/-- The lines about the failed tasks; the last one counts the tasks without a line. -/
def failedLines (n : Notice) : List String :=
  n.failed.map failedLine
    ++ (if n.moreFailed > 0 then [s!"_and {n.moreFailed} more failed tasks_"] else [])

def failedText (n : Notice) : String := "\n".intercalate n.failedLines

def failedBlock (n : Notice) : Json :=
  Json.record [("text", markdown n.failedText), ("type", Json.text "section")]

/-- The line that names the run and its state. -/
def contextBlock (n : Notice) : Json :=
  let line := s!"ruo | Upgrade/{n.runId.render} | {n.state.name}"
  Json.record [("elements", .array [markdown line]), ("type", Json.text "context")]

def toSlack (n : Notice) : Json :=
  let blocks := [n.headerBlock] ++ (chunks sectionLimit n.facts).map factsBlock
    ++ (if n.failed.isEmpty then [] else [n.failedBlock]) ++ [n.contextBlock]
  Json.record
    [("blocks", .array blocks),
     ("text", Json.text s!"{n.title} (Upgrade/{n.runId.render})")]

/-- The request that posts a notice to a webhook. -/
def slackRequest (webhook : String) (n : Notice) : Except Http.Failure Http.Request := do
  return ⟨← Http.address webhook, n.toSlack⟩

end Rollout.Notice
