-- SUMMARY: The failed tasks of a message: each takes as many lines as its error has, and only rejections have several.
import Rollout.Agent.Client
import Rollout.Notice.Slack
import Rollout.Proofs.Notice.Failures
import Rollout.Proofs.Run.Errors
import Rollout.Proofs.Text.Lines

/-!
# Lines of failed tasks

The section about the failed tasks of a message has a line for each row, in their order, and a last one that counts
the others. The error of a task stands at the end of its line as it was recorded. A fault of the transport was folded
into one line before, and most other faults are worded in one line. But the reason of a rejection is taken from the
agent as it is: each line feed in it adds a line to the section.
-/
namespace Rollout

/-- What is reported of a task when the agent on a host, the way to it, or the work on it fails. The executor says
what did not come to the agent, and all that comes from there is of this kind (`AgentEndpoint.execute_reported`). -/
inductive Fault.ReportedFrom (host : String) : Fault → Prop
  | unreachable (missed : UInt32) : ReportedFrom host (.hostUnreachable host missed)
  | rejected (reason : String) : ReportedFrom host (.commandRejected host reason)
  | timedOut (seconds : Nat) : ReportedFrom host (.taskTimeout host seconds)
  | lost (reason : String) : ReportedFrom host (.inTransport host reason)
  | unattended {reason : String} (plain : '\n' ∉ reason.toList) : ReportedFrom host (.fatal reason)

/-- No service, component or host has a name with a line feed. -/
def Topology.NamesAreLines (t : Topology) : Prop :=
  ∀ s ∈ t.services, '\n' ∉ s.name.toList ∧ ∀ c ∈ s.components, '\n' ∉ c.name.toList ∧
    ∀ host ∈ c.hosts, '\n' ∉ host.toList

instance (t : Topology) : Decidable t.NamesAreLines :=
  inferInstanceAs (Decidable (∀ s ∈ t.services, '\n' ∉ s.name.toList ∧ ∀ c ∈ s.components,
    '\n' ∉ c.name.toList ∧ ∀ host ∈ c.hosts, '\n' ∉ host.toList))

namespace FailedTaskRow

/-- The line of a row up to its error. -/
def opening (row : FailedTaskRow) : String := s!"• `{row.host}` {row.target} *{row.status}*: "

/-- The lines that a row takes: those of its error, the first one behind the opening. -/
def lines (row : FailedTaskRow) : List String := (Text.lines row.error).modifyHead (row.opening ++ ·)

/-- Nothing but the error has a line feed. -/
structure IsPlain (row : FailedTaskRow) : Prop where
  host : '\n' ∉ row.host.toList
  target : '\n' ∉ row.target.toList
  status : '\n' ∉ row.status.toList

end FailedTaskRow

/-- How many line feeds the errors of the rows have. -/
def Notice.breaks (n : Notice) : Nat :=
  (n.failed.map fun row => row.error.toList.count '\n').foldr (· + ·) 0

/-- The line that counts the failed tasks without a row, if there are any. -/
def Notice.overflow (n : Notice) : List String :=
  if n.moreFailed > 0 then [s!"_and {n.moreFailed} more failed tasks_"] else []

open Text (not_mem_append)

-- ---------------------------------------------------------------------------
-- Faults
-- ---------------------------------------------------------------------------

/-- What the agent on a host is asked to do fails with a fault that is reported from the host. -/
theorem AgentEndpoint.execute_reported (e : AgentEndpoint) {host : String} {exchange : Http.Exchange}
    {fault : Fault} (failed : e.execute host exchange = .error fault) : fault.ReportedFrom host := by
  unfold execute answer at failed
  cases response : (Http.address (e.addressText host commandPath)).bind exchange.response with
  | error f =>
    rw [response] at failed
    cases failed
    exact .lost f.message
  | ok answered =>
    rw [response] at failed
    change answered.commandResult host = _ at failed
    unfold Http.Response.commandResult at failed
    split at failed
    · cases failed
      exact .rejected _
    · split at failed
      · cases failed
        exact .lost _
      · split at failed
        · cases failed
        · cases failed
          exact .rejected _

/-- Of the faults that are reported, only rejections can have several lines, when their reason has. -/
theorem Fault.ReportedFrom.rejected_of_feed {host : String} {fault : Fault} (reported : fault.ReportedFrom host)
    (plain : '\n' ∉ host.toList) (feed : '\n' ∈ fault.message.toList) :
    ∃ reason, fault = .commandRejected host reason ∧ '\n' ∈ reason.toList := by
  refine Classical.byContradiction fun none_rejected => absurd feed ?_
  cases reported with
  | rejected reason =>
    have one_line : '\n' ∉ reason.toList := fun several => none_rejected ⟨reason, rfl, several⟩
    change '\n' ∉ s!"[{host}] command rejected: {reason}".toList
    simp only [toString, not_mem_append, plain, one_line, not_false_eq_true, and_true]
    decide
  | unreachable missed =>
    change '\n' ∉ s!"[{host}] host unreachable after {missed.toNat} missed pings".toList
    simp only [toString, not_mem_append, plain, Text.repr_plain, not_false_eq_true, and_true]
    decide
  | timedOut seconds =>
    change '\n' ∉ s!"[{host}] task timed out after {seconds}s".toList
    simp only [toString, not_mem_append, plain, Text.repr_plain, not_false_eq_true, and_true]
    decide
  | lost reason =>
    change '\n' ∉ s!"[{host}] agent transport error: {Text.oneLine reason}".toList
    simp only [toString, not_mem_append, plain, Text.oneLine_plain, not_false_eq_true, and_true]
    decide
  | @unattended reason one_line =>
    change '\n' ∉ s!"Fatal orchestration error: {reason}".toList
    simp only [toString, not_mem_append, one_line, not_false_eq_true, and_true]
    decide

-- ---------------------------------------------------------------------------
-- Rows
-- ---------------------------------------------------------------------------

namespace FailedTaskRow

variable {row : FailedTaskRow}

theorem IsPlain.opening (plain : row.IsPlain) : '\n' ∉ row.opening.toList := by
  simp only [FailedTaskRow.opening, toString, not_mem_append, plain.host, plain.target, plain.status,
    not_false_eq_true, and_true]
  decide

/-- The text of a row has the lines of the row. -/
theorem IsPlain.lines_failedLine (plain : row.IsPlain) :
    Text.lines (Notice.failedLine row) = row.lines := by
  have split : Notice.failedLine row = row.opening ++ row.error := rfl
  rw [split, Text.lines_append plain.opening]
  rfl

theorem lines_length (row : FailedTaskRow) : row.lines.length = row.error.toList.count '\n' + 1 := by
  rw [lines, List.length_modifyHead, Text.lines_length]

/-- A row whose error is one line takes one. -/
theorem IsPlain.lines_of_error (plain : row.IsPlain) (one_line : '\n' ∉ row.error.toList) :
    row.lines = [Notice.failedLine row] := by
  rw [← plain.lines_failedLine]
  exact Text.lines_of_not_mem (not_mem_append.mpr ⟨plain.opening, one_line⟩)

end FailedTaskRow

namespace Notice

variable {n : Notice}

theorem failedLines_eq (n : Notice) : n.failedLines = n.failed.map failedLine ++ n.overflow := rfl

theorem overflow_plain (n : Notice) : n.overflow.flatMap Text.lines = n.overflow := by
  unfold overflow
  split
  · rw [List.flatMap_singleton]
    refine Text.lines_of_not_mem ?_
    simp only [toString, not_mem_append, Text.repr_plain, not_false_eq_true, and_true]
    decide
  · rfl

/-- The section has the lines of its rows, and the one that counts the others. -/
theorem lines_failedText (some_failed : n.failed ≠ []) (plain : ∀ row ∈ n.failed, row.IsPlain) :
    Text.lines n.failedText = n.failed.flatMap FailedTaskRow.lines ++ n.overflow := by
  have some_line : n.failedLines ≠ [] := by
    rw [failedLines_eq]
    simp [some_failed]
  rw [failedText, Text.lines_intercalate some_line, failedLines_eq, List.flatMap_append, overflow_plain,
    List.flatMap_map]
  exact congrArg (· ++ n.overflow) (List.flatMap_congr fun row hrow => (plain row hrow).lines_failedLine)

/-- Every line feed of an error adds a line. -/
theorem lines_failedText_length (some_failed : n.failed ≠ []) (plain : ∀ row ∈ n.failed, row.IsPlain) :
    (Text.lines n.failedText).length = n.failed.length + n.overflow.length + n.breaks := by
  have rows (l : List FailedTaskRow) : (l.flatMap FailedTaskRow.lines).length =
      l.length + (l.map fun row => row.error.toList.count '\n').foldr (· + ·) 0 := by
    induction l with
    | nil => rfl
    | cons row l ih =>
      rw [List.flatMap_cons, List.length_append, ih, FailedTaskRow.lines_length, List.length_cons,
        List.map_cons, List.foldr_cons]
      omega
  rw [lines_failedText some_failed plain, List.length_append, rows, breaks]
  omega

/-- There is one line for each row just when each error is one. -/
theorem lines_failedText_iff (some_failed : n.failed ≠ []) (plain : ∀ row ∈ n.failed, row.IsPlain) :
    Text.lines n.failedText = n.failed.map failedLine ++ n.overflow ↔
      ∀ row ∈ n.failed, '\n' ∉ row.error.toList := by
  constructor
  · intro same row hrow
    have member : failedLine row ∈ Text.lines n.failedText := by
      rw [same]
      exact List.mem_append_left _ (List.mem_map_of_mem hrow)
    exact (not_mem_append.mp (Text.not_mem_of_mem_lines member)).2
  · intro one_line
    rw [lines_failedText some_failed plain]
    refine congrArg (· ++ n.overflow) ?_
    rw [List.flatMap_congr fun row hrow => (plain row hrow).lines_of_error (one_line row hrow)]
    exact List.map_eq_flatMap.symm

/-- A notice with rows is a message with a section for them. -/
theorem toSlack_of_failed (some_failed : n.failed ≠ []) :
    n.toSlack = Json.record
      [("blocks", .array ([n.headerBlock] ++ (chunks sectionLimit n.facts).map factsBlock ++ [n.failedBlock] ++
        [n.contextBlock])),
       ("text", Json.text s!"{n.title} (Upgrade/{n.runId.render})")] := by
  have shown : n.failed.isEmpty = false := List.isEmpty_eq_false_iff.mpr some_failed
  rw [toSlack, shown]
  rfl

end Notice

-- ---------------------------------------------------------------------------
-- Runs
-- ---------------------------------------------------------------------------

namespace Run

variable {r : Run}

theorem MirrorsPlan.spec_mem (h : r.MirrorsPlan) {u : Task} (hu : u ∈ r.tasks) : u.spec ∈ r.plan.specs := by
  obtain ⟨g, s, group, stage, entry⟩ := h.entry hu
  rw [Plan.specs_eq]
  exact List.mem_flatMap.mpr ⟨g, List.mem_of_getElem? group,
    List.mem_flatMap.mpr ⟨s, List.mem_of_getElem? stage, entry⟩⟩

/-- The row of a task takes its names from the topology. -/
theorem MirrorsPlan.row_plain (h : r.MirrorsPlan) {t : Topology} {policy : Policy}
    (built : Plan.build t policy = .ok r.plan) (named : t.NamesAreLines) {u : Task} (hu : u ∈ r.tasks) :
    (Notice.row u).IsPlain := by
  obtain ⟨s, hs, component, hc, host, hh, placement⟩ := Plan.expand_placement built (h.spec_mem hu)
  simp only [TaskSpec.placement, Task.spec, Placement.mk.injEq] at placement
  obtain ⟨service_name, component_name, host_name⟩ := placement
  obtain ⟨service_plain, components⟩ := named s hs
  obtain ⟨component_plain, hosts⟩ := components component hc
  refine ⟨?_, ?_, ?_⟩
  · change '\n' ∉ u.host.toList
    rw [host_name]
    exact hosts host hh
  · change '\n' ∉ s!"{u.service}/{u.component}".toList
    rw [service_name, component_name]
    simp only [toString, not_mem_append, service_plain, component_plain, not_false_eq_true, and_true]
    decide
  · change '\n' ∉ u.status.name.toList
    cases u.status <;> decide

/-- A run that holds has failed tasks to show. -/
theorem Held.failedTasks_ne_nil (h : r.Held) : r.failedTasks ≠ [] := by
  obtain ⟨u, hu⟩ := List.exists_mem_of_ne_nil _ h.failures_ne_nil
  obtain ⟨staged, failed⟩ := List.mem_filter.mp hu
  exact List.ne_nil_of_mem (List.mem_filter.mpr ⟨(mem_stageTasks.mp staged).1, failed⟩)

/-- The error in a row has a line feed only if the reason of a rejection of its task has. -/
theorem rejection_of_feed {id : RunId} {plan : Plan} {policy : Policy} {made : Timestamp}
    {history : List (Timestamp × Call)}
    (reported : ∀ task fault, Tells history task fault →
      ∃ host : String, '\n' ∉ host.toList ∧ fault.ReportedFrom host)
    {u : Task} (hu : u ∈ ((create id plan policy made).after history).tasks)
    (feed : '\n' ∈ (Notice.row u).error.toList) :
    ∃ host reason, Tells history u.id (.commandRejected host reason) ∧ '\n' ∈ reason.toList ∧
      (Notice.row u).error = (Fault.commandRejected host reason).message := by
  have shown : (Notice.row u).error = u.lastError.getD "no error recorded" := rfl
  rw [shown] at feed ⊢
  cases recorded : u.lastError with
  | none =>
    rw [recorded] at feed
    exact absurd feed (by decide)
  | some error =>
    rw [recorded] at feed
    obtain ⟨fault, tells, rfl⟩ := told_of_error id plan policy made history hu recorded
    obtain ⟨host, plain, from_host⟩ := reported u.id fault tells
    obtain ⟨reason, rfl, several⟩ := from_host.rejected_of_feed plain feed
    exact ⟨host, reason, tells, several, rfl⟩

/-- The failed tasks of a run that holds in its message. After every history of a run of a topology whose names are
lines, in which events tell faults as agents and supervisors report them, the message has a section with the lines of
the rows, in their order and each behind the host of its row, and one that counts the others, if there are any. Every
line feed in the error of a row adds a line. So there is exactly one line for each row just when no error has a line
feed, and an error that has one is the rejection of a command whose reason has it. -/
theorem failed_tasks_take_the_lines_of_their_errors {t : Topology} {policy : Policy} {plan : Plan}
    (built : Plan.build t policy = .ok plan) (named : t.NamesAreLines) (id : RunId) (made : Timestamp)
    (history : List (Timestamp × Call))
    (reported : ∀ task fault, Tells history task fault →
      ∃ host : String, '\n' ∉ host.toList ∧ fault.ReportedFrom host)
    {r : Run} (reached : (create id plan policy made).after history = r) (holding : r.state = .holding)
    (previous : RunState) :
    ∃ n, Notice.ofRun? r previous = some n ∧ n.failed ≠ [] ∧
      n.toSlack = Json.record
        [("blocks", .array ([n.headerBlock] ++ (Notice.chunks Notice.sectionLimit n.facts).map Notice.factsBlock ++
          [n.failedBlock] ++ [n.contextBlock])),
         ("text", Json.text s!"{n.title} (Upgrade/{n.runId.render})")] ∧
      Text.lines n.failedText = n.failed.flatMap FailedTaskRow.lines ++ n.overflow ∧
      (Text.lines n.failedText).length = n.failed.length + n.overflow.length + n.breaks ∧
      (Text.lines n.failedText = n.failed.map Notice.failedLine ++ n.overflow ↔
        ∀ row ∈ n.failed, '\n' ∉ row.error.toList) ∧
      (∀ row ∈ n.failed, '\n' ∈ row.error.toList → ∃ u ∈ r.failedTasks, row = Notice.row u ∧
        ∃ host reason, Tells history u.id (.commandRejected host reason) ∧ '\n' ∈ reason.toList ∧
          row.error = (Fault.commandRejected host reason).message) ∧
      ((∀ task host reason, Tells history task (.commandRejected host reason) → '\n' ∉ reason.toList) →
        Text.lines n.failedText = n.failed.map Notice.failedLine ++ n.overflow) := by
  subst reached
  have mirrors := mirrorsPlan_after id plan policy made history
  have same : ((create id plan policy made).after history).plan = plan := after_plan _ history
  have held := held_after id plan policy made history holding
  obtain ⟨n, notice, rows, _⟩ := notice_of_holding holding previous
  have some_failed : n.failed ≠ [] := by
    rw [rows]
    exact fun none_shown => held.failedTasks_ne_nil
      ((List.take_eq_nil_iff.mp (List.map_eq_nil_iff.mp none_shown)).resolve_left (by decide))
  have of_task : ∀ row ∈ n.failed,
      ∃ u ∈ ((create id plan policy made).after history).failedTasks, row = Notice.row u := by
    intro row hrow
    rw [rows] at hrow
    obtain ⟨u, hu, rfl⟩ := List.mem_map.mp hrow
    exact ⟨u, List.mem_of_mem_take hu, rfl⟩
  have plain : ∀ row ∈ n.failed, row.IsPlain := by
    intro row hrow
    obtain ⟨u, hu, rfl⟩ := of_task row hrow
    exact mirrors.row_plain (same.symm ▸ built) named (List.mem_filter.mp hu).1
  refine ⟨n, notice, some_failed, Notice.toSlack_of_failed some_failed,
    Notice.lines_failedText some_failed plain, Notice.lines_failedText_length some_failed plain,
    Notice.lines_failedText_iff some_failed plain, fun row hrow feed => ?_, fun one_line => ?_⟩
  · obtain ⟨u, hu, rfl⟩ := of_task row hrow
    exact ⟨u, hu, rfl, rejection_of_feed reported (List.mem_filter.mp hu).1 feed⟩
  · refine (Notice.lines_failedText_iff some_failed plain).mpr fun row hrow feed => ?_
    obtain ⟨u, hu, rfl⟩ := of_task row hrow
    obtain ⟨host, reason, tells, several, _⟩ := rejection_of_feed reported (List.mem_filter.mp hu).1 feed
    exact one_line u.id host reason tells several

/-- The restart of the cache ends with a fault, which makes the run hold. -/
def cacheFails (fault : Fault) : List (Timestamp × Call) :=
  [.start, .step, .apply (.finished 0 (.failed fault 0)), .step].map fun c => (.epoch, c)

/-- The scheme of the agents was left empty. -/
def noScheme : AgentEndpoint := ⟨"", 8670⟩

/-- What the client says when it is to send a command and can build no address. -/
def unaddressed : Fault := .inTransport "alpha" "builder error"

/-- The command for the cache cannot be sent, which the endpoint reports in one line. -/
theorem failed_tasks_take_the_lines_of_their_errors_unaddressed :
    let r := (create (.ofNat 0) cacheAndDbPlan .upgrade .epoch).after (cacheFails unaddressed)
    Plan.build cacheAndDb .upgrade = .ok cacheAndDbPlan ∧ cacheAndDb.NamesAreLines ∧ r.state = .holding ∧
      ∃ n, Notice.ofRun? r .running = some n ∧ n.failed ≠ [] ∧
        Text.lines n.failedText = n.failed.map Notice.failedLine ++ n.overflow := by
  intro r
  have built : Plan.build cacheAndDb .upgrade = .ok cacheAndDbPlan := by decide +kernel
  have named : cacheAndDb.NamesAreLines := by decide
  have holding : r.state = .holding := by decide +kernel
  have unsent : noScheme.execute "alpha" .unsent = .error unaddressed := rfl
  have told (task : Nat) (fault : Fault) (tells : Tells (cacheFails unaddressed) task fault) :
      fault = unaddressed := by
    obtain ⟨now, outcome, member, faulty⟩ := tells
    simp only [cacheFails, List.map_cons, List.map_nil, List.mem_cons, Prod.mk.injEq, List.not_mem_nil,
      or_false, reduceCtorEq, and_false, false_or, Call.apply.injEq, TaskEvent.finished.injEq] at member
    obtain ⟨_, _, rfl⟩ := member
    exact (Option.some.inj faulty).symm
  obtain ⟨n, notice, some_failed, _, _, _, _, _, lines⟩ := failed_tasks_take_the_lines_of_their_errors built named
    (.ofNat 0) .epoch (cacheFails unaddressed) (fun task fault tells => by
      rw [told task fault tells]
      exact ⟨"alpha", by decide, noScheme.execute_reported unsent⟩) rfl holding .running
  refine ⟨built, named, holding, n, notice, some_failed, lines fun task host reason tells => ?_⟩
  cases told task _ tells

/-- The agent rejects the command with a message of two lines, and the only failed task takes both. -/
theorem rejection_takes_two_lines :
    let r := (create (.ofNat 0) cacheAndDbPlan .upgrade .epoch).after
      (cacheFails (.commandRejected "alpha" "disk full\nsee log"))
    Plan.build cacheAndDb .upgrade = .ok cacheAndDbPlan ∧ cacheAndDb.NamesAreLines ∧ r.state = .holding ∧
      ∃ n, Notice.ofRun? r .running = some n ∧ n.failed.length = 1 ∧ n.moreFailed = 0 ∧
        Text.lines n.failedText =
          ["• `alpha` cache/node *FAILED*: [alpha] command rejected: disk full", "see log"] := by
  intro r
  have holding : r.state = .holding := by decide +kernel
  obtain ⟨n, notice, rows, more⟩ := notice_of_holding holding .running
  refine ⟨by decide +kernel, by decide, holding, n, notice, ?_, ?_, ?_⟩
  · rw [rows]
    decide +kernel
  · rw [more]
    decide +kernel
  · have text : n.failedText = "• `alpha` cache/node *FAILED*: [alpha] command rejected: disk full\nsee log" := by
      rw [Notice.failedText, Notice.failedLines_eq, Notice.overflow, rows, more]
      decide +kernel
    rw [text]
    decide +kernel

end Run

end Rollout
