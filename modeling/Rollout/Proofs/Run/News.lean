-- SUMMARY: The news of a stage: a driver has the run record each event and step, and only the last step of a stage does anything.
import Rollout.Proofs.Run.Permanence
import Rollout.Proofs.Run.Timeless

/-!
# News of a stage

A driver has its run record each event, and lets it step afterwards. As long as the news are about one stage
the steps have nothing to do but the last, since a stage that is closed takes no more news. So what becomes of
the run is what it heard, followed by one step.
-/
namespace Rollout.Run

/-- What a driver does with an event: the run records it and steps. `none` means that the run refuses it, or
is archived, so that nobody drives it any more. -/
def take? (r : Run) (now : Timestamp) (event : TaskEvent) : Option (Run × List TaskCommand) :=
  if r.state.isTerminal then none
  else
    let (r, recorded) := r.apply now event
    let (r, stepped) := r.step now
    match recorded, stepped with
    | .ok (), .ok commands => some (r, commands)
    | _, _ => none

/-- What a driver does with events, one after the other: the run in the end, and what each step hands out. -/
def drive? (r : Run) : List (Timestamp × TaskEvent) → Option (Run × List (List TaskCommand))
  | [] => some (r, [])
  | (now, event) :: events => do
    let (r, commands) ← r.take? now event
    let (r, batches) ← r.drive? events
    some (r, commands :: batches)

/-- The event is about a task of the current stage. -/
def Concerns (r : Run) (event : TaskEvent) : Prop := ∃ t ∈ r.stageTasks, t.id = event.task

/-- The current stage was handed out, and the run is at it. -/
structure Working (r : Run) : Prop where
  running : r.state = .running
  dispatched : r.stageDispatched = true
  mirrors : r.MirrorsPlan

variable {r : Run} {now : Timestamp} {event : TaskEvent} {events : List (Timestamp × TaskEvent)}

theorem take?_eq_some_iff {out : Run × List TaskCommand} : r.take? now event = some out ↔
    r.state.isTerminal = false ∧ (r.apply now event).2 = .ok () ∧
      (r.apply now event).1.step now = (out.1, .ok out.2) := by
  obtain ⟨commands, steps⟩ := step_eq (r.apply now event).1 now
  unfold take?
  cases live : r.state.isTerminal with
  | true => simp
  | false =>
    rw [if_neg Bool.false_ne_true]
    dsimp only
    rw [steps]
    cases answer : (r.apply now event).2 with
    | error => simp
    | ok =>
      obtain ⟨stepped, handed_out⟩ := out
      simp

theorem drive?_cons {out : Run × List (List TaskCommand)} :
    r.drive? ((now, event) :: events) = some out ↔ ∃ r' commands batches,
      r.take? now event = some (r', commands) ∧ r'.drive? events = some (out.1, batches) ∧
        out.2 = commands :: batches := by
  obtain ⟨last, handed_out⟩ := out
  simp only [drive?, bind, Option.bind_eq_some_iff, Prod.exists, Option.some.injEq, Prod.mk.injEq]
  constructor
  · rintro ⟨r', commands, taken, _, batches, driven, rfl, rfl⟩
    exact ⟨r', commands, batches, taken, driven, rfl⟩
  · rintro ⟨r', commands, batches, taken, driven, rfl⟩
    exact ⟨r', commands, taken, last, batches, driven, rfl, rfl⟩

-- ---------------------------------------------------------------------------
-- Stages under way
-- ---------------------------------------------------------------------------

theorem apply_cursor (r : Run) (now : Timestamp) (event : TaskEvent) :
    (r.apply now event).1.cursor = r.cursor := by
  have applied := apply_applied r now event
  generalize r.apply now event = reply at applied ⊢
  cases applied <;> rfl

/-- Which events are about the current stage is fixed until the cursor moves on. -/
theorem Concerns.of_charter {r' : Run} (h : r.Concerns event) (charter : r'.charter = r.charter)
    (cursor : r'.cursor = r.cursor) : r'.Concerns event := by
  obtain ⟨t, ht, id⟩ := h
  obtain ⟨member, here⟩ := mem_stageTasks.mp ht
  have origins : r'.tasks.map Task.origin = r.tasks.map Task.origin :=
    (charter_eq_iff.mp charter).2.2.2.2
  have kept : t.origin ∈ r'.tasks.map Task.origin := origins ▸ List.mem_map_of_mem member
  obtain ⟨t', ht', origin⟩ := List.mem_map.mp kept
  simp only [Task.origin, Prod.mk.injEq] at origin
  refine ⟨t', mem_stageTasks.mpr ⟨ht', ?_⟩, origin.2.trans id⟩
  rw [Task.isAt, origin.1.1, origin.1.2.1, cursor]
  exact here

theorem Concerns.apply (h : r.Concerns event) (now : Timestamp) (other : TaskEvent) :
    (r.apply now other).1.Concerns event :=
  h.of_charter (apply_applied r now other).charter (apply_cursor r now other)

/-- An event that is recorded is about a task that is not over. -/
theorem unfinished_of_apply (live : r.state.isTerminal = false)
    (recorded : (r.apply now event).2 = .ok ()) :
    ∃ t, r.task? event.task = some t ∧ t.isAt r.cursor = true ∧ t.status.isTerminal = false := by
  have applied := apply_applied r now event
  generalize r.apply now event = reply at applied recorded
  cases applied with
  | dropped archived => rw [live] at archived; cases archived
  | refused => cases recorded
  | begun _ task here unfinished | ended _ task here unfinished => exact ⟨_, task, here, unfinished⟩

namespace Working

theorem live (h : r.Working) : r.state.isTerminal = false := by
  rw [h.running]
  rfl

/-- No event takes a run away from its stage. -/
theorem apply (h : r.Working) (now : Timestamp) (event : TaskEvent) :
    (r.apply now event).1.Working := by
  have applied := apply_applied r now event
  have mirrors := h.mirrors.of_charter applied.charter
  generalize r.apply now event = reply at applied mirrors ⊢
  cases applied with
  | dropped | refused => exact h
  | begun | ended => exact ⟨h.running, h.dispatched, mirrors⟩

/-- As long as the stage is open, a step has nothing to do. -/
theorem waits (h : r.Working) (is_open : r.stageIsOpen = true) : r.Waits := by
  intro _
  obtain ⟨t, ht, _⟩ := stageIsOpen_iff.mp is_open
  obtain ⟨s, stage⟩ := h.mirrors.currentStage? ht
  exact ⟨by rw [stage]; rfl, h.dispatched, is_open⟩

/-- A run that records an event about its stage is at an open stage. -/
theorem open_of_apply (h : r.Working) (recorded : (r.apply now event).2 = .ok ()) :
    r.stageIsOpen = true := by
  obtain ⟨t, task, here, unfinished⟩ := unfinished_of_apply h.live recorded
  exact stageIsOpen_iff.mpr ⟨t, mem_stageTasks.mpr ⟨List.mem_of_getElem? task, here⟩, unfinished⟩

/-- Once the stage is closed, the run takes no event about it after the next step. -/
theorem open_of_take (h : r.Working) (about : r.Concerns event) (before : Timestamp)
    {out : Run × List TaskCommand} (taken : (r.step before).1.take? now event = some out) :
    r.stageIsOpen = true := by
  obtain ⟨t, ht, id⟩ := about
  obtain ⟨member, _⟩ := mem_stageTasks.mp ht
  have task : r.task? event.task = some t := id ▸ h.mirrors.task?_id member
  refine stageIsOpen_iff.mpr ⟨t, ht, Bool.eq_false_iff.mpr fun ended => ?_⟩
  have kept : (r.step before).1.task? event.task = some t :=
    call_keeps r before (c := .step) (by simp) _ t task ended
  obtain ⟨live, recorded, _⟩ := take?_eq_some_iff.mp taken
  obtain ⟨t', task', _, unfinished⟩ := unfinished_of_apply live recorded
  cases kept.symm.trans task'
  exact absurd ended (Bool.eq_false_iff.mp unfinished)

/-- As long as there are more news of the stage, the steps have nothing to do. -/
theorem drive?_cons (h : r.Working) {before : Timestamp} {first : TaskEvent}
    (about : r.Concerns event) {out : Run × List (List TaskCommand)} :
    r.drive? ((before, first) :: (now, event) :: events) = some out ↔
      (r.apply before first).2 = .ok () ∧ ∃ batches,
        (r.apply before first).1.drive? ((now, event) :: events) = some (out.1, batches) ∧
          out.2 = [] :: batches := by
  have heard := h.apply before first
  have still_about := about.apply before first
  generalize heard_run : (r.apply before first).1 = r' at heard still_about ⊢
  have idle (is_open : r'.stageIsOpen = true) : r'.step before = (r', .ok []) :=
    (heard.waits is_open).step before
  rw [Run.drive?_cons]
  constructor
  · rintro ⟨r₁, commands, batches, taken, driven, all⟩
    obtain ⟨_, recorded, steps⟩ := take?_eq_some_iff.mp taken
    rw [heard_run] at steps
    obtain ⟨r₂, handed_out, _, taken', _, _⟩ := Run.drive?_cons.mp driven
    have is_open : r'.stageIsOpen = true :=
      heard.open_of_take still_about before (by rw [steps]; exact taken')
    cases steps.symm.trans (idle is_open)
    exact ⟨recorded, batches, driven, all⟩
  · rintro ⟨recorded, batches, driven, all⟩
    obtain ⟨_, _, _, taken', _, _⟩ := Run.drive?_cons.mp driven
    have is_open : r'.stageIsOpen = true := heard.open_of_apply (take?_eq_some_iff.mp taken').2.1
    refine ⟨r', [], batches, take?_eq_some_iff.mpr ⟨h.live, recorded, ?_⟩, driven, all⟩
    rw [heard_run]
    exact idle is_open

/-- A driver gets through news of the current stage just when the run accepts them in this order, and only its
last step does anything. -/
theorem drive?_eq_some_iff (h : r.Working) (about : ∀ e ∈ events, r.Concerns e.2)
    (about_last : r.Concerns event) {out : Run × List (List TaskCommand)} :
    r.drive? (events ++ [(now, event)]) = some out ↔
      r.Accepts (events ++ [(now, event)]) ∧ ∃ commands,
        (r.hear (events ++ [(now, event)])).step now = (out.1, .ok commands) ∧
          out.2 = List.replicate events.length [] ++ [commands] := by
  induction events generalizing r out with
  | nil =>
    rw [List.nil_append, Run.drive?_cons]
    constructor
    · rintro ⟨r', commands, _, taken, driven, all⟩
      obtain ⟨_, recorded, steps⟩ := take?_eq_some_iff.mp taken
      cases driven
      exact ⟨⟨recorded, trivial⟩, commands, steps, all⟩
    · rintro ⟨⟨recorded, _⟩, commands, steps, all⟩
      exact ⟨_, _, _, take?_eq_some_iff.mpr ⟨h.live, recorded, steps⟩, rfl, all⟩
  | cons e events ih =>
    obtain ⟨before, first⟩ := e
    have later : ∀ e ∈ events, (r.apply before first).1.Concerns e.2 := fun e he =>
      (about e (List.mem_cons_of_mem _ he)).apply before first
    have ih := @ih (r.apply before first).1 (h.apply before first) later
      (about_last.apply before first)
    obtain ⟨now', event', events', same⟩ :
        ∃ now' event' events', events ++ [(now, event)] = (now', event') :: events' := by
      cases events with
      | nil => exact ⟨_, _, _, rfl⟩
      | cons e events => exact ⟨e.1, e.2, _, rfl⟩
    have about' : r.Concerns event' := by
      have member : (now', event') ∈ events ++ [(now, event)] := same ▸ List.mem_cons_self
      obtain old | last := List.mem_append.mp member
      · exact about _ (List.mem_cons_of_mem _ old)
      · cases List.mem_singleton.mp last
        exact about_last
    rw [List.cons_append, Accepts, Run.hear, List.length_cons, List.replicate_succ, same,
      h.drive?_cons about', ← same]
    simp only [ih]
    constructor
    · rintro ⟨recorded, batches, ⟨accepts, commands, steps, rfl⟩, all⟩
      exact ⟨⟨recorded, accepts⟩, commands, steps, all⟩
    · rintro ⟨⟨recorded, accepts⟩, commands, steps, all⟩
      exact ⟨recorded, _, ⟨accepts, commands, steps, rfl⟩, all⟩

end Working

end Rollout.Run
