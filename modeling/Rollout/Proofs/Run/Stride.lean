-- SUMMARY: A step of a run as a sequence of strides, each of which takes one decision.
import Rollout.Proofs.Run.Change

/-!
# Strides

`Run.step` goes as far as it can. What it does on the way is one of five things, the strides, and it
ends in one of two ways: it waits, or it hands commands out. An invariant of steps is an invariant of
strides and of handing out.
-/
namespace Rollout.Run

/-! ## Strides -/

/-- What a step does on its way. -/
inductive Stride (now : Timestamp) : Run → Run → Prop
  /-- There is nothing to hand out in the stage. -/
  | handOut {r : Run} {s : Stage} (running : r.state = .running) (stage : r.currentStage? = some s)
      (fresh : r.stageDispatched = false) (nothing : (r.queueStage now).2 = []) :
      Stride now r (r.handOut now)
  | closeStage {r : Run} {s : Stage} (running : r.state = .running)
      (stage : r.currentStage? = some s) (dispatched : r.stageDispatched = true)
      (closed : r.stageIsOpen = false) (clear : r.blocking = []) : Stride now r (r.closeStage now)
  | hold {r : Run} {s : Stage} (running : r.state = .running)
      (stage : r.currentStage? = some s) (dispatched : r.stageDispatched = true)
      (closed : r.stageIsOpen = false) (blocked : r.blocking ≠ []) : Stride now r (r.hold now)
  | closeGroup {r : Run} {g : Group} (running : r.state = .running)
      (group : r.currentGroup? = some g) (done : g.stages.length ≤ r.cursor.stage) :
      Stride now r r.closeGroup
  | complete {r : Run} (running : r.state = .running) (done : r.currentGroup? = none) :
      Stride now r (r.complete now)

/-- How a step ends. -/
inductive StepEnd (now : Timestamp) (r : Run) : Reply (List TaskCommand) → Prop
  /-- The run is not running, or its current stage was handed out and is open. -/
  | wait (waits : r.state = .running →
      r.currentStage?.isSome ∧ r.stageDispatched = true ∧ r.stageIsOpen = true) :
      StepEnd now r (r, .ok [])
  | dispatch {s : Stage} (running : r.state = .running) (stage : r.currentStage? = some s)
      (fresh : r.stageDispatched = false) (something : (r.queueStage now).2 ≠ []) :
      StepEnd now r (r.handOut now, .ok (r.queueStage now).2)

theorem Stride.change {now : Timestamp} {r r' : Run} (h : Stride now r r') : Change now r r' := by
  cases h with
  | handOut running _ fresh => exact .handOut running fresh
  | closeStage running _ _ closed clear => exact .closeStage running closed clear
  | hold running _ _ closed blocked => exact .hold running closed blocked
  | closeGroup running group done => exact .closeGroup running group done
  | complete running done => exact .complete running done

/-- What a step does with a stage that was handed out; `rest` are the stages behind it. -/
def workStage (now : Timestamp) (rest : List Stage) (r : Run) :
    Run × Option (Except Fault (List TaskCommand)) :=
  if r.stageIsOpen then (r, some (.ok []))
  else if r.blocking = [] then stepStages now rest (r.closeStage now)
  else (r.hold now, some (.ok []))

theorem workStage_eq {now : Timestamp} {rest : List Stage} {r : Run}
    (running : r.state = .running) :
    (if r.stageIsOpen then (r, some (.ok []))
      else match r.advance now with
        | (r, .ok true) => stepStages now rest r
        | (r, .ok false) => (r, some (.ok []))
        | (r, .error fault) => (r, some (.error fault))) = workStage now rest r := by
  unfold workStage
  by_cases hopen : r.stageIsOpen
  · simp [hopen]
  · have closed : r.stageIsOpen = false := by simpa using hopen
    by_cases clear : r.blocking = []
    · simp [closed, clear, advance_of_clear running closed clear]
    · simp [closed, clear, advance_of_blocked running closed clear]

theorem stepStages_dispatched {now : Timestamp} {s : Stage} {rest : List Stage} {r : Run}
    (running : r.state = .running) (dispatched : r.stageDispatched = true) :
    stepStages now (s :: rest) r = workStage now rest r := by
  have same : { r with stageDispatched := true } = r := by rw [← dispatched]
  rw [stepStages]
  simp only [dispatched, same, if_true, List.isEmpty_nil, Bool.not_true, Bool.false_eq_true,
    if_false]
  exact workStage_eq running

theorem stepStages_fresh {now : Timestamp} {s : Stage} {rest : List Stage} {r : Run}
    (running : r.state = .running) (fresh : r.stageDispatched = false) :
    stepStages now (s :: rest) r =
      if (r.queueStage now).2 = [] then workStage now rest (r.handOut now)
      else (r.handOut now, some (.ok (r.queueStage now).2)) := by
  rw [stepStages]
  simp only [fresh, Bool.false_eq_true, if_false]
  by_cases nothing : (r.queueStage now).2 = []
  · simp only [nothing, List.isEmpty_nil, Bool.not_true, Bool.false_eq_true, if_false, if_true]
    exact workStage_eq (r := r.handOut now) running
  · simp [nothing, handOut]

/-! ## Steps -/

theorem currentStage?_of_group {r : Run} {g : Group} (group : r.currentGroup? = some g) :
    r.currentStage? = g.stages[r.cursor.stage]? := by
  simp [currentStage?, group]

/-- The stages of a group end in strides that pass over all of them, or in the end of the step. -/
def StagesEnd (now : Timestamp) (g : Group) (r : Run) :
    Run × Option (Except Fault (List TaskCommand)) → Prop
  | (r', none) =>
    r' = r ∧ r.state = .running ∧ r.currentGroup? = some g ∧ g.stages.length ≤ r.cursor.stage
  | (r', some answer) => StepEnd now r (r', answer)

/-- Strides lead from a run to one where its stages end with an answer; plan and group stay. -/
def Reaches (now : Timestamp) (g : Group) (r : Run)
    (answer : Run × Option (Except Fault (List TaskCommand))) : Prop :=
  ∃ r', Relation.ReflTransGen (Stride now) r r' ∧ r'.plan = r.plan ∧
    r'.cursor.group = r.cursor.group ∧ StagesEnd now g r' answer

theorem Reaches.head {now : Timestamp} {g : Group} {r r₁ : Run}
    {answer : Run × Option (Except Fault (List TaskCommand))} (stride : Stride now r r₁)
    (plan : r₁.plan = r.plan) (cursor : r₁.cursor.group = r.cursor.group)
    (h : Reaches now g r₁ answer) : Reaches now g r answer := by
  obtain ⟨r', path, plan', cursor', ends⟩ := h
  exact ⟨r', .head stride path, plan'.trans plan, cursor'.trans cursor, ends⟩

/-- A stage that was handed out ends as the stages behind it do, once it is closed. -/
theorem workStage_reaches {now : Timestamp} {g : Group} {s : Stage} {rest : List Stage} {r : Run}
    (running : r.state = .running) (stage : r.currentStage? = some s)
    (dispatched : r.stageDispatched = true)
    (behind : Reaches now g (r.closeStage now) (stepStages now rest (r.closeStage now))) :
    Reaches now g r (workStage now rest r) := by
  unfold workStage
  by_cases hopen : r.stageIsOpen
  · rw [if_pos hopen]
    exact ⟨r, .refl, rfl, rfl, .wait fun _ => ⟨by simp [stage], dispatched, hopen⟩⟩
  have closed : r.stageIsOpen = false := by simpa using hopen
  rw [if_neg hopen]
  by_cases clear : r.blocking = []
  · rw [if_pos clear]
    exact behind.head (.closeStage running stage dispatched closed clear) rfl rfl
  · rw [if_neg clear]
    have stride : Stride now r (r.hold now) := .hold running stage dispatched closed clear
    exact ⟨r.hold now, .single stride, rfl, rfl, .wait fun h => by simp [Run.hold] at h⟩

/-- Working through the stages that are left reaches the end of the group or a stage that stops the step. -/
theorem stepStages_reaches {now : Timestamp} {g : Group} (rest : List Stage) (r : Run)
    (running : r.state = .running) (group : r.currentGroup? = some g)
    (left : rest = g.stages.drop r.cursor.stage) :
    Reaches now g r (stepStages now rest r) := by
  induction rest generalizing r with
  | nil =>
    have done : g.stages.length ≤ r.cursor.stage := List.drop_eq_nil_iff.mp left.symm
    exact ⟨r, .refl, rfl, rfl, rfl, running, group, done⟩
  | cons s rest ih =>
    have stage : r.currentStage? = some s := by
      rw [currentStage?_of_group group]
      have := congrArg List.head? left
      simpa [List.head?_drop] using this.symm
    have left' : rest = g.stages.drop (r.cursor.stage + 1) := by
      have := congrArg List.tail left
      simpa [List.tail_drop] using this
    cases dispatched : r.stageDispatched with
    | true =>
      rw [stepStages_dispatched running dispatched]
      exact workStage_reaches running stage dispatched (ih (r.closeStage now) running group left')
    | false =>
      rw [stepStages_fresh running dispatched]
      by_cases nothing : (r.queueStage now).2 = []
      · rw [if_pos nothing]
        have behind := ih ((r.handOut now).closeStage now) running group left'
        have worked : Reaches now g (r.handOut now) (workStage now rest (r.handOut now)) :=
          workStage_reaches running stage rfl behind
        exact worked.head (.handOut running stage dispatched nothing) rfl rfl
      · rw [if_neg nothing]
        exact ⟨r, .refl, rfl, rfl, .dispatch running stage dispatched nothing⟩

/-- After the last group the run is completed. -/
theorem stepGroups_nil {now : Timestamp} {r : Run} (running : r.state = .running) :
    stepGroups now [] r = (r.complete now, .ok []) := by
  simp [stepGroups, enter, running, RunState.allows, RunState.isTerminal, complete, Except.map]

/-- The first of the groups that are left is the current one. -/
theorem groups_left {r : Run} {g : Group} {rest : List Group}
    (left : g :: rest = r.plan.groups.drop r.cursor.group) :
    r.currentGroup? = some g ∧ rest = r.plan.groups.drop (r.cursor.group + 1) := by
  constructor
  · have := congrArg List.head? left
    simpa [currentGroup?, List.head?_drop] using this.symm
  · have := congrArg List.tail left
    simpa [List.tail_drop] using this

/-- Working through the groups that are left ends the step. -/
theorem stepGroups_ends {now : Timestamp} (rest : List Group) (r : Run)
    (running : r.state = .running) (left : rest = r.plan.groups.drop r.cursor.group) :
    ∃ r', Relation.ReflTransGen (Stride now) r r' ∧ StepEnd now r' (stepGroups now rest r) := by
  induction rest generalizing r with
  | nil =>
    have done : r.currentGroup? = none := by
      simpa [currentGroup?] using List.drop_eq_nil_iff.mp left.symm
    refine ⟨r.complete now, .single (.complete running done), ?_⟩
    rw [stepGroups_nil running]
    exact .wait fun h => by simp [complete] at h
  | cons g rest ih =>
    obtain ⟨group, left'⟩ := groups_left left
    obtain ⟨r₁, path, plan, cursor, ends⟩ := stepStages_reaches _ r running group rfl
    rw [stepGroups]
    cases h : stepStages now (g.stages.drop r.cursor.stage) r with
    | mk r₂ answer =>
      rw [h] at ends
      cases answer with
      | some answer => exact ⟨r₁, path, ends⟩
      | none =>
        obtain ⟨rfl, running₁, group₁, done⟩ := ends
        obtain ⟨r', path', ends'⟩ := ih r₂.closeGroup running₁
          (by rw [left', ← cursor, ← plan]; rfl)
        exact ⟨r', path.trans (.head (.closeGroup running₁ group₁ done) path'), ends'⟩

/-- A step is a sequence of strides and an end. -/
theorem step_ends (r : Run) (now : Timestamp) :
    ∃ r', Relation.ReflTransGen (Stride now) r r' ∧ StepEnd now r' (r.step now) := by
  unfold step
  by_cases running : r.state = .running
  · simpa [running] using stepGroups_ends _ r running rfl
  · have ends : StepEnd now r (r, .ok []) := .wait fun h => absurd h running
    exact ⟨r, .refl, by simpa [running] using ends⟩

/-- What strides and handing out keep is kept by a step. -/
theorem step_induction {P : Run → Prop} {r : Run} {now : Timestamp} (start : P r)
    (stride : ∀ {r r'}, Stride now r r' → P r → P r')
    (dispatch : ∀ {r s}, r.state = .running → r.currentStage? = some s →
      r.stageDispatched = false → P r → P (r.handOut now)) : P (r.step now).1 := by
  obtain ⟨r', path, ends⟩ := step_ends r now
  have reached : P r' := by
    clear ends
    induction path with
    | refl => exact start
    | tail _ last ih => exact stride last ih
  cases h : r.step now with
  | mk r₂ answer =>
    rw [h] at ends
    cases ends with
    | wait => exact reached
    | dispatch running stage fresh => exact dispatch running stage fresh reached

/-- A step meets no fault. -/
theorem step_ok (r : Run) (now : Timestamp) : ∃ commands, (r.step now).2 = .ok commands := by
  obtain ⟨r', _, ends⟩ := step_ends r now
  cases h : r.step now with
  | mk r₂ answer =>
    rw [h] at ends
    cases ends with
    | wait => exact ⟨_, rfl⟩
    | dispatch => exact ⟨_, rfl⟩

theorem step_eq (r : Run) (now : Timestamp) :
    ∃ commands, r.step now = ((r.step now).1, .ok commands) := by
  obtain ⟨commands, answer⟩ := step_ok r now
  exact ⟨commands, Prod.ext rfl answer⟩

/-- A step leaves a run alone that is archived. -/
theorem step_of_archived {r : Run} {now : Timestamp} (archived : r.state.isTerminal = true) :
    r.step now = (r, .ok []) := by
  have idle : r.state ≠ .running := fun running => by simp [running, RunState.isTerminal] at archived
  simp [step, idle]

end Rollout.Run
