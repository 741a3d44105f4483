-- SUMMARY: A step as a loop over the cursor: how many laps it takes at most; the next step finds nothing to do.
import Rollout.Proofs.Run.Waiting

/-!
# Laps

A step can be told without looking ahead, as a loop that looks at nothing but the place of the cursor. Each lap
ends the step, or it takes the cursor to the next stage or to the next group. So there is at most one lap for each
stage, one for each group, and a last one. It does not matter whether the cursor, the flags and the tasks of
the run fit its plan. Where the loop ends, the next step ends in its first lap.
-/
namespace Rollout.Run

/-- What a lap does at a stage: it hands the stage out, waits for its tasks, or closes it. -/
def lapAtStage (r : Run) (now : Timestamp) : Run ⊕ Reply (List TaskCommand) :=
  let (r, commands) := if r.stageDispatched then (r, []) else r.queueStage now
  let r := { r with stageDispatched := true }
  if !commands.isEmpty then .inr (r, .ok commands)
  else if r.stageIsOpen then .inr (r, .ok [])
  else match r.advance now with
    | (r, .ok true) => .inl r
    | (r, .ok false) => .inr (r, .ok [])
    | (r, .error fault) => .inr (r, .error fault)

/-- One lap of a step: the run that goes on to the next lap, or the end of the step. -/
def lap (r : Run) (now : Timestamp) : Run ⊕ Reply (List TaskCommand) :=
  if r.state ≠ .running then .inr (r, .ok [])
  else match r.currentGroup? with
    | none =>
      let done := s!"{r.tasks.length} tasks completed: {r.plan.fromVersion} -> {r.plan.toVersion}"
      let (r, answer) := { r with message := some done }.enter now .completed "complete"
      .inr (r, answer.map fun _ => [])
    | some group =>
      if group.stages.length ≤ r.cursor.stage then
        .inl { r with cursor := r.cursor.nextGroup, stageDispatched := false }
      else r.lapAtStage now

/-- The end of a step that takes at most the given number of laps. -/
def laps? (now : Timestamp) : Nat → Run → Option (Reply (List TaskCommand))
  | 0, _ => none
  | n + 1, r => match r.lap now with
    | .inl r => laps? now n r
    | .inr reply => some reply

/-- The laps that are left for a step with the given groups before it, at the given stage of the first one. -/
def lapsLeft : List Group → Nat → Nat
  | [], _ => 1
  | g :: rest, stage => (g.stages.length - stage) + 1 + lapsLeft rest 0

variable {r r' : Run} {now : Timestamp} {g : Group} {s : Stage}

-- ---------------------------------------------------------------------------
-- A lap
-- ---------------------------------------------------------------------------

theorem lap_of_idle (idle : r.state ≠ .running) : r.lap now = .inr (r, .ok []) := if_pos idle

theorem lap_of_done (running : r.state = .running) (done : r.currentGroup? = none) :
    r.lap now = .inr (r.complete now, .ok []) := by
  simp [lap, running, done, enter, RunState.allows, RunState.isTerminal, complete, Except.map]

theorem lap_of_group (running : r.state = .running) (group : r.currentGroup? = some g)
    (done : g.stages.length ≤ r.cursor.stage) : r.lap now = .inl r.closeGroup := by
  rw [lap, if_neg (by simp [running]), group]
  exact if_pos done

theorem lap_of_stage (running : r.state = .running) (group : r.currentGroup? = some g)
    (inside : r.cursor.stage < g.stages.length) : r.lap now = r.lapAtStage now := by
  rw [lap, if_neg (by simp [running]), group]
  exact if_neg (Nat.not_le_of_lt inside)

/-- A step does with the first of its stages what a lap does with it. -/
theorem stepStages_cons (rest : List Stage) (r : Run) :
    stepStages now (s :: rest) r = match r.lapAtStage now with
      | .inl r => stepStages now rest r
      | .inr (r, answer) => (r, some answer) := by
  rw [stepStages, lapAtStage]
  dsimp only
  generalize (if r.stageDispatched then (r, []) else r.queueStage now) = handed
  generalize ({ handed.1 with stageDispatched := true } : Run) = r₁
  by_cases something : (!handed.2.isEmpty) = true
  · rw [if_pos something, if_pos something]
  rw [if_neg something, if_neg something]
  by_cases is_open : r₁.stageIsOpen = true
  · rw [if_pos is_open, if_pos is_open]
  rw [if_neg is_open, if_neg is_open]
  rcases r₁.advance now with ⟨r₂, fault | _ | _⟩ <;> rfl

/-- Unless the step ends there, the lap closes the stage. -/
theorem lapAtStage_goes_on (running : r.state = .running) (goes_on : r.lapAtStage now = .inl r') :
    r'.state = .running ∧ r'.plan = r.plan ∧ r'.cursor = r.cursor.nextStage := by
  unfold lapAtStage at goes_on
  dsimp only at goes_on
  generalize handed : (if r.stageDispatched then (r, []) else r.queueStage now) = work at goes_on
  have still : work.1.state = .running ∧ work.1.plan = r.plan ∧ work.1.cursor = r.cursor := by
    subst handed
    split
    · exact ⟨running, rfl, rfl⟩
    · exact ⟨running, rfl, rfl⟩
  generalize dispatched : ({ work.1 with stageDispatched := true } : Run) = r₁ at goes_on
  have still₁ : r₁.state = .running ∧ r₁.plan = r.plan ∧ r₁.cursor = r.cursor := by
    subst dispatched
    exact still
  split at goes_on
  · cases goes_on
  split at goes_on
  · cases goes_on
  next closed =>
    have closed : r₁.stageIsOpen = false := by simpa using closed
    by_cases clear : r₁.blocking = []
    · rw [advance_of_clear still₁.1 closed clear] at goes_on
      cases goes_on
      exact ⟨still₁.1, still₁.2.1, congrArg Cursor.nextStage still₁.2.2⟩
    · rw [advance_of_blocked still₁.1 closed clear] at goes_on
      cases goes_on

-- ---------------------------------------------------------------------------
-- Laps
-- ---------------------------------------------------------------------------

/-- Over the stages of a group that are left, one lap for each and one more either end the step or lead to the next
group. -/
theorem laps?_of_stages (now : Timestamp) (rest : List Stage) (r : Run) (n : Nat) (running : r.state = .running)
    (group : r.currentGroup? = some g) (left : rest = g.stages.drop r.cursor.stage) :
    laps? now (rest.length + 1 + n) r = match stepStages now rest r with
      | (r, some answer) => some (r, answer)
      | (r, none) => laps? now n r.closeGroup := by
  induction rest generalizing r with
  | nil =>
    have done : g.stages.length ≤ r.cursor.stage := List.drop_eq_nil_iff.mp left.symm
    rw [List.length_nil, Nat.zero_add, Nat.add_comm, laps?, lap_of_group running group done]
    rfl
  | cons s rest ih =>
    have inside : r.cursor.stage < g.stages.length := by
      refine Nat.lt_of_not_le fun done => ?_
      rw [List.drop_eq_nil_of_le done] at left
      cases left
    have behind : rest = g.stages.drop (r.cursor.stage + 1) := by
      rw [List.drop_eq_getElem_cons inside] at left
      exact (List.cons.inj left).2
    rw [stepStages_cons, List.length_cons, Nat.add_right_comm _ 1 n, laps?,
      lap_of_stage running group inside]
    cases lap : r.lapAtStage now with
    | inr reply => rfl
    | inl r' =>
      obtain ⟨running', plan, cursor⟩ := lapAtStage_goes_on running lap
      have group' : r'.currentGroup? = some g := by rw [currentGroup?, plan, cursor]; exact group
      have left' : rest = g.stages.drop r'.cursor.stage := by rw [cursor]; exact behind
      exact ih r' running' group' left'

/-- Over the groups that are left, the laps that are left end the step. -/
theorem laps?_of_groups (rest : List Group) (r : Run) (n : Nat) (running : r.state = .running)
    (left : rest = r.plan.groups.drop r.cursor.group) :
    laps? now (lapsLeft rest r.cursor.stage + n) r = some (stepGroups now rest r) := by
  induction rest generalizing r with
  | nil =>
    have done : r.currentGroup? = none := by
      simpa [currentGroup?] using List.drop_eq_nil_iff.mp left.symm
    rw [lapsLeft, Nat.add_comm, laps?, lap_of_done running done, stepGroups_nil running]
  | cons g rest ih =>
    obtain ⟨group, left'⟩ := groups_left left
    have laps := laps?_of_stages now _ r (lapsLeft rest 0 + n) running group rfl
    rw [List.length_drop] at laps
    rw [lapsLeft, Nat.add_assoc _ _ n, laps, stepGroups]
    have reaches : Reaches now g r (stepStages now (g.stages.drop r.cursor.stage) r) :=
      stepStages_reaches _ r running group rfl
    obtain ⟨r₁, _, plan, cursor, ends⟩ := reaches
    cases stages : stepStages now (g.stages.drop r.cursor.stage) r with
    | mk r₂ answer =>
      rw [stages] at ends
      cases answer with
      | some answer => rfl
      | none =>
        obtain ⟨rfl, running₂, _, _⟩ := ends
        exact ih r₂.closeGroup running₂ (by rw [left', ← cursor, ← plan]; rfl)

/-- One lap for each stage and one for each group of the plan, and a last one, are enough from anywhere. -/
theorem lapsLeft_drop_le (groups : List Group) (k stage : Nat) :
    lapsLeft (groups.drop k) stage ≤
      (groups.map fun g => g.stages.length).foldr (· + ·) 0 + groups.length + 1 := by
  induction groups generalizing k stage with
  | nil =>
    rw [List.drop_nil]
    exact Nat.le_refl 1
  | cons g rest ih =>
    simp only [List.map_cons, List.foldr_cons, List.length_cons]
    cases k with
    | zero =>
      have behind := ih 0 0
      simp only [List.drop_zero, lapsLeft] at behind ⊢
      omega
    | succ k =>
      have behind := ih k stage
      rw [List.drop_succ_cons]
      omega

/-- A step is what its laps come to, and so it ends. -/
theorem laps?_eq_step (r : Run) (now : Timestamp) (n : Nat) :
    laps? now (r.plan.stageCount + r.plan.groups.length + 1 + n) r = some (r.step now) := by
  by_cases running : r.state = .running
  · have enough := lapsLeft_drop_le r.plan.groups r.cursor.group r.cursor.stage
    obtain ⟨more, laps⟩ := Nat.exists_eq_add_of_le (Nat.le_trans enough (Nat.le_add_right _ n))
    rw [Plan.stageCount, laps, laps?_of_groups _ r more running rfl, step, if_neg (by simp [running])]
  · rw [Nat.add_right_comm, laps?, lap_of_idle running, step, if_pos running]

/-- A step comes to rest, whatever run it is called on: also if its cursor, flags or tasks do not fit its plan. It
takes at most one lap for each stage and each group of the plan, and a last one, and meets no fault. The next step,
at whatever time, hands out nothing and leaves every field as it is. -/
theorem step_comes_to_rest (r : Run) (now later : Timestamp) :
    (∀ n, laps? now (r.plan.stageCount + r.plan.groups.length + 1 + n) r = some (r.step now)) ∧
    (∃ commands, (r.step now).2 = .ok commands) ∧
    (r.step now).1.step later = ((r.step now).1, .ok []) :=
  ⟨laps?_eq_step r now, step_ok r now, (step_waits r now).step later⟩

end Rollout.Run
