-- SUMMARY: Suspending and resuming a run is transparent: it goes on as if it had not been suspended.
import Rollout.Proofs.Run.Interleaving
import Rollout.Proofs.Run.Holding

/-!
# Suspension

A suspended run records the news of its tasks and does not step. Once it is resumed, its next step decides on
what it has heard. It does then what it would have done all along, since before the last news of a stage there is
nothing to decide. A run that holds takes no news, so when it is resumed it holds again for the same reason.

One flag can give the suspension away. A run should hold only on a stage that it handed out. But `apply` takes
news of tasks that are still pending, where it should refuse them as a contradiction: it is the case in which
`Rollout.Proofs.Run.Departures` finds a task completed with no command. When such news are all there is to hear of a stage, a direct `advance` closes the stage before any
step has handed it out, and the run holds with the stage unmarked. The step after a resumption then hands out
nothing and marks the stage. That is a consequence of the news that were taken too early, and not something that
suspending is meant to do: a run that holds on a stage it handed out comes back unchanged.
-/
namespace Rollout.Run

variable {r : Run} {now : Timestamp} {event : TaskEvent} {events : List (Timestamp × TaskEvent)}

-- ---------------------------------------------------------------------------
-- Suspended runs
-- ---------------------------------------------------------------------------

/-- A suspended run stays where it is. -/
theorem step_of_suspended (suspended : r.state = .suspended) (now : Timestamp) :
    r.step now = (r, .ok []) := by
  simp [step, suspended]

/-- A live run records the same news in every live state. -/
theorem hear_in_state (state : RunState) (live : r.state.isTerminal = false)
    (live' : state.isTerminal = false) (accepts : r.Accepts events) :
    ({ r with state := state } : Run).Accepts events ∧
      ({ r with state := state } : Run).hear events = { r.hear events with state := state } := by
  induction events generalizing r with
  | nil => exact ⟨trivial, rfl⟩
  | cons e events ih =>
    obtain ⟨now, event⟩ := e
    obtain ⟨recorded, accepts⟩ := accepts
    have fits : r.Fits event := (apply_eq_ok_iff live).mp recorded
    have fits' : ({ r with state := state } : Run).Fits event := fits
    rw [apply_of_fits live fits] at accepts
    obtain ⟨accepts, heard⟩ := ih (r := r.record now event) live accepts
    rw [Accepts, hear, hear, apply_of_fits live fits,
      apply_of_fits (r := { r with state := state }) live' fits']
    exact ⟨⟨rfl, accepts⟩, heard⟩

/-- A driver of a suspended run gets through news that it accepts, and nothing is handed out. -/
theorem drive?_of_suspended (suspended : r.state = .suspended) (accepts : r.Accepts events) :
    r.drive? events = some (r.hear events, List.replicate events.length []) ∧
      (r.hear events).state = .suspended ∧ (r.hear events).cursor = r.cursor := by
  induction events generalizing r with
  | nil => exact ⟨rfl, suspended, rfl⟩
  | cons e events ih =>
    obtain ⟨now, event⟩ := e
    obtain ⟨recorded, accepts⟩ := accepts
    have live : r.state.isTerminal = false := by
      rw [suspended]
      rfl
    have fits : r.Fits event := (apply_eq_ok_iff live).mp recorded
    rw [apply_of_fits live fits] at accepts
    rw [hear, apply_of_fits live fits]
    have still : (r.record now event).state = .suspended := suspended
    obtain ⟨driven, state, cursor⟩ := ih still accepts
    refine ⟨drive?_cons.mpr ⟨_, [], _, take?_eq_some_iff.mpr ⟨live, recorded, ?_⟩, driven, rfl⟩,
      state, cursor⟩
    rw [apply_of_fits live fits]
    exact step_of_suspended still now

-- ---------------------------------------------------------------------------
-- Runs that are running
-- ---------------------------------------------------------------------------

/-- News that a run accepts are about its current stage. -/
theorem concerns_of_accepts (mirrors : r.MirrorsPlan) (live : r.state.isTerminal = false)
    (accepts : r.Accepts events) : ∀ e ∈ events, r.Concerns e.2 := by
  induction events generalizing r with
  | nil => exact fun e he => nomatch he
  | cons e events ih =>
    obtain ⟨now, event⟩ := e
    obtain ⟨recorded, accepts⟩ := accepts
    have fits : r.Fits event := (apply_eq_ok_iff live).mp recorded
    rw [apply_of_fits live fits] at accepts
    refine List.forall_mem_cons.mpr ⟨?_, fun e he => ?_⟩
    · obtain ⟨t, task, here, _⟩ := fits
      exact ⟨t, mem_stageTasks.mpr ⟨List.mem_of_getElem? task, here⟩, mirrors.id_eq task⟩
    · have later := ih (r := r.record now event) (record_mirrors mirrors now event) live accepts e he
      exact later.of_charter record_charter.symm rfl

/-- What a driver makes of the news of a stage is what one step makes of all that was heard. -/
theorem Working.drive?_of_accepts (h : r.Working) (waits : r.Waits) (accepts : r.Accepts events) :
    ∃ last batches, r.drive? events = some (last, batches) ∧
      (r.hear events).timeless.step .epoch = (last.timeless, .ok batches.flatten) := by
  rcases List.eq_nil_or_concat events with rfl | ⟨front, ⟨now, event⟩, rfl⟩
  · refine ⟨r, [], rfl, ?_⟩
    rw [hear, step_timeless r .epoch, waits.step]
    rfl
  rw [List.concat_eq_append] at *
  have about := concerns_of_accepts h.mirrors h.live accepts
  obtain ⟨commands, steps⟩ := step_eq (r.hear (front ++ [(now, event)])) now
  refine ⟨_, _, (h.drive?_eq_some_iff (fun e he => about e (List.mem_append_left _ he))
    (about (now, event) (by simp))).mpr ⟨accepts, commands, steps, rfl⟩, ?_⟩
  rw [step_timeless _ now, steps]
  simp

-- ---------------------------------------------------------------------------
-- Runs that hold
-- ---------------------------------------------------------------------------

/-- A run that holds accepts no news. -/
theorem Held.events_eq_nil (h : r.Held) (holding : r.state = .holding) (accepts : r.Accepts events) :
    events = [] := by
  cases events with
  | nil => rfl
  | cons e events =>
    have live : r.state.isTerminal = false := by
      rw [holding]
      rfl
    obtain ⟨t, task, here, unfinished⟩ := unfinished_of_apply live accepts.1
    rw [h.terminal t (mem_stageTasks.mpr ⟨List.mem_of_getElem? task, here⟩)] at unfinished
    cases unfinished

/-- A run that held and goes on holds again, for the same reason. -/
theorem Held.step_again (h : r.Held) (mirrors : r.MirrorsPlan) (running : r.state = .running)
    (now : Timestamp) : r.step now =
      ({ r with state := .holding, stageDispatched := true, updatedAt := now }, .ok []) := by
  obtain ⟨b, hb⟩ := List.exists_mem_of_ne_nil _ h.blocked
  obtain ⟨s, stage⟩ := mirrors.currentStage? (List.mem_filter.mp hb).1
  obtain ⟨g, group, here⟩ := currentStage?_eq_some.mp stage
  refine step_of_stages running group ?_
  have work (r' : Run) (closed : r'.stageIsOpen = false) (blocked : r'.blocking ≠ [])
      (rest : List Stage) : workStage now rest r' = (r'.hold now, some (.ok [])) := by
    rw [workStage, if_neg (by simp [closed]), if_neg blocked]
  rw [drop_of_stage here]
  cases dispatched : r.stageDispatched with
  | true =>
    rw [stepStages_dispatched running dispatched, work r h.closed h.blocked, hold, ← h.said,
      ← dispatched]
  | false =>
    have nothing : (r.queueStage now).2 = [] := by
      refine List.map_eq_nil_iff.mpr (List.filter_eq_nil_iff.mpr fun t ht pending => ?_)
      have ended := h.terminal t ht
      rw [of_decide_eq_true pending] at ended
      cases ended
    have tasks : (r.handOut now).tasks = r.tasks :=
      (Stride.handOut running stage dispatched nothing).tasks
    have handed_out : r.handOut now = { r with stageDispatched := true, updatedAt := now } :=
      congrArg (fun tasks => { r with tasks := tasks, stageDispatched := true, updatedAt := now }) tasks
    rw [stepStages_fresh running dispatched, if_pos nothing, handed_out,
      work { r with stageDispatched := true, updatedAt := now } h.closed h.blocked]
    exact congrArg (fun message => (({ r with
      state := .holding, stageDispatched := true, message := message, updatedAt := now } : Run), some
        (Except.ok []))) h.said.symm

-- ---------------------------------------------------------------------------
-- Transparency
-- ---------------------------------------------------------------------------

theorem suspend_of_active (active : r.state = .running ∨ r.state = .holding) (now : Timestamp) :
    r.suspend now = (r.inState now .suspended, .ok ()) := by
  rcases active with running | holding
  · simp only [suspend, running]
    exact enter_allowed (by rw [running]; rfl) rfl
  · simp only [suspend, holding]
    exact enter_allowed (by rw [holding]; rfl) rfl

theorem resume_of_suspended (suspended : r.state = .suspended) (now : Timestamp) :
    r.resume now = (r.inState now .running, .ok ()) := by
  simp only [resume, suspended]
  exact enter_allowed (by rw [suspended]; rfl) rfl

/-- A suspended run hears what it would have heard otherwise. It stays suspended meanwhile, and no step hands
anything out. -/
theorem paused (live : r.state.isTerminal = false) (accepts : r.Accepts events)
    {later : List (Timestamp × TaskEvent)} (same : later.map Prod.snd = events.map Prod.snd)
    (suspended resumed : Timestamp) :
    ∃ s, (r.inState suspended .suspended).drive? later = some (s, List.replicate events.length []) ∧
      s.state = .suspended ∧ s.cursor = r.cursor ∧
      (s.inState resumed .running).timeless = { (r.hear events).timeless with state := .running } := by
  have length : later.length = events.length := by simpa using congrArg List.length same
  have touched : (r.touch suspended).timeless = r.timeless := rfl
  have accepts_later : (r.touch suspended).Accepts later := by
    rw [← accepts_timeless, touched, same, accepts_timeless]
    exact accepts
  have heard_later : ((r.touch suspended).hear later).timeless = (r.hear events).timeless := by
    rw [hear_timeless, hear_timeless, touched, same]
  obtain ⟨accepts', heard⟩ := hear_in_state (r := r.touch suspended) .suspended live rfl
    accepts_later
  obtain ⟨driven, state, cursor⟩ := drive?_of_suspended rfl accepts'
  rw [length] at driven
  refine ⟨_, driven, state, cursor, ?_⟩
  rw [heard, ← heard_later]
  rfl

theorem Working.hear (h : r.Working) (events : List (Timestamp × TaskEvent)) :
    (r.hear events).Working := by
  induction events generalizing r with
  | nil => exact h
  | cons e events ih => exact ih (h.apply e.1 e.2)

/-- A run that was running takes the step after its resumption on all that was heard meanwhile, as a driver does news
by news. -/
theorem Working.resumes (h : r.Working) (waits : r.Waits) (accepts : r.Accepts events) {s : Run}
    {resumed : Timestamp}
    (heard : (s.inState resumed .running).timeless = { (r.hear events).timeless with state := .running })
    (stepped : Timestamp) :
    ∃ plain batches last, r.drive? events = some (plain, batches) ∧
      (s.inState resumed .running).step stepped = (last, .ok batches.flatten) ∧
      last.timeless = plain.timeless := by
  obtain ⟨plain, batches, driven, decided⟩ := h.drive?_of_accepts waits accepts
  have still : { (r.hear events).timeless with state := .running } = (r.hear events).timeless := by
    rw [← (h.hear events).running]
    rfl
  have steps := step_timeless (s.inState resumed .running) stepped
  rw [heard, still, decided] at steps
  obtain ⟨unchanged, commands⟩ := Prod.mk.inj steps
  exact ⟨plain, batches, _, driven, Prod.ext rfl commands.symm, unchanged.symm⟩

/-- A run that held takes the step after its resumption for the same reason as before, and its stage is marked. -/
theorem Held.resumes (h : r.Held) (mirrors : r.MirrorsPlan) (holding : r.state = .holding)
    (suspended resumed stepped : Timestamp) :
    ∃ last, ((r.inState suspended .suspended).inState resumed .running).step stepped = (last, .ok []) ∧
      last.timeless = { r.timeless with stageDispatched := true } := by
  have again := Held.step_again (r := (r.inState suspended .suspended).inState resumed .running)
    ⟨h.closed, h.blocked, h.said⟩ mirrors rfl stepped
  refine ⟨_, again, ?_⟩
  exact congrArg (fun state => { r.timeless with state := state, stageDispatched := true }) holding.symm

/-- Suspending is transparent. For every history that a step ends with a run that is running or holds, and news
that the run accepts one after the other: a driver gets through them with a step after each, and gets through
them too when the run is suspended before. Then no step hands anything out, and the run stays where it is and
suspended, as every suspended run does at a step. After it is resumed, one step hands out all that was handed out
otherwise, and the run is the same but for times. The flag of the stage is set where the run held, which changes
it only if news closed the stage before it was handed out. -/
theorem suspension_is_transparent (id : RunId) (plan : Plan) (policy : Policy) (created : Timestamp)
    (history : List (Timestamp × Call)) (now : Timestamp) {r : Run}
    (reached : (((create id plan policy created).after history).step now).1 = r)
    (active : r.state = .running ∨ r.state = .holding) {events later : List (Timestamp × TaskEvent)}
    (accepts : r.Accepts events) (same : later.map Prod.snd = events.map Prod.snd)
    (suspended resumed stepped : Timestamp) :
    (∃ plain batches s last commands,
      r.drive? events = some (plain, batches) ∧
      (r.suspend suspended).2 = .ok () ∧
      (r.suspend suspended).1.drive? later = some (s, List.replicate events.length []) ∧
      s.state = .suspended ∧ s.cursor = r.cursor ∧
      (s.resume resumed).2 = .ok () ∧
      (s.resume resumed).1.step stepped = (last, .ok commands) ∧
      commands = batches.flatten ∧
      last.timeless =
        { plain.timeless with stageDispatched := plain.stageDispatched || r.state = .holding }) ∧
    ∀ (s : Run) (at_ : Timestamp), s.state = .suspended → s.step at_ = (s, .ok []) := by
  refine ⟨?_, fun s at_ suspended => step_of_suspended suspended at_⟩
  have charter : r.charter = (create id plan policy created).charter := by
    rw [← reached, step_charter, after_charter]
  have mirrors : r.MirrorsPlan := (create_mirrorsPlan ..).of_charter charter
  have live : r.state.isTerminal = false := by
    rcases active with running | holding
    · rw [running]; rfl
    · rw [holding]; rfl
  obtain ⟨s, quiet, state, cursor, heard⟩ := paused live accepts same suspended resumed
  have goes_on := resume_of_suspended state resumed
  rw [suspend_of_active active]
  -- What is left to say is what the step after the resumption does.
  suffices decided : ∃ plain batches last, r.drive? events = some (plain, batches) ∧
      (s.inState resumed .running).step stepped = (last, .ok batches.flatten) ∧
      last.timeless = { plain.timeless with
        stageDispatched := plain.stageDispatched || r.state = .holding } by
    obtain ⟨plain, batches, last, driven, steps, unchanged⟩ := decided
    exact ⟨plain, batches, s, last, _, driven, rfl, quiet, state, cursor, by rw [goes_on],
      by rw [goes_on, steps], rfl, unchanged⟩
  rcases active with running | holding
  · have waits : r.Waits := reached ▸ step_waits _ now
    obtain ⟨plain, batches, last, driven, steps, unchanged⟩ :=
      Working.resumes ⟨running, (waits running).2.1, mirrors⟩ waits accepts heard stepped
    have not_holding : decide (r.state = .holding) = false := by
      rw [running]
      rfl
    refine ⟨plain, batches, last, driven, steps, ?_⟩
    rw [not_holding, Bool.or_false]
    exact unchanged
  · have held : r.Held := by
      have after_step : (create id plan policy created).after (history ++ [(now, .step)]) = r := by
        rw [← reached, after, List.foldl_append]
        rfl
      rw [← after_step] at holding ⊢
      exact held_after id plan policy created _ holding
    cases held.events_eq_nil holding accepts
    cases List.map_eq_nil_iff.mp same
    cases Option.some.inj quiet
    obtain ⟨last, steps, marked⟩ := held.resumes mirrors holding suspended resumed stepped
    refine ⟨r, [], last, rfl, steps, ?_⟩
    rw [decide_eq_true holding, Bool.or_true]
    exact marked

/-- A task fails while its run is suspended, and another one is completed. -/
theorem suspension_is_transparent_pair :
    let r := ((create (.ofNat 0) pairPlan .upgrade .epoch).after [(.epoch, .start)]).step .epoch |>.1
    let events := told .epoch [.started 0 1, lost, .finished 1 (.completed 0)]
    ∃ plain batches s last commands,
      r.drive? events = some (plain, batches) ∧
      (r.suspend .epoch).1.drive? events = some (s, [[], [], []]) ∧ s.state = .suspended ∧
      (s.resume .epoch).1.step .epoch = (last, .ok commands) ∧ commands = batches.flatten ∧
      last.timeless = plain.timeless := by
  intro r events
  have running : r.state = .running := by decide +kernel
  have accepts : r.Accepts events := ⟨rfl, rfl, rfl, trivial⟩
  have same : events.map Prod.snd = events.map Prod.snd := rfl
  obtain ⟨⟨plain, batches, s, last, commands, driven, _, quiet, state, _, _, steps, all, unchanged⟩, _⟩ :=
    suspension_is_transparent (.ofNat 0) pairPlan .upgrade .epoch [(.epoch, .start)] .epoch (r := r) rfl
      (.inl running) accepts same .epoch .epoch .epoch
  have not_holding : decide (r.state = .holding) = false := by decide +kernel
  rw [not_holding, Bool.or_false] at unchanged
  exact ⟨plain, batches, s, last, commands, driven, quiet, state, steps, all, unchanged⟩

/-- News of tasks that were never handed out are taken all the same, and so the stage is closed by a direct call
before any step has handed it out. -/
def closedEarly : List (Timestamp × Call) :=
  [.start, .apply lost, .apply (.finished 1 (.completed 0)), .advance].map fun c => (.epoch, c)

/-- A run that took news of tasks that were never handed out, and holds for them, is another one after it was
suspended and resumed: the step that finds the stage unmarked has nothing left to hand out and marks it. -/
theorem suspension_marks_the_stage :
    let r := ((create (.ofNat 0) pairPlan .upgrade .epoch).after closedEarly).step .epoch |>.1
    r.state = .holding ∧ r.Accepts [] ∧ r.drive? [] = some (r, []) ∧ r.stageDispatched = false ∧
    ∃ s last, (r.suspend .epoch).1.drive? [] = some (s, []) ∧
      (s.resume .epoch).1.step .epoch = (last, .ok []) ∧ last.stageDispatched = true ∧
      last.timeless ≠ r.timeless := by
  intro r
  have fresh : r.stageDispatched = false := by decide +kernel
  have steps : (((r.suspend .epoch).1.resume .epoch).1.step .epoch).2 = .ok [] := rfl
  have marked : (((r.suspend .epoch).1.resume .epoch).1.step .epoch).1.stageDispatched = true := by
    decide +kernel
  refine ⟨by decide +kernel, trivial, rfl, fresh, _, _, rfl, Prod.ext rfl steps, marked, fun same => ?_⟩
  have flags : (((r.suspend .epoch).1.resume .epoch).1.step .epoch).1.stageDispatched =
      r.stageDispatched := congrArg stageDispatched same
  rw [marked, fresh] at flags
  cases flags

end Rollout.Run
