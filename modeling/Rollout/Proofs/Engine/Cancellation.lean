-- SUMMARY: What a cancelled executor still does: it ends what is under way, and the attempt that comes next may begin.
import Rollout.Proofs.Engine.Logs
import Rollout.Proofs.Engine.Rest

/-!
# Cancellation

A worker looks whether its executor is cancelled before it asks for the host of its next command, and before
it sends a command again. It does not look again while it waits at the gate, nor when it is about to announce
its command or to send it. So a worker that is past its last look still makes one attempt. All others begin no
attempt at all. What is under way ends as it would without the cancellation, except that no command is sent
again.
-/
namespace Rollout.Engine

variable {e e' : Engine} {i k : Nat} {w w₀ : Worker} {x : Executor} {f : Effect}
  {s : DispatchSettings} {log done : List Happening}

-- ---------------------------------------------------------------------------
-- What lies ahead
-- ---------------------------------------------------------------------------

/-- How a worker reports that it is done with a command after some retries. -/
def closing (executor : Nat) (c : TaskCommand) (retries : UInt32) (fault : Option Fault) : Happening :=
  .reported executor (.finished c.taskId (outcomeOf retries fault))

/-- The end of a call, and the report. -/
def ended (w : Worker) (i : Nat) (s : DispatchSettings) (c : TaskCommand) (retries : UInt32)
    (ending : Ending) : List Happening :=
  [ending.happening i c.taskId, closing w.executor c retries (ending.fault? w.host s)]

/-- What the worker still does when its executor is cancelled. -/
def Ahead (s : DispatchSettings) (i : Nat) (w : Worker) (done : List Happening) : Prop :=
  match w.phase with
  | .spawned | .awaitingLock | .awaitingSlot | .choosing | .gone => done = []
  -- The worker is past its last look, so an attempt may begin.
  | .atGate _ => ∃ c, w.commands.head? = some c ∧
    ((∃ fault, done = [closing w.executor c 0 (some fault)]) ∨
      ∃ ending, done = begun w.executor i c 0 ++ ended w i s c 0 ending)
  | .sending retries => ∃ c ending, w.commands.head? = some c ∧
    done = begun w.executor i c retries ++ ended w i s c retries ending
  | .announced retries => ∃ c ending, w.commands.head? = some c ∧
    done = .callBegan i { c with attempt := c.attempt + retries } :: ended w i s c retries ending
  | .calling retries _ _ => ∃ c ending, w.commands.head? = some c ∧
    done = ended w i s c retries ending
  | .called retries fault => ∃ c, w.commands.head? = some c ∧
    done = [closing w.executor c retries fault]
  | .reporting outcome => ∃ c, w.commands.head? = some c ∧
    done = [.reported w.executor (.finished c.taskId outcome)]

/-- Something lies ahead of every worker, if only nothing. -/
theorem exists_ahead (s : DispatchSettings) (i : Nat) (busy : Worker.IsBusy w) :
    ∃ done, Ahead s i w done := by
  have first (some_left : w.commands ≠ []) : ∃ c, w.commands.head? = some c := by
    obtain ⟨c, rest, commands⟩ := List.exists_cons_of_ne_nil some_left
    exact ⟨c, by rw [commands, List.head?_cons]⟩
  cases phase : w.phase with
  | spawned | awaitingLock | awaitingSlot | choosing | gone => simp only [Ahead, phase, exists_eq]
  | atGate =>
    simp only [Worker.IsBusy, phase, Ahead] at busy ⊢
    obtain ⟨c, command⟩ := first busy
    exact ⟨_, c, command, .inr ⟨.expired, rfl⟩⟩
  | sending | announced | calling =>
    simp only [Worker.IsBusy, phase, Ahead] at busy ⊢
    obtain ⟨c, command⟩ := first busy
    exact ⟨_, c, .expired, command, rfl⟩
  | called | reporting =>
    simp only [Worker.IsBusy, phase, Ahead] at busy ⊢
    obtain ⟨c, command⟩ := first busy
    exact ⟨_, c, command, rfl⟩

/-- A cancelled executor sends no command again. -/
theorem afterCall_of_cancelled (cancelled : x.isCancelled = true) (retries : UInt32)
    (fault : Option Fault) : afterCall x retries fault = .reporting (outcomeOf retries fault) := by
  cases fault with
  | none => rfl
  | some fault => simp [afterCall, sendsAgain, cancelled, outcomeOf]

/-! ## Deeds -/

/-- The worker gives up since nobody hears it. -/
structure Hushed (x : Executor) (w : Worker) : Prop where
  silent : x.isReceived = false
  phase : w.phase = .gone ∨ ∃ outcome, w.phase = .reporting outcome

/-- What a worker of a cancelled executor does lay ahead of it, and the rest still does. -/
theorem Deed.ahead (deed : Deed e i w x f) (cancelled : x.isCancelled = true) :
    (∀ done, Ahead x.settings i f.worker done →
      Ahead x.settings i w (f.happenings.reverse ++ done)) ∨
    (Hushed x f.worker ∧ f.happenings = []) := by
  cases deed with
  | arrive phase | lock phase | settle phase =>
    refine .inl fun done ahead => ?_
    simp only [Ahead, phase] at ahead ⊢
    exact ahead
  | leave why =>
    cases why with
    | noSlots phase | noSlot phase | done phase =>
      refine .inl fun done ahead => ?_
      simp only [Ahead, phase] at ahead ⊢
      exact ahead
    | unheard _ silent => exact .inr ⟨⟨silent, .inl rfl⟩, rfl⟩
  | knock _ _ going => simp [cancelled] at going
  | pass phase =>
    refine .inl fun done ahead => ?_
    simp only [Ahead, phase] at ahead ⊢
    obtain ⟨c, ending, command, rfl⟩ := ahead
    exact ⟨c, command, .inr ⟨ending, rfl⟩⟩
  | @turnBack _ _ _ _ fault phase =>
    refine .inl fun done ahead => ?_
    simp only [Ahead, phase] at ahead ⊢
    obtain ⟨c, command, rfl⟩ := ahead
    exact ⟨c, command, .inl ⟨fault, rfl⟩⟩
  | giveUp _ _ silent => exact .inr ⟨⟨silent, .inr ⟨_, rfl⟩⟩, rfl⟩
  | announce phase command | call phase command =>
    refine .inl fun done ahead => ?_
    simp only [Ahead, phase] at ahead ⊢
    obtain ⟨c, ending, command', rfl⟩ := ahead
    cases command.symm.trans command'
    exact ⟨_, ending, command, rfl⟩
  | answer fault phase command =>
    refine .inl fun done ahead => ?_
    simp only [Ahead, phase] at ahead ⊢
    obtain ⟨c, command', rfl⟩ := ahead
    cases command.symm.trans command'
    exact ⟨_, .answered fault, command, rfl⟩
  | expire phase _ command =>
    refine .inl fun done ahead => ?_
    simp only [Ahead, phase] at ahead ⊢
    obtain ⟨c, command', rfl⟩ := ahead
    cases command.symm.trans command'
    exact ⟨_, .expired, command, rfl⟩
  | @conclude retries fault phase =>
    refine .inl fun done ahead => ?_
    simp only [Ahead, phase, afterCall_of_cancelled cancelled] at ahead ⊢
    exact ahead
  | report phase command =>
    refine .inl fun done ahead => ?_
    simp only [Ahead, phase] at ahead ⊢
    exact ⟨_, command, by rw [ahead]; rfl⟩

/-- A worker that nobody hears does nothing more than leave. -/
theorem Deed.hushed (deed : Deed e i w x f) (hushed : Hushed x w) :
    f.worker.phase = .gone ∧ f.happenings = [] := by
  have phase := hushed.phase
  cases deed with
  | leave => exact ⟨rfl, rfl⟩
  | report _ _ heard => simp [hushed.silent] at heard
  | arrive here | lock here | settle here | knock here | pass here | turnBack here | giveUp here
  | announce here | call here | answer _ here | expire here | conclude here => simp [here] at phase

-- ---------------------------------------------------------------------------
-- Runs
-- ---------------------------------------------------------------------------

/-- The log of a worker that is now `w`, with which it goes on with what lay ahead of it, or was hushed. -/
def GoesOn (s : DispatchSettings) (i : Nat) (x : Executor) (w₀ w : Worker) (log : List Happening) : Prop :=
  (∀ done, Ahead s i w done → Ahead s i w₀ (log ++ done)) ∨
    Hushed x w ∧ ∃ done, Ahead s i w₀ done ∧ log <+: done

theorem GoesOn.ages {x' : Executor} (h : GoesOn s i x w₀ w log) (ages : x.Ages x') :
    GoesOn s i x' w₀ w log := by
  refine h.imp_right (And.imp_left fun hushed => ⟨?_, hushed.phase⟩)
  cases heard : x'.isReceived with
  | false => rfl
  | true => exact (ages.heard heard).symm.trans hushed.silent

theorem GoesOn.deed (h : GoesOn x.settings i x w₀ w log) (busy : Worker.IsBusy w)
    (cancelled : x.isCancelled = true) (deed : Deed e i w x f) :
    GoesOn x.settings i f.executor w₀ f.worker (log ++ f.happenings.reverse) := by
  refine GoesOn.ages ?_ deed.ages
  obtain ahead | ⟨hushed, done, first, start⟩ := h
  · obtain next | ⟨hushed, nothing⟩ := deed.ahead cancelled
    · refine .inl fun done more => ?_
      rw [List.append_assoc]
      exact ahead _ (next done more)
    · obtain ⟨done, more⟩ := exists_ahead x.settings i busy
      refine .inr ⟨hushed, _, ahead done more, ?_⟩
      rw [nothing, List.reverse_nil, List.append_nil]
      exact List.prefix_append log done
  · obtain ⟨gone, nothing⟩ := deed.hushed hushed
    rw [nothing, List.reverse_nil, List.append_nil]
    exact .inr ⟨⟨hushed.silent, .inl gone⟩, done, first, start⟩

/-- The worker as it is at the start of a run, or as it is when it is new. -/
def Begins (e : Engine) (i : Nat) (w₀ : Worker) : Prop :=
  e.workers[i]? = some w₀ ∨ e.workers[i]? = none ∧ w₀.phase = .spawned

/-- In a run from a cancelled executor each of its workers goes on from its first phase, as its log says. -/
theorem goesOn_of_play? (reachable : e.Reachable) (hx : e.executors[k]? = some x)
    (cancelled : x.isCancelled = true) {rest : List Act} (played : e.play? rest = some e')
    {x' : Executor} (hx' : e'.executors[k]? = some x') (hw : e'.workers[i]? = some w)
    (mine : w.executor = k) : ∃ w₀, e.Begins i w₀ ∧ w₀.executor = k ∧
      GoesOn x.settings i x' w₀ w (e.logOf i rest) := by
  suffices all : w.executor = k → ∃ x' w₀, e'.executors[k]? = some x' ∧ x.Ages x' ∧ e.Begins i w₀ ∧
      w₀.executor = k ∧ GoesOn x.settings i x' w₀ w (e.logOf i rest) by
    obtain ⟨y, w₀, hy, _, begins, same, goes⟩ := all mine
    cases hx'.symm.trans hy
    exact ⟨w₀, begins, same, goes⟩
  refine logOf_induction (P := fun log e' w => w.executor = k → ∃ x' w₀, e'.executors[k]? = some x' ∧
    x.Ages x' ∧ e.Begins i w₀ ∧ w₀.executor = k ∧ GoesOn x.settings i x' w₀ w log)
    reachable ?start ?born ?stays ?acts played w hw
  case start =>
    intro w hw mine
    exact ⟨x, w, hx, .refl x, .inl hw, mine, .inl fun _ ahead => ahead⟩
  case born =>
    intro acts e₁ w played absent _ spawned mine
    obtain ⟨x₁, hx₁, ages⟩ := play?_ages reachable played hx
    exact ⟨x₁, w, hx₁, ages, .inr ⟨absent, spawned⟩, mine, .inl fun _ ahead => ahead⟩
  case stays =>
    intro acts log e₁ e₂ a w played done _ _ ih mine
    obtain ⟨x₁, w₀, hx₁, ages, begins, same, goes⟩ := ih mine
    obtain ⟨x₂, hx₂, ages'⟩ := act?_ages (reachable.play? played).housed done hx₁
    exact ⟨x₂, w₀, hx₂, ages.trans ages', begins, same, goes.ages ages'⟩
  case acts =>
    intro acts log e₁ w y f played hw hy deed ih mine
    obtain ⟨x₁, w₀, hx₁, ages, begins, same, goes⟩ := ih (deed.executor_eq ▸ mine)
    have mine : w.executor = k := deed.executor_eq ▸ mine
    cases hy.symm.trans (mine ▸ hx₁)
    have busy := isBusy_of_reachable (reachable.play? played) w (List.mem_of_getElem? hw)
    refine ⟨f.executor, w₀, by rw [put_executor? hy, if_pos mine.symm], ages.trans deed.ages, begins, same,
      ?_⟩
    rw [← ages.settings] at goes ⊢
    exact goes.deed busy (ages.cancelled cancelled) deed

/-- Once an executor is cancelled, each of its workers does at most what lay ahead of it then: a worker that
waited at its gate, or was about to announce its command or to send it, makes the one attempt that came next,
and no other attempt begins. At rest the workers are gone, and if the events are received each has done all of
it: a call that was under way has ended and is reported. Nothing else happens for the executor. -/
theorem cancelled_workers_wind_up (reachable : e.Reachable) (hx : e.executors[k]? = some x)
    (cancelled : x.isCancelled = true) {rest : List Act} (played : e.play? rest = some e')
    {x' : Executor} (hx' : e'.executors[k]? = some x') :
    (∀ i w, e'.workers[i]? = some w → w.executor = k →
      (∃ w₀ done, e.Begins i w₀ ∧ w₀.executor = k ∧ Ahead x.settings i w₀ done ∧
        e.logOf i rest <+: done ∧
        (w.phase = .gone → x'.isReceived = true → e.logOf i rest = done)) ∧
      (e'.AtRest → w.phase = .gone)) ∧
    ∃ later, e'.history = later ++ e.history ∧
      ∀ entry ∈ later, (∃ registry request, entry.happening = .pinged registry request) ∨
        ∃ i w, e'.workers[i]? = some w ∧ entry.host = w.host ∧
          entry.happening.IsBy w.executor i ∧ entry.happening ∈ e.logOf i rest := by
  have reachable' := reachable.play? played
  refine ⟨fun i w hw mine => ⟨?_, fun rest => rest.gone reachable' hw (by rw [mine, hx'])⟩,
    play?_history reachable played⟩
  obtain ⟨w₀, begins, same, goes⟩ := goesOn_of_play? reachable hx cancelled played hx' hw mine
  obtain ahead | ⟨hushed, done, first, start⟩ := goes
  · obtain ⟨done, more⟩ :=
      exists_ahead x.settings i (isBusy_of_reachable reachable' w (List.mem_of_getElem? hw))
    refine ⟨w₀, _, begins, same, ahead done more, List.prefix_append _ _, fun gone _ => ?_⟩
    simp only [Ahead, gone] at more
    rw [more, List.append_nil]
  · exact ⟨w₀, done, begins, same, first, start, fun _ heard => by simp [hushed.silent] at heard⟩

/-! ## Cancelled at the gate -/

/-- The executor is cancelled while the ping that the gate of alpha asked for is under way. -/
def cancelledActs : List Act :=
  firstAttempt.take 8 ++
  [.move (.supervise 0 "alpha"), .move (.work 0), .move (.supervise 0 "alpha"), .serve (.cancel 0)]

/-- The ping is answered, and the command is sent. -/
def sentAfterwards : List Act :=
  .move (.pong 0 "alpha" (some .epoch)) :: List.replicate 4 (.move (.work 0))

/-- The engine after the cancellation. -/
def cancelledAtGate : Engine := ((empty .epoch).play? cancelledActs).getD (empty .epoch)

/-- The engine after the command was sent. -/
def sentLate : Engine := (cancelledAtGate.play? sentAfterwards).getD (empty .epoch)

theorem cancelled_workers_wind_up_sentLate :
    (∃ w₀ done, cancelledAtGate.Begins 0 w₀ ∧ Ahead { DispatchSettings.default with maxTaskRetries := 1 } 0 w₀ done ∧
      begun 0 0 (errand 0 "alpha") 0 <+: done) ∧
    cancelledAtGate.logOf 1 sentAfterwards = [] := by
  have reachable : cancelledAtGate.Reachable := ⟨.epoch, cancelledActs, by decide +kernel⟩
  have played : cancelledAtGate.play? sentAfterwards = some sentLate := by decide +kernel
  have before : (cancelledAtGate.executors[0]?).map (fun x => (x.settings, x.isCancelled)) =
      some ({ DispatchSettings.default with maxTaskRetries := 1 }, true) := by decide +kernel
  have after : (sentLate.executors[0]?).isSome := by decide +kernel
  have alpha : (sentLate.workers[0]?).map Worker.executor = some 0 := by decide +kernel
  obtain ⟨x, hx, same⟩ := Option.map_eq_some_iff.mp before
  obtain ⟨settings, cancelled⟩ := Prod.mk.inj same
  obtain ⟨x', hx'⟩ := Option.isSome_iff_exists.mp after
  obtain ⟨w, hw, mine⟩ := Option.map_eq_some_iff.mp alpha
  obtain ⟨workers, _⟩ := cancelled_workers_wind_up reachable hx cancelled played hx'
  obtain ⟨⟨w₀, done, begins, _, ahead, start, _⟩, _⟩ := workers 0 w hw mine
  have log : cancelledAtGate.logOf 0 sentAfterwards = begun 0 0 (errand 0 "alpha") 0 := by decide +kernel
  exact ⟨⟨w₀, done, begins, settings ▸ ahead, log ▸ start⟩, by decide +kernel⟩

/-- After the cancellation a command whose host was being asked for is announced and sent. -/
theorem attempt_after_cancellation :
    cancelledAtGate.Reachable ∧
      (cancelledAtGate.executors[0]?).map (fun x => (x.isCancelled, x.isReceived)) = some (true, true) ∧
      ∃ e, cancelledAtGate.play? sentAfterwards = some e ∧
        e.history = ⟨0, "alpha", .callBegan 0 (errand 0 "alpha")⟩ ::
          ⟨0, "alpha", .reported 0 (.started 0 1)⟩ :: cancelledAtGate.history :=
  ⟨⟨.epoch, cancelledActs, by decide +kernel⟩, by decide +kernel, sentLate, by decide +kernel,
    by decide +kernel⟩

end Rollout.Engine
