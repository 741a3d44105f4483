-- SUMMARY: Attempts are accounted for: the attempts of a task rise, and its retries count what was repeated.
import Rollout.Proofs.Orchestrator.Retries
import Rollout.Proofs.Orchestrator.TurnFrame
import Rollout.Proofs.Orchestrator.Verdict

/-!
# Counts of attempts

A run is at its station with its executor and the workers of the executor. At a turn its driver takes something
in, or one of its workers does a deed, or the station is still. Each of these keeps the calls of the run
accounted for, so the attempts for a task rise from call to call, whatever else happens.
-/
namespace Rollout

theorem Executor.driven_settings (x : Executor) (s₀ s₁ s₂ : RunState) :
    (x.driven s₀ s₁ s₂).settings = x.settings := by
  have observing (x : Executor) (s s' : RunState) : (x.observing s s').settings = x.settings := by
    unfold observing
    split <;> rfl
  unfold driven
  dsimp only
  split
  · exact (observing ..).trans (observing ..)
  · exact (observing ..).trans (observing ..)

/-- Only the call of an input puts tasks back in the queue, and not the step that follows. -/
theorem Run.requeues_taking (r : Run) (task : Nat) (now : Timestamp) (input : Input) :
    r.requeues task (Logbook.calls [(now, input)]) = if r.reopens task input.call then 1 else 0 := by
  simp [Logbook.calls, Run.requeues, Run.reopens]

theorem Logbook.calls_append (log log' : Logbook) :
    Logbook.calls (log ++ log') = log.calls ++ log'.calls := List.flatMap_append

namespace Orchestrator

variable {settings : EngineSettings} {o o' o₁ : Orchestrator} {i k limit : Nat} {d d' : Driver}
  {x x' : Executor} {turn : Turn} {turns : List Turn} {manual : Nat → Nat} {c : TaskCommand}

-- ---------------------------------------------------------------------------
-- Inputs
-- ---------------------------------------------------------------------------

theorem Intake.settings_eq {d₁ : Driver} {x₁ : Executor} {r : Run} (h : Intake o i d x turn d₁ x₁ r) :
    x₁.settings = x.settings := by
  cases h <;> rfl

/-- What a driver takes in keeps the calls accounted for, or it aborts the run. -/
theorem Intake.reckoned {d₁ : Driver} {x₁ : Executor} {r : Run} {calls : Nat → List (Nat × UInt32)}
    (h : Intake o i d x turn d₁ x₁ r) (hd : o.drivers[i]? = some d)
    (hx : o.engine.executors[i]? = some x) (live : d.run.state.isTerminal = false)
    (mirrors : d.run.MirrorsPlan) (account : d.run.Account x (o.engine.crew i))
    (before : ∀ t ∈ d.run.tasks,
      d.run.Reckoned o.engine.workers i x.channel (calls t.id) limit (manual t.id) t) :
    ∃ input, o.input? i turn = some input ∧
      ((r.state.isTerminal = false ∧
          ∀ t ∈ r.tasks, r.Reckoned o.engine.workers i x₁.channel (calls t.id) limit
            (manual t.id + if d.run.reopens t.id input.call then 1 else 0) t) ∨
        (∀ id, d.run.reopens id input.call = false) ∧ ∃ reason, r = d.run.skipRest o.wall reason) := by
  have charter := h.charter
  cases h with
  | begin _ started =>
    have tasks : (d.run.start o.wall).1.tasks = d.run.tasks := Run.enter_tasks ..
    rw [started] at tasks
    exact ⟨.begin, if_pos rfl, .inl ⟨by rw [Run.state_of_started started]; rfl,
      Run.Reckoned.of_tasks before charter tasks⟩⟩
  | @event event _ _ _ channel applied =>
    have same := (Run.apply_applied d.run o.wall event).state
    rw [applied] at same
    exact ⟨.news event, by simp [input?, hx, channel], .inl
      ⟨same ▸ live, Run.Reckoned.take before account mirrors live channel applied⟩⟩
  | @control ticket _ _ _ tickets controlled =>
    subst controlled
    exact ⟨.order ticket, by simp [input?, hd, tickets],
      Run.Reckoned.control before mirrors live ticket.control⟩
  | hangUp _ _ _ aborted =>
    refine ⟨.hangUp, if_pos rfl, .inr ⟨fun _ => rfl, "orchestrator shut down", ?_⟩⟩
    exact aborted.symm.trans (congrArg Prod.fst (Run.abort_of_live live))

-- ---------------------------------------------------------------------------
-- Reckoning
-- ---------------------------------------------------------------------------

/-- Of the commands for its task the worker at position `k` holds at most `c`, and all calls that it made for
the task were calls for `c`, with consecutive attempts from the one that the command carries. -/
structure Pursues (o : Orchestrator) (i : Nat) (run : RunId) (k : Nat) (c : TaskCommand) : Prop where
  only : ∃ w, o.engine.workers[k]? = some w ∧ w.executor = i ∧
    ∀ c' ∈ w.commands, c'.taskId = c.taskId → c' = c
  attempts : ∃ n, Engine.attemptsBy k (Engine.callsFor o.engine.history run c.taskId) =
    Engine.consecutive c.attempt n

theorem Pursues.still (p : o.Pursues i d.run.id k c) (still : Still i d o o') :
    o'.Pursues i d.run.id k c := by
  obtain ⟨⟨w, hw, mine, only⟩, n, attempts⟩ := p
  exact ⟨⟨w, (still.workers k w mine).mpr hw, mine, only⟩, n, by rw [still.calls, attempts]⟩

theorem Pursues.grown {run : RunId} (p : o.Pursues i run k c) {new : List Worker}
    (workers : o'.engine.workers = o.engine.workers ++ new)
    (history : o'.engine.history = o.engine.history) : o'.Pursues i run k c := by
  obtain ⟨⟨w, hw, mine, only⟩, n, attempts⟩ := p
  refine ⟨⟨w, ?_, mine, only⟩, n, history ▸ attempts⟩
  rw [workers, List.getElem?_append_left (List.getElem?_eq_some_iff.mp hw).1, hw]

/-- At the station of the driver `d` with the executor `x` all calls are accounted for, also those that workers
are about to make. Each task was put back in the queue `manual` times. -/
structure Reckoning (o : Orchestrator) (i : Nat) (d : Driver) (x : Executor) (limit : Nat)
    (manual : Nat → Nat) : Prop where
  driver : o.drivers[i]? = some d
  executor : o.engine.executors[i]? = some x
  limited : x.settings.callLimit = limit
  mirrors : d.run.MirrorsPlan
  summed : ∀ t ∈ d.run.tasks,
    t.Summed (Engine.callsFor o.engine.history d.run.id t.id) limit (manual t.id)
  reckoned : d.run.state.isTerminal = false → ∀ t ∈ d.run.tasks,
    d.run.Reckoned o.engine.workers i x.channel (Engine.callsFor o.engine.history d.run.id t.id) limit
      (manual t.id) t
  pending : ∀ (k : Nat) w retries c, o.engine.workers[k]? = some w → w.executor = i →
    w.phase = .announced retries → w.commands.head? = some c →
    d.run.Pending (Engine.callsFor o.engine.history d.run.id) limit manual k w c
  pursued : ∀ (k : Nat) w c, o.engine.workers[k]? = some w → w.executor = i → c ∈ w.commands →
    o.Pursues i d.run.id k c

/-- A worker that is not there made no calls. -/
theorem Recorded.uncalled (h : o.Recorded) (absent : o.engine.workers.length ≤ k) (run : RunId)
    (task : Nat) : Engine.attemptsBy k (Engine.callsFor o.engine.history run task) = [] := by
  refine Decidable.byContradiction fun called => ?_
  obtain ⟨call, made, same⟩ := List.mem_map.mp (Engine.mem_callers.mpr called)
  obtain ⟨entry, hentry, c, began, _⟩ := Engine.mem_callsFor made
  obtain ⟨w, _, hw, _⟩ := h.served entry hentry call.1 c began
  have := (List.getElem?_eq_some_iff.mp hw).1
  omega

namespace Reckoning

section Deed

variable (h : o.Reckoning i d x limit manual) {w : Worker} {f : Engine.Effect}
  (hw : o.engine.workers[k]? = some w) (mine : w.executor = i)
include h hw mine

/-- A worker that sends its command makes the next attempt at its task. -/
theorem sent {retries : UInt32} (sending : Engine.Calls o.engine k w f retries c) :
    ∃ t ∈ d.run.tasks, t.id = c.taskId ∧ (t.isOutstanding = true ∨ t.status = .skipped) ∧
      Engine.attemptsBy k (Engine.callsFor o.engine.history d.run.id c.taskId) =
        Engine.consecutive c.attempt retries.toNat ∧
      ∃ sent, Engine.Ledger ((k, c.attempt + retries) :: Engine.callsFor o.engine.history d.run.id c.taskId)
        limit (manual c.taskId) sent := by
  obtain ⟨t, ht, id, open_, attempt, sent, carried⟩ :=
    h.pending k w retries c hw mine sending.phase sending.command
  obtain ⟨rfl, after⟩ := carried.called sending attempt
  rw [id] at after carried
  exact ⟨t, ht, id, open_, by rw [carried.own, attempt], _, after.ledger⟩

/-- The calls for a task stay summed up when a worker does something. -/
theorem summed_deed (engine : o'.engine = o.engine.put k w f) (deed : Engine.Deed o.engine k w x f) :
    ∀ t ∈ d.run.tasks, t.Summed (Engine.callsFor o'.engine.history d.run.id t.id) limit (manual t.id) := by
  intro t ht
  rw [engine]
  obtain calls | ⟨retries, c, sending⟩ := deed.callsFor
  · rw [calls]
    exact h.summed t ht
  · rw [sending.calls]
    split
    next about =>
      -- The task is not over, or it was skipped, so its retries need not account for the call yet.
      obtain ⟨t', ht', id, going, _, sent, ledger⟩ := h.sent hw mine sending
      have same : t' = t := Option.some.inj ((h.mirrors.task?_id ht').symm.trans
        ((id.trans about.2) ▸ h.mirrors.task?_id ht))
      subst same
      rw [about.2] at ledger
      refine ⟨⟨sent, ledger⟩, fun ended other => ?_⟩
      obtain out | skipped := going
      · simp [Run.isTerminal_of_isOutstanding out] at ended
      · exact absurd skipped other
    · exact h.summed t ht

/-- A worker that does something pursues its commands. -/
theorem pursues_deed (deed : Engine.Deed o.engine k w x f) (engine : o'.engine = o.engine.put k w f) {j : Nat}
    (p : o.Pursues i d.run.id j c) : o'.Pursues i d.run.id j c := by
  obtain ⟨⟨v, hv, at_i, only⟩, n, attempts⟩ := p
  refine ⟨?_, ?_⟩
  · rw [engine, Engine.put_worker? hw]
    split
    next here =>
      cases hw.symm.trans (here ▸ hv)
      exact ⟨_, rfl, deed.executor_eq.trans at_i, fun c' hc' => only c' (deed.commands_subset hc')⟩
    · exact ⟨v, hv, at_i, only⟩
  · rw [engine]
    obtain calls | ⟨retries, c₁, sending⟩ := deed.callsFor
    · exact ⟨n, by rw [calls, attempts]⟩
    · rw [sending.calls]
      split
      next about =>
        rw [Engine.attemptsBy_cons]
        split
        next here =>
          subst here
          cases hw.symm.trans hv
          cases only c₁ (List.mem_of_head? sending.command) about.2
          obtain ⟨_, _, _, _, own, _⟩ := h.sent hw mine sending
          refine ⟨retries.toNat + 1, ?_⟩
          rw [own, Engine.consecutive_succ, UInt32.ofNat_toNat]
        · exact ⟨n, attempts⟩
      · exact ⟨n, attempts⟩

variable (recorded : o.Recorded)
include recorded

/-- What is about to be sent stays pending when a worker does something. -/
theorem pending_deed (engine : o'.engine = o.engine.put k w f) (deed : Engine.Deed o.engine k w x f)
    {j : Nat} {v : Worker} {retries : UInt32} (hv : o'.engine.workers[j]? = some v) (at_i : v.executor = i)
    (phase : v.phase = .announced retries) (command : v.commands.head? = some c) :
    d.run.Pending (Engine.callsFor o'.engine.history d.run.id) limit manual j v c := by
  have live_of (heard : x.isReceived = true) : d.run.state.isTerminal = false := by
    rw [← recorded.closed d (List.mem_of_getElem? h.driver)]
    exact Bool.eq_false_iff.mpr fun archived => by
      simp [recorded.silent h.driver h.executor archived] at heard
  rw [engine, Engine.put_worker? hw] at hv
  rw [engine]
  split at hv
  next here =>
    subst here
    cases hv
    cases deed with
    | @announce _ _ was first heard =>
      have live := live_of heard
      obtain ⟨_, account⟩ := recorded.agreed h.driver h.executor live
      refine (Run.Reckoned.pending (h.reckoned live) account h.mirrors hw mine
        (List.mem_of_head? command)).keep rfl fun sent before => ?_
      simpa only [Worker.Sent, was, Phase.Sent] using before
    | @conclude retries fault =>
      obtain ⟨_, again⟩ | ⟨_, _, ended⟩ := Engine.afterCall_cases x retries fault
      · cases again.symm.trans phase
      · cases ended.symm.trans phase
    | arrive | leave | lock | settle | knock | pass | turnBack | giveUp | call | answer | expire
    | report => cases phase
  next other =>
    refine (h.pending j v retries c hv at_i phase command).keep ?_ fun _ sent => sent
    obtain calls | ⟨_, c', sending⟩ := deed.callsFor
    · exact calls ..
    · rw [sending.calls, if_neg fun about => other ?_]
      -- Two workers with a lock never hold commands for the same task.
      exact recorded.one_at_task hw hv (at_i.trans mine.symm) (by rw [sending.phase]; rfl)
        (by rw [phase]; rfl) (List.mem_of_head? sending.command) (List.mem_of_head? command) about.2.symm

/-- A deed of a worker at the station keeps all calls accounted for. -/
theorem deed (drivers : o'.drivers = o.drivers) (deed : Engine.Deed o.engine k w x f)
    (engine : o'.engine = o.engine.put k w f) : o'.Reckoning i d f.executor limit manual := by
  refine ⟨drivers ▸ h.driver, ?_, ?_, h.mirrors, h.summed_deed hw mine engine deed, fun live => ?_,
    fun j v retries c hv at_i phase command => h.pending_deed hw mine recorded engine deed hv at_i phase command,
    fun j v c hv at_i hc => ?_⟩
  · rw [engine, Engine.put_executor? (mine.symm ▸ h.executor), if_pos mine.symm]
  · rw [deed.settings_eq, h.limited]
  · obtain ⟨_, account⟩ := recorded.agreed h.driver h.executor live
    have before := h.reckoned live
    rw [← h.limited] at before ⊢
    rw [engine]
    exact fun t ht => (before t ht).deed account h.mirrors ht hw mine
      (recorded.tagged h.driver w (Engine.mem_crew hw mine)) deed
  · rw [engine, Engine.put_worker? hw] at hv
    refine h.pursues_deed hw mine deed engine ?_
    split at hv
    next here =>
      cases hv
      exact here ▸ h.pursued k w c hw mine (deed.commands_subset hc)
    · exact h.pursued j v c hv at_i hc

end Deed

/-- So does a turn that leaves the station still. -/
theorem still (h : o.Reckoning i d x limit manual) (still : Still i d o o') :
    ∃ d', o'.Reckoning i d' x limit manual := by
  obtain ⟨d', hd', run⟩ := still.driver
  refine ⟨d', hd', still.executor.trans h.executor, h.limited, run ▸ h.mirrors, fun t ht => ?_,
    fun live t ht => ?_, fun k w retries c hw mine phase command => ?_, fun k w c hw mine hc => ?_⟩
  · rw [run] at ht ⊢
    rw [still.calls]
    exact h.summed t ht
  · rw [run] at live ht ⊢
    rw [still.calls]
    refine (h.reckoned live t ht).keep (fun _ news => news) fun k w _ hw mine holds progress =>
      ⟨w, (still.workers k w mine).mpr hw, mine, holds, progress⟩
  · rw [run]
    exact (h.pending k w retries c ((still.workers k w mine).mp hw) mine phase command).keep
      (still.calls c.taskId) fun _ sent => sent
  · rw [run]
    exact (h.pursued k w c ((still.workers k w mine).mp hw) mine hc).still still

/-- The workers of a step hold its commands, and made no call yet. -/
theorem pursued_after (h : o.Reckoning i d x limit manual) (recorded : o.Recorded) {r₁ r₂ : Run}
    (mirrors : r₁.MirrorsPlan) {commands : List TaskCommand}
    (stepped : r₁.step o.wall = (r₂, .ok commands))
    (workers : o'.engine.workers = o.engine.workers ++ Engine.starters i commands)
    (history : o'.engine.history = o.engine.history) (k : Nat) (w : Worker) (c : TaskCommand)
    (hw : o'.engine.workers[k]? = some w) (mine : w.executor = i) (hc : c ∈ w.commands) :
    o'.Pursues i d.run.id k c := by
  have here := hw
  rw [workers, List.getElem?_append] at hw
  split at hw
  · exact (h.pursued k w c hw mine hc).grown workers history
  next new =>
    obtain ⟨_, _, held⟩ := Engine.mem_starters (List.mem_of_getElem? hw)
    have given {c : TaskCommand} (hc : c ∈ w.commands) : c ∈ commands :=
      (List.mem_filter.mp (held ▸ hc)).1
    refine ⟨⟨w, here, mine, fun c' hc' same => mirrors.step_command stepped (given hc) (given hc') same⟩,
      0, ?_⟩
    rw [history]
    exact recorded.uncalled (Nat.le_of_not_lt new) d.run.id c.taskId

/-- A driver that takes an input in counts what the input puts back in the queue, and hands out what the step
returns. -/
theorem driven (h : o.Reckoning i d x limit manual) (recorded : o.Recorded)
    (driven : Driven i o o' turn) : ∃ input d' x', o.input? i turn = some input ∧
      o'.Reckoning i d' x' limit fun id => manual id + if d.run.reopens id input.call then 1 else 0 := by
  obtain @⟨d₀, d₁, x₀, x₁, r₁, r₂, commands, hd, hx, live, _, intake, stepped, became⟩ := driven
  cases h.driver.symm.trans hd
  cases h.executor.symm.trans hx
  obtain ⟨orderly, account⟩ := recorded.agreed hd hx live
  have charter₂ : r₂.charter = r₁.charter := by
    have := Run.step_charter r₁ o.wall
    rwa [stepped] at this
  have id : r₂.id = d.run.id := (Run.charter_eq_iff.mp (charter₂.trans intake.charter)).1
  have driver := became.driver? hd
  have executor := became.executor? hx
  have limited : (x₁.driven d.run.state r₁.state r₂.state).settings.callLimit = limit := by
    rw [Executor.driven_settings, intake.settings_eq, h.limited]
  have mirrors := h.mirrors.of_charter (charter₂.trans intake.charter)
  have pursued := h.pursued_after recorded (orderly.mirrors.of_charter intake.charter) stepped
    became.workers became.history
  obtain ⟨input, taken, ⟨live₁, reckoned⟩ | ⟨unmoved, reason, rfl⟩⟩ :=
    intake.reckoned hd hx live orderly.mirrors account (h.reckoned live)
  · obtain ⟨orderly₁, account₁⟩ := intake.account live orderly account live₁
    obtain ⟨_, given, _, _, account₂⟩ := account₁.step orderly₁ o.wall i
    rw [stepped] at given account₂
    cases given
    have all := Run.Reckoned.step (fun id => manual id + if d.run.reopens id input.call then 1 else 0)
      reckoned stepped fun k new id => recorded.uncalled new d.run.id id
    rw [← became.workers] at all
    refine ⟨input, _, _, taken, driver, executor, limited, by rwa [Driver.published_run], ?_, ?_, ?_,
      by rwa [Driver.published_run, id]⟩
    all_goals rw [Driver.published_run, became.history, id]
    · exact fun t ht => (all t ht).summed
    · intro live₂ t ht
      rw [Executor.driven_of_live live₁ live₂]
      exact all t ht
    · intro k w _ c hw mine _ command
      have crew := became.crew (fun w hw => (Engine.mem_starters hw).1) i
      rw [if_pos rfl] at crew
      exact Run.Reckoned.pending all (crew ▸ account₂) mirrors hw mine (List.mem_of_head? command)
  · -- The run is archived before the step, which leaves it alone.
    cases (Run.step_of_archived rfl).symm.trans stepped
    refine ⟨input, _, _, taken, driver, executor, limited, by rwa [Driver.published_run], ?_, ?_, ?_,
      by rwa [Driver.published_run, id]⟩
    all_goals rw [Driver.published_run]
    · rw [became.history]
      intro t' ht'
      obtain ⟨t, ht, rfl⟩ := List.mem_map.mp ht'
      have same : (t.skipped o.wall).id = t.id := congrArg Prod.snd t.skipped_origin
      rw [same, unmoved]
      exact (h.summed t ht).skipped o.wall
    · exact fun live₂ => absurd live₂ (by simp [Run.skipRest, RunState.isTerminal])
    · intro k w retries c hw mine phase command
      rw [became.workers, Engine.starters_nil, List.append_nil] at hw
      rw [became.history]
      simp only [unmoved, Bool.false_eq_true, if_false, Nat.add_zero]
      exact (h.pending k w retries c hw mine phase command).skipRest o.wall reason

/-- At every turn all calls stay accounted for, where each retry of a client counts for the tasks that it puts back.
-/
theorem step (h : o.Reckoning i d x limit manual) (recorded : o.Recorded)
    (stepped : o.step? turn = some o') : ∃ d' x', o'.Reckoning i d' x' limit fun id => manual id +
      d.run.requeues id (Logbook.calls ((o.input? i turn).map fun input => (o.wall, input)).toList) := by
  cases recorded.at_station h.driver h.executor stepped with
  | driven driven =>
    obtain ⟨input, d', x', taken, after⟩ := h.driven recorded driven
    refine ⟨d', x', ?_⟩
    rw [taken]
    simp only [Option.map_some, Option.toList_some, Run.requeues_taking]
    exact after
  | deed idle drivers worker mine deed engine =>
    rw [idle]
    exact ⟨d, _, h.deed worker mine recorded drivers deed engine⟩
  | still idle still =>
    obtain ⟨d', after⟩ := h.still still
    rw [idle]
    exact ⟨d', x, after⟩

theorem pursues (h : o.Reckoning i d x limit manual) (recorded : o.Recorded)
    (stepped : o.step? turn = some o') (p : o.Pursues i d.run.id k c) : o'.Pursues i d.run.id k c := by
  cases recorded.at_station h.driver h.executor stepped with
  | driven driven =>
    obtain ⟨_, _, _, _, _, _, became⟩ := driven
    exact p.grown became.workers became.history
  | deed _ _ worker mine deed engine =>
    exact h.pursues_deed worker mine deed engine p
  | still _ still => exact p.still still

/-- The run at a station is the run at the start after what its driver took in. -/
theorem run_after (h : o.Reckoning i d x limit manual) (reachable : o.Reachable settings)
    (played : o.play? turns = some o') {manual' : Nat → Nat} (h' : o'.Reckoning i d' x' limit manual') :
    d'.run = d.run.after (o.logbook i turns).calls := by
  obtain ⟨d₁, hd₁, run⟩ := (Recorded.of_reachable reachable).run_after h.driver played
  cases h'.driver.symm.trans hd₁
  exact run

theorem run_id (h : o.Reckoning i d x limit manual) (reachable : o.Reachable settings)
    (played : o.play? turns = some o') {manual' : Nat → Nat} (h' : o'.Reckoning i d' x' limit manual') :
    d'.run.id = d.run.id := by
  rw [h.run_after reachable played h']
  exact Run.after_id ..

/-- The calls are accounted for over any sequence of turns, and workers go on pursuing their commands. -/
theorem play (h : o.Reckoning i d x limit manual) (reachable : o.Reachable settings)
    (played : o.play? turns = some o') :
    (∃ d' x', o'.Reckoning i d' x' limit
      fun id => manual id + d.run.requeues id (o.logbook i turns).calls) ∧
    ∀ k c, o.Pursues i d.run.id k c → o'.Pursues i d.run.id k c := by
  induction turns generalizing o d x manual with
  | nil =>
    cases played
    exact ⟨⟨d, x, h⟩, fun _ _ p => p⟩
  | cons turn turns ih =>
    obtain ⟨o₁, stepped, played⟩ := Option.bind_eq_some_iff.mp played
    have recorded := Recorded.of_reachable reachable
    obtain ⟨d₁, x₁, h₁⟩ := h.step recorded stepped
    have single : o.play? [turn] = some o₁ := by
      rw [play?, stepped]
      rfl
    have run : d₁.run = d.run.after
        (Logbook.calls ((o.input? i turn).map fun input => (o.wall, input)).toList) := by
      have run := h.run_after reachable single h₁
      rwa [logbook_cons stepped, logbook, List.append_nil] at run
    have id := h.run_id reachable single h₁
    obtain ⟨⟨d', x', h'⟩, pursues⟩ := ih h₁ (reachable.step stepped) played
    refine ⟨⟨d', x', ?_⟩, fun k c p => ?_⟩
    · rw [logbook_cons stepped]
      simp only [Logbook.calls_append, Run.requeues_append, ← run, ← Nat.add_assoc]
      exact h'
    · rw [← id]
      exact pursues k c (id ▸ h.pursues recorded stepped p)

/-- Nobody called for a run that is created now. -/
theorem create (recorded : o.Recorded) {id : RunId} (fresh : o.find? id = none) (plan : Plan)
    (policy : Policy) (now : Timestamp) :
    ∃ d x, d.run = Run.create id plan policy now ∧
      (o.addRun (Run.create id plan policy now)).Reckoning o.drivers.length d x
        o.settings.dispatch.callLimit fun _ => 0 := by
  generalize created : Run.create id plan policy now = r
  have same_id : r.id = id := by rw [← created]; rfl
  have uncalled (task : Nat) : Engine.callsFor o.engine.history r.id task = [] := by
    refine List.eq_nil_iff_forall_not_mem.mpr fun call made => ?_
    obtain ⟨entry, hentry, c, began, run⟩ := Engine.mem_callsFor made
    obtain ⟨_, d, _, hd, named⟩ := recorded.served entry hentry call.1 c began
    have member := List.mem_of_getElem? hd
    exact fresh_of_find? fresh d member
      ((recorded.named d member).trans (named.trans (run.trans same_id)))
  have reckoned {t : Task} (ht : t ∈ r.tasks) (channel : List TaskEvent) :
      r.Reckoned o.engine.workers o.drivers.length channel [] o.settings.dispatch.callLimit 0 t := by
    rw [← created] at ht
    obtain ⟨entry, _, rfl⟩ := List.mem_map.mp ht
    exact .idle rfl (fun _ => rfl) rfl (.empty _)
  have nobody {k : Nat} {w : Worker} (hw : o.engine.workers[k]? = some w) :
      w.executor ≠ o.drivers.length := fun mine => by
    have member := Engine.mem_crew hw mine
    rw [recorded.crew_eq_nil] at member
    cases member
  refine ⟨⟨r, r, [], false, false⟩, .fresh o.settings.dispatch o.engine.registries.length, rfl,
    ?_, ?_, rfl, created ▸ Run.create_mirrorsPlan id plan policy now, fun t ht => ?_, fun _ t ht => ?_,
    fun k w _ c hw mine => absurd mine (nobody hw), fun k w c hw mine => absurd mine (nobody hw)⟩
  · exact addRun_driver? r o
  · rw [addRun_executors, recorded.paired, List.getElem?_concat_length]
  · show t.Summed (Engine.callsFor o.engine.history r.id t.id) _ 0
    rw [uncalled]
    exact (reckoned ht []).summed
  · show r.Reckoned o.engine.workers _ _ (Engine.callsFor o.engine.history r.id t.id) _ 0 t
    rw [uncalled]
    exact reckoned ht _

end Reckoning

-- ---------------------------------------------------------------------------
-- Attempts
-- ---------------------------------------------------------------------------

/-- The calls for a task of the run `first` at position `i` in the history of an orchestrator. -/
def calls (o : Orchestrator) (first : Run) (task : Nat) : List (Nat × UInt32) :=
  Engine.callsFor o.engine.history first.id task

/-- From `o` over the turns to `o'` the attempts for the tasks of the run `first` at position `i` add up. At
most `limit` calls may be made for a command. -/
structure AttemptsAddUp (i : Nat) (first : Run) (limit : Nat) (turns : List Turn) (o o' : Orchestrator) :
    Prop where
  run : ∃ d, o'.drivers[i]? = some d ∧ d.run = first.after (o.logbook i turns).calls
  /-- A task is called for at most as often as its commands allow. -/
  bounded : ∀ t ∈ (first.after (o.logbook i turns).calls).tasks,
    (o'.calls first t.id).length ≤ (1 + first.requeues t.id (o.logbook i turns).calls) * limit
  /-- No attempt is made twice: each is higher than those before, as long as the numbers do not overflow. -/
  rising : ∀ t ∈ (first.after (o.logbook i turns).calls).tasks,
    1 + Engine.redispatches (o'.calls first t.id) + first.requeues t.id (o.logbook i turns).calls < UInt32.size →
      ((o'.calls first t.id).map Prod.snd).Pairwise fun later earlier => earlier < later
  /-- The retries of a task that is over are the calls that were repeated, and the times that the task was put
  back in the queue. -/
  accounted : ∀ t ∈ (first.after (o.logbook i turns).calls).tasks,
    1 + Engine.redispatches (o'.calls first t.id) + first.requeues t.id (o.logbook i turns).calls < UInt32.size →
      t.status = .completed ∨ t.status = .failed ∨ t.status = .timedOut →
        t.retryCount.toNat =
          Engine.redispatches (o'.calls first t.id) + first.requeues t.id (o.logbook i turns).calls
  /-- Whoever holds a command at any time makes calls with consecutive attempts from that of the command. -/
  consecutive : ∀ turns₁ turns₂ o₁ (k : Nat) w c, turns = turns₁ ++ turns₂ → o.play? turns₁ = some o₁ →
    o₁.engine.workers[k]? = some w → w.executor = i → c ∈ w.commands →
      ∃ n, Engine.attemptsBy k (o'.calls first c.taskId) = Engine.consecutive c.attempt n
  /-- A command that a step returns carries the attempt after the retries of its task. -/
  commands : ∀ history now commands, ((first.after history).step now).2 = .ok commands →
    ∀ c ∈ commands, ∃ t, ((first.after history).step now).1.task? c.taskId = some t ∧
      c.attempt = t.retryCount + 1

/-- Attempts are accounted for. Whatever happens to an orchestrator after it accepted a run, and however many
calls of the run are repeated by workers or asked for by clients: the attempts for a task rise from call to
call, so none is made twice; the calls for a command have consecutive attempts; a command carries the attempt
after the retries of its task; the retries of a task that was carried out are the calls that were repeated
and the times that the task was put back in the queue; and for each time that a task is queued there is at
most one call, and one for each retry that the settings allow. -/
theorem attempts_add_up {settings : EngineSettings} {o o₀ o' : Orchestrator} {id : RunId}
    {topology : Topology} {directives : Directives} {reference : Option RunId} {turns : List Turn}
    (reachable : o.Reachable settings)
    (accepted : (o.createRun id topology directives reference).2 = .ok id)
    (created : o.step? (.create id topology directives reference) = some o₀)
    (played : o₀.play? turns = some o') :
    ∃ policy plan, o.prepare topology directives reference = .ok (policy, plan) ∧
      AttemptsAddUp o.drivers.length (Run.create id plan policy o.wall)
        (1 + settings.dispatch.maxTaskRetries.toNat) turns o₀ o' := by
  obtain rfl := reachable.settings_eq
  have reachable₀ := reachable.step created
  obtain ⟨policy, plan, prepared, fresh, rfl⟩ := created_run accepted created
  obtain ⟨d, x, first, reckoning⟩ :=
    Reckoning.create (Recorded.of_reachable reachable) fresh plan policy o.wall
  have mirrors := Run.create_mirrorsPlan id plan policy o.wall
  refine ⟨policy, plan, prepared, ?_⟩
  generalize Run.create id plan policy o.wall = r at *
  subst first
  obtain ⟨⟨d', x', after⟩, _⟩ := reckoning.play reachable₀ played
  have run := reckoning.run_after reachable₀ played after
  have summed := after.summed
  rw [reckoning.run_id reachable₀ played after, run] at summed
  simp only [Nat.zero_add] at summed
  refine ⟨⟨d', after.driver, run⟩, fun t ht => ?bounded, fun t ht small => ?rising,
    fun t ht small ended => ?accounted, ?consecutive, fun history now commands stepped c hc => ?commands⟩
  case bounded =>
    obtain ⟨sent, ledger⟩ := (summed t ht).ledger
    exact ledger.length_le
  case rising =>
    obtain ⟨sent, ledger⟩ := (summed t ht).ledger
    exact ledger.attempts_rise small
  case accounted =>
    have retries := (summed t ht).accounted (by rcases ended with h | h | h <;> rw [h] <;> rfl)
      (by rcases ended with h | h | h <;> rw [h] <;> decide)
    rw [retries]
    exact UInt32.toNat_ofNat_of_lt' (Nat.lt_of_le_of_lt (by rw [calls]; omega) small)
  case consecutive =>
    rintro turns₁ turns₂ o₁ k w c rfl played₁ hw mine held
    rw [play?_append, played₁] at played
    obtain ⟨⟨d₁, x₁, reckoning₁⟩, _⟩ := reckoning.play reachable₀ played₁
    obtain ⟨_, pursues⟩ := reckoning₁.play (reachable₀.play? played₁) played
    have attempts := (pursues k c (reckoning₁.pursued k w c hw mine held)).attempts
    rw [reckoning.run_id reachable₀ played₁ reckoning₁] at attempts
    exact attempts
  case commands =>
    obtain ⟨t, found, _, attempt⟩ := (mirrors.of_charter (Run.after_charter ..)).step_attempt stepped c hc
    exact ⟨t, found, attempt⟩

/-- The settings let a command be called for twice. -/
def persistent : EngineSettings := ⟨⟨1, 600000, 8⟩, .default, ⟨false, false⟩⟩

/-- A topology of a single host. -/
def lonely : Topology := ⟨"lonely", "1.0", "1.1", [⟨"db", false, [⟨"server", ["alpha"], false⟩]⟩]⟩

/-- A worker works on for so many turns. -/
def working (k count : Nat) : List Turn := List.replicate count (.engine (.work k))

/-- The driver of the first run takes its next events in. -/
def listening (count : Nat) : List Turn := List.replicate count (.event 0)

/-- The first worker finds the host ready, and calls. -/
def firstTime : List Turn :=
  .begin 0 :: working 0 5 ++
    [.engine (.supervise 0 "alpha"), .engine (.work 0), .engine (.supervise 0 "alpha"),
      .engine (.pong 0 "alpha" (some .epoch))] ++
    working 0 4

/-- The host refuses the command of the first worker twice. -/
def refusals : List Turn :=
  .engine (.answer 0 2 (some (.commandRejected "alpha" "busy"))) :: working 0 3 ++
    .engine (.answer 0 5 (some (.commandRejected "alpha" "busy"))) :: working 0 3

/-- A client retries the run, and the host obeys the next worker. -/
def thirdTime : List Turn :=
  firstTime ++ refusals ++ listening 3 ++ [.submit (.ofNat 0) .retry, .control 0] ++ working 1 5 ++
    .engine (.supervise 0 "alpha") :: working 1 4 ++ .engine (.answer 1 9 none) :: working 1 2 ++
    listening 2

theorem attempts_add_up_thirdTime :
    ∃ o₀ o' policy plan, (start persistent .epoch).step? (.create (.ofNat 0) lonely [] none) = some o₀ ∧
      o₀.play? thirdTime = some o' ∧
      (start persistent .epoch).prepare lonely [] none = .ok (policy, plan) ∧
      AttemptsAddUp 0 (Run.create (.ofNat 0) plan policy .epoch) 2 thirdTime o₀ o' ∧
      Engine.callsFor o'.engine.history (.ofNat 0) 0 = [(1, 3), (0, 2), (0, 1)] ∧
      o'.drivers.map (fun d => d.run.tasks.map fun t => (t.status, t.retryCount)) =
        [[(.completed, 2), (.queued, 0), (.pending, 0), (.pending, 0)]] := by
  have possible : (((start persistent .epoch).step? (.create (.ofNat 0) lonely [] none)).bind fun o =>
      (o.play? thirdTime).map fun o' =>
        (Engine.callsFor o'.engine.history (.ofNat 0) 0,
          o'.drivers.map fun d => d.run.tasks.map fun t => (t.status, t.retryCount))) =
      some ([(1, 3), (0, 2), (0, 1)],
        [[(.completed, 2), (.queued, 0), (.pending, 0), (.pending, 0)]]) := by decide +kernel
  obtain ⟨o₀, created, played⟩ := Option.bind_eq_some_iff.mp possible
  obtain ⟨o', played, seen⟩ := Option.map_eq_some_iff.mp played
  obtain ⟨calls, tasks⟩ := Prod.mk.inj seen
  have reachable : (start persistent .epoch).Reachable persistent := ⟨.epoch, [], rfl⟩
  obtain ⟨policy, plan, prepared, sums⟩ :=
    attempts_add_up reachable (by decide +kernel) created played
  exact ⟨o₀, o', policy, plan, created, played, prepared, sums, calls, tasks⟩

end Orchestrator

end Rollout
