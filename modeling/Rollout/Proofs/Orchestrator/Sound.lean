-- SUMMARY: The invariant of orchestrators: every live run agrees with its executor and its crew, whatever happens.
import Rollout.Proofs.Orchestrator.Account
import Rollout.Proofs.Orchestrator.DriverTurns

/-!
# Sound orchestrators

At every station of an orchestrator the run, the executor and the crew agree, as long as the run is not
archived. Stations do not mix: each worker belongs to one, and holds commands of its run only. Every
turn keeps this, so it holds in every history.
-/
namespace Rollout

def Control.call : Control → Run.Call
  | retry => .retry
  | suspend => .suspend
  | resume => .resume
  | abort reason => .abort reason

theorem Control.apply_call (c : Control) (now : Timestamp) (r : Run) :
    (c.apply now r).1 = r.call now c.call := by
  cases c <;> rfl

theorem Control.order (c : Control) (now : Timestamp) (r : Run) :
    Relation.ReflGen (Run.Order now) r (c.apply now r).1 := by
  cases c with
  | retry => exact Run.retry_order r now
  | suspend => exact Run.suspend_order r now
  | resume => exact Run.resume_order r now
  | abort reason => exact Run.abort_order r now reason

namespace Orchestrator

/-- What holds at every station, and between them. -/
structure Sound (o : Orchestrator) : Prop where
  paired : o.drivers.length = o.engine.executors.length
  staffed : ∀ w ∈ o.engine.workers, w.executor < o.engine.executors.length
  /-- What workers report is that a command is over. -/
  final : ∀ w ∈ o.engine.workers, ∀ outcome, w.phase = .reporting outcome →
    outcome.status.isTerminal = true
  /-- Readers see the identifier of the run. -/
  named : ∀ d ∈ o.drivers, d.snapshot.id = d.run.id
  distinct : (o.drivers.map fun d => d.run.id).Nodup
  tagged : ∀ {i : Nat} {d : Driver}, o.drivers[i]? = some d → ∀ w ∈ o.engine.crew i,
    ∀ c ∈ w.commands, c.runId = d.run.id
  begun : ∀ d ∈ o.drivers, d.hasBegun = false → d.run.state = .pending
  closed : ∀ d ∈ o.drivers, d.isOver = d.run.state.isTerminal
  agreed : ∀ {i : Nat} {d : Driver} {x : Executor}, o.drivers[i]? = some d →
    o.engine.executors[i]? = some x → d.run.state.isTerminal = false →
    d.run.Orderly ∧ d.run.Account x (o.engine.crew i)

variable {o o' : Orchestrator} {i : Nat} {d : Driver} {x : Executor}

theorem start_sound (settings : EngineSettings) (wall : Timestamp) :
    (start settings wall).Sound where
  paired := rfl
  staffed := by simp [start, Engine.empty]
  final := by simp [start, Engine.empty]
  named := by simp [start]
  distinct := by simp [start]
  tagged := by simp [start]
  begun := by simp [start]
  closed := by simp [start]
  agreed := by simp [start]

namespace Sound

theorem executor (h : o.Sound) (hd : o.drivers[i]? = some d) :
    ∃ x, o.engine.executors[i]? = some x := by
  have inside : i < o.engine.executors.length :=
    h.paired ▸ (List.getElem?_eq_some_iff.mp hd).1
  exact ⟨_, List.getElem?_eq_getElem inside⟩

theorem housed (h : o.Sound) : o.engine.Housed := fun w hw _ => h.staffed w hw

/-- Runs are told apart by their identifiers. -/
theorem index_eq (h : o.Sound) {j : Nat} {d' : Driver} (hd : o.drivers[i]? = some d)
    (hd' : o.drivers[j]? = some d') (same : d'.run.id = d.run.id) : j = i := by
  have inside : j < (o.drivers.map fun d => d.run.id).length := by
    rw [List.length_map]
    exact (List.getElem?_eq_some_iff.mp hd').1
  refine (List.getElem?_inj inside h.distinct).mp ?_
  simp [hd, hd', same]

/-- Every worker is at the station of a run, and its commands are for that run. -/
theorem employer (h : o.Sound) {w : Worker} (hw : w ∈ o.engine.workers) :
    ∃ d, o.drivers[w.executor]? = some d ∧ ∀ c ∈ w.commands, c.runId = d.run.id := by
  have inside : w.executor < o.drivers.length := h.paired ▸ h.staffed w hw
  have hd := List.getElem?_eq_getElem inside
  exact ⟨_, hd, h.tagged hd w (List.mem_filter.mpr ⟨hw, decide_eq_true rfl⟩)⟩

/-- Whoever holds a command for a run works at the station of the run. -/
theorem executor_eq (h : o.Sound) (hd : o.drivers[i]? = some d) {w : Worker} (hw : w ∈ o.engine.workers)
    {c : TaskCommand} (hc : c ∈ w.commands) (run : c.runId = d.run.id) : w.executor = i := by
  obtain ⟨d', hd', tagged⟩ := h.employer hw
  exact h.index_eq hd hd' ((tagged c hc).symm.trans run)

-- ---------------------------------------------------------------------------
-- Drivers
-- ---------------------------------------------------------------------------

/-- A station may change as long as it is as good as before. -/
theorem become (h : o.Sound) {d' : Driver} {x' : Executor} {new : List Worker}
    (hd : o.drivers[i]? = some d) (hx : o.engine.executors[i]? = some x)
    (b : Became i o o' d' x' new) (id : d'.run.id = d.run.id) (named : d'.snapshot.id = d'.run.id)
    (begun : d'.hasBegun = false → d'.run.state = .pending)
    (closed : d'.isOver = d'.run.state.isTerminal)
    (added : ∀ w ∈ new, w.executor = i ∧ w.phase = .spawned ∧
      ∀ c ∈ w.commands, c.runId = d.run.id)
    (agreed : d'.run.state.isTerminal = false →
      d'.run.Orderly ∧ d'.run.Account x' (o.engine.crew i ++ new)) : o'.Sound := by
  have mine : ∀ w ∈ new, w.executor = i := fun w hw => (added w hw).1
  have hd' := b.driver? hd
  have hx' := b.executor? hx
  refine ⟨?_, ?_, b.forall_workers h.final fun w hw outcome reports => ?_,
    b.forall_drivers h.named named, ?_, ?_, b.forall_drivers h.begun begun,
    b.forall_drivers h.closed closed, ?_⟩
  · rw [b.drivers, b.executors, List.length_set, List.length_set, h.paired]
  · rw [b.executors, List.length_set]
    refine b.forall_workers h.staffed fun w hw => ?_
    rw [mine w hw]
    exact (List.getElem?_eq_some_iff.mp hx).1
  · simp [(added w hw).2.1] at reports
  · have ids : o'.drivers.map (fun d => d.run.id) = o.drivers.map fun d => d.run.id := by
      rw [b.drivers, List.map_set, id]
      exact Engine.set_same (by simp [hd])
    rw [ids]
    exact h.distinct
  · intro j d₁ hd₁ w hw c hc
    rw [b.crew mine] at hw
    by_cases same : j = i
    · subst same
      cases hd'.symm.trans hd₁
      rw [if_pos rfl] at hw
      rw [id]
      obtain hw | hw := List.mem_append.mp hw
      · exact h.tagged hd w hw c hc
      · exact (added w hw).2.2 c hc
    · rw [if_neg same] at hw
      exact h.tagged ((b.others same).1 ▸ hd₁) w hw c hc
  · intro j d₁ x₁ hd₁ hx₁ live
    rw [b.crew mine]
    by_cases same : j = i
    · subst same
      cases hd'.symm.trans hd₁
      cases hx'.symm.trans hx₁
      rw [if_pos rfl]
      exact agreed live
    · rw [if_neg same]
      exact h.agreed ((b.others same).1 ▸ hd₁) ((b.others same).2 ▸ hx₁) live

end Sound

namespace Intake

variable {d₁ : Driver} {x₁ : Executor} {r : Run} {turn : Turn}

theorem hasBegun (h : Intake o i d x turn d₁ x₁ r) : d₁.hasBegun = true := by
  cases h with
  | begin => rfl
  | event begun | control begun | hangUp begun => exact begun

theorem isOver (h : Intake o i d x turn d₁ x₁ r) : d₁.isOver = d.isOver := by
  cases h <;> rfl

/-- What a driver takes in is a call of an operation on its run. -/
theorem call (h : Intake o i d x turn d₁ x₁ r) : ∃ c, r = d.run.call o.wall c := by
  cases h with
  | begin _ started => exact ⟨.start, (congrArg Prod.fst started).symm⟩
  | @event event _ _ _ _ applied => exact ⟨.apply event, (congrArg Prod.fst applied).symm⟩
  | @control ticket _ _ _ _ controlled =>
    exact ⟨ticket.control.call, controlled.symm.trans (ticket.control.apply_call o.wall d.run)⟩
  | hangUp _ _ _ aborted => exact ⟨.abort _, aborted.symm⟩

theorem charter (h : Intake o i d x turn d₁ x₁ r) : r.charter = d.run.charter := by
  obtain ⟨c, rfl⟩ := h.call
  exact Run.after_charter d.run [(o.wall, c)]

/-- An input keeps the account, unless it archives the run. -/
theorem account (h : Intake o i d x turn d₁ x₁ r) {crew : List Worker}
    (live : d.run.state.isTerminal = false) (orderly : d.run.Orderly)
    (account : d.run.Account x crew) (live' : r.state.isTerminal = false) :
    r.Orderly ∧ r.Account x₁ crew := by
  cases h with
  | begin _ started =>
    have order := Run.start_order d.run o.wall
    rw [started] at order
    exact ⟨orderly.orders order, account.orders order live'⟩
  | event _ channel applied =>
    obtain ⟨r', applied', orderly', _, _, account'⟩ := account.take orderly live channel o.wall
    cases applied.symm.trans applied'
    exact ⟨orderly', account'⟩
  | @control ticket _ _ _ _ controlled =>
    have order := ticket.control.order o.wall d.run
    rw [controlled] at order
    exact ⟨orderly.orders order, account.orders order live'⟩
  | hangUp _ _ _ aborted =>
    have order := Run.abort_order d.run o.wall "orchestrator shut down"
    rw [aborted] at order
    exact ⟨orderly.orders order, account.orders order live'⟩

end Intake

namespace Sound

/-- What drivers do keeps an orchestrator sound. -/
theorem driven (h : o.Sound) {turn : Turn} (driven : Driven i o o' turn) : o'.Sound := by
  obtain @⟨d, d₁, x, x₁, r₁, r₂, commands, hd, hx, live, going, intake, stepped, became⟩ := driven
  obtain ⟨orderly, account⟩ := h.agreed hd hx live
  have id₁ : r₁.id = d.run.id := (Run.charter_eq_iff.mp intake.charter).1
  have id₂ : r₂.id = r₁.id := by
    have := Run.step_charter r₁ o.wall
    rw [stepped] at this
    exact (Run.charter_eq_iff.mp this).1
  have closed := d₁.published_isOver (intake.isOver.trans going) r₂
  have begun : (d₁.published r₂).hasBegun = false → (d₁.published r₂).run.state = .pending := by
    simp [intake.hasBegun]
  cases live₁ : r₁.state.isTerminal with
  | true =>
    have still : r₁.step o.wall = (r₁, .ok []) := Run.step_of_archived live₁
    cases still.symm.trans stepped
    refine h.become hd hx became (by simp [id₁]) (by simp) begun (by simp [closed])
      (by simp [Engine.starters_nil]) fun live => ?_
    simp [live₁] at live
  | false =>
    obtain ⟨orderly₁, account₁⟩ := intake.account live orderly account live₁
    obtain ⟨commands', stepped', orderly₂, ours, account₂⟩ := account₁.step orderly₁ o.wall i
    rw [stepped] at stepped' orderly₂ account₂
    cases stepped'
    refine h.become hd hx became (by simp [id₂, id₁]) (by simp) begun (by simp [closed])
      (fun w hw => ?_) fun live₂ => ?_
    · obtain ⟨executor, phase, held⟩ := Engine.mem_starters hw
      refine ⟨executor, phase, fun c hc => ?_⟩
      rw [held] at hc
      exact (ours c (List.mem_filter.mp hc).1).trans id₁
    · rw [Driver.published_run] at live₂ ⊢
      rw [Executor.driven_of_live live₁ live₂]
      exact ⟨orderly₂, account₂⟩

-- ---------------------------------------------------------------------------
-- Turns
-- ---------------------------------------------------------------------------

/-- The run of a driver that takes input is not archived. -/
theorem live_of_running (h : o.Sound) (running : o.running? i = some d) :
    o.drivers[i]? = some d ∧ d.hasBegun = true ∧ d.isOver = false ∧
      d.run.state.isTerminal = false := by
  obtain ⟨hd, begun, going⟩ := running?_eq running
  exact ⟨hd, begun, going, h.closed d (List.mem_of_getElem? hd) ▸ going⟩

/-- A run that was not begun can be begun. -/
theorem begin_driven (h : o.Sound) (turn : o.begin? i = some o') : Driven i o o' (.begin i) := by
  obtain ⟨d, hd, unbegun⟩ : ∃ d, o.drivers[i]? = some d ∧ d.hasBegun = false := by
    obtain ⟨d, hd, rest⟩ := Option.bind_eq_some_iff.mp turn
    refine ⟨d, hd, ?_⟩
    cases begun : d.hasBegun with
    | false => rfl
    | true => simp [begun] at rest
  obtain ⟨x, hx⟩ := h.executor hd
  have pending : d.run.state = .pending := h.begun d (List.mem_of_getElem? hd) unbegun
  have live : d.run.state.isTerminal = false := by rw [pending]; rfl
  have going : d.isOver = false := (h.closed d (List.mem_of_getElem? hd)).trans live
  have started : d.run.start o.wall = _ := Run.start_of_pending pending
  obtain ⟨commands, stepped⟩ := (d.run.inState o.wall .running).step_eq o.wall
  exact ⟨hd, hx, live, going, .begin unbegun started, stepped,
    begin?_became hd hx turn started stepped⟩

/-- A run takes the events of its executor. -/
theorem event_driven (h : o.Sound) (turn : o.takeEvent? i = some o') :
    Driven i o o' (.event i) := by
  obtain ⟨d, running, rest⟩ := Option.bind_eq_some_iff.mp turn
  obtain ⟨hd, begun, going, live⟩ := h.live_of_running running
  obtain ⟨x, hx⟩ := h.executor hd
  obtain ⟨orderly, account⟩ := h.agreed hd hx live
  obtain ⟨event, rest, channel⟩ : ∃ event rest, x.channel = event :: rest := by
    cases channel : x.channel with
    | nil => simp [Engine.receive?, hx, channel] at rest
    | cons event rest => exact ⟨event, rest, rfl⟩
  obtain ⟨r₁, applied, _⟩ := account.take orderly live channel o.wall
  obtain ⟨commands, stepped⟩ := r₁.step_eq o.wall
  exact ⟨hd, hx, live, going, .event begun channel applied, stepped,
    takeEvent?_became hd hx turn channel applied stepped⟩

theorem control_driven (h : o.Sound) (turn : o.takeControl? i = some o') :
    Driven i o o' (.control i) := by
  obtain ⟨d, running, rest⟩ := Option.bind_eq_some_iff.mp turn
  obtain ⟨hd, begun, going, live⟩ := h.live_of_running running
  obtain ⟨x, hx⟩ := h.executor hd
  obtain ⟨ticket, tickets, waiting⟩ : ∃ ticket tickets, d.tickets = ticket :: tickets := by
    cases waiting : d.tickets with
    | nil => simp [waiting] at rest
    | cons ticket tickets => exact ⟨ticket, tickets, rfl⟩
  obtain ⟨commands, stepped⟩ := (ticket.control.apply o.wall d.run).1.step_eq o.wall
  exact ⟨hd, hx, live, going, .control begun waiting rfl, stepped,
    takeControl?_became hd hx turn waiting rfl stepped⟩

theorem hangUp_driven (h : o.Sound) (turn : o.hangUp? i = some o') :
    Driven i o o' (.hangUp i) := by
  obtain ⟨d, running, rest⟩ := Option.bind_eq_some_iff.mp turn
  obtain ⟨hd, begun, going, live⟩ := h.live_of_running running
  obtain ⟨x, hx⟩ := h.executor hd
  obtain ⟨dropped, silent⟩ : o.isDropped = true ∧ d.tickets = [] := by
    cases test : !o.isDropped || !d.tickets.isEmpty with
    | true => simp [test] at rest
    | false => simpa using test
  have aborted : d.run.abort o.wall "orchestrator shut down" = _ := Run.abort_of_live live
  have archived : (d.run.skipRest o.wall "orchestrator shut down").state.isTerminal = true := rfl
  exact ⟨hd, hx, live, going, .hangUp begun dropped silent (congrArg Prod.fst aborted),
    Run.step_of_archived archived, hangUp?_became hd hx turn (congrArg Prod.fst aborted)⟩

/-- A move of the engine that neither workers nor executors notice. -/
theorem quiet (h : o.Sound) (drivers : o'.drivers = o.drivers)
    (q : Engine.Quiet o.engine o'.engine) : o'.Sound := by
  have crew (i : Nat) : o'.engine.crew i = o.engine.crew i := by
    rw [Engine.crew, q.workers]
    rfl
  refine ⟨?_, ?_, ?_, ?_, ?_, ?_, ?_, ?_, ?_⟩
  · rw [drivers, q.executors]
    exact h.paired
  · rw [q.workers, q.executors]
    exact h.staffed
  · rw [q.workers]
    exact h.final
  · rw [drivers]
    exact h.named
  · rw [drivers]
    exact h.distinct
  · intro i d hd w hw
    rw [drivers] at hd
    rw [crew] at hw
    exact h.tagged hd w hw
  · rw [drivers]
    exact h.begun
  · rw [drivers]
    exact h.closed
  · intro i d x hd hx live
    rw [drivers] at hd
    rw [q.executors] at hx
    rw [crew]
    exact h.agreed hd hx live

/-- A deed of a worker. -/
theorem deed (h : o.Sound) {k : Nat} {w : Worker} {f : Engine.Effect}
    (drivers : o'.drivers = o.drivers) (hw : o.engine.workers[k]? = some w)
    (hx : o.engine.executors[w.executor]? = some x) (deed : Engine.Deed o.engine k w x f)
    (engine : o'.engine = o.engine.put k w f) : o'.Sound := by
  have member : w ∈ o.engine.workers := List.mem_of_getElem? hw
  obtain ⟨front, back, before, after⟩ := Engine.crew_put hw deed
  have executors : (o.engine.put k w f).executors.length = o.engine.executors.length := by
    simp [Engine.put]
  refine ⟨?_, ?_, ?_, ?_, ?_, ?_, ?_, ?_, ?_⟩
  · rw [drivers, engine, executors]
    exact h.paired
  · rw [engine, executors]
    exact Engine.forall_put h.staffed (deed.executor_eq ▸ h.staffed w member)
  · rw [engine]
    exact Engine.forall_put h.final fun outcome reports => deed.final reports
  · rw [drivers]
    exact h.named
  · rw [drivers]
    exact h.distinct
  · intro i d hd v hv c hc
    rw [drivers] at hd
    rw [engine] at hv
    by_cases same : i = w.executor
    · subst same
      rw [after] at hv
      obtain old | rfl := Engine.mem_replace (w := w) hv
      · exact h.tagged hd v (before ▸ old) c hc
      · refine h.tagged hd w ?_ c (deed.commands_subset hc)
        rw [before]
        exact List.mem_append_right _ List.mem_cons_self
    · rw [Engine.crew_put_of_ne hw deed same] at hv
      exact h.tagged hd v hv c hc
  · rw [drivers]
    exact h.begun
  · rw [drivers]
    exact h.closed
  · intro i d x' hd hx' live
    rw [drivers] at hd
    rw [engine] at hx' ⊢
    rw [Engine.put_executor? hx] at hx'
    by_cases same : i = w.executor
    · subst same
      rw [if_pos rfl] at hx'
      cases hx'
      obtain ⟨orderly, account⟩ := h.agreed hd hx live
      rw [before] at account
      rw [after]
      exact ⟨orderly, account.deed orderly (h.final w member) deed⟩
    · rw [if_neg same] at hx'
      rw [Engine.crew_put_of_ne hw deed same]
      exact h.agreed hd hx' live

end Sound

-- ---------------------------------------------------------------------------
-- Clients
-- ---------------------------------------------------------------------------

theorem find?_eq {id : RunId} (h : o.find? id = some (i, d)) :
    o.drivers[i]? = some d ∧ d.snapshot.id = id := by
  have found := List.mem_of_find?_eq_some h
  have named := List.find?_some h
  obtain ⟨⟨d', i'⟩, member, same⟩ := List.mem_map.mp found
  cases same
  exact ⟨List.mem_zipIdx_iff_getElem?.mp member, by simpa using named⟩

theorem find_eq {id : RunId} (h : o.find id = .ok (i, d)) :
    o.drivers[i]? = some d ∧ d.snapshot.id = id := by
  unfold find at h
  split at h
  next found =>
    cases h
    exact find?_eq found
  · cases h

theorem fresh_of_find? {id : RunId} (h : o.find? id = none) : ∀ d ∈ o.drivers, d.snapshot.id ≠ id := by
  intro d hd named
  obtain ⟨i, hi⟩ := List.mem_iff_getElem?.mp hd
  have entry : (d, i) ∈ o.drivers.zipIdx := List.mem_zipIdx_iff_getElem?.mpr hi
  have := List.find?_eq_none.mp h (i, d) (List.mem_map.mpr ⟨(d, i), entry, rfl⟩)
  simp [named] at this

theorem Sound.find_run (h : o.Sound) (hd : o.drivers[i]? = some d) : o.find d.run.id = .ok (i, d) := by
  have named := h.named d (List.mem_of_getElem? hd)
  cases found : o.find? d.run.id with
  | none => exact absurd named (fresh_of_find? found d (List.mem_of_getElem? hd))
  | some entry =>
    obtain ⟨j, d'⟩ := entry
    obtain ⟨hd', named'⟩ := find?_eq found
    have here := h.index_eq hd hd' ((h.named d' (List.mem_of_getElem? hd')).symm.trans named')
    rw [here] at hd'
    cases hd.symm.trans hd'
    rw [find, found, here]

/-- A request for a run that is accepted adds the run. -/
theorem created_run {id : RunId} {t : Topology} {directives : Directives} {reference : Option RunId}
    (accepted : (o.createRun id t directives reference).2 = .ok id)
    (created : o.step? (.create id t directives reference) = some o') :
    ∃ policy plan, o.prepare t directives reference = .ok (policy, plan) ∧ o.find? id = none ∧
      o' = o.addRun (Run.create id plan policy o.wall) := by
  simp only [step?] at created
  split at created
  · cases created
  next allowed =>
    have fresh : o.isDropped = false ∧ o.find? id = none := by simpa using allowed
    unfold createRun at accepted created
    split at accepted
    · cases accepted
    next policy plan prepared =>
      rw [prepared] at created
      cases created
      exact ⟨policy, plan, prepared, fresh.2, rfl⟩

theorem addRun_drivers (r : Run) (o : Orchestrator) :
    (o.addRun r).drivers = o.drivers ++ [⟨r, r, [], false, false⟩] := rfl

/-- A new run has its driver behind the others. -/
theorem addRun_driver? (r : Run) (o : Orchestrator) :
    (o.addRun r).drivers[o.drivers.length]? = some ⟨r, r, [], false, false⟩ := by
  rw [addRun_drivers, List.getElem?_concat_length]

theorem addRun_executors (r : Run) (o : Orchestrator) : (o.addRun r).engine.executors =
    o.engine.executors ++ [.fresh o.settings.dispatch o.engine.registries.length] := rfl

theorem eq_length_of_append {α : Type} {l : List α} {a b : α} {i : Nat}
    (h : (l ++ [a])[i]? = some b) (outside : ¬ i < l.length) : i = l.length ∧ b = a := by
  rw [List.getElem?_append_right (by omega)] at h
  have inside := (List.getElem?_eq_some_iff.mp h).1
  rw [List.length_singleton] at inside
  have here : i = l.length := by omega
  rw [here, Nat.sub_self] at h
  exact ⟨here, (Option.some.inj h).symm⟩

/-- A turn drives the run at a position, or leaves it as it is. -/
theorem Shift.driver {turn : Turn} (shift : Shift o o' turn) (hd : o.drivers[i]? = some d) :
    Driven i o o' turn ∨
      ∃ d', o'.drivers[i]? = some d' ∧ d'.run = d.run ∧ d'.isOver = d.isOver := by
  cases shift with
  | quiet drivers | deed drivers => exact .inr ⟨d, drivers ▸ hd, rfl, rfl⟩
  | @queued j _ _ _ driver _ became =>
    by_cases here : i = j
    · subst here
      cases hd.symm.trans driver
      exact .inr ⟨_, became.driver? driver, rfl, rfl⟩
    · exact .inr ⟨d, (became.others here).1.trans hd, rfl, rfl⟩
  | @driven j driven =>
    by_cases here : i = j
    · subst here
      exact .inl driven
    · obtain @⟨_, _, _, _, _, _, _, _, _, _, _, _, _, became⟩ := driven
      exact .inr ⟨d, (became.others here).1.trans hd, rfl, rfl⟩
  | added _ added =>
    rw [added, addRun_drivers, List.getElem?_append_left (List.getElem?_eq_some_iff.mp hd).1]
    exact .inr ⟨d, hd, rfl, rfl⟩

/-- No turn changes what a run was created with. -/
theorem Shift.charter {turn : Turn} (shift : Shift o o' turn) (hd : o.drivers[i]? = some d) :
    ∃ d', o'.drivers[i]? = some d' ∧ d'.run.charter = d.run.charter := by
  obtain driven | ⟨d', hd', same, _⟩ := shift.driver hd
  · obtain @⟨_, _, _, _, r₁, _, _, driver, _, _, _, intake, stepped, became⟩ := driven
    cases hd.symm.trans driver
    have charter := Run.step_charter r₁ o.wall
    rw [stepped] at charter
    refine ⟨_, became.driver? hd, ?_⟩
    rw [Driver.published_run]
    exact charter.trans intake.charter
  · exact ⟨d', hd', congrArg Run.charter same⟩

namespace Sound

/-- Nobody serves a run that is not there. -/
theorem crew_eq_nil (h : o.Sound) : o.engine.crew o.drivers.length = [] := by
  refine List.filter_eq_nil_iff.mpr fun w hw => ?_
  have inside := h.staffed w hw
  rw [← h.paired] at inside
  simpa using Nat.ne_of_lt inside

/-- A new run has a station of its own. -/
theorem addRun (h : o.Sound) {id : RunId} {plan : Plan} {policy : Policy} {now : Timestamp}
    (fresh : ∀ d ∈ o.drivers, d.snapshot.id ≠ id) :
    (o.addRun (Run.create id plan policy now)).Sound := by
  have every {P : Driver → Prop} (old : ∀ d ∈ o.drivers, P d)
      (new : P ⟨Run.create id plan policy now, Run.create id plan policy now, [], false, false⟩) :
      ∀ d ∈ (o.addRun (Run.create id plan policy now)).drivers, P d := by
    intro d hd
    obtain hd | hd := List.mem_append.mp hd
    · exact old d hd
    · rw [List.mem_singleton.mp hd]
      exact new
  refine ⟨?_, ?_, h.final, every h.named rfl, ?_, ?_, every h.begun fun _ => rfl,
    every h.closed rfl, ?_⟩
  · simp [Orchestrator.addRun, serve, Engine.serve, h.paired]
  · intro w hw
    have := h.staffed w hw
    simp only [Orchestrator.addRun, serve, Engine.serve, List.length_append]
    omega
  · simp only [Orchestrator.addRun, List.map_append, List.map_cons, List.map_nil]
    refine List.nodup_append.mpr ⟨h.distinct, by simp, ?_⟩
    intro a ha b hb same
    obtain ⟨d, hd, rfl⟩ := List.mem_map.mp ha
    rw [List.mem_singleton.mp hb, ← h.named d hd] at same
    exact fresh d hd same
  · intro i d hd w hw c hc
    rw [addRun_drivers] at hd
    by_cases inside : i < o.drivers.length
    · rw [List.getElem?_append_left inside] at hd
      exact h.tagged hd w hw c hc
    · obtain ⟨rfl, _⟩ := eq_length_of_append hd inside
      have : w ∈ o.engine.crew o.drivers.length := hw
      rw [h.crew_eq_nil] at this
      cases this
  · intro i d x hd hx live
    rw [addRun_drivers] at hd
    rw [addRun_executors] at hx
    by_cases inside : i < o.drivers.length
    · rw [List.getElem?_append_left inside] at hd
      rw [List.getElem?_append_left (h.paired ▸ inside)] at hx
      exact h.agreed hd hx live
    · obtain ⟨rfl, rfl⟩ := eq_length_of_append hd inside
      obtain ⟨_, rfl⟩ := eq_length_of_append hx (h.paired ▸ inside)
      have crew : (o.addRun (Run.create id plan policy now)).engine.crew o.drivers.length = [] :=
        h.crew_eq_nil
      rw [crew]
      exact ⟨Run.create_orderly .., .create ..⟩

/-- What becomes of a sound orchestrator at a turn. -/
theorem shift (h : o.Sound) {turn : Turn} (stepped : o.step? turn = some o') : Shift o o' turn := by
  have still {o' : Orchestrator} (drivers : o'.drivers = o.drivers)
      (engine : o'.engine = o.engine) : Shift o o' turn := .quiet drivers (engine ▸ .refl o.engine)
  cases turn with
  | engine m =>
    obtain ⟨e, moved, rfl⟩ := Option.map_eq_some_iff.mp stepped
    obtain quiet | ⟨k, w, x, f, hw, hx, deed, rfl⟩ := Engine.step?_deed h.housed moved
    · exact .quiet rfl quiet
    · exact .deed rfl hw hx deed rfl
  | begin => exact .driven (h.begin_driven stepped)
  | event => exact .driven (h.event_driven stepped)
  | control => exact .driven (h.control_driven stepped)
  | hangUp => exact .driven (h.hangUp_driven stepped)
  | create id t directives reference =>
    simp only [step?] at stepped
    split at stepped
    · cases stepped
    next allowed =>
      cases stepped
      have fresh : o.isDropped = false ∧ o.find? id = none := by simpa using allowed
      unfold createRun
      split
      · exact still rfl rfl
      · exact .added (fresh_of_find? fresh.2) rfl
  | submit id c =>
    simp only [step?] at stepped
    split at stepped
    · cases stepped
    · cases stepped
      unfold submit
      split
      · exact still rfl rfl
      next i d found =>
        split
        · exact still rfl rfl
        · obtain ⟨hd, _⟩ := find_eq found
          obtain ⟨x, hx⟩ := h.executor hd
          exact .queued hd hx ((modifyDriver_became hd hx fun d =>
            { d with tickets := d.tickets ++ [⟨o.clients, c⟩] }).same rfl rfl)
  | drop =>
    cases stepped
    exact still rfl rfl

/-- Every turn keeps an orchestrator sound. -/
theorem step (h : o.Sound) {turn : Turn} (stepped : o.step? turn = some o') : o'.Sound := by
  cases h.shift stepped with
  | quiet drivers q => exact h.quiet drivers q
  | deed drivers hw hx deed engine => exact h.deed drivers hw hx deed engine
  | driven driven => exact h.driven driven
  | added fresh added =>
    rw [added]
    exact h.addRun fresh
  | @queued i d x tickets hd hx became =>
    have member := List.mem_of_getElem? hd
    refine h.become hd hx became rfl (h.named d member) (h.begun d member) (h.closed d member)
      (by simp) fun live => ?_
    obtain ⟨orderly, account⟩ := h.agreed hd hx live
    rw [List.append_nil]
    exact ⟨orderly, account⟩

end Sound

/-- What every turn keeps is kept by a sequence of turns. -/
theorem play?_induction {P : Orchestrator → Prop}
    (step : ∀ {o o' turn}, P o → o.step? turn = some o' → P o') {turns : List Turn}
    (played : o.play? turns = some o') (start : P o) : P o' := by
  induction turns generalizing o with
  | nil =>
    cases played
    exact start
  | cons turn turns ih =>
    obtain ⟨o₁, first, rest⟩ := Option.bind_eq_some_iff.mp played
    exact ih rest (step start first)

/-- What every turn keeps holds of all orchestrators that can be reached. -/
theorem Reachable.induction {P : Orchestrator → Prop} {settings : EngineSettings}
    (start : ∀ wall, P (start settings wall))
    (step : ∀ {o o' turn}, P o → o.step? turn = some o' → P o')
    (reachable : o.Reachable settings) : P o := by
  obtain ⟨wall, turns, played⟩ := reachable
  exact play?_induction step played (start wall)

/-- Every orchestrator that can be reached is sound. -/
theorem Sound.of_reachable {settings : EngineSettings} (reachable : o.Reachable settings) :
    o.Sound :=
  reachable.induction (start_sound settings) fun sound stepped => sound.step stepped

/-- What becomes of the runs at a turn: a driver calls an operation on its run and steps it, or a run is
created. -/
theorem Shift.forall_runs {turn : Turn} (shift : Shift o o' turn) {P : Run → Prop}
    (create : ∀ id plan policy now, P (Run.create id plan policy now))
    (input : ∀ {r : Run} now c, P r → P ((r.call now c).step now).1)
    (old : ∀ d ∈ o.drivers, P d.run) : ∀ d ∈ o'.drivers, P d.run := by
  cases shift with
  | quiet drivers | deed drivers => exact drivers ▸ old
  | queued driver _ became =>
    have here := old _ (List.mem_of_getElem? driver)
    exact became.forall_drivers (P := fun d => P d.run) old here
  | driven driven =>
    obtain ⟨driver, _, _, _, intake, stepped, became⟩ := driven
    refine became.forall_drivers (P := fun d => P d.run) old ?_
    obtain ⟨c, rfl⟩ := intake.call
    have after := input o.wall c (old _ (List.mem_of_getElem? driver))
    rw [stepped] at after
    rwa [Driver.published_run]
  | @added id plan policy now _ added =>
    rw [added, addRun_drivers]
    intro d hd
    obtain hd | hd := List.mem_append.mp hd
    · exact old d hd
    · rw [List.mem_singleton.mp hd]
      exact create id plan policy now

/-- What new runs satisfy, and what is kept when a driver calls an operation and steps its run, holds of
all runs that drivers come to. -/
theorem Reachable.run_induction {settings : EngineSettings} (reachable : o.Reachable settings)
    {P : Run → Prop} (create : ∀ id plan policy now, P (Run.create id plan policy now))
    (input : ∀ {r : Run} now c, P r → P ((r.call now c).step now).1) :
    ∀ d ∈ o.drivers, P d.run := by
  have both : o.Sound ∧ ∀ d ∈ o.drivers, P d.run := by
    refine reachable.induction (P := fun o => o.Sound ∧ ∀ d ∈ o.drivers, P d.run)
      (fun wall => ⟨start_sound settings wall, by simp [start]⟩) fun ⟨sound, old⟩ stepped => ?_
    exact ⟨sound.step stepped, (sound.shift stepped).forall_runs create input old⟩
  exact both.2

end Orchestrator

end Rollout
