-- SUMMARY: An abort is complete and final: it leaves no task open, and after it only calls begin that were announced.
import Rollout.Proofs.Engine.CallHistory
import Rollout.Proofs.Orchestrator.Acceptance

/-!
# Finality

A driver whose run is archived is over, and nobody hears the workers of the run any more. A worker that
nobody hears announces nothing, whatever it was about to do. But between an announcement and its call a worker
looks at nothing, so a worker that announced its command before still sends it, and that is its last call. No
other call of the run begins from then on, and readers see the same run for ever.
-/
namespace Rollout

theorem Task.skipped_isTerminal (t : Task) (now : Timestamp) :
    (t.skipped now).status.isTerminal = true := by
  unfold skipped
  split
  next ended => exact ended
  · rfl

namespace Executor

variable {x : Executor}

theorem driven_isReceived (s₀ s₁ : RunState) {s₂ : RunState} (archived : s₂.isTerminal = true) :
    (x.driven s₀ s₁ s₂).isReceived = false := by
  simp [driven, archived, closeChannel]

end Executor

theorem Engine.Deed.isReceived_eq {e : Engine} {i : Nat} {w : Worker} {x : Executor}
    {f : Engine.Effect} (deed : Engine.Deed e i w x f) : f.executor.isReceived = x.isReceived := by
  cases deed <;> rfl

namespace Orchestrator

variable {o o' : Orchestrator} {i : Nat} {d d' : Driver} {x : Executor} {turn : Turn}

/-- A property of drivers and executors at the same position holds everywhere if it holds at the station
that changed. -/
theorem Became.forall_stations {d' : Driver} {x' : Executor} {new : List Worker}
    (b : Became i o o' d' x' new) (hd : o.drivers[i]? = some d)
    (hx : o.engine.executors[i]? = some x) {P : Driver → Executor → Prop} (here : P d' x')
    (old : ∀ {j : Nat} {d x}, o.drivers[j]? = some d → o.engine.executors[j]? = some x → P d x) {j : Nat}
    {d₁ : Driver} {x₁ : Executor} (hd₁ : o'.drivers[j]? = some d₁)
    (hx₁ : o'.engine.executors[j]? = some x₁) : P d₁ x₁ := by
  by_cases same : j = i
  · subst same
    cases (b.driver? hd).symm.trans hd₁
    cases (b.executor? hx).symm.trans hx₁
    exact here
  · exact old ((b.others same).1 ▸ hd₁) ((b.others same).2 ▸ hx₁)

/-! ## Runs that are over -/

theorem Shift.growth (shift : Shift o o' turn) : Engine.Growth o.engine o'.engine := by
  cases shift with
  | quiet _ q => exact .of_quiet q
  | deed _ worker executor deed engine =>
    rw [engine]
    exact .of_deed worker executor deed
  | queued _ _ became => exact .of_same became.history
  | driven driven =>
    obtain ⟨_, _, _, _, _, _, became⟩ := driven
    exact .of_same became.history
  | added _ added => exact .of_same (by rw [added]; rfl)

/-- Between `o` and `o'` the worker at position `k` either made no call and was about to send its command all
the time, or it announced the command. -/
theorem Sound.sends_before (h : o.Sound) (shift : Shift o o' turn) {k : Nat} {w : Worker} {c : TaskCommand}
    (sends : Engine.Sends o'.engine k w x c) :
    (∃ x, Engine.Sends o.engine k w x c ∧ Engine.Waits o.engine o'.engine k) ∨
      Engine.Announces o.engine o'.engine k w c := by
  -- A worker that is about to send something is not new.
  have old {new : List Worker} (workers : o'.engine.workers = o.engine.workers ++ new)
      (spawned : ∀ w ∈ new, w.phase = .spawned) (history : o'.engine.history = o.engine.history) :
      ∃ x, Engine.Sends o.engine k w x c ∧ Engine.Waits o.engine o'.engine k := by
    obtain ⟨worker, _, phase, command⟩ := sends
    rw [workers, List.getElem?_append] at worker
    split at worker
    · have inside := h.staffed w (List.mem_of_getElem? worker)
      exact ⟨_, .mk worker (List.getElem?_eq_getElem inside) phase command, .of_same history⟩
    · cases (spawned w (List.mem_of_getElem? worker)).symm.trans phase
  cases shift with
  | quiet _ q => exact .inl ⟨x, sends.of_quiet q⟩
  | deed _ worker executor deed engine =>
    rw [engine] at sends ⊢
    exact sends.of_deed worker executor deed
  | queued _ _ became => exact .inl (old became.workers (by simp) became.history)
  | driven driven =>
    obtain ⟨_, _, _, _, _, _, became⟩ := driven
    exact .inl (old became.workers (fun w hw => (Engine.mem_starters hw).2.1) became.history)
  | added _ added =>
    subst added
    exact .inl (old (List.append_nil _).symm (by simp) rfl)

/-- Readers see each run as it is, and nobody hears the workers of a run that is over. Whoever is about to send
a command was heard before. -/
structure Published (o : Orchestrator) : Prop extends Sound o where
  current : ∀ d ∈ o.drivers, d.snapshot = d.run
  silent : ∀ {i : Nat} {d : Driver} {x : Executor}, o.drivers[i]? = some d →
    o.engine.executors[i]? = some x → d.isOver = true → x.isReceived = false
  heralded : ∀ {k : Nat} {w : Worker} {x : Executor} {c : TaskCommand}, Engine.Sends o.engine k w x c →
    ∃ told ∈ o.engine.history, told.host = w.host ∧
      told.happening = .reported w.executor (.started c.taskId c.attempt)

namespace Published

theorem start (settings : EngineSettings) (wall : Timestamp) :
    (Orchestrator.start settings wall).Published where
  toSound := start_sound settings wall
  current := by simp [Orchestrator.start]
  silent := by simp [Orchestrator.start]
  heralded := by
    rintro k w x c ⟨worker, _⟩
    cases worker

/-- Readers see the current run after every turn, and a run that is over is not heard. -/
theorem step (h : o.Published) (stepped : o.step? turn = some o') : o'.Published := by
  have sound := h.toSound.step stepped
  have shift := h.shift stepped
  have heralded {k : Nat} {w : Worker} {x : Executor} {c : TaskCommand}
      (sends : Engine.Sends o'.engine k w x c) : ∃ told ∈ o'.engine.history, told.host = w.host ∧
        told.happening = .reported w.executor (.started c.taskId c.attempt) := by
    obtain ⟨_, before, _⟩ | announces := h.sends_before shift sends
    · obtain ⟨later, history, _⟩ := shift.growth.append
      obtain ⟨told, past, news⟩ := h.heralded before
      exact ⟨told, history ▸ List.mem_append_right later past, news⟩
    · exact ⟨_, announces.told ▸ List.mem_cons_self, rfl, rfl⟩
  cases shift with
  | quiet drivers q =>
    refine ⟨sound, drivers ▸ h.current, fun hd hx => ?_, heralded⟩
    rw [drivers] at hd
    rw [q.executors] at hx
    exact h.silent hd hx
  | @deed k w x f drivers worker executor deed engine =>
    refine ⟨sound, drivers ▸ h.current, fun {j d x'} hd hx archived => ?_, heralded⟩
    rw [drivers] at hd
    rw [engine, Engine.put_executor? executor] at hx
    split at hx
    next here =>
      cases hx
      rw [deed.isReceived_eq]
      exact h.silent hd (by rw [here, executor]) archived
    · exact h.silent hd hx archived
  | queued driver executor became =>
    have snapshot := h.current _ (List.mem_of_getElem? driver)
    refine ⟨sound, became.forall_drivers h.current snapshot,
      became.forall_stations driver executor (P := fun d x => d.isOver = true → x.isReceived = false)
        (fun archived => h.silent driver executor archived) h.silent, heralded⟩
  | driven driven =>
    obtain @⟨d, d₁, x, x₁, r₁, r₂, commands, driver, executor, live, going, intake, _, became⟩ :=
      driven
    refine ⟨sound, became.forall_drivers h.current (by simp),
      became.forall_stations driver executor (P := fun d x => d.isOver = true → x.isReceived = false)
        (fun archived => ?_) h.silent, heralded⟩
    rw [Driver.published_isOver (intake.isOver.trans going)] at archived
    exact Executor.driven_isReceived _ _ archived
  | added _ added =>
    subst added
    refine ⟨sound, fun d hd => ?_, fun {j d x} hd hx archived => ?_, heralded⟩
    · obtain hd | hd := List.mem_append.mp hd
      · exact h.current d hd
      · rw [List.mem_singleton.mp hd]
    · rw [addRun_drivers] at hd
      rw [addRun_executors] at hx
      by_cases inside : j < o.drivers.length
      · rw [List.getElem?_append_left inside] at hd
        rw [List.getElem?_append_left (h.paired ▸ inside)] at hx
        exact h.silent hd hx archived
      · obtain ⟨_, rfl⟩ := eq_length_of_append hd inside
        cases archived

theorem of_reachable {settings : EngineSettings} (reachable : o.Reachable settings) :
    o.Published :=
  reachable.induction (start settings) fun h stepped => h.step stepped

end Published

/-- Whoever is about to send a command works for the run that the command names. -/
theorem Sound.sender (h : o.Sound) {k : Nat} {w : Worker} {c : TaskCommand}
    (sends : Engine.Sends o.engine k w x c) :
    ∃ d, o.drivers[w.executor]? = some d ∧ c.runId = d.run.id := by
  obtain @⟨_, first, worker, _, _, command⟩ := sends
  obtain ⟨d, hd, tagged⟩ := h.employer (List.mem_of_getElem? worker)
  exact ⟨d, hd, tagged first (List.mem_of_head? command)⟩

/-- No worker of a run that is over announces anything. -/
theorem Published.not_announced (h : o.Published) (hd : o.drivers[i]? = some d) (archived : d.isOver = true)
    {e : Engine} {k : Nat} {w : Worker} {c : TaskCommand} (announces : Engine.Announces o.engine e k w c) :
    c.runId ≠ d.run.id := by
  intro mine
  obtain ⟨retries, sending⟩ := announces.sending
  obtain ⟨c', hc', run, _⟩ := announces.command
  obtain ⟨x, hx, heard⟩ := announces.heard
  have here := h.executor_eq hd (List.mem_of_getElem? sending) hc' (run.trans mine)
  simp [h.silent hd (here ▸ hx) archived] at heard

/-- A run that is over is not heard of. -/
theorem Published.unheard (h : o.Published) (shift : Shift o o' turn) (hd : o.drivers[i]? = some d)
    (archived : d.isOver = true) {later : List Entry}
    (history : o'.engine.history = later ++ o.engine.history) :
    ∀ entry ∈ later, ∀ event, entry.happening ≠ .reported i event := by
  have nothing (same : o'.engine.history = o.engine.history) :
      ∀ entry ∈ later, ∀ event, entry.happening ≠ .reported i event := by
    rw [history, List.append_left_eq_self] at same
    simp [same]
  cases shift with
  | quiet _ q =>
    obtain ⟨pings, grown, all⟩ := q.history
    rw [List.append_cancel_right (history.symm.trans grown)]
    intro entry hentry event
    obtain ⟨registry, request, ping⟩ := all entry hentry
    simp [ping]
  | deed _ worker executor deed engine =>
    rw [engine] at history
    rw [← List.append_cancel_right history]
    intro entry hentry event reported
    obtain ⟨happening, happens, rfl⟩ := List.mem_map.mp hentry
    obtain ⟨rfl, heard⟩ := deed.observed.2 i event (reported ▸ happens)
    simp [h.silent hd executor archived] at heard
  | queued _ _ became => exact nothing became.history
  | driven driven =>
    obtain ⟨_, _, _, _, _, _, became⟩ := driven
    exact nothing became.history
  | added _ added => exact nothing (by rw [added]; rfl)

/-! ## What becomes of a run that is over -/

/-- Between `o` and `o'` no call of a run begins. -/
def SilentSince (id : RunId) (o o' : Orchestrator) : Prop :=
  ∃ later, o'.engine.history = later ++ o.engine.history ∧
    ∀ entry ∈ later, ∀ k c, entry.happening = .callBegan k c → c.runId ≠ id

theorem not_silentSince {time k : Nat} {host : String} {c : TaskCommand}
    (history : o'.engine.history = ⟨time, host, .callBegan k c⟩ :: o.engine.history) :
    ¬ SilentSince c.runId o o' := by
  rintro ⟨later, grown, silent⟩
  have last : later = [_] := List.append_cancel_right (grown.symm.trans history)
  exact silent _ (last ▸ List.mem_cons_self) k c rfl rfl

/-- From `o` on the run at position `i`, which the commands name, winds down: `later` is what was recorded since.
A worker of the run that announced its command before, and was about to send it, makes that call. Nothing
else of the run begins, and none of its workers is heard. -/
structure WindsDown (i : Nat) (id : RunId) (o o' : Orchestrator) (later : List Entry) : Prop where
  history : o'.engine.history = later ++ o.engine.history
  unheard : ∀ entry ∈ later, ∀ event, entry.happening ≠ .reported i event
  announced : ∀ entry ∈ later, ∀ k c, entry.happening = .callBegan k c → c.runId = id →
    ∃ w x, Engine.Sends o.engine k w x c ∧ ∃ told ∈ o.engine.history, told.host = w.host ∧
      told.happening = .reported i (.started c.taskId c.attempt)
  /-- No worker makes two calls. -/
  once : later.Pairwise fun entry earlier => ∀ k c c', entry.happening = .callBegan k c →
    earlier.happening = .callBegan k c' → c.runId ≠ id

/-- From `o` to `o'` the run `r` at position `i` is over and stays as it is, and winds down. -/
structure Rests (i : Nat) (r : Run) (o o' : Orchestrator) (later : List Entry) : Prop
    extends WindsDown i r.id o o' later where
  driver : ∃ d, o'.drivers[i]? = some d ∧ d.run = r ∧ d.isOver = true
  /-- Whoever is still about to send a command has been all the time. -/
  waits : ∀ k w x c, Engine.Sends o'.engine k w x c → c.runId = r.id →
    (∃ x, Engine.Sends o.engine k w x c) ∧
      ∀ entry ∈ later, ∀ c', entry.happening ≠ .callBegan k c'

namespace Rests

variable {r : Run} {o₁ o₂ : Orchestrator} {later : List Entry}

theorem refl (hd : o.drivers[i]? = some d) (archived : d.isOver = true) : Rests i d.run o o [] where
  history := rfl
  unheard := by simp
  announced := by simp
  once := .nil
  driver := ⟨d, hd, rfl, archived⟩
  waits := fun _ _ x _ sends _ => ⟨⟨x, sends⟩, by simp⟩

theorem driver_step (sound : o₁.Sound) (stepped : o₁.step? turn = some o₂)
    (hd : o₁.drivers[i]? = some d) (archived : d.isOver = true) :
    ∃ d', o₂.drivers[i]? = some d' ∧ d'.run = d.run ∧ d'.isOver = true := by
  obtain driven | ⟨d', hd', same, still⟩ := (sound.shift stepped).driver hd
  · obtain @⟨_, _, _, _, _, _, _, driver, _, _, going, _, _, _⟩ := driven
    cases hd.symm.trans driver
    simp [archived] at going
  · exact ⟨d', hd', same, still.trans archived⟩

/-- A run that rests goes on to rest: at most a call that was announced begins. -/
theorem step (h : Rests i r o o₁ later) (first : o.Published) (p : o₁.Published)
    (stepped : o₁.step? turn = some o₂) : ∃ later, Rests i r o o₂ later := by
  obtain ⟨d, hd, rfl, archived⟩ := h.driver
  have shift := p.shift stepped
  have driver := driver_step p.toSound stepped hd archived
  have waits {now : List Entry} (history : o₂.engine.history = now ++ o₁.engine.history) (k : Nat) w x c
      (sends : Engine.Sends o₂.engine k w x c) (mine : c.runId = d.run.id) :
      (∃ x, Engine.Sends o.engine k w x c) ∧
        ∀ entry ∈ now ++ later, ∀ c', entry.happening ≠ .callBegan k c' := by
    obtain ⟨x', before, silent⟩ | announces := p.sends_before shift sends
    · obtain ⟨sends₀, never⟩ := h.waits k w x' c before mine
      refine ⟨sends₀, fun entry hentry => ?_⟩
      obtain new | old := List.mem_append.mp hentry
      · exact silent now history entry new
      · exact never entry old
    · exact absurd mine (p.not_announced hd archived announces)
  have all {now : List Entry} (history : o₂.engine.history = now ++ o₁.engine.history) :
      o₂.engine.history = (now ++ later) ++ o.engine.history := by
    rw [history, h.history, List.append_assoc]
  have unheard {now : List Entry} (history : o₂.engine.history = now ++ o₁.engine.history) :
      ∀ entry ∈ now ++ later, ∀ event, entry.happening ≠ .reported i event := by
    intro entry hentry
    obtain new | old := List.mem_append.mp hentry
    · exact p.unheard shift hd archived history entry new
    · exact h.unheard entry old
  cases shift.growth with
  | still now history calls =>
    refine ⟨now ++ later, ⟨all history, unheard history, fun entry hentry k c call => ?_, ?_⟩, driver,
      waits history⟩
    · obtain new | old := List.mem_append.mp hentry
      · exact absurd call (calls entry new k c)
      · exact h.announced entry old k c call
    · refine List.pairwise_append.mpr ⟨List.pairwise_of_forall_mem_list fun entry hentry _ _ k c _ call =>
        absurd call (calls entry hentry k c), h.once, fun entry hentry _ _ k c _ call => ?_⟩
      exact absurd call (calls entry hentry k c)
  | @call k w x c sends history =>
    refine ⟨[_] ++ later, ⟨all history, unheard history, fun entry hentry k' c' call mine => ?_, ?_⟩, driver,
      waits history⟩
    · obtain rfl | old := List.mem_cons.mp hentry
      · cases call
        obtain ⟨⟨x₀, sends₀⟩, _⟩ := h.waits k w x c sends mine
        obtain ⟨d', hd', run⟩ := p.sender sends
        have here := p.index_eq hd hd' (run.symm.trans mine)
        exact ⟨w, x₀, sends₀, here ▸ first.heralded sends₀⟩
      · exact h.announced entry old k' c' call mine
    · refine List.pairwise_cons.mpr ⟨fun entry hentry k' c₁ c₂ call again mine => ?_, h.once⟩
      cases call
      exact (h.waits k w x c sends mine).2 entry hentry c₂ again

/-- A run that is over stays so, whatever happens, and readers see it. -/
theorem of_play? (p : o.Published) (hd : o.drivers[i]? = some d) (archived : d.isOver = true)
    {turns : List Turn} (played : o.play? turns = some o') :
    o'.Published ∧ ∃ later, Rests i d.run o o' later := by
  refine play?_induction (P := fun o' => o'.Published ∧ ∃ later, Rests i d.run o o' later) ?_ played
    ⟨p, [], .refl hd archived⟩
  exact fun ⟨p', _, rests⟩ stepped => ⟨p'.step stepped, rests.step p p' stepped⟩

end Rests

/-! ## Aborts -/

/-- A driver that meets a demand to end its run aborts the run as it is, and is over. -/
theorem Sound.ended_of_demands (h : o.Sound) (hd : o.drivers[i]? = some d)
    (demands : o.Demands i d turn) (stepped : o.step? turn = some o') :
    d.run.state.isTerminal = false ∧ ∃ reason d', o'.drivers[i]? = some d' ∧
      d'.run = d.run.skipRest o.wall reason ∧ d'.isOver = true := by
  have ended (driven : Driven i o o' turn)
      (aborts : ∀ {x d₁ x₁ r}, Intake o i d x turn d₁ x₁ r → d.run.state.isTerminal = false →
        ∃ reason, r = d.run.skipRest o.wall reason) :
      d.run.state.isTerminal = false ∧ ∃ reason d', o'.drivers[i]? = some d' ∧
        d'.run = d.run.skipRest o.wall reason ∧ d'.isOver = true := by
    obtain @⟨_, _, _, _, _, _, _, driver, _, live, going, intake, step, became⟩ := driven
    cases hd.symm.trans driver
    obtain ⟨reason, rfl⟩ := aborts intake live
    -- The input archives the run, so the step after it does nothing.
    cases (Run.step_of_archived rfl).symm.trans step
    refine ⟨live, reason, _, became.driver? hd, Driver.published_run .., ?_⟩
    exact Driver.published_isOver (intake.isOver.trans going) _
  obtain ⟨rfl, client, reason, rest, waiting⟩ | ⟨rfl, _⟩ := demands
  · refine ended (h.control_driven stepped) fun intake live => ?_
    cases intake with
    | control _ tickets controlled =>
      cases waiting.symm.trans tickets
      exact ⟨reason, controlled.symm.trans (congrArg Prod.fst (Run.abort_of_live live))⟩
  · refine ended (h.hangUp_driven stepped) fun intake live => ?_
    cases intake with
    | hangUp _ _ _ aborted =>
      exact ⟨_, aborted.symm.trans (congrArg Prod.fst (Run.abort_of_live live))⟩

/-- Every run that is not archived takes an abort, which skips the tasks that are not over and leaves the
others as they are. Once a driver has taken one, or has found that nobody gives commands any more, readers
see the run as the abort left it for ever, and none of its workers is heard any more. Whatever else a worker was
about to do, it makes no call: a call of the run that begins afterwards was announced before, and it is
the only one of its worker. -/
theorem abort_is_complete_and_final {settings : EngineSettings} {o : Orchestrator}
    (reachable : o.Reachable settings) :
    (∀ (r : Run) now reason, r.state.isTerminal = false → (r.abort now reason).2 = .ok () ∧
      (r.abort now reason).1.state = .aborted ∧
      (r.abort now reason).1.tasks = r.tasks.map (Task.skipped now) ∧
      ∀ t ∈ (r.abort now reason).1.tasks, t.status.isTerminal = true) ∧
    ∀ (i : Nat) (d : Driver) turn (o₁ : Orchestrator), o.drivers[i]? = some d →
      o.Demands i d turn → o.step? turn = some o₁ → d.run.state.isTerminal = false ∧
      ∃ reason, ∀ turns (o₂ : Orchestrator), o₁.play? turns = some o₂ →
        (∃ d', o₂.drivers[i]? = some d' ∧ d'.run = (d.run.abort o.wall reason).1 ∧
          d'.snapshot = (d.run.abort o.wall reason).1) ∧
        ∃ later, WindsDown i d.run.id o₁ o₂ later := by
  have published := Published.of_reachable reachable
  refine ⟨fun r now reason live => ?_, fun i d turn o₁ hd demands stepped => ?_⟩
  · rw [Run.abort_of_live live]
    refine ⟨rfl, rfl, rfl, fun t ht => ?_⟩
    obtain ⟨t, _, rfl⟩ := List.mem_map.mp ht
    exact t.skipped_isTerminal now
  · obtain ⟨live, reason, d₁, hd₁, run, archived⟩ := published.ended_of_demands hd demands stepped
    refine ⟨live, reason, fun turns o₂ played => ?_⟩
    rw [Run.abort_of_live live, ← run]
    obtain ⟨published₂, later, rests⟩ := Rests.of_play? (published.step stepped) hd₁ archived played
    obtain ⟨d₂, hd₂, same, _⟩ := rests.driver
    have id : d₁.run.id = d.run.id := by rw [run]; rfl
    refine ⟨⟨d₂, hd₂, same, ?_⟩, later, id ▸ rests.toWindsDown⟩
    rw [published₂.current d₂ (List.mem_of_getElem? hd₂), same]

/-- A client asks for the end of the run when the first command is announced and not sent yet. -/
def lateAbort : List Turn := firstNews ++ [.submit (.ofNat 0) (.abort "wrong version")]

theorem abort_is_complete_and_final_lateAbort :
    (after lateAbort).Reachable .default ∧ ∃ d o₁, (after lateAbort).drivers[0]? = some d ∧
      (after lateAbort).Demands 0 d (.control 0) ∧
      (after lateAbort).step? (.control 0) = some o₁ ∧
      ∃ reason, ∀ turns (o₂ : Orchestrator), o₁.play? turns = some o₂ →
        (∃ d', o₂.drivers[0]? = some d' ∧ d'.run = (d.run.abort (after lateAbort).wall reason).1 ∧
          d'.snapshot = (d.run.abort (after lateAbort).wall reason).1) ∧
        ∃ later, WindsDown 0 d.run.id o₁ o₂ later := by
  have reachable : (after lateAbort).Reachable .default := after_reachable (by decide +kernel)
  have driver : ((after lateAbort).drivers[0]?).map Driver.tickets =
      some [⟨0, .abort "wrong version"⟩] := by decide +kernel
  have possible : ((after lateAbort).step? (.control 0)).isSome = true := by decide +kernel
  obtain ⟨d, hd, tickets⟩ := Option.map_eq_some_iff.mp driver
  obtain ⟨o₁, stepped⟩ := Option.isSome_iff_exists.mp possible
  have demands : (after lateAbort).Demands 0 d (.control 0) :=
    .inl ⟨rfl, 0, "wrong version", [], tickets⟩
  exact ⟨reachable, d, o₁, hd, demands, stepped,
    ((abort_is_complete_and_final reachable).2 0 d _ o₁ hd demands stepped).2⟩

/-- The driver takes the abort and is over, and only then the worker sends the command that it announced. -/
theorem call_after_abort :
    (after lateAbort).Reachable .default ∧ ∃ d o₁ o₂ c, (after lateAbort).drivers[0]? = some d ∧
      (after lateAbort).Demands 0 d (.control 0) ∧ (after lateAbort).step? (.control 0) = some o₁ ∧
      o₁.step? (.engine (.work 0)) = some o₂ ∧ c.runId = d.run.id ∧
      o₂.engine.history = ⟨0, "alpha", .callBegan 0 c⟩ :: o₁.engine.history ∧
      ¬ SilentSince d.run.id o₁ o₂ := by
  let c : TaskCommand := ⟨.ofNat 0, 0, "alpha", "db", "server", .stop, "1.0", .upgrade, 1⟩
  have driver : ((after lateAbort).drivers[0]?).map (fun d => (d.run.id, d.tickets)) =
      some (.ofNat 0, [⟨0, .abort "wrong version"⟩]) := by decide +kernel
  have possible : (((after lateAbort).step? (.control 0)).bind fun o₁ =>
      (o₁.step? (.engine (.work 0))).map fun o₂ =>
        decide (o₂.engine.history = ⟨0, "alpha", .callBegan 0 c⟩ :: o₁.engine.history)) = some true := by
    decide +kernel
  obtain ⟨d, hd, same⟩ := Option.map_eq_some_iff.mp driver
  obtain ⟨id, tickets⟩ := Prod.mk.inj same
  obtain ⟨o₁, stepped, called⟩ := Option.bind_eq_some_iff.mp possible
  obtain ⟨o₂, worked, history⟩ := Option.map_eq_some_iff.mp called
  have history := of_decide_eq_true history
  exact ⟨after_reachable (by decide +kernel), d, o₁, o₂, c, hd, .inl ⟨rfl, 0, "wrong version", [], tickets⟩,
    stepped, worked, id.symm, history, id ▸ not_silentSince history⟩

end Orchestrator

end Rollout
