-- SUMMARY: Finished work is never repeated: once a call for a task was answered well, no call for it begins.
import Mathlib.Data.List.Pairwise
import Rollout.Proofs.Orchestrator.HostCalls
import Rollout.Proofs.Orchestrator.TaskTraces
import Rollout.Proofs.Run.Permanence

/-!
# Accomplished tasks

A task whose call was answered well is accomplished: the worker is about to say so, or the news wait in
the channel of the run, or the run knows and keeps the task completed for ever. In none of these cases does
a worker come to announce its command. A worker that announced its command sends it, even when its run is over
by then, but it has the lock of the host all the time, so nobody else carries the task out meanwhile.
-/
namespace Rollout

/-- The agent carried out the first command of the worker, which is for a task, and the worker did not say
so yet. -/
def Worker.HasDone (w : Worker) (task : Nat) : Prop :=
  ∃ c retries, w.commands.head? = some c ∧ c.taskId = task ∧
    (w.phase = .called retries none ∨ w.phase = .reporting (.completed retries))

/-- A task was carried out: the run knows, or the news wait for it, or a worker is about to say so. -/
inductive Run.Accomplished (r : Run) (x : Executor) (crew : List Worker) (task : Nat) : Prop
  | known {t : Task} (task? : r.task? task = some t) (completed : t.status = .completed)
  | told {retries : UInt32} (news : .finished task (.completed retries) ∈ x.channel)
  | held {w : Worker} (worker : w ∈ crew) (done : w.HasDone task)

namespace Engine

variable {e : Engine} {i : Nat} {w : Worker} {x : Executor} {f : Effect} {task : Nat}

/-- A worker that is heard says so when its command was carried out. -/
theorem Deed.hasDone (deed : Deed e i w x f) (heard : x.isReceived = true) (done : w.HasDone task) :
    f.worker.HasDone task ∨
      ∃ retries, .finished task (.completed retries) ∈ f.executor.channel := by
  obtain ⟨c, retries, command, rfl, phase⟩ := done
  cases deed with
  | @conclude _ fault was =>
    obtain called | reporting := phase
    · cases was.symm.trans called
      exact .inl ⟨c, retries, command, rfl, .inr rfl⟩
    · cases was.symm.trans reporting
  | @report _ _ was first =>
    obtain called | reporting := phase
    · cases was.symm.trans called
    · cases was.symm.trans reporting
      cases command.symm.trans first
      exact .inr ⟨retries, List.mem_append_right _ (List.mem_singleton.mpr rfl)⟩
  | leave why =>
    cases why with
    | noSlots was | noSlot was | done was => simp [was] at phase
    | unheard _ silent => simp [heard] at silent
  | arrive was | lock was | settle was | knock was | pass was | turnBack was | giveUp was | announce was
  | call was | answer _ was | expire was => simp [was] at phase

theorem Deed.channel_subset (deed : Deed e i w x f) : x.channel ⊆ f.executor.channel := by
  cases deed with
  | announce | report => exact List.subset_append_left ..
  | arrive | leave | lock | settle | knock | pass | turnBack | giveUp | call | answer | expire
  | conclude => exact List.Subset.refl _

/-- Of two workers for one host one holds nothing. -/
theorem Sole.alone {crew : List Worker} (sole : Sole crew) {a b : Worker} (ha : a ∈ crew)
    (hb : b ∈ crew) (other : a ≠ b) (same : a.host = b.host) : a.commands = [] ∨ b.commands = [] := by
  have : Std.Symm fun a b : Worker => a.host = b.host → a.commands = [] ∨ b.commands = [] :=
    ⟨fun _ _ h same => (h same.symm).symm⟩
  exact List.Pairwise.forall sole ha hb other same

end Engine

namespace Run

variable {r : Run} {x : Executor} {crew : List Worker} {task : Nat} {w : Worker} {c : TaskCommand}

/-- News that a task is over decide its status. -/
theorem Applied.task_finished {now : Timestamp} {r' : Run} {id : Nat} {outcome : TaskOutcome}
    (applied : Applied now r (.finished id outcome) (r', .ok ())) (live : r.state.isTerminal = false) :
    ∃ t, r'.task? id = some t ∧ t.status = outcome.status := by
  cases applied with
  | dropped archived => simp [live] at archived
  | @ended _ _ t _ task =>
    have inside : (r.tasks.modify id (Task.ended now outcome))[id]? = some (t.ended now outcome) := by
      rw [task?] at task
      simp [task]
    exact ⟨_, inside, rfl⟩

namespace Accomplished

/-- No worker comes to announce the command for a task that was carried out. -/
theorem not_sending (a : r.Accomplished x crew task) (orderly : r.Orderly) (account : r.Account x crew)
    (hw : w ∈ crew) {retries : UInt32} (phase : w.phase = .sending retries) (held : c ∈ w.commands) :
    c.taskId ≠ task := by
  rintro rfl
  obtain ⟨t, _, task?, out, at_host, _⟩ :=
    orderly.mirrors.task_of_owed (account.owed_of_held hw held)
  cases a with
  | known known completed =>
    cases known.symm.trans task?
    simp [Task.isOutstanding, completed] at out
  | told news => exact account.untold orderly.mirrors hw held news
  | @held v worker done =>
    obtain ⟨c', retries', first, same, was⟩ := done
    have held' : c' ∈ v.commands := List.mem_of_head? first
    obtain ⟨t', _, task?', _, at_host', _⟩ :=
      orderly.mirrors.task_of_owed (account.owed_of_held worker held')
    rw [same, task?] at task?'
    cases task?'
    have other : w ≠ v := by
      rintro rfl
      simp [phase] at was
    obtain none_left | none_left :=
      account.sole.alone hw worker other (at_host.symm.trans at_host')
    · simp [none_left] at held
    · simp [none_left] at held'

/-- A task that was carried out stays so, whatever the workers do. -/
theorem deed {front back : List Worker} (a : r.Accomplished x (front ++ w :: back) task)
    (heard : x.isReceived = true) {e : Engine} {i : Nat} {f : Engine.Effect}
    (deed : Engine.Deed e i w x f) : r.Accomplished f.executor (front ++ f.worker :: back) task := by
  cases a with
  | known task? completed => exact .known task? completed
  | told news => exact .told (deed.channel_subset news)
  | @held v worker done =>
    have others (hv : v ∈ front ∨ v ∈ back) :
        r.Accomplished f.executor (front ++ f.worker :: back) task :=
      .held (List.mem_append.mpr (hv.imp_right (List.mem_cons_of_mem _))) done
    obtain hv | hv := List.mem_append.mp worker
    · exact others (.inl hv)
    · obtain rfl | hv := List.mem_cons.mp hv
      · obtain done | ⟨_, news⟩ := deed.hasDone heard done
        · exact .held (List.mem_append_right _ List.mem_cons_self) done
        · exact .told news
      · exact others (.inr hv)

/-- The run may change as long as completed tasks stay, and the others need not notice. -/
theorem keeps (a : r.Accomplished x crew task) {r' : Run} {x' : Executor} {new : List Worker}
    (kept : Keeps Task.IsFinal r r') (channel : x'.channel = x.channel) :
    r'.Accomplished x' (crew ++ new) task := by
  cases a with
  | known task? completed => exact .known (kept task _ task? (.inl completed)) completed
  | told news => exact .told (channel ▸ news)
  | held worker done => exact .held (List.mem_append_left _ worker) done

/-- The run takes the next event of the channel. -/
theorem take (a : r.Accomplished x crew task) (live : r.state.isTerminal = false) {event : TaskEvent}
    {rest : List TaskEvent} (channel : x.channel = event :: rest) {now : Timestamp} {r' : Run}
    (applied : r.apply now event = (r', .ok ())) :
    r'.Accomplished { x with channel := rest } crew task := by
  have taken := apply_applied r now event
  rw [applied] at taken
  cases a with
  | known task? completed =>
    exact .known (taken.keeps task _ task? (Task.IsFinal.isOver (.inl completed))) completed
  | told news =>
    rw [channel] at news
    obtain rfl | later := List.mem_cons.mp news
    · obtain ⟨t, task?, status⟩ := taken.task_finished live
      exact .known task? status
    · exact .told later
  | held worker done => exact .held worker done

end Accomplished

end Run

namespace Orchestrator

variable {o o' : Orchestrator} {i : Nat} {d : Driver} {x : Executor} {turn : Turn}

/-- What was accomplished stays so when a driver takes something in, unless the run is archived. -/
theorem Intake.accomplished {d₁ : Driver} {x₁ : Executor} {r : Run} {crew : List Worker} {task : Nat}
    (h : Intake o i d x turn d₁ x₁ r) (live : d.run.state.isTerminal = false)
    (a : d.run.Accomplished x crew task) : r.Accomplished x₁ crew task := by
  obtain ⟨c, called⟩ := h.call
  have kept : Run.Keeps Task.IsFinal d.run r := called ▸ Run.call_keeps_final d.run o.wall c
  cases h with
  | event _ channel applied => exact a.take live channel applied
  | begin | control | hangUp => exact crew.append_nil ▸ a.keeps kept rfl

/-- What was answered well is accomplished, as long as the run is not archived, and no call was made, or is about
to be made, for a task that had been carried out. -/
structure Thrifty (o : Orchestrator) : Prop extends Recorded o where
  accomplished : ∀ {i : Nat} {d : Driver} {x : Executor}, o.drivers[i]? = some d →
    o.engine.executors[i]? = some x → d.run.state.isTerminal = false →
    ∀ task, Engine.Succeeded o.engine.history d.run.id task →
      d.run.Accomplished x (o.engine.crew i) task
  waiting : ∀ {k : Nat} {w : Worker} {x : Executor} {c : TaskCommand}, Engine.Sends o.engine k w x c →
    ¬ Engine.Succeeded o.engine.history c.runId c.taskId
  unrepeated : ∀ entry past k c, entry.happening = .callBegan k c → entry :: past <:+ o.engine.history →
    ¬ Engine.Succeeded past c.runId c.taskId

namespace Thrifty

theorem start (settings : EngineSettings) (wall : Timestamp) :
    (Orchestrator.start settings wall).Thrifty where
  toRecorded := .start settings wall
  accomplished := by simp [Orchestrator.start]
  waiting := by
    rintro k w x c ⟨worker, _⟩
    cases worker
  unrepeated := by simp [Orchestrator.start, Engine.empty]

/-- A task whose command is announced was not carried out. -/
theorem not_announced (h : o.Thrifty) {k : Nat} {w : Worker} {c : TaskCommand}
    (announces : Engine.Announces o.engine o'.engine k w c) :
    ¬ Engine.Succeeded o.engine.history c.runId c.taskId := by
  obtain ⟨retries, sending⟩ := announces.sending
  obtain ⟨c', held, run, task⟩ := announces.command
  obtain ⟨x, hx, heard⟩ := announces.heard
  obtain ⟨d, hd, tagged⟩ := h.employer (List.mem_of_getElem? sending)
  have own := Engine.mem_crew sending rfl
  have live : d.run.state.isTerminal = false := by
    rw [← h.closed d (List.mem_of_getElem? hd)]
    exact Bool.eq_false_iff.mpr fun archived => by simp [h.silent hd hx archived] at heard
  obtain ⟨orderly, account⟩ := h.agreed hd hx live
  intro done
  rw [← run, ← task, tagged c' held] at done
  exact (h.accomplished hd hx live _ done).not_sending orderly account own rfl held rfl

/-- A worker that is about to send its command has the lock of the host, so no other call for the task ends
meanwhile. -/
theorem waiting_step (h : o.Thrifty) (shift : Shift o o' turn) {k : Nat} {w : Worker} {c : TaskCommand}
    (sends : Engine.Sends o'.engine k w x c) :
    ¬ Engine.Succeeded o'.engine.history c.runId c.taskId := by
  obtain ⟨y, before, _⟩ | announces := h.sends_before shift sends
  · intro done
    refine h.waiting before ?_
    cases shift with
    | quiet _ q => exact q.succeeded done
    | @deed j v _ _ _ worker _ deed engine =>
      rw [engine] at done
      obtain old | ⟨calling, ⟨c', _, command', task, _⟩, sent, hsent, c₁, call, run⟩ := deed.succeeded done
      · exact old
      · -- The worker that was answered works for the same run, so it is the one that has the lock.
        obtain ⟨v', d', hv', hd', named⟩ := h.served sent hsent j c₁ call
        cases worker.symm.trans hv'
        obtain ⟨d, hd, mine⟩ := h.sender before
        have here := h.index_eq hd hd' (named.trans (run.trans mine))
        obtain ⟨hw, _, phase, command⟩ := before
        have one := h.one_at_task hw worker here (by rw [phase]; rfl)
          (Phase.hasLock_of_hasSlot (Phase.hasSlot_of_isCalling calling)) (List.mem_of_head? command)
          (List.mem_of_head? command') task
        rw [one] at worker
        cases hw.symm.trans worker
        simp [phase, Phase.isCalling] at calling
    | queued _ _ became => exact became.history ▸ done
    | driven driven =>
      obtain ⟨_, _, _, _, _, _, became⟩ := driven
      exact became.history ▸ done
    | added _ added =>
      subst added
      exact done
  · intro done
    rw [announces.told] at done
    exact h.not_announced announces (done.of_append [_] (by simp))

/-- Other stations keep what they accomplished, and the station that changes is as good as before. -/
theorem accomplished_became (h : o.Thrifty) {d' : Driver} {x' : Executor} {new : List Worker}
    (b : Became i o o' d' x' new) (hd : o.drivers[i]? = some d)
    (hx : o.engine.executors[i]? = some x) (mine : ∀ w ∈ new, w.executor = i)
    (here : d'.run.state.isTerminal = false → ∀ task,
      Engine.Succeeded o.engine.history d'.run.id task →
        d'.run.Accomplished x' (o.engine.crew i ++ new) task)
    {j : Nat} {d₁ : Driver} {x₁ : Executor} (hd₁ : o'.drivers[j]? = some d₁)
    (hx₁ : o'.engine.executors[j]? = some x₁) (live : d₁.run.state.isTerminal = false) (task : Nat)
    (done : Engine.Succeeded o'.engine.history d₁.run.id task) :
    d₁.run.Accomplished x₁ (o'.engine.crew j) task := by
  rw [b.history] at done
  rw [b.crew mine]
  by_cases same : j = i
  · subst same
    cases (b.driver? hd).symm.trans hd₁
    cases (b.executor? hx).symm.trans hx₁
    rw [if_pos rfl]
    exact here live task done
  · rw [if_neg same]
    exact h.accomplished ((b.others same).1 ▸ hd₁) ((b.others same).2 ▸ hx₁) live task done

/-- A driver keeps what its run accomplished. -/
theorem accomplished_driven (h : o.Thrifty) (driven : Driven i o o' turn) {j : Nat} {d' : Driver}
    {x' : Executor} (hd' : o'.drivers[j]? = some d') (hx' : o'.engine.executors[j]? = some x')
    (live' : d'.run.state.isTerminal = false) (task : Nat)
    (done : Engine.Succeeded o'.engine.history d'.run.id task) :
    d'.run.Accomplished x' (o'.engine.crew j) task := by
  obtain @⟨d, d₁, x, x₁, r₁, r₂, commands, hd, hx, live, going, intake, stepped, became⟩ := driven
  have mine : ∀ w ∈ Engine.starters i commands, w.executor = i :=
    fun w hw => (Engine.mem_starters hw).1
  refine h.accomplished_became became hd hx mine (fun live₂ task done => ?_) hd' hx' live' task done
  rw [Driver.published_run] at live₂ done ⊢
  have live₁ : r₁.state.isTerminal = false := by
    refine Bool.eq_false_iff.mpr fun archived => ?_
    cases (Run.step_of_archived archived).symm.trans stepped
    simp [archived] at live₂
  have charter := Run.step_charter r₁ o.wall
  rw [stepped] at charter
  have id : r₂.id = d.run.id := (Run.charter_eq_iff.mp (charter.trans intake.charter)).1
  have kept : Run.Keeps Task.IsFinal r₁ r₂ := by
    have := Run.call_keeps_final r₁ o.wall .step
    rwa [Run.call, stepped] at this
  rw [Executor.driven_of_live live₁ live₂]
  rw [id] at done
  exact (intake.accomplished live (h.accomplished hd hx live task done)).keeps kept rfl

/-- What succeeds at a deed is held by its worker from then on. -/
theorem accomplished_deed (h : o.Thrifty) {k : Nat} {w : Worker} {f : Engine.Effect}
    (drivers : o'.drivers = o.drivers) (hw : o.engine.workers[k]? = some w)
    (hx : o.engine.executors[w.executor]? = some x) (deed : Engine.Deed o.engine k w x f)
    (engine : o'.engine = o.engine.put k w f) {j : Nat} {d' : Driver} {x' : Executor}
    (hd' : o'.drivers[j]? = some d') (hx' : o'.engine.executors[j]? = some x')
    (live : d'.run.state.isTerminal = false) (task : Nat)
    (done : Engine.Succeeded o'.engine.history d'.run.id task) :
    d'.run.Accomplished x' (o'.engine.crew j) task := by
  obtain ⟨front, back, before, after⟩ := Engine.crew_put hw deed
  rw [drivers] at hd'
  rw [engine] at hx' done ⊢
  rw [Engine.put_executor? hx] at hx'
  by_cases same : j = w.executor
  · subst same
    rw [if_pos rfl] at hx'
    cases hx'
    rw [after]
    obtain old | ⟨_, ⟨c, retries, command, task, became⟩, _⟩ := deed.succeeded done
    · have := h.accomplished hd' hx live _ old
      rw [before] at this
      exact this.deed (h.agreed hd' hx live).2.serving.heard deed
    · refine .held (List.mem_append_right _ List.mem_cons_self) ?_
      rw [became]
      exact ⟨c, retries, command, task, .inl rfl⟩
  · rw [if_neg same] at hx'
    rw [Engine.crew_put_of_ne hw deed same]
    obtain old | ⟨_, _, sent, hsent, c, call, run⟩ := deed.succeeded done
    · exact h.accomplished hd' hx' live _ old
    · -- The worker that was answered works for the run that its command names.
      obtain ⟨w', d, hw', hd, named⟩ := h.served sent hsent k c call
      cases hw.symm.trans hw'
      exact absurd (h.index_eq hd hd' (run.symm.trans named.symm)) same

/-- Every turn keeps it so that no accomplished task is called again. -/
theorem step (h : o.Thrifty) (stepped : o.step? turn = some o') : o'.Thrifty := by
  have shift := h.shift stepped
  refine ⟨h.toRecorded.step stepped, ?_, h.waiting_step shift, fun entry past k c call told => ?_⟩
  · intro j d' x' hd' hx' live task done
    cases shift with
    | quiet drivers q =>
      rw [drivers] at hd'
      rw [q.executors] at hx'
      have crew : o'.engine.crew j = o.engine.crew j := by rw [Engine.crew, q.workers]; rfl
      rw [crew]
      exact h.accomplished hd' hx' live task (q.succeeded done)
    | deed drivers worker executor deed engine =>
      exact h.accomplished_deed drivers worker executor deed engine hd' hx' live task done
    | queued driver executor became =>
      refine h.accomplished_became became driver executor (by simp) (fun live task done => ?_) hd' hx'
        live task done
      rw [List.append_nil]
      exact h.accomplished driver executor live task done
    | driven driven => exact h.accomplished_driven driven hd' hx' live task done
    | @added id plan policy now fresh added =>
      subst added
      rw [addRun_drivers] at hd'
      rw [addRun_executors] at hx'
      by_cases inside : j < o.drivers.length
      · rw [List.getElem?_append_left inside] at hd'
        rw [List.getElem?_append_left (h.paired ▸ inside)] at hx'
        exact h.accomplished hd' hx' live task done
      · -- Nobody made a call for a run that was not there.
        obtain ⟨_, rfl⟩ := eq_length_of_append hd' inside
        obtain ⟨worker, answer, past, told, _, sent, hsent, c, call, run, _⟩ := done
        obtain ⟨_, d, _, hd, named⟩ := h.served sent
          (told.subset (List.mem_cons_of_mem _ hsent)) worker c call
        have member := List.mem_of_getElem? hd
        exact absurd ((h.named d member).trans (named.trans run)) (fresh d member)
  · obtain old | ⟨w, x, sends, rfl, rfl⟩ := shift.growth.recorded call told
    · exact h.unrepeated entry past k c call old
    · exact h.waiting sends

theorem of_reachable {settings : EngineSettings} (reachable : o.Reachable settings) : o.Thrifty :=
  reachable.induction (start settings) fun h stepped => h.step stepped

end Thrifty

/-- Finished work is never repeated. In every history, when a call for a task begins, no call for the task
was answered without a fault before, so none begins after one was. For a run, whatever its state: every
operation but a retry leaves each task that is over as it is, a retry leaves each task as it is that did not
fail in the current stage, and so a task that was completed or skipped never changes again. -/
theorem finished_work_is_not_repeated {settings : EngineSettings} {o : Orchestrator}
    (reachable : o.Reachable settings) :
    (∀ time host worker past (c : TaskCommand),
      ⟨time, host, .callBegan worker c⟩ :: past <:+ o.engine.history →
        ¬ Engine.Succeeded past c.runId c.taskId) ∧
    (∀ (r : Run) now (c : Run.Call) (k : Nat) (t : Task), c ≠ .retry → r.tasks[k]? = some t →
      t.status.isTerminal = true → (r.call now c).tasks[k]? = some t) ∧
    (∀ (r : Run) now (k : Nat) (t : Task), r.tasks[k]? = some t →
      ¬ (t.isAt r.cursor = true ∧ t.status.isFailure = true) →
        (r.call now .retry).tasks[k]? = some t) ∧
    ∀ (r : Run) history (k : Nat) (t : Task), r.tasks[k]? = some t →
      t.status = .completed ∨ t.status = .skipped → (r.after history).tasks[k]? = some t := by
  refine ⟨fun time host worker past c told => ?_, fun r now c k t other ht final => ?_,
    fun r now => Run.retry_keeps r now, fun r history => Run.after_keeps_final r history⟩
  · exact (Thrifty.of_reachable reachable).unrepeated _ past worker c rfl told
  · exact Run.call_keeps r now other k t ht final

/-- The first call was answered well, and the worker for the other host sends the second one. -/
def secondCall : List Turn :=
  firstAnswer ++ List.replicate 5 (.engine (.work 1)) ++
  [.engine (.supervise 0 "beta"), .engine (.work 1), .engine (.supervise 0 "beta"),
    .engine (.pong 0 "beta" (some .epoch))] ++
  List.replicate 4 (.engine (.work 1))

theorem finished_work_is_not_repeated_secondCall :
    (after secondCall).Reachable .default ∧ ∃ c past,
      (after secondCall).engine.history = ⟨0, "beta", .callBegan 1 c⟩ :: past ∧
      c.runId = .ofNat 0 ∧ c.taskId = 1 ∧ ¬ Engine.Succeeded past (.ofNat 0) 1 := by
  have reachable : (after secondCall).Reachable .default := after_reachable (by decide +kernel)
  have call : (after secondCall).engine.history.head? = some ⟨0, "beta", .callBegan 1
      ⟨.ofNat 0, 1, "beta", "db", "server", .stop, "1.0", .upgrade, 1⟩⟩ := by decide +kernel
  obtain ⟨past, told⟩ := List.head?_eq_some_iff.mp call
  exact ⟨reachable, _, past, told, rfl, rfl,
    (finished_work_is_not_repeated reachable).1 0 "beta" 1 past _ ⟨[], told.symm⟩⟩

end Orchestrator

end Rollout
