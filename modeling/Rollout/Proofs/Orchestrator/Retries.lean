-- SUMMARY: What the retries of a task account for, whoever carries it out and however far it is.
import Rollout.Proofs.Engine.Attempts
import Rollout.Proofs.Orchestrator.Accomplished
import Rollout.Proofs.Run.Requeues

/-!
# Retries

The retries of a task count the calls that were repeated, and the times that the task was put back in the
queue. The worker that carries a task out counts the calls that it repeats. It says so when the task is over,
and the run adds them up when it hears of it. So the task and its trace, the command or the news, account for
all calls at any time.
-/
namespace Rollout

namespace Run

-- ---------------------------------------------------------------------------
-- Traces of tasks
-- ---------------------------------------------------------------------------

variable {r r' : Run} {now : Timestamp} {x : Executor} {e : Engine} {i k : Nat} {w : Worker} {c : TaskCommand}

/-- The command for a task is held once, by one worker. -/
theorem Account.only_holder (h : r.Account x (e.crew i)) (mirrors : r.MirrorsPlan)
    (hw : e.workers[k]? = some w) (mine : w.executor = i) (holds : c ∈ w.commands) {k' : Nat} {w' : Worker}
    {c' : TaskCommand} (hw' : e.workers[k']? = some w') (mine' : w'.executor = i) (holds' : c' ∈ w'.commands)
    (same : c'.taskId = c.taskId) : k' = k ∧ c' = c := by
  obtain ⟨t, _, task, _, host, _, command⟩ :=
    mirrors.task_of_owed (h.owed_of_held (Engine.mem_crew hw mine) holds)
  obtain ⟨t', _, task', _, host', _, command'⟩ :=
    mirrors.task_of_owed (h.owed_of_held (Engine.mem_crew hw' mine') holds')
  rw [same, task] at task'
  cases task'
  refine ⟨?_, command'.symm.trans command⟩
  -- Two workers for one host never hold commands at the same time.
  have apart := List.pairwise_iff_getElem.mp (List.pairwise_filter.mp h.sole)
  obtain ⟨inside, rfl⟩ := List.getElem?_eq_some_iff.mp hw
  obtain ⟨inside', rfl⟩ := List.getElem?_eq_some_iff.mp hw'
  obtain before | here | behind := Nat.lt_trichotomy k' k
  · obtain nothing | nothing := apart k' k inside' inside before (decide_eq_true mine')
      (decide_eq_true mine) (host'.symm.trans host)
    · simp [nothing] at holds'
    · simp [nothing] at holds
  · exact here
  · obtain nothing | nothing := apart k k' inside inside' behind (decide_eq_true mine)
      (decide_eq_true mine') (host.symm.trans host')
    · simp [nothing] at holds
    · simp [nothing] at holds'

/-- The next event of a channel is about a task that is outstanding. -/
theorem Account.head_outstanding {crew : List Worker} (h : r.Account x crew) (mirrors : r.MirrorsPlan)
    {event : TaskEvent} {rest : List TaskEvent} (channel : x.channel = event :: rest) :
    ∃ t ∈ r.tasks, t.id = event.task ∧ t.isOutstanding = true := by
  obtain ⟨t, task⟩ := h.known event (by simp [channel])
  have news := r.news_cons rest task t.host
  rw [if_pos rfl, ← channel] at news
  have settles := h.settles t.host
  rw [news] at settles
  generalize owed : r.owed t.host = commands at settles
  cases settles with
  | began | ended =>
    obtain ⟨t', ht', _, out, _, id, _⟩ := mirrors.task_of_owed (owed ▸ List.mem_cons_self)
    exact ⟨t', ht', id, out⟩

end Run

-- ---------------------------------------------------------------------------
-- Reckoning
-- ---------------------------------------------------------------------------

/-- The worker `w` at position `k` carries a task out: it made `sent` calls for the command `c`, and with
those that it repeated the retries of the task account for all `calls`. -/
structure Task.Carried (t : Task) (calls : List (Nat × UInt32)) (limit manual k : Nat) (w : Worker)
    (c : TaskCommand) (sent : Nat) : Prop where
  progress : w.Sent limit c sent
  accounted : t.retryCount + .ofNat (sent - 1) = .ofNat (Engine.redispatches calls + manual)
  own : Engine.attemptsBy k calls = Engine.consecutive (t.retryCount + 1) sent
  ledger : Engine.Ledger calls limit manual sent

/-- A worker that carries a task out sends its command: it may make the call, and the attempt is the next one. -/
theorem Task.Carried.called {t : Task} {calls : List (Nat × UInt32)} {limit manual k sent : Nat} {w : Worker}
    {c : TaskCommand} (carried : t.Carried calls limit manual k w c sent) {e : Engine} {f : Engine.Effect}
    {retries : UInt32} (sending : Engine.Calls e k w f retries c) (attempt : c.attempt = t.retryCount + 1) :
    sent = retries.toNat ∧
      t.Carried ((k, c.attempt + retries) :: calls) limit manual k f.worker c (sent + 1) := by
  have before := carried.progress
  rw [Worker.Sent, if_pos sending.command] at before
  obtain ⟨rfl, allowed, after⟩ := sending.sent before
  have next : c.attempt + retries = t.retryCount + 1 + .ofNat retries.toNat := by
    rw [attempt, UInt32.ofNat_toNat]
  have own : (Engine.attemptsBy k calls).length = retries.toNat := by
    rw [carried.own, Engine.consecutive_length]
  obtain ⟨ledger, accounted⟩ := carried.ledger.call allowed own carried.accounted
  rw [next]
  refine ⟨rfl, ?_, accounted, ?_, ledger⟩
  · rw [Worker.Sent, sending.commands, if_pos sending.command]
    exact after
  · rw [Engine.attemptsBy_cons, if_pos rfl, carried.own, Engine.consecutive_succ]

/-- What a worker accounts for depends on the retries of the task. -/
theorem Task.Carried.congr {t t' : Task} {calls : List (Nat × UInt32)} {limit manual k sent : Nat}
    {w w' : Worker} {c : TaskCommand} (carried : t.Carried calls limit manual k w c sent)
    (retries : t'.retryCount = t.retryCount) (progress : w'.Sent limit c sent) :
    t'.Carried calls limit manual k w' c sent :=
  ⟨progress, by rw [retries, carried.accounted], by rw [retries, carried.own], carried.ledger⟩

/-- The worker `w` at position `k` carries out the task of the command `c`, which is outstanding, or was skipped
since. -/
def Run.Pending (r : Run) (calls : Nat → List (Nat × UInt32)) (limit : Nat) (manual : Nat → Nat) (k : Nat)
    (w : Worker) (c : TaskCommand) : Prop :=
  ∃ t ∈ r.tasks, t.id = c.taskId ∧ (t.isOutstanding = true ∨ t.status = .skipped) ∧
    c.attempt = t.retryCount + 1 ∧ ∃ sent, t.Carried (calls t.id) limit (manual t.id) k w c sent

namespace Run.Pending

variable {r : Run} {calls : Nat → List (Nat × UInt32)} {limit k : Nat} {manual : Nat → Nat} {w : Worker}
  {c : TaskCommand} (h : r.Pending calls limit manual k w c)
include h

/-- The worker may go on as long as no call for the task is made. -/
theorem keep {calls' : Nat → List (Nat × UInt32)} (same : calls' c.taskId = calls c.taskId) {w' : Worker}
    (progress : ∀ sent, w.Sent limit c sent → w'.Sent limit c sent) :
    r.Pending calls' limit manual k w' c := by
  obtain ⟨t, ht, id, going, attempt, sent, carried⟩ := h
  refine ⟨t, ht, id, going, attempt, sent, ?_⟩
  rw [id, same, ← id]
  exact carried.congr rfl (progress sent carried.progress)

/-- What is pending when the run is archived stays pending, though its task is skipped. -/
theorem skipRest (now : Timestamp) (reason : String) :
    (r.skipRest now reason).Pending calls limit manual k w c := by
  obtain ⟨t, ht, id, going, attempt, sent, carried⟩ := h
  have same : (t.skipped now).id = t.id := congrArg Prod.snd t.skipped_origin
  have retries : (t.skipped now).retryCount = t.retryCount := by
    unfold Task.skipped
    split <;> rfl
  have ended : (t.skipped now).status = .skipped := by
    obtain out | skipped := going
    · simp [Task.skipped, isTerminal_of_isOutstanding out]
    · simp [Task.skipped, skipped, TaskStatus.isTerminal]
  refine ⟨t.skipped now, List.mem_map_of_mem ht, same.trans id, .inr ended, ?_, sent, ?_⟩
  · rw [attempt, retries]
  · rw [same]
    exact carried.congr retries carried.progress

end Run.Pending

/-- The calls for a task are accounted for, wherever its trace is. It was put back in the queue `manual`
times, and a worker makes at most `limit` calls for a command. -/
inductive Run.Reckoned (r : Run) (workers : List Worker) (i : Nat) (channel : List TaskEvent)
    (calls : List (Nat × UInt32)) (limit manual : Nat) (t : Task) : Prop
  /-- Nobody carries the task out. -/
  | idle {sent : Nat} (rests : t.isOutstanding = false) (fresh : t.status = .pending → sent = 0)
      (accounted : t.retryCount = .ofNat (Engine.redispatches calls + manual))
      (ledger : Engine.Ledger calls limit manual sent)
  /-- A worker of the run carries it out. -/
  | held {k sent : Nat} {w : Worker} (out : t.isOutstanding = true) (worker : workers[k]? = some w)
      (mine : w.executor = i) (holds : r.command t ∈ w.commands)
      (carried : t.Carried calls limit manual k w (r.command t) sent)
  /-- The news that it is over wait. -/
  | told {sent : Nat} {outcome : TaskOutcome} (out : t.isOutstanding = true)
      (news : .finished t.id outcome ∈ channel)
      (accounted : t.retryCount + outcome.retries = .ofNat (Engine.redispatches calls + manual))
      (ledger : Engine.Ledger calls limit manual sent)

/-- What stays true of the calls for a task when its run is archived. -/
structure Task.Summed (t : Task) (calls : List (Nat × UInt32)) (limit manual : Nat) : Prop where
  ledger : ∃ sent, Engine.Ledger calls limit manual sent
  accounted : t.status.isTerminal = true → t.status ≠ .skipped →
    t.retryCount = .ofNat (Engine.redispatches calls + manual)

theorem Task.Summed.skipped {t : Task} {calls : List (Nat × UInt32)} {limit manual : Nat}
    (h : t.Summed calls limit manual) (now : Timestamp) : (t.skipped now).Summed calls limit manual := by
  unfold Task.skipped
  split
  · exact h
  · exact ⟨h.ledger, fun _ other => absurd rfl other⟩

namespace Run

variable {r r' : Run} {now : Timestamp} {x : Executor} {e : Engine} {i k limit : Nat} {w : Worker}
  {c : TaskCommand} {workers : List Worker} {channel : List TaskEvent} {calls : List (Nat × UInt32)}
  {t t' : Task}

namespace Reckoned

section Single

variable {manual : Nat} (h : r.Reckoned workers i channel calls limit manual t)
include h

theorem summed : t.Summed calls limit manual := by
  cases h with
  | idle _ _ accounted ledger => exact ⟨⟨_, ledger⟩, fun _ _ => accounted⟩
  | held out _ _ _ carried =>
    exact ⟨⟨_, carried.ledger⟩, fun ended => by simp [isTerminal_of_isOutstanding out] at ended⟩
  | told out _ _ ledger =>
    exact ⟨⟨_, ledger⟩, fun ended => by simp [isTerminal_of_isOutstanding out] at ended⟩

/-- The task may change as long as its command does not, and it stays outstanding or not. -/
theorem congr (command : r'.command t' = r.command t) (retries : t'.retryCount = t.retryCount)
    (out : t'.isOutstanding = t.isOutstanding) (pending : t'.status = .pending → t.status = .pending) :
    r'.Reckoned workers i channel calls limit manual t' := by
  have id : t'.id = t.id := congrArg TaskCommand.taskId command
  cases h with
  | idle rests fresh accounted ledger =>
    exact .idle (out.trans rests) (fun is => fresh (pending is)) (retries.trans accounted) ledger
  | held was worker mine holds carried =>
    refine .held (out.trans was) worker mine (command ▸ holds) ⟨command ▸ carried.progress, ?_, ?_,
      carried.ledger⟩
    · rw [retries, carried.accounted]
    · rw [retries, carried.own]
  | told was news accounted ledger =>
    exact .told (out.trans was) (id ▸ news) (by rw [retries, accounted]) ledger

/-- Workers may go on as long as the one that carries the task out makes no call, and news may come. -/
theorem keep {workers' : List Worker} {channel' : List TaskEvent}
    (news : ∀ outcome, .finished t.id outcome ∈ channel → .finished t.id outcome ∈ channel')
    (holders : ∀ (k : Nat) w sent, workers[k]? = some w → w.executor = i → r.command t ∈ w.commands →
      w.Sent limit (r.command t) sent → ∃ w', workers'[k]? = some w' ∧ w'.executor = i ∧
        r.command t ∈ w'.commands ∧ w'.Sent limit (r.command t) sent) :
    r.Reckoned workers' i channel' calls limit manual t := by
  cases h with
  | idle rests fresh accounted ledger => exact .idle rests fresh accounted ledger
  | held out worker mine holds carried =>
    obtain ⟨w', worker', mine', holds', progress⟩ := holders _ _ _ worker mine holds carried.progress
    exact .held out worker' mine' holds' ⟨progress, carried.accounted, carried.own, carried.ledger⟩
  | told out told accounted ledger => exact .told out (news _ told) accounted ledger

end Single

/-- A worker that holds the command for a task carries it out. -/
theorem of_held {manual : Nat} (h : r.Reckoned e.workers i x.channel calls limit manual t)
    (account : r.Account x (e.crew i)) (mirrors : r.MirrorsPlan) (ht : t ∈ r.tasks)
    (hw : e.workers[k]? = some w) (mine : w.executor = i) (holds : c ∈ w.commands)
    (about : c.taskId = t.id) :
    t.isOutstanding = true ∧ r.command t = c ∧ ∃ sent, t.Carried calls limit manual k w c sent := by
  have member := Engine.mem_crew hw mine
  obtain ⟨t', _, task, out, _, _, command⟩ := mirrors.task_of_owed (account.owed_of_held member holds)
  rw [about, mirrors.task?_id ht] at task
  cases task
  refine ⟨out, command, ?_⟩
  cases h with
  | idle rests => simp [out] at rests
  | @held k' sent w' _ worker mine' holds' carried =>
    obtain ⟨rfl, _⟩ := account.only_holder mirrors hw mine holds worker mine' holds' about.symm
    cases hw.symm.trans worker
    exact ⟨sent, command ▸ carried⟩
  | told _ news => exact absurd (about ▸ news) (account.untold mirrors member holds)

/-- What a worker holds while its run is not archived is pending. -/
theorem pending {calls : Nat → List (Nat × UInt32)} {manual : Nat → Nat}
    (h : ∀ t ∈ r.tasks, r.Reckoned e.workers i x.channel (calls t.id) limit (manual t.id) t)
    (account : r.Account x (e.crew i)) (mirrors : r.MirrorsPlan) (hw : e.workers[k]? = some w)
    (mine : w.executor = i) (holds : c ∈ w.commands) : r.Pending calls limit manual k w c := by
  obtain ⟨t, ht, _, _, _, id, _⟩ := mirrors.task_of_owed
    (account.owed_of_held (Engine.mem_crew hw mine) holds)
  obtain ⟨out, same, carried⟩ := (h t ht).of_held account mirrors ht hw mine holds id.symm
  exact ⟨t, ht, id, .inl out, same ▸ rfl, carried⟩

end Reckoned

-- ---------------------------------------------------------------------------
-- Deeds
-- ---------------------------------------------------------------------------

section Deeds

variable {manual : Nat} {f : Engine.Effect} (hw : e.workers[k]? = some w) (mine : w.executor = i)

include hw mine

/-- A task whose command is not affected by a deed is carried out as before. -/
theorem Reckoned.spared (h : r.Reckoned e.workers i x.channel calls limit manual t)
    (deed : Engine.Deed e k w x f)
    (goes_on : ∀ sent, r.command t ∈ w.commands → w.Sent limit (r.command t) sent →
      r.command t ∈ f.worker.commands ∧ f.worker.Sent limit (r.command t) sent) :
    r.Reckoned (e.put k w f).workers i f.executor.channel calls limit manual t := by
  refine h.keep (fun _ news => deed.channel_subset news) fun j v sent hv mine' holds progress => ?_
  by_cases same : j = k
  · subst same
    cases hw.symm.trans hv
    exact ⟨f.worker, by rw [Engine.put_worker? hw, if_pos rfl], deed.executor_eq.trans mine,
      goes_on sent holds progress⟩
  · exact ⟨v, by rw [Engine.put_worker? hw, if_neg same, hv], mine', holds, progress⟩

variable (h : r.Reckoned e.workers i x.channel calls limit manual t) (account : r.Account x (e.crew i))
  (mirrors : r.MirrorsPlan) (ht : t ∈ r.tasks)

include h account mirrors ht

/-- A worker that calls for a task carries it out. -/
theorem Reckoned.called {retries : UInt32} (deed : Engine.Deed e k w x f)
    (sending : Engine.Calls e k w f retries c) (about : c.taskId = t.id) :
    r.Reckoned (e.put k w f).workers i f.executor.channel ((k, c.attempt + retries) :: calls) limit
      manual t := by
  have holds : c ∈ w.commands := List.mem_of_head? sending.command
  obtain ⟨out, rfl, sent, carried⟩ := h.of_held account mirrors ht hw mine holds about
  have here : (e.put k w f).workers[k]? = some f.worker := by rw [Engine.put_worker? hw, if_pos rfl]
  exact .held out here (deed.executor_eq.trans mine) (sending.commands ▸ holds)
    (carried.called sending rfl).2

/-- A worker that reports a task says how many calls it repeated. -/
theorem Reckoned.reported {outcome : TaskOutcome} (command : w.commands.head? = some c)
    (about : c.taskId = t.id) (phase : w.phase = .reporting outcome) (channel : f.executor.channel = x.channel ++ [.finished c.taskId outcome]) :
    r.Reckoned (e.put k w f).workers i f.executor.channel calls limit manual t := by
  have holds : c ∈ w.commands := List.mem_of_head? command
  obtain ⟨out, _, sent, carried⟩ := h.of_held account mirrors ht hw mine holds about
  have before := carried.progress
  rw [Worker.Sent, if_pos command, phase] at before
  obtain ⟨retries, _⟩ := before
  rw [channel, about]
  refine .told out (List.mem_append_right _ List.mem_cons_self) ?_ carried.ledger
  rw [retries, carried.accounted]

end Deeds

/-- A deed of a worker keeps the calls accounted for. -/
theorem Reckoned.deed {manual : Nat} {f : Engine.Effect}
    (h : r.Reckoned e.workers i x.channel (Engine.callsFor e.history r.id t.id) x.settings.callLimit
      manual t)
    (account : r.Account x (e.crew i)) (mirrors : r.MirrorsPlan) (ht : t ∈ r.tasks)
    (hw : e.workers[k]? = some w) (mine : w.executor = i) (tagged : ∀ c ∈ w.commands, c.runId = r.id)
    (deed : Engine.Deed e k w x f) :
    r.Reckoned (e.put k w f).workers i f.executor.channel
      (Engine.callsFor (e.put k w f).history r.id t.id) x.settings.callLimit manual t := by
  have behind {c : TaskCommand} (command : w.commands.head? = some c) (other : ¬ c.taskId = t.id) :
      w.commands.head? ≠ some (r.command t) := by
    rw [command]
    rintro same
    cases same
    exact other rfl
  cases deed.toil account.serving with
  | goesOn commands calls progress =>
    rw [calls]
    refine h.spared hw mine deed fun sent holds before => ?_
    rw [Worker.Sent, commands]
    refine ⟨holds, ?_⟩
    split
    next first =>
      rw [Worker.Sent, if_pos first] at before
      exact progress (List.ne_nil_of_mem holds) sent before
    next other => rwa [Worker.Sent, if_neg other] at before
  | @call retries c sending =>
    rw [sending.calls]
    by_cases about : c.taskId = t.id
    · rw [if_pos ⟨tagged c (List.mem_of_head? sending.command), about⟩]
      exact h.called hw mine account mirrors ht deed sending about
    · rw [if_neg fun both => about both.2]
      refine h.spared hw mine deed fun sent holds before => ?_
      rw [Worker.Sent, if_neg (behind sending.command about)] at before
      rw [Worker.Sent, sending.commands, if_neg (behind sending.command about)]
      exact ⟨holds, before⟩
  | @report outcome c phase command commands channel calls next =>
    rw [calls]
    by_cases about : c.taskId = t.id
    · exact h.reported hw mine account mirrors ht command about phase channel
    · refine h.spared hw mine deed fun sent holds before => ?_
      rw [Worker.Sent, if_neg (behind command about)] at before
      subst before
      obtain ⟨rest, held⟩ := List.head?_eq_some_iff.mp command
      rw [held] at holds commands
      refine ⟨commands ▸ (List.mem_cons.mp holds).resolve_left fun same => about (same ▸ rfl), ?_⟩
      rw [Worker.Sent, next]
      split <;> rfl

-- ---------------------------------------------------------------------------
-- Steps
-- ---------------------------------------------------------------------------

/-- The commands of a step are those of their tasks, so no two are for one task. -/
theorem MirrorsPlan.step_command (h : r.MirrorsPlan) {commands : List TaskCommand}
    (stepped : r.step now = (r', .ok commands)) {c' : TaskCommand} (hc : c ∈ commands)
    (hc' : c' ∈ commands) (same : c'.taskId = c.taskId) : c' = c := by
  have answered : (r.step now).2 = .ok commands := by rw [stepped]
  obtain ⟨t, task, command, _⟩ := h.step_attempt answered c hc
  obtain ⟨t', task', command', _⟩ := h.step_attempt answered c' hc'
  rw [same, task] at task'
  cases task'
  exact command'.symm.trans command

/-- A step hands tasks out to workers that made no calls yet. -/
theorem Reckoned.step {calls : Nat → List (Nat × UInt32)} (manual : Nat → Nat)
    {commands : List TaskCommand}
    (h : ∀ t ∈ r.tasks, r.Reckoned workers i channel (calls t.id) limit (manual t.id) t)
    (stepped : r.step now = (r', .ok commands))
    (unused : ∀ k, workers.length ≤ k → ∀ id, Engine.attemptsBy k (calls id) = []) :
    ∀ t ∈ r'.tasks, r'.Reckoned (workers ++ Engine.starters i commands) i channel (calls t.id) limit
      (manual t.id) t := by
  have charter : r'.charter = r.charter := by
    have := step_charter r now
    rwa [stepped] at this
  have keep {t : Task} (ht : t ∈ r.tasks) :
      r'.Reckoned (workers ++ Engine.starters i commands) i channel (calls t.id) limit (manual t.id) t := by
    have grown : r.Reckoned (workers ++ Engine.starters i commands) i channel (calls t.id) limit
        (manual t.id) t := (h t ht).keep (fun _ news => news) fun k w _ hw mine holds progress =>
      ⟨w, by rw [List.getElem?_append_left (List.getElem?_eq_some_iff.mp hw).1, hw], mine, holds, progress⟩
    exact grown.congr (command_congr charter t) rfl rfl fun pending => pending
  obtain ⟨_, tasks⟩ | ⟨cursor, tasks, given⟩ := step_tasks r now
  · rw [stepped] at tasks
    rw [tasks]
    exact fun t ht => keep ht
  · rw [stepped] at tasks given
    have given := Except.ok.inj given
    rw [tasks]
    intro t' ht'
    obtain ⟨t, ht, rfl⟩ := List.mem_map.mp ht'
    split
    next test =>
      have pending : t.status = .pending := of_decide_eq_true (Bool.and_eq_true_iff.mp test).2
      have handed_out : r.command t ∈ commands := by
        rw [given]
        exact List.mem_map_of_mem (List.mem_filter.mpr ⟨ht, test⟩)
      obtain ⟨w, hw, holds⟩ := Engine.exists_starter i handed_out
      obtain ⟨mine, spawned, _⟩ := Engine.mem_starters hw
      obtain ⟨j, hj⟩ := List.mem_iff_getElem?.mp hw
      have same : r'.command t.queued = r.command t := command_congr charter t.queued
      cases h t ht with
      | idle _ fresh accounted ledger =>
        cases fresh pending
        refine .held rfl (k := workers.length + j) (by rw [List.getElem?_append_right (by omega),
          Nat.add_sub_cancel_left, hj]) mine (same ▸ holds) ⟨?_, ?_, ?_, ledger⟩
        · rw [Worker.Sent, spawned]
          split <;> rfl
        · exact (UInt32.add_zero _).trans accounted
        · exact unused _ (Nat.le_add_right ..) _
      | held out | told out => simp [Task.isOutstanding, pending] at out
    · exact keep ht

-- ---------------------------------------------------------------------------
-- Inputs
-- ---------------------------------------------------------------------------

/-- A run adds up what its workers say. -/
theorem Reckoned.take {calls : Nat → List (Nat × UInt32)} {manual : Nat → Nat}
    (h : ∀ t ∈ r.tasks, r.Reckoned e.workers i x.channel (calls t.id) limit (manual t.id) t)
    (account : r.Account x (e.crew i)) (mirrors : r.MirrorsPlan) (live : r.state.isTerminal = false)
    {event : TaskEvent} {rest : List TaskEvent} (channel : x.channel = event :: rest)
    (applied : r.apply now event = (r', .ok ())) :
    ∀ t ∈ r'.tasks, r'.Reckoned e.workers i rest (calls t.id) limit (manual t.id) t := by
  have taken := apply_applied r now event
  rw [applied] at taken
  have charter : r'.charter = r.charter := taken.charter
  obtain ⟨t₀, ht₀, about, out⟩ := account.head_outstanding mirrors channel
  have only {t : Task} (ht : t ∈ r.tasks) (mine : t.id = t₀.id) : t = t₀ :=
    Option.some.inj ((mirrors.task?_id ht).symm.trans (mine ▸ mirrors.task?_id ht₀))
  -- The event is about one task, and the others are as before.
  have other {t : Task} (ht : t ∈ r.tasks)
      (elsewhere : ∀ outcome, .finished t.id outcome ≠ event) :
      r.Reckoned e.workers i rest (calls t.id) limit (manual t.id) t := by
    refine (h t ht).keep (fun outcome news => ?_) fun k w _ hw mine holds progress =>
      ⟨w, hw, mine, holds, progress⟩
    rw [channel] at news
    exact (List.mem_cons.mp news).resolve_left (elsewhere outcome)
  cases taken with
  | dropped archived => simp [live] at archived
  | @begun id attempt =>
    intro t' ht'
    simp only [touch, mirrors.modifyTask_tasks] at ht'
    obtain ⟨t, ht, rfl⟩ := List.mem_map.mp ht'
    have kept := other ht (by simp)
    split
    next here =>
      cases only ht (here.trans about.symm)
      exact kept.congr (command_congr charter _) rfl out.symm (by simp [Task.begun])
    · exact kept.congr (command_congr charter t) rfl rfl fun pending => pending
  | @ended id outcome _ _ _ _ _ final =>
    intro t' ht'
    simp only [touch, mirrors.modifyTask_tasks] at ht'
    obtain ⟨t, ht, rfl⟩ := List.mem_map.mp ht'
    split
    next here =>
      cases only ht (here.trans about.symm)
      have rests : (t₀.ended now outcome).isOutstanding = false := not_isOutstanding_of_isTerminal final
      have fresh : (t₀.ended now outcome).status ≠ .pending := fun pending => by
        rw [show outcome.status = .pending from pending] at final
        cases final
      cases h t₀ ht with
      | idle was => simp [out] at was
      | held _ worker mine holds =>
        have member := Engine.mem_crew worker mine
        have told : .finished (r.command t₀).taskId outcome ∈ x.channel := by
          rw [channel]
          exact here ▸ List.mem_cons_self
        exact absurd told (account.untold mirrors member holds)
      | @told _ outcome' _ news accounted ledger =>
        obtain said | again := List.mem_cons.mp (channel ▸ news)
        · cases said
          exact .idle rests (fun pending => absurd pending fresh) accounted ledger
        · exact absurd again (account.told_once mirrors ht (here ▸ channel))
    next there =>
      have kept := other ht fun _ said => by
        cases said
        exact there rfl
      exact kept.congr (command_congr charter t) rfl rfl fun pending => pending

section Inputs

variable {calls : Nat → List (Nat × UInt32)} {manual : Nat → Nat}
  (h : ∀ t ∈ r.tasks, r.Reckoned workers i channel (calls t.id) limit (manual t.id) t)
include h

theorem Reckoned.of_tasks (charter : r'.charter = r.charter) (tasks : r'.tasks = r.tasks) :
    ∀ t ∈ r'.tasks, r'.Reckoned workers i channel (calls t.id) limit (manual t.id) t := by
  rw [tasks]
  exact fun t ht => (h t ht).congr (command_congr charter t) rfl rfl fun pending => pending

/-- A retry is counted where it puts a task back in the queue. -/
theorem Reckoned.retry (mirrors : r.MirrorsPlan) :
    ∀ t ∈ (r.retry now).1.tasks, (r.retry now).1.Reckoned workers i channel (calls t.id) limit
      (manual t.id + if r.reopens t.id .retry then 1 else 0) t := by
  by_cases holding : r.state = .holding
  · rw [retry_of_holding holding]
    have charter : (r.requeue now).charter = r.charter := (Order.requeue holding).charter
    intro t' ht'
    obtain ⟨t, ht, rfl⟩ := List.mem_map.mp ht'
    have reopened := mirrors.reopens_retry holding ht
    split
    next test =>
      have counts : r.reopens t.requeued.id .retry = true := reopened.trans test
      rw [if_pos counts]
      have failed : t.status.isFailure = true := (Bool.and_eq_true_iff.mp test).2
      cases h t ht with
      | idle _ _ accounted ledger =>
        have once_more := congrArg (· + (1 : UInt32)) accounted
        refine .idle rfl (fun _ => rfl) ?_ ledger.requeue
        rw [← Nat.add_assoc, UInt32.ofNat_add (_ + _)]
        exact once_more
      | held out | told out =>
        cases status : t.status <;> simp [status, Task.isOutstanding, TaskStatus.isFailure] at out failed
    next test =>
      have counts : r.reopens t.id .retry = false := reopened.trans (Bool.eq_false_iff.mpr test)
      rw [counts]
      exact (h t ht).congr (command_congr charter t) rfl rfl fun pending => pending
  · have refused : (r.retry now).1 = r := by simp [Run.retry, holding, refuse]
    have unmoved (id : Nat) : r.reopens id .retry = false := by simp [reopens, holding]
    rw [refused]
    intro t ht
    rw [unmoved]
    exact h t ht

/-- What a command of a client makes of a run: the calls stay accounted for, or it archives the run. -/
theorem Reckoned.control (mirrors : r.MirrorsPlan) (live : r.state.isTerminal = false) (c : Control) :
    ((c.apply now r).1.state.isTerminal = false ∧
      ∀ t ∈ (c.apply now r).1.tasks, (c.apply now r).1.Reckoned workers i channel (calls t.id) limit
        (manual t.id + if r.reopens t.id c.call then 1 else 0) t) ∨
    (∀ id, r.reopens id c.call = false) ∧ ∃ reason, (c.apply now r).1 = r.skipRest now reason := by
  have charter := orders_charter (c.order now r)
  have going (other : ∀ reason, c ≠ .abort reason) : (c.apply now r).1.state.isTerminal = false :=
    Bool.eq_false_iff.mpr fun archived => (c.eq_abort live archived).elim other
  cases c with
  | retry => exact .inl ⟨going (by simp), Reckoned.retry h mirrors⟩
  | suspend =>
    refine .inl ⟨going (by simp), Reckoned.of_tasks h charter ?_⟩
    simp only [Control.apply, suspend]
    split
    · exact enter_tasks ..
    · exact enter_tasks ..
    · rfl
  | resume =>
    refine .inl ⟨going (by simp), Reckoned.of_tasks h charter ?_⟩
    simp only [Control.apply, resume]
    split
    · exact enter_tasks ..
    · exact enter_tasks ..
    · rfl
  | abort reason => exact .inr ⟨fun _ => rfl, reason, congrArg Prod.fst (abort_of_live live)⟩

end Inputs

end Run

end Rollout
