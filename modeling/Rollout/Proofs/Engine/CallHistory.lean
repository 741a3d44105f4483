-- SUMMARY: What the history of an engine tells about calls: who began them, that they ended, and which were answered well.
import Rollout.Proofs.Engine.Exclusion

/-!
# The history of calls

A history lists what happened, the latest first, and it only grows: `entry :: past <:+ history` says that
the entry was recorded when the history was `past`. `Engine.Growth` lists the ways in which a move makes
it grow. Either no call begins, or a worker sends the command that it announced, and then no other call to
its host is in flight.
-/
namespace Rollout

/-- The call of a worker ends here: the agent answers, or the call took too long. -/
def Entry.EndsCall (worker : Nat) (entry : Entry) : Prop :=
  match entry.happening with
  | .callEnded i .. => i = worker
  | .callExpired i _ => i = worker
  | _ => False

namespace Engine

/-- What a longer history tells was told before, or it is new, and all of the old history is past. -/
theorem told_or_new {later old past : List Entry} {entry : Entry}
    (h : entry :: past <:+ later ++ old) :
    entry :: past <:+ old ∨ (entry ∈ later ∧ old <:+ past) := by
  induction later with
  | nil => exact .inl h
  | cons p later ih =>
    obtain same | before := List.suffix_cons_iff.mp h
    · cases same
      exact .inr ⟨List.mem_cons_self, List.suffix_append ..⟩
    · exact (ih before).imp_right fun ⟨new, past⟩ => ⟨List.mem_cons_of_mem _ new, past⟩

/-! ## Growth -/

/-- The worker `w` at position `i` announced the command that comes first, and sends it next. -/
inductive Sends (e : Engine) (i : Nat) (w : Worker) (x : Executor) : TaskCommand → Prop
  | mk {retries : UInt32} {c : TaskCommand} (worker : e.workers[i]? = some w)
      (executor : e.executors[w.executor]? = some x) (phase : w.phase = .announced retries)
      (command : w.commands.head? = some c) :
      Sends e i w x { c with attempt := c.attempt + retries }

theorem Sends.worker? {e : Engine} {i : Nat} {w : Worker} {x : Executor} {c : TaskCommand}
    (sends : Sends e i w x c) : e.workers[i]? = some w := by
  obtain ⟨worker, _⟩ := sends
  exact worker

theorem Sends.executor? {e : Engine} {i : Nat} {w : Worker} {x : Executor} {c : TaskCommand}
    (sends : Sends e i w x c) : e.executors[w.executor]? = some x := by
  obtain ⟨_, executor, _⟩ := sends
  exact executor

/-- How the history grows from `e` to `e'`. -/
inductive Growth (e e' : Engine) : Prop
  /-- No call begins. -/
  | still (later : List Entry) (history : e'.history = later ++ e.history)
      (calls : ∀ entry ∈ later, ∀ k c, entry.happening ≠ .callBegan k c)
  /-- A worker sends the command that it announced. -/
  | call {i : Nat} {w : Worker} {x : Executor} {c : TaskCommand} (sends : Sends e i w x c)
      (history : e'.history = ⟨e.now, w.host, .callBegan i c⟩ :: e.history)

variable {e e' : Engine} {i : Nat} {w : Worker} {x : Executor} {c : TaskCommand}

namespace Growth

theorem of_same (history : e'.history = e.history) : Growth e e' :=
  .still [] history (by simp)

theorem of_quiet (q : Quiet e e') : Growth e e' := by
  obtain ⟨pings, history, all⟩ := q.history
  refine .still pings history fun p hp k c => ?_
  obtain ⟨registry, request, ping⟩ := all p hp
  simp [ping]

theorem of_deed {f : Effect} (hw : e.workers[i]? = some w) (hx : e.executors[w.executor]? = some x)
    (deed : Deed e i w x f) : Growth e (e.put i w f) := by
  cases deed with
  | call phase command => exact .call (.mk hw hx phase command) rfl
  | announce | answer | expire | report => exact .still [_] rfl (by simp)
  | arrive | leave | lock | settle | knock | pass | turnBack | giveUp | conclude =>
    exact .of_same rfl

theorem of_step? (housed : e.Housed) {m : Move} (moved : e.step? m = some e') : Growth e e' := by
  obtain quiet | ⟨i, w, x, f, hw, hx, deed, rfl⟩ := step?_deed housed moved
  · exact of_quiet quiet
  · exact of_deed hw hx deed

/-- The history only grows, and each call that begins is the command of a worker that sends it. -/
theorem append (g : Growth e e') : ∃ later, e'.history = later ++ e.history ∧
    ∀ entry ∈ later, ∀ k c, entry.happening = .callBegan k c → ∃ w x, Sends e k w x c := by
  cases g with
  | still later history calls =>
    exact ⟨_, history, fun entry hentry k c call => absurd call (calls entry hentry k c)⟩
  | @call i w x c sends history =>
    refine ⟨[_], history, fun entry hentry k c' call => ?_⟩
    obtain rfl := List.mem_singleton.mp hentry
    cases call
    exact ⟨w, x, sends⟩

/-- A call was recorded before, or is recorded now. -/
theorem recorded (g : Growth e e') {entry : Entry} {past : List Entry}
    (call : entry.happening = .callBegan i c) (h : entry :: past <:+ e'.history) :
    entry :: past <:+ e.history ∨ ∃ w x, Sends e i w x c ∧
      entry = ⟨e.now, w.host, .callBegan i c⟩ ∧ past = e.history := by
  cases g with
  | still later history calls =>
    rw [history] at h
    exact .inl ((told_or_new h).resolve_right fun ⟨new, _⟩ => calls entry new i c call)
  | @call j w x c' sends history =>
    rw [history] at h
    obtain same | before := List.suffix_cons_iff.mp h
    · cases same
      cases call
      exact .inr ⟨w, x, sends, rfl, rfl⟩
    · exact .inl before

end Growth

/-! ## Announcements -/

/-- The worker `w` at position `k` announces the command that it sends next. -/
structure Announces (e e' : Engine) (k : Nat) (w : Worker) (c : TaskCommand) : Prop where
  sending : ∃ retries, e.workers[k]? = some { w with phase := .sending retries }
  command : ∃ c' ∈ w.commands, c'.runId = c.runId ∧ c'.taskId = c.taskId
  heard : ∃ x, e.executors[w.executor]? = some x ∧ x.isReceived = true
  told : e'.history = ⟨e.now, w.host, .reported w.executor (.started c.taskId c.attempt)⟩ :: e.history

/-- From `e` to `e'` the worker at position `k` makes no call. -/
def Waits (e e' : Engine) (k : Nat) : Prop :=
  ∀ later, e'.history = later ++ e.history → ∀ entry ∈ later, ∀ c, entry.happening ≠ .callBegan k c

theorem Waits.of_same {k : Nat} (history : e'.history = e.history) : Waits e e' k := by
  intro later grown entry hentry
  rw [history, List.self_eq_append_left] at grown
  simp [grown] at hentry

/-- Who sends a command after quiet moves was about to send it before. -/
theorem Sends.of_quiet {k : Nat} {v : Worker} {y : Executor} (sends : Sends e' k v y c)
    (q : Quiet e e') : Sends e k v y c ∧ Waits e e' k := by
  obtain ⟨worker, executor, phase, command⟩ := sends
  refine ⟨.mk (q.workers ▸ worker) (q.executors ▸ executor) phase command, ?_⟩
  obtain ⟨pings, history, all⟩ := q.history
  intro later grown entry hentry c
  rw [history] at grown
  obtain ⟨registry, request, ping⟩ := all entry (List.append_cancel_right grown ▸ hentry)
  simp [ping]

/-- What a deed makes others observe is of its own worker, and of its executor as long as somebody
listens. -/
theorem Deed.observed {f : Effect} (deed : Deed e i w x f) :
    (∀ k c, .callBegan k c ∈ f.happenings → k = i) ∧
      ∀ k event, .reported k event ∈ f.happenings → k = w.executor ∧ x.isReceived = true := by
  cases deed with
  | announce _ _ heard | report _ _ heard => simp [heard]
  | call | answer | expire | arrive | leave | lock | settle | knock | pass | turnBack | giveUp
  | conclude => simp

/-- Who sends a command after a deed was about to send it before, unless the deed announces it. -/
theorem Sends.of_deed {f : Effect} {k : Nat} {v : Worker} {y : Executor} (hw : e.workers[i]? = some w)
    (hx : e.executors[w.executor]? = some x) (deed : Deed e i w x f) (sends : Sends (e.put i w f) k v y c) :
    (∃ y, Sends e k v y c ∧ Waits e (e.put i w f) k) ∨ Announces e (e.put i w f) k v c := by
  obtain @⟨retries, c, worker, executor, phase, command⟩ := sends
  rw [put_worker? hw] at worker
  rw [put_executor? hx] at executor
  split at worker
  next here =>
    subst here
    cases worker
    cases deed with
    | @announce retries c' before command' heard =>
      cases phase
      cases command.symm.trans command'
      have was : w = { w with phase := .sending retries } := by rw [← before]
      exact .inr ⟨⟨retries, was ▸ hw⟩, ⟨c, List.mem_of_head? command, rfl, rfl⟩, ⟨x, hx, heard⟩, rfl⟩
    | @conclude retries fault =>
      obtain ⟨_, again⟩ | ⟨_, _, ended⟩ := afterCall_cases x retries fault
      · cases again.symm.trans phase
      · cases ended.symm.trans phase
    | arrive | leave | lock | settle | knock | pass | turnBack | giveUp | call | answer | expire
    | report => cases phase
  next other =>
    have worked : ∃ y, e.executors[v.executor]? = some y := by
      split at executor
      next same => exact ⟨x, same ▸ hx⟩
      · exact ⟨y, executor⟩
    obtain ⟨y, executor⟩ := worked
    refine .inl ⟨y, .mk worker executor phase command, fun later grown entry hentry c' call => ?_⟩
    rw [← List.append_cancel_right grown] at hentry
    obtain ⟨happening, happens, rfl⟩ := List.mem_map.mp hentry
    exact other (deed.observed.1 k c' (call ▸ happens))

/-! ## Calls to a host -/

/-- A call that began and was not ended since is in flight. -/
theorem inFlight_of_open {between before : List Entry} {time : Nat} {host : String}
    (pending : ∀ entry ∈ between, ¬ entry.EndsCall i) :
    (i, host) ∈ callsInFlight (between ++ ⟨time, host, .callBegan i c⟩ :: before) := by
  induction between with
  | nil => exact List.mem_cons_self
  | cons entry between ih =>
    have ih := ih fun entry hentry => pending entry (List.mem_cons_of_mem _ hentry)
    have other := pending entry List.mem_cons_self
    obtain ⟨time', host', happening⟩ := entry
    cases happening with
    | callBegan => exact List.mem_cons_of_mem _ ih
    | callEnded j | callExpired j =>
      have ne : (i, host) ≠ (j, host') := fun same => other (Prod.mk.inj same).1.symm
      exact (List.mem_erase_of_ne ne).mpr ih
    | pinged | reported => exact ih

/-- A worker that sends its command has its host for itself. -/
theorem Guarded.alone (h : e.Guarded) (sends : Sends e i w x c) (j : Nat) :
    (j, w.host) ∉ callsInFlight e.history := by
  obtain ⟨hw, _, phase, _⟩ := sends
  intro flies
  obtain ⟨w', hw', at_host, calls⟩ := h.calling.mp flies
  have mine : e.lockHolder? w.host = some i := h.locked hw (by rw [phase]; rfl)
  have theirs : e.lockHolder? w'.host = some j :=
    h.locked hw' (Phase.hasLock_of_hasSlot (Phase.hasSlot_of_isCalling calls))
  rw [at_host, mine] at theirs
  cases theirs
  cases hw.symm.trans hw'
  simp [phase, Phase.isCalling] at calls

/-- At most one worker is about to send a command to a host. -/
theorem Guarded.one_sender (h : e.Guarded) (sends : Sends e i w x c) {j : Nat} {v : Worker} {y : Executor}
    {c' : TaskCommand} (sends' : Sends e j v y c') (same : v.host = w.host) : c' = c := by
  obtain ⟨hw, _, phase, command⟩ := sends
  obtain ⟨hv, _, phase', command'⟩ := sends'
  have mine : e.lockHolder? w.host = some i := h.locked hw (by rw [phase]; rfl)
  have theirs : e.lockHolder? v.host = some j := h.locked hv (by rw [phase']; rfl)
  rw [same, mine] at theirs
  cases theirs
  cases hw.symm.trans hv
  cases phase.symm.trans phase'
  cases command.symm.trans command'
  rfl

/-- Whenever a call to a host begins, no other one is in flight. -/
def Exclusive (history : List Entry) : Prop :=
  ∀ entry past k c, entry.happening = .callBegan k c → entry :: past <:+ history →
    ∀ j, (j, entry.host) ∉ callsInFlight past

theorem Growth.exclusive (g : Growth e e') (h : e.Guarded) (before : Exclusive e.history) :
    Exclusive e'.history := by
  intro entry past i c call recorded j
  obtain old | ⟨w, x, sends, rfl, rfl⟩ := g.recorded call recorded
  · exact before entry past i c call old j
  · exact h.alone sends j

/-! ## Successes -/

/-- A call for a task of a run was answered well: its worker had sent the command, and then the agent
answered without a fault. -/
def Succeeded (history : List Entry) (run : RunId) (task : Nat) : Prop :=
  ∃ worker answer past, answer :: past <:+ history ∧
    answer.happening = .callEnded worker task none ∧
    ∃ sent ∈ past, ∃ c, sent.happening = .callBegan worker c ∧ c.runId = run ∧ c.taskId = task

variable {history later : List Entry} {run : RunId} {task : Nat}

/-- Without a good answer nothing succeeds. -/
theorem Succeeded.of_append (later : List Entry) (h : Succeeded (later ++ history) run task)
    (silent : ∀ entry ∈ later, ∀ k id, entry.happening ≠ .callEnded k id none) :
    Succeeded history run task := by
  obtain ⟨worker, answer, past, told, good, sent⟩ := h
  obtain old | ⟨new, _⟩ := told_or_new told
  · exact ⟨worker, answer, past, old, good, sent⟩
  · exact absurd good (silent answer new worker task)

theorem Quiet.succeeded (q : Quiet e e') (h : Succeeded e'.history run task) :
    Succeeded e.history run task := by
  obtain ⟨pings, history, all⟩ := q.history
  rw [history] at h
  refine h.of_append pings fun p hp k id => ?_
  obtain ⟨registry, request, ping⟩ := all p hp
  simp [ping]

/-- What succeeds at a deed is the first command of a worker that waits for the answer to it. -/
theorem Deed.succeeded {f : Effect} (deed : Deed e i w x f)
    (h : Succeeded (e.put i w f).history run task) :
    Succeeded e.history run task ∨ w.phase.isCalling = true ∧
      (∃ c retries, w.commands.head? = some c ∧ c.taskId = task ∧
        f.worker = { w with phase := .called retries none }) ∧
      ∃ sent ∈ e.history, ∃ c, sent.happening = .callBegan i c ∧ c.runId = run := by
  cases deed with
  | @answer retries _ _ c fault phase command =>
    obtain ⟨worker, answer, past, told, good, sent, before, c', call, same, _⟩ := h
    obtain new | old := List.suffix_cons_iff.mp told
    · cases new
      cases good
      exact .inr ⟨by rw [phase]; rfl, ⟨c, retries, command, rfl, rfl⟩, sent, before, c', call, same⟩
    · exact .inl ⟨worker, answer, past, old, good, sent, before, c', call, same, ‹_›⟩
  | announce | call | expire | report => exact .inl (Succeeded.of_append [_] h (by simp))
  | arrive | leave | lock | settle | knock | pass | turnBack | giveUp | conclude => exact .inl h

end Engine

end Rollout
