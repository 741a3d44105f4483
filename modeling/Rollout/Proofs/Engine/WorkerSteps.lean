-- SUMMARY: What the moves of an engine do: the deeds of its workers, and what leaves the workers alone.
import Rollout.Engine.Move

/-!
# Steps of workers

A move of an engine is quiet, when it is about inquiries, supervisors or the time, or it is a deed of
one worker. `Engine.Deed` lists the deeds, each with its guard and with all that it leaves behind. An
invariant of quiet moves and of deeds is an invariant of all moves.
-/
namespace Rollout.Engine

/-! ## Quiet moves -/

/-- Workers, executors and locks are as before, and others can observe pings at most. -/
structure Quiet (e e' : Engine) : Prop where
  workers : e'.workers = e.workers
  executors : e'.executors = e.executors
  lockOrder : e'.lockOrder = e.lockOrder
  history : ∃ pings, e'.history = pings ++ e.history ∧
    ∀ p ∈ pings, ∃ registry request, p.happening = .pinged registry request

namespace Quiet

theorem of_same {e e' : Engine} (workers : e'.workers = e.workers)
    (executors : e'.executors = e.executors) (lockOrder : e'.lockOrder = e.lockOrder)
    (history : e'.history = e.history) : Quiet e e' :=
  ⟨workers, executors, lockOrder, [], history, by simp⟩

theorem refl (e : Engine) : Quiet e e := of_same rfl rfl rfl rfl

theorem trans {e₁ e₂ e₃ : Engine} (h : Quiet e₁ e₂) (h' : Quiet e₂ e₃) : Quiet e₁ e₃ := by
  obtain ⟨pings, past, all⟩ := h.history
  obtain ⟨pings', past', all'⟩ := h'.history
  refine ⟨h'.workers.trans h.workers, h'.executors.trans h.executors,
    h'.lockOrder.trans h.lockOrder, pings' ++ pings, by simp [past', past], ?_⟩
  intro p hp
  obtain hp | hp := List.mem_append.mp hp
  · exact all' p hp
  · exact all p hp

end Quiet

theorem ask_quiet (i : Nat) (q : Inquiry) (question : Question) (e : Engine) :
    Quiet e (e.ask i q question) := by
  unfold ask
  split
  · exact .refl e
  · split
    · exact .of_same rfl rfl rfl rfl
    · dsimp only
      split <;> exact .of_same rfl rfl rfl rfl

theorem inquire?_quiet {i : Nat} {e e' : Engine} (h : e.inquire? i = some e') : Quiet e e' := by
  simp only [inquire?, Option.bind_eq_bind, Option.bind_eq_some_iff] at h
  obtain ⟨q, _, h⟩ := h
  split at h
  · cases h
    exact ask_quiet ..
  · obtain ⟨registry, _, h⟩ := Option.bind_eq_some_iff.mp h
    split at h
    · cases h
      exact ask_quiet ..
    · cases h
      exact .of_same rfl rfl rfl rfl
  all_goals exact absurd h (by simp)

theorem deliver_quiet (answer : Nat × Option Session) (e : Engine) :
    Quiet e (e.deliver answer) := by
  unfold deliver
  split
  split
  · split <;> exact .of_same rfl rfl rfl rfl
  · exact .refl e

theorem foldl_deliver_quiet (answers : List (Nat × Option Session)) (e : Engine) :
    Quiet e (answers.foldl (fun e answer => e.deliver answer) e) := by
  induction answers generalizing e with
  | nil => exact .refl e
  | cons answer answers ih => exact (deliver_quiet answer e).trans (ih (e.deliver answer))

theorem react_quiet {registry : Nat} {host : String}
    {act : ProbeSettings → Supervisor → Option Reaction} {e e' : Engine}
    (h : e.react registry host act = some e') : Quiet e e' := by
  simp only [react, Option.bind_eq_bind, Option.bind_eq_some_iff] at h
  obtain ⟨r, _, s, _, reaction, _, h⟩ := h
  have posted :
      Quiet e (e.modifyRegistry registry (·.setSupervisor host reaction.supervisor)) :=
    .of_same rfl rfl rfl rfl
  have answered := posted.trans (foldl_deliver_quiet reaction.answers _)
  split at h
  next request _ =>
    cases h
    refine answered.trans ⟨rfl, rfl, rfl, [⟨_, host, .pinged registry request⟩], rfl, ?_⟩
    simp
  · cases h
    exact answered

/-! ## Deeds of workers -/

/-- What a deed leaves behind: the worker, its executor, the order of locks, the inquiries that are
added, and what others can observe of it, the latest first. -/
structure Effect where
  worker : Worker
  executor : Executor
  lockOrder : List Nat
  inquiries : List Inquiry
  happenings : List Happening

/-- The engine after a deed of the worker `w` at position `i`. -/
def put (e : Engine) (i : Nat) (w : Worker) (f : Effect) : Engine :=
  { e with
    workers := e.workers.set i f.worker
    executors := e.executors.set w.executor f.executor
    lockOrder := f.lockOrder
    inquiries := e.inquiries ++ f.inquiries
    history := f.happenings.map (fun h => ⟨e.now, w.host, h⟩) ++ e.history }

/-- Why a worker leaves. -/
inductive Leaves (e : Engine) (i : Nat) (w : Worker) (x : Executor) : Prop
  | noSlots (phase : w.phase = .awaitingLock) (locked : e.lockHolder? w.host = some i)
      (closed : x.isOpen = false)
  | noSlot (phase : w.phase = .awaitingSlot) (slotless : i ∉ x.slotHolders)
      (closed : x.isOpen = false)
  | done (phase : w.phase = .choosing) (why : w.commands = [] ∨ x.isCancelled = true)
  | unheard {outcome : TaskOutcome} (phase : w.phase = .reporting outcome)
      (silent : x.isReceived = false)

/-- What the worker `w` at position `i`, which works for the executor `x`, may do. -/
inductive Deed (e : Engine) (i : Nat) (w : Worker) (x : Executor) : Effect → Prop
  /-- The worker queues for the lock of its host. -/
  | arrive (phase : w.phase = .spawned) :
      Deed e i w x ⟨{ w with phase := .awaitingLock }, x, e.lockOrder ++ [i], [], []⟩
  | leave (why : Leaves e i w x) :
      Deed e i w x ⟨{ w with phase := .gone }, { x with slotOrder := x.slotOrder.erase i },
        e.lockOrder.erase i, [], []⟩
  /-- The worker has the lock and queues for a slot. -/
  | lock (phase : w.phase = .awaitingLock) (locked : e.lockHolder? w.host = some i)
      (hopen : x.isOpen = true) :
      Deed e i w x ⟨{ w with phase := .awaitingSlot }, { x with slotOrder := x.slotOrder ++ [i] },
        e.lockOrder, [], []⟩
  /-- The worker has its slot. -/
  | settle (phase : w.phase = .awaitingSlot) (slotted : i ∈ x.slotHolders) :
      Deed e i w x ⟨{ w with phase := .choosing }, x, e.lockOrder, [], []⟩
  /-- The worker asks whether the host can be reached. -/
  | knock (phase : w.phase = .choosing) (busy : w.commands ≠ []) (going : x.isCancelled = false) :
      Deed e i w x ⟨{ w with phase := .atGate e.inquiries.length }, x, e.lockOrder,
        [⟨x.registry, w.host, .pass, .opening⟩], []⟩
  | pass {q registry : Nat} {host : String} {purpose : Purpose} {s : Session}
      (phase : w.phase = .atGate q)
      (passed : e.inquiries[q]? = some ⟨registry, host, purpose, .passed s⟩) :
      Deed e i w x ⟨{ w with phase := .sending 0 }, x, e.lockOrder, [], []⟩
  /-- The host cannot be reached. -/
  | turnBack {q registry : Nat} {host : String} {purpose : Purpose} {fault : Fault}
      (phase : w.phase = .atGate q)
      (refused : e.inquiries[q]? = some ⟨registry, host, purpose, .refused fault⟩) :
      Deed e i w x ⟨{ w with phase := .reporting (.failed fault 0) }, x, e.lockOrder, [], []⟩
  /-- Nobody hears the worker. -/
  | giveUp {retries : UInt32} {c : TaskCommand} (phase : w.phase = .sending retries)
      (command : w.commands.head? = some c) (silent : x.isReceived = false) :
      Deed e i w x ⟨{ w with phase := .reporting (.failed (.fatal "run driver is gone") retries) },
        x, e.lockOrder, [], []⟩
  /-- The worker says that it starts with its command. -/
  | announce {retries : UInt32} {c : TaskCommand} (phase : w.phase = .sending retries)
      (command : w.commands.head? = some c) (heard : x.isReceived = true) :
      Deed e i w x ⟨{ w with phase := .announced retries },
        { x with channel := x.channel ++ [.started c.taskId (c.attempt + retries)] },
        e.lockOrder, [], [.reported w.executor (.started c.taskId (c.attempt + retries))]⟩
  /-- The worker sends its command, whether it is still heard or not. -/
  | call {retries : UInt32} {c : TaskCommand} (phase : w.phase = .announced retries)
      (command : w.commands.head? = some c) :
      Deed e i w x
        ⟨{ w with phase := .calling retries e.history.length (e.now + x.settings.taskTimeoutMs) },
          x, e.lockOrder, [], [.callBegan i { c with attempt := c.attempt + retries }]⟩
  | answer {retries : UInt32} {call deadline : Nat} {c : TaskCommand} (fault : Option Fault)
      (phase : w.phase = .calling retries call deadline)
      (command : w.commands.head? = some c) :
      Deed e i w x ⟨{ w with phase := .called retries fault }, x, e.lockOrder, [],
        [.callEnded i c.taskId fault]⟩
  | expire {retries : UInt32} {call deadline : Nat} {c : TaskCommand}
      (phase : w.phase = .calling retries call deadline) (late : deadline ≤ e.now)
      (command : w.commands.head? = some c) :
      Deed e i w x ⟨{ w with phase := .called retries (some (timeoutFault w x)) }, x, e.lockOrder,
        [], [.callExpired i c.taskId]⟩
  /-- The worker sends its command again or is done with it. -/
  | conclude {retries : UInt32} {fault : Option Fault} (phase : w.phase = .called retries fault) :
      Deed e i w x ⟨{ w with phase := afterCall x retries fault }, x, e.lockOrder, [], []⟩
  | report {outcome : TaskOutcome} {c : TaskCommand} (phase : w.phase = .reporting outcome)
      (command : w.commands.head? = some c) (heard : x.isReceived = true) :
      Deed e i w x ⟨{ w with commands := w.commands.tail, phase := .choosing },
        { x with channel := x.channel ++ [.finished c.taskId outcome] }, e.lockOrder, [],
        [.reported w.executor (.finished c.taskId outcome)]⟩

namespace Deed

variable {e : Engine} {i : Nat} {w : Worker} {x : Executor} {f : Effect}

theorem executor_eq (deed : Deed e i w x f) : f.worker.executor = w.executor := by
  cases deed <;> rfl

theorem host_eq (deed : Deed e i w x f) : f.worker.host = w.host := by
  cases deed <;> rfl

theorem settings_eq (deed : Deed e i w x f) : f.executor.settings = x.settings := by
  cases deed <;> rfl

end Deed

-- ---------------------------------------------------------------------------
-- Phases
-- ---------------------------------------------------------------------------

theorem failed_isTerminal (fault : Fault) (retries : UInt32) :
    (TaskOutcome.failed fault retries).status.isTerminal = true := by
  unfold TaskOutcome.failed
  split <;> rfl

/-- After a call the command is sent again or its end is reported. -/
theorem afterCall_cases (x : Executor) (retries : UInt32) (fault : Option Fault) :
    (∃ again, afterCall x retries fault = .sending again) ∨
      ∃ outcome, outcome.status.isTerminal = true ∧
        afterCall x retries fault = .reporting outcome := by
  cases fault with
  | none => exact .inr ⟨_, rfl, rfl⟩
  | some fault =>
    simp only [afterCall]
    split
    · exact .inl ⟨_, rfl⟩
    · exact .inr ⟨_, failed_isTerminal fault retries, rfl⟩

-- ---------------------------------------------------------------------------
-- Moves
-- ---------------------------------------------------------------------------

theorem modify_eq_set {α : Type} {l : List α} {i : Nat} {a : α} {f : α → α}
    (h : l[i]? = some a) : l.modify i f = l.set i (f a) := by
  have : Inhabited α := ⟨a⟩
  rw [List.modify_eq_set, h, Option.getD_some]

theorem set_same {α : Type} {l : List α} {i : Nat} {a : α} (h : l[i]? = some a) :
    l.set i a = l := by
  obtain ⟨hi, rfl⟩ := List.getElem?_eq_some_iff.mp h
  exact List.set_getElem_self hi

section Moves

variable {e e' : Engine} {i : Nat} {w : Worker} {x : Executor}

/-- The engine after a deed that changes the worker alone. -/
theorem put_worker (hx : e.executors[w.executor]? = some x) (w' : Worker) :
    e.put i w ⟨w', x, e.lockOrder, [], []⟩ = { e with workers := e.workers.set i w' } := by
  simp [put, set_same hx]

theorem put_worker? (hw : e.workers[i]? = some w) (f : Effect) (j : Nat) :
    (e.put i w f).workers[j]? = if j = i then some f.worker else e.workers[j]? := by
  have inside : i < e.workers.length := (List.getElem?_eq_some_iff.mp hw).1
  simp [put, List.getElem?_set, inside, eq_comm]

theorem put_executor? (hx : e.executors[w.executor]? = some x) (f : Effect) (k : Nat) :
    (e.put i w f).executors[k]? = if k = w.executor then some f.executor else e.executors[k]? := by
  have inside : w.executor < e.executors.length := (List.getElem?_eq_some_iff.mp hx).1
  simp [put, List.getElem?_set, inside, eq_comm]

/-- What holds of all workers and of the changed one holds of all workers afterwards. -/
theorem forall_put {P : Worker → Prop} {f : Effect} (old : ∀ w ∈ e.workers, P w)
    (here : P f.worker) : ∀ w' ∈ (e.put i w f).workers, P w' := by
  intro w' hw'
  obtain hw' | rfl := List.mem_or_eq_of_mem_set hw'
  · exact old w' hw'
  · exact here

theorem enter_eq (hw : e.workers[i]? = some w) (hx : e.executors[w.executor]? = some x)
    (phase : Phase) :
    e.enter i phase = e.put i w ⟨{ w with phase := phase }, x, e.lockOrder, [], []⟩ := by
  rw [put_worker hx, enter, modifyWorker, modify_eq_set hw]

theorem leave_eq (hw : e.workers[i]? = some w) (hx : e.executors[w.executor]? = some x) :
    e.leave i w = e.put i w ⟨{ w with phase := .gone },
      { x with slotOrder := x.slotOrder.erase i }, e.lockOrder.erase i, [], []⟩ := by
  simp [leave, enter, modifyWorker, modifyExecutor, put, modify_eq_set hw, modify_eq_set hx]

/-! ### Moves of one worker -/

section Work

variable (hw : e.workers[i]? = some w) (hx : e.executors[w.executor]? = some x)
include hw hx

/-- A worker that has no slot yet gets a step nearer to it, or leaves. -/
theorem work?_queued (h : e.work? i = some e')
    (phase : w.phase = .spawned ∨ w.phase = .awaitingLock ∨ w.phase = .awaitingSlot) :
    ∃ f, Deed e i w x f ∧ e' = e.put i w f := by
  obtain phase | phase | phase := phase
  · simp only [work?, hw, hx, phase, Option.bind_eq_bind, Option.bind_some] at h
    cases h
    refine ⟨_, .arrive phase, ?_⟩
    simp [enter, modifyWorker, put, modify_eq_set hw, set_same hx]
  · simp only [work?, hw, hx, phase, Option.bind_eq_bind, Option.bind_some] at h
    split at h
    · cases h
    next locked =>
      have locked : e.lockHolder? w.host = some i := by simpa using locked
      split at h
      next closed =>
        cases h
        exact ⟨_, .leave (.noSlots phase locked (by simpa using closed)), leave_eq hw hx⟩
      next hopen =>
        cases h
        refine ⟨_, .lock phase locked (by simpa using hopen), ?_⟩
        simp [enter, modifyWorker, modifyExecutor, put, modify_eq_set hw, modify_eq_set hx]
  · simp only [work?, hw, hx, phase, Option.bind_eq_bind, Option.bind_some] at h
    split at h
    next slotted =>
      cases h
      exact ⟨_, .settle phase (by simpa using slotted), enter_eq hw hx _⟩
    next slotless =>
      split at h
      next closed =>
        cases h
        exact ⟨_, .leave (.noSlot phase (by simpa using slotless) (by simpa using closed)),
          leave_eq hw hx⟩
      · cases h

/-- A worker that comes to its next command asks for its host, unless it leaves. -/
theorem work?_choosing (h : e.work? i = some e') (phase : w.phase = .choosing) :
    ∃ f, Deed e i w x f ∧ e' = e.put i w f := by
  simp only [work?, hw, hx, phase, Option.bind_eq_bind, Option.bind_some] at h
  split at h
  next done =>
    cases h
    exact ⟨_, .leave (.done phase (by simpa using done)), leave_eq hw hx⟩
  next busy =>
    cases h
    obtain ⟨some_left, going⟩ : w.commands ≠ [] ∧ x.isCancelled = false := by simpa using busy
    refine ⟨_, .knock phase some_left going, ?_⟩
    simp [enter, modifyWorker, put, modify_eq_set hw, set_same hx]

/-- At the gate a worker goes on with its inquiry, or takes the result. -/
theorem work?_atGate {q : Nat} (h : e.work? i = some e') (phase : w.phase = .atGate q) :
    e.inquire? q = some e' ∨ ∃ f, Deed e i w x f ∧ e' = e.put i w f := by
  simp only [work?, hw, hx, phase, Option.bind_eq_bind, Option.bind_some] at h
  obtain ⟨inquiry, asked, h⟩ := Option.bind_eq_some_iff.mp h
  split at h
  · cases h
    exact .inr ⟨_, .pass phase asked, enter_eq hw hx _⟩
  · cases h
    exact .inr ⟨_, .turnBack phase asked, enter_eq hw hx _⟩
  · exact .inl h

/-- An attempt is announced first, and made then. -/
theorem work?_attempts {retries : UInt32} (h : e.work? i = some e')
    (phase : w.phase = .sending retries ∨ w.phase = .announced retries) :
    ∃ f, Deed e i w x f ∧ e' = e.put i w f := by
  obtain phase | phase := phase
  · simp only [work?, hw, hx, phase, Option.bind_eq_bind, Option.bind_some] at h
    obtain ⟨c, command, h⟩ := Option.bind_eq_some_iff.mp h
    cases h
    unfold announce
    split
    next silent =>
      exact ⟨_, .giveUp phase command (by simpa using silent), enter_eq hw hx _⟩
    next heard =>
      refine ⟨_, .announce phase command (by simpa using heard), ?_⟩
      simp [Engine.report, record, enter, modifyWorker, modifyExecutor, put, modify_eq_set hw,
        modify_eq_set hx]
  · simp only [work?, hw, hx, phase, Option.bind_eq_bind, Option.bind_some] at h
    obtain ⟨c, command, h⟩ := Option.bind_eq_some_iff.mp h
    cases h
    refine ⟨_, .call phase command, ?_⟩
    simp [send, record, enter, modifyWorker, put, modify_eq_set hw, set_same hx]

/-- After a call the worker decides how to go on. -/
theorem work?_called {retries : UInt32} {fault : Option Fault} (h : e.work? i = some e')
    (phase : w.phase = .called retries fault) : ∃ f, Deed e i w x f ∧ e' = e.put i w f := by
  simp only [work?, hw, hx, phase, Option.bind_eq_bind, Option.bind_some] at h
  cases h
  exact ⟨_, .conclude phase, enter_eq hw hx _⟩

/-- A worker reports how its command ended, unless nobody hears it. -/
theorem work?_reports {outcome : TaskOutcome} (h : e.work? i = some e')
    (phase : w.phase = .reporting outcome) : ∃ f, Deed e i w x f ∧ e' = e.put i w f := by
  simp only [work?, hw, hx, phase, Option.bind_eq_bind, Option.bind_some] at h
  split at h
  next silent =>
    cases h
    exact ⟨_, .leave (.unheard phase (by simpa using silent)), leave_eq hw hx⟩
  next heard =>
    obtain ⟨c, command, h⟩ := Option.bind_eq_some_iff.mp h
    cases h
    refine ⟨_, .report phase command (by simpa using heard), ?_⟩
    simp [Engine.report, record, modifyWorker, modifyExecutor, put, modify_eq_set hw,
      modify_eq_set hx]

theorem work?_deed (h : e.work? i = some e') :
    (∃ q, e.inquire? q = some e') ∨ ∃ f, Deed e i w x f ∧ e' = e.put i w f := by
  cases phase : w.phase with
  | spawned => exact .inr (work?_queued hw hx h (.inl phase))
  | awaitingLock => exact .inr (work?_queued hw hx h (.inr (.inl phase)))
  | awaitingSlot => exact .inr (work?_queued hw hx h (.inr (.inr phase)))
  | choosing => exact .inr (work?_choosing hw hx h phase)
  | atGate q => exact (work?_atGate hw hx h phase).imp_left fun inquired => ⟨q, inquired⟩
  | sending => exact .inr (work?_attempts hw hx h (.inl phase))
  | announced => exact .inr (work?_attempts hw hx h (.inr phase))
  | called => exact .inr (work?_called hw hx h phase)
  | reporting => exact .inr (work?_reports hw hx h phase)
  | calling | gone => simp [work?, hw, hx, phase] at h

end Work

theorem answer?_deed {call : Nat} {fault : Option Fault} (h : e.answer? i call fault = some e')
    (hw : e.workers[i]? = some w) (hx : e.executors[w.executor]? = some x) :
    ∃ f, Deed e i w x f ∧ e' = e.put i w f := by
  simp only [answer?, hw, Option.bind_eq_bind, Option.bind_some] at h
  split at h
  next phase =>
    split at h
    · cases h
    · obtain ⟨c, command, h⟩ := Option.bind_eq_some_iff.mp h
      cases h
      refine ⟨_, .answer fault phase command, ?_⟩
      simp [record, enter, modifyWorker, put, modify_eq_set hw, set_same hx]
  · cases h

theorem expire?_deed (h : e.expire? i = some e') (hw : e.workers[i]? = some w)
    (hx : e.executors[w.executor]? = some x) : ∃ f, Deed e i w x f ∧ e' = e.put i w f := by
  simp only [expire?, hw, hx, Option.bind_eq_bind, Option.bind_some] at h
  split at h
  next phase =>
    split at h
    next late =>
      obtain ⟨c, command, h⟩ := Option.bind_eq_some_iff.mp h
      cases h
      refine ⟨_, .expire phase late command, ?_⟩
      simp [record, enter, modifyWorker, put, modify_eq_set hw, set_same hx]
    · cases h
  · cases h

/-- A worker that did anything has an executor. -/
def Housed (e : Engine) : Prop :=
  ∀ w ∈ e.workers, w.phase ≠ .spawned → w.executor < e.executors.length

theorem Housed.executor (housed : e.Housed) (hw : e.workers[i]? = some w)
    (active : w.phase ≠ .spawned) : ∃ x, e.executors[w.executor]? = some x :=
  ⟨_, List.getElem?_eq_getElem (housed w (List.mem_of_getElem? hw) active)⟩

/-- Every move is quiet or a deed of a worker. -/
theorem step?_deed {move : Move} (housed : e.Housed) (h : e.step? move = some e') :
    Quiet e e' ∨ ∃ i w x f, e.workers[i]? = some w ∧ e.executors[w.executor]? = some x ∧
      Deed e i w x f ∧ e' = e.put i w f := by
  cases move with
  | work i =>
    have done := h
    simp only [step?, work?, Option.bind_eq_bind, Option.bind_eq_some_iff] at h
    obtain ⟨w, hw, x, hx, _⟩ := h
    obtain ⟨q, inquired⟩ | ⟨f, deed, rfl⟩ := work?_deed hw hx done
    · exact .inl (inquire?_quiet inquired)
    · exact .inr ⟨i, w, x, f, hw, hx, deed, rfl⟩
  | inquire => exact .inl (inquire?_quiet h)
  | supervise =>
    rw [step?, supervise?] at h
    exact .inl (react_quiet h)
  | tick =>
    rw [step?, tick?] at h
    exact .inl (react_quiet h)
  | pong =>
    rw [step?, pong?] at h
    exact .inl (react_quiet h)
  | pingTimeout =>
    rw [step?, pingTimeout?] at h
    exact .inl (react_quiet h)
  | answer i call fault =>
    have done := h
    simp only [step?, answer?, Option.bind_eq_bind, Option.bind_eq_some_iff] at h
    obtain ⟨w, hw, h⟩ := h
    have active : w.phase ≠ .spawned := fun spawned => by simp [spawned] at h
    obtain ⟨x, hx⟩ := housed.executor hw active
    obtain ⟨f, deed, rfl⟩ := answer?_deed done hw hx
    exact .inr ⟨i, w, x, f, hw, hx, deed, rfl⟩
  | expire i =>
    have done := h
    simp only [step?, expire?, Option.bind_eq_bind, Option.bind_eq_some_iff] at h
    obtain ⟨w, hw, x, hx, _⟩ := h
    obtain ⟨f, deed, rfl⟩ := expire?_deed done hw hx
    exact .inr ⟨i, w, x, f, hw, hx, deed, rfl⟩
  | pass ms =>
    cases h
    exact .inl (.of_same rfl rfl rfl rfl)
  | setWall wall =>
    cases h
    exact .inl (.of_same rfl rfl rfl rfl)

end Moves

end Rollout.Engine
