-- SUMMARY: Who waits for whom: workers in the queues for locks and slots never wait for each other only.
import Mathlib.Logic.Relation
import Rollout.Proofs.Engine.Acts

/-!
# Queues

A worker queues for the lock of its host, which all executors share, and once it has the lock it queues for
a slot of its executor. The workers in the two queues are known at any time: who queues for a slot has its
lock already, and who has a slot waits for no other worker. So those who wait, and those for whom they wait,
lead to a worker that is free to go on.
-/
namespace Rollout

/-- The worker queues for the lock of its host, or has it. -/
def Phase.isQueued : Phase → Bool
  | .spawned | .gone => false
  | _ => true

theorem Phase.isQueued_of_hasLock {p : Phase} (h : p.hasLock = true) : p.isQueued = true := by
  cases p <;> simp_all [hasLock, isQueued]

/-- Of those with a lock, all have a slot but those who wait for one. -/
theorem Phase.slot_or_awaits {p : Phase} (h : p.hasLock = true) :
    p.hasSlot = true ∨ p = .awaitingSlot := by
  cases p <;> simp_all [hasLock, hasSlot]

/-- Of those in the queue for locks, all have one but those who wait for one. -/
theorem Phase.lock_or_awaits {p : Phase} (h : p.isQueued = true) :
    p.hasLock = true ∨ p = .awaitingLock := by
  cases p <;> simp_all [hasLock, isQueued]

/-- An executor that hands out no more slots may have taken workers out of its queue. -/
structure Executor.Shrinks (x x' : Executor) : Prop where
  slots : x'.slotOrder.Sublist x.slotOrder
  kept : x'.isOpen = true → x.isOpen = true ∧ x'.slotOrder = x.slotOrder

theorem Executor.Shrinks.refl (x : Executor) : x.Shrinks x := ⟨.refl _, fun hopen => ⟨hopen, rfl⟩⟩

namespace Engine

-- ---------------------------------------------------------------------------
-- Queues at a deed
-- ---------------------------------------------------------------------------

/-- What a deed does to the queues for locks and slots. -/
inductive Turn (e : Engine) (i : Nat) (w : Worker) (x : Executor) (f : Effect) : Prop
  | arrives (before : w.phase = .spawned) (after : f.worker.phase = .awaitingLock)
      (locks : f.lockOrder = e.lockOrder ++ [i]) (slots : f.executor.slotOrder = x.slotOrder)
  | locks (before : w.phase = .awaitingLock) (after : f.worker.phase = .awaitingSlot)
      (locks : f.lockOrder = e.lockOrder) (slots : f.executor.slotOrder = x.slotOrder ++ [i])
  | works (before : w.phase.hasLock = true) (after : f.worker.phase.hasSlot = true)
      (locks : f.lockOrder = e.lockOrder) (slots : f.executor.slotOrder = x.slotOrder)
  | leaves (after : f.worker.phase = .gone) (locks : f.lockOrder = e.lockOrder.erase i)
      (slots : f.executor.slotOrder = x.slotOrder.erase i)

variable {e e' : Engine} {i : Nat} {w : Worker} {x : Executor} {f : Effect}

theorem Deed.turn (deed : Deed e i w x f) : Turn e i w x f := by
  cases deed with
  | arrive phase => exact .arrives phase rfl rfl rfl
  | lock phase => exact .locks phase rfl rfl rfl
  | leave => exact .leaves rfl rfl rfl
  | @conclude retries fault phase =>
    refine .works (by rw [phase]; rfl) ?_ rfl rfl
    dsimp only
    obtain ⟨_, again⟩ | ⟨_, _, ended⟩ := afterCall_cases x retries fault
    · rw [again]; rfl
    · rw [ended]; rfl
  | settle phase | knock phase | pass phase | turnBack phase | giveUp phase | announce phase
  | call phase | answer _ phase | expire phase | report phase =>
    exact .works (by rw [phase]; rfl) rfl rfl rfl

theorem Deed.isOpen_eq (deed : Deed e i w x f) : f.executor.isOpen = x.isOpen := by
  cases deed <;> rfl

/-! ## Lines -/

/-- The queues hold the workers that belong there, and each once. -/
structure Lined (e : Engine) : Prop where
  single : e.lockOrder.Nodup
  queued : ∀ {i : Nat}, i ∈ e.lockOrder ↔ ∃ w, e.workers[i]? = some w ∧ w.phase.isQueued = true
  singles : ∀ {k : Nat} {x : Executor}, e.executors[k]? = some x → x.slotOrder.Nodup
  ranked : ∀ {k : Nat} {x : Executor}, e.executors[k]? = some x → ∀ i ∈ x.slotOrder,
    ∃ w, e.workers[i]? = some w ∧ w.executor = k ∧ w.phase.hasLock = true
  /-- Only a shutdown takes those who wait for a slot out of the queue. -/
  waiting : ∀ {i : Nat} {w : Worker} {x : Executor}, e.workers[i]? = some w →
    e.executors[w.executor]? = some x → w.phase = .awaitingSlot → x.isOpen = true →
    i ∈ x.slotOrder

namespace Lined

theorem empty (wall : Timestamp) : (empty wall).Lined := by
  constructor <;> simp [Engine.empty]

/-- Workers may be added, and executors may be added or shut down. -/
theorem grow (h : e.Lined) (housed : e.Housed) (new : List Worker)
    (spawned : ∀ w ∈ new, w.phase = .spawned) (workers : e'.workers = e.workers ++ new)
    (lockOrder : e'.lockOrder = e.lockOrder)
    (executors : ∀ {k : Nat} {x' : Executor}, e'.executors[k]? = some x' →
      (e.executors[k]? = none ∧ x'.slotOrder = []) ∨
        ∃ x, e.executors[k]? = some x ∧ x.Shrinks x') : e'.Lined := by
  have kept {i : Nat} {w : Worker} (hw : e.workers[i]? = some w) : e'.workers[i]? = some w := by
    rw [workers, List.getElem?_append_left (List.getElem?_eq_some_iff.mp hw).1, hw]
  have old {i : Nat} {w : Worker} (hw : e'.workers[i]? = some w) (active : w.phase ≠ .spawned) :
      e.workers[i]? = some w := by
    rw [workers, List.getElem?_append] at hw
    split at hw
    · exact hw
    · exact absurd (spawned w (List.mem_of_getElem? hw)) active
  refine ⟨lockOrder ▸ h.single, ?_, ?_, ?_, ?_⟩
  · intro i
    rw [lockOrder, h.queued]
    constructor
    · intro ⟨w, hw, queued⟩
      exact ⟨w, kept hw, queued⟩
    · intro ⟨w, hw, queued⟩
      exact ⟨w, old hw fun spawned => by simp [spawned, Phase.isQueued] at queued, queued⟩
  · intro k x' hx'
    obtain ⟨_, nobody⟩ | ⟨x, hx, shrinks⟩ := executors hx'
    · simp [nobody]
    · exact shrinks.slots.nodup (h.singles hx)
  · intro k x' hx' i hi
    obtain ⟨_, nobody⟩ | ⟨x, hx, shrinks⟩ := executors hx'
    · simp [nobody] at hi
    · obtain ⟨w, hw, rest⟩ := h.ranked hx i (shrinks.slots.subset hi)
      exact ⟨w, kept hw, rest⟩
  · intro i w x' hw hx' phase hopen
    have hw := old hw (by simp [phase])
    obtain ⟨unknown, _⟩ | ⟨x, hx, shrinks⟩ := executors hx'
    · obtain ⟨x, hx⟩ := housed.executor hw (by simp [phase])
      simp [hx] at unknown
    · obtain ⟨was_open, same⟩ := shrinks.kept hopen
      rw [same]
      exact h.waiting hw hx phase was_open

theorem quiet (h : e.Lined) (housed : e.Housed) (q : Quiet e e') : e'.Lined :=
  h.grow housed [] (by simp) (by simp [q.workers]) q.lockOrder fun hx =>
    .inr ⟨_, by rw [← q.executors, hx], .refl _⟩

theorem modifyExecutor (h : e.Lined) (housed : e.Housed) (k : Nat) {f : Executor → Executor}
    (shrinks : ∀ x : Executor, x.Shrinks (f x)) : (e.modifyExecutor k f).Lined := by
  refine h.grow housed [] (by simp) (by simp [Engine.modifyExecutor]) rfl fun {k' x'} hx' => .inr ?_
  rw [Engine.modifyExecutor, List.getElem?_modify] at hx'
  obtain ⟨x, hx, rfl⟩ := Option.map_eq_some_iff.mp hx'
  refine ⟨x, hx, ?_⟩
  split
  · exact shrinks x
  · exact .refl x

/-! ## Deeds -/

section Deed

/-- Who is in the queue for locks after a deed. -/
theorem mem_lockOrder_put (h : e.Lined) (hw : e.workers[i]? = some w) (deed : Deed e i w x f)
    (j : Nat) : j ∈ f.lockOrder ↔
      if j = i then f.worker.phase.isQueued = true else j ∈ e.lockOrder := by
  have mine : i ∈ e.lockOrder ↔ w.phase.isQueued = true := by
    rw [h.queued]
    simp [hw]
  cases deed.turn with
  | arrives _ after locks =>
    rw [locks, List.mem_append, List.mem_singleton]
    split
    next here => simp [here, after, Phase.isQueued]
    next elsewhere => simp [elsewhere]
  | locks before after locks =>
    rw [locks]
    split
    next here => simp [here, mine, before, after, Phase.isQueued]
    · rfl
  | works before after locks =>
    rw [locks]
    split
    next here =>
      have queued := Phase.isQueued_of_hasLock before
      have still := Phase.isQueued_of_hasLock (Phase.hasLock_of_hasSlot after)
      simp [here, mine, queued, still]
    · rfl
  | leaves after locks =>
    rw [locks, h.single.mem_erase_iff]
    split
    next here => simp [here, after, Phase.isQueued]
    next elsewhere => simp [elsewhere]

theorem lockOrder_nodup_put (h : e.Lined) (hw : e.workers[i]? = some w)
    (deed : Deed e i w x f) : f.lockOrder.Nodup := by
  cases deed.turn with
  | arrives before _ locks =>
    rw [locks, List.nodup_append_comm, List.singleton_append, List.nodup_cons]
    refine ⟨fun already => ?_, h.single⟩
    obtain ⟨v, hv, queued⟩ := h.queued.mp already
    cases hw.symm.trans hv
    simp [before, Phase.isQueued] at queued
  | locks _ _ locks | works _ _ locks => exact locks ▸ h.single
  | leaves _ locks => exact locks ▸ h.single.erase i

theorem slotOrder_nodup_put (h : e.Lined) (hw : e.workers[i]? = some w)
    (hx : e.executors[w.executor]? = some x) (deed : Deed e i w x f) :
    f.executor.slotOrder.Nodup := by
  cases deed.turn with
  | locks before _ _ slots =>
    rw [slots, List.nodup_append_comm, List.singleton_append, List.nodup_cons]
    refine ⟨fun already => ?_, h.singles hx⟩
    obtain ⟨v, hv, _, locked⟩ := h.ranked hx i already
    cases hw.symm.trans hv
    simp [before, Phase.hasLock] at locked
  | arrives _ _ _ slots | works _ _ _ slots => exact slots ▸ h.singles hx
  | leaves _ _ slots => exact slots ▸ (h.singles hx).erase i

/-- Who is in the queue of the executor after a deed was there before, or it is the worker. -/
theorem mem_slotOrder_put (h : e.Lined) (hw : e.workers[i]? = some w)
    (hx : e.executors[w.executor]? = some x) (deed : Deed e i w x f) {j : Nat}
    (hj : j ∈ f.executor.slotOrder) :
    if j = i then f.worker.phase.hasLock = true else j ∈ x.slotOrder := by
  cases deed.turn with
  | arrives before _ _ slots =>
    rw [slots] at hj
    split
    next here =>
      obtain ⟨v, hv, _, locked⟩ := h.ranked hx j hj
      cases hw.symm.trans (here ▸ hv)
      simp [before, Phase.hasLock] at locked
    · exact hj
  | locks _ after _ slots =>
    rw [slots, List.mem_append, List.mem_singleton] at hj
    split
    · rw [after]; rfl
    next elsewhere => exact hj.resolve_right elsewhere
  | works _ after _ slots =>
    rw [slots] at hj
    split
    · exact Phase.hasLock_of_hasSlot after
    · exact hj
  | leaves _ _ slots =>
    rw [slots, (h.singles hx).mem_erase_iff] at hj
    rw [if_neg hj.1]
    exact hj.2

/-- Who waits for a slot stays in the queue. -/
theorem waiting_put (h : e.Lined) (hw : e.workers[i]? = some w)
    (hx : e.executors[w.executor]? = some x) (deed : Deed e i w x f) {j : Nat} {w' : Worker}
    {x' : Executor} (hw' : (e.put i w f).workers[j]? = some w')
    (hx' : (e.put i w f).executors[w'.executor]? = some x') (phase : w'.phase = .awaitingSlot)
    (hopen : x'.isOpen = true) : j ∈ x'.slotOrder := by
  rw [put_worker? hw] at hw'
  rw [put_executor? hx] at hx'
  split at hw'
  next here =>
    cases hw'
    rw [if_pos deed.executor_eq] at hx'
    cases hx'
    cases deed.turn with
    | arrives _ after => simp [after] at phase
    | locks _ _ _ slots => simp [slots, here]
    | works _ after => simp [phase, Phase.hasSlot] at after
    | leaves after => simp [after] at phase
  next elsewhere =>
    split at hx'
    next mine =>
      cases hx'
      have ranked := h.waiting hw' (mine ▸ hx) phase (deed.isOpen_eq ▸ hopen)
      cases deed.turn with
      | arrives _ _ _ slots | works _ _ _ slots => exact slots ▸ ranked
      | locks _ _ _ slots => exact slots ▸ List.mem_append_left _ ranked
      | leaves _ _ slots => exact slots ▸ (List.mem_erase_of_ne elsewhere).mpr ranked
    · exact h.waiting hw' hx' phase hopen

/-- A deed keeps the queues in line. -/
theorem deed (h : e.Lined) (hw : e.workers[i]? = some w)
    (hx : e.executors[w.executor]? = some x) (deed : Deed e i w x f) : (e.put i w f).Lined where
  single := h.lockOrder_nodup_put hw deed
  queued {j} := by
    rw [put_worker? hw]
    refine (h.mem_lockOrder_put hw deed j).trans ?_
    split
    · simp
    · exact h.queued
  singles {k y} hy := by
    rw [put_executor? hx] at hy
    split at hy
    · cases hy
      exact h.slotOrder_nodup_put hw hx deed
    · exact h.singles hy
  ranked {k y} hy j hj := by
    rw [put_executor? hx] at hy
    rw [put_worker? hw]
    split at hy
    next mine =>
      cases hy
      have place := h.mem_slotOrder_put hw hx deed hj
      split at place
      next here => exact ⟨_, if_pos here, deed.executor_eq.trans mine.symm, place⟩
      next elsewhere =>
        rw [if_neg elsewhere]
        exact mine ▸ h.ranked hx j place
    next other =>
      obtain ⟨v, hv, theirs, locked⟩ := h.ranked hy j hj
      have elsewhere : j ≠ i := fun here => by
        cases hw.symm.trans (here ▸ hv)
        exact other theirs.symm
      exact ⟨v, by rw [if_neg elsewhere, hv], theirs, locked⟩
  waiting := h.waiting_put hw hx deed

end Deed

theorem shutdown_shrinks (x : Executor) : x.Shrinks x.shutdown where
  slots := List.take_sublist ..
  kept hopen := by simp [Executor.shutdown] at hopen

/-- Requests of clients keep the queues in line: the workers that a dispatch adds wait in none yet. -/
theorem serve (h : e.Lined) (housed : e.Housed) (request : Request) :
    (e.serve request).Lined := by
  cases request with
  | openRegistry | closeRegistry | ask => exact h.quiet housed (.of_same rfl rfl rfl rfl)
  | openExecutor settings registry =>
    refine h.grow housed [] (by simp) (by simp [Engine.serve]) rfl fun {k x'} hx' => ?_
    rw [Engine.serve, List.getElem?_append] at hx'
    split at hx'
    · exact .inr ⟨x', hx', .refl x'⟩
    next outside =>
      refine .inl ⟨List.getElem?_eq_none (Nat.le_of_not_lt outside), ?_⟩
      rw [List.mem_singleton.mp (List.mem_of_getElem? hx')]
      rfl
  | dispatch k commands =>
    refine h.grow housed _ (fun w hw => ?_) rfl rfl fun hx => .inr ⟨_, hx, .refl _⟩
    obtain ⟨_, _, rfl⟩ := List.mem_map.mp hw
    rfl
  | cancel k | closeChannel k =>
    exact h.modifyExecutor housed k fun x => ⟨.refl _, fun hopen => ⟨hopen, rfl⟩⟩
  | shutdown k => exact h.modifyExecutor housed k shutdown_shrinks

/-- The queues stay in line at every act. -/
theorem act (h : e.Lined) (housed : e.Housed) {a : Act} (done : e.act? a = some e') :
    e'.Lined := by
  cases a with
  | move m =>
    obtain quiet | ⟨i, w, x, f, hw, hx, deed, rfl⟩ := step?_deed housed done
    · exact h.quiet housed quiet
    · exact h.deed hw hx deed
  | serve request =>
    cases done
    exact h.serve housed request
  | receive k =>
    obtain ⟨⟨event, e'⟩, received, rfl⟩ := Option.map_eq_some_iff.mp done
    obtain ⟨x, _, received⟩ := Option.bind_eq_some_iff.mp received
    split at received
    · cases received
    · cases received
      exact h.modifyExecutor housed k fun x => ⟨.refl _, fun hopen => ⟨hopen, rfl⟩⟩

/-- In every engine that can be reached the queues are in order. -/
theorem of_reachable (reachable : e.Reachable) : e.Lined := by
  obtain ⟨wall, acts, played⟩ := reachable
  exact play?_induction (P := fun _ e => e.Lined) (empty wall)
    (fun played lined done => lined.act (housed_of_play? played) done) played

end Lined

/-! ## Who waits for whom -/

/-- The worker at position `i` waits for the one at position `j`, which has the lock of its host or a slot
of its executor. Nobody waits for a slot of an executor that is shut down. -/
inductive WaitsFor (e : Engine) (i j : Nat) : Prop
  | lock {w : Worker} {x : Executor} (worker : e.workers[i]? = some w)
      (executor : e.executors[w.executor]? = some x)
      (phase : w.phase = .spawned ∨ w.phase = .awaitingLock)
      (holder : e.lockHolder? w.host = some j) (other : j ≠ i)
  | slot {w : Worker} {x : Executor} (worker : e.workers[i]? = some w)
      (executor : e.executors[w.executor]? = some x) (phase : w.phase = .awaitingSlot)
      (hopen : x.isOpen = true) (slotless : i ∉ x.slotHolders) (holder : j ∈ x.slotHolders)

/-- By moves of its own alone the worker `w` at position `i` comes to a phase. -/
def Comes (e : Engine) (i : Nat) (w : Worker) (phase : Phase) : Prop :=
  ∃ n e', e.play? (List.replicate n (.move (.work i))) = some e' ∧
    e'.workers[i]? = some { w with phase := phase }

/-- The worker at position `i` waits for no other worker. -/
inductive IsFree (e : Engine) (i : Nat) : Prop
  /-- It has the lock of its host and a slot, so it waits for its agent, a supervisor or the receiver of its
  events at most. -/
  | atWork {w : Worker} {x : Executor} (worker : e.workers[i]? = some w)
      (executor : e.executors[w.executor]? = some x) (phase : w.phase.hasSlot = true)
      (lock : e.lockHolder? w.host = some i) (slot : i ∈ x.slotHolders)
  /-- Nobody else has the lock of its host, and it can take it. -/
  | takesLock {w : Worker} (worker : e.workers[i]? = some w)
      (phase : w.phase = .spawned ∨ w.phase = .awaitingLock)
      (turn : ∀ j, e.lockHolder? w.host = some j → j = i) (takes : e.Comes i w .awaitingSlot)
  /-- There is a slot for it, and it can take it. -/
  | takesSlot {w : Worker} {x : Executor} (worker : e.workers[i]? = some w)
      (executor : e.executors[w.executor]? = some x) (phase : w.phase = .awaitingSlot)
      (slot : i ∈ x.slotHolders) (takes : e.Comes i w .choosing)
  /-- Its executor is shut down, and it can leave. -/
  | leaves {w : Worker} {x : Executor} (worker : e.workers[i]? = some w)
      (executor : e.executors[w.executor]? = some x) (phase : w.phase ≠ .gone) (closed : x.isOpen = false)
      (turn : ∀ j, ¬ e.WaitsFor i j) (leaves : e.Comes i w .gone)

/-- Whoever is free waits for nobody. -/
theorem IsFree.not_waitsFor (free : e.IsFree i) (j : Nat) : ¬ e.WaitsFor i j := by
  intro waits
  cases free with
  | atWork worker _ slotted _ _ =>
    cases waits with
    | lock worker' _ phase =>
      cases worker.symm.trans worker'
      obtain phase | phase := phase <;> simp [phase, Phase.hasSlot] at slotted
    | slot worker' _ phase =>
      cases worker.symm.trans worker'
      simp [phase, Phase.hasSlot] at slotted
  | takesLock worker phase turn =>
    cases waits with
    | lock worker' _ _ holder other =>
      cases worker.symm.trans worker'
      exact other (turn j holder)
    | slot worker' _ phase' =>
      cases worker.symm.trans worker'
      simp [phase'] at phase
  | takesSlot worker executor phase slot =>
    cases waits with
    | lock worker' _ phase' =>
      cases worker.symm.trans worker'
      simp [phase] at phase'
    | slot worker' executor' _ _ slotless =>
      cases worker.symm.trans worker'
      cases executor.symm.trans executor'
      exact slotless slot
  | leaves _ _ _ _ turn => exact turn j waits

/-! ## Moves of those who wait -/

section Work

variable (hw : e.workers[i]? = some w) (hx : e.executors[w.executor]? = some x)

/-- A worker enters a phase, whatever else changes. -/
theorem enter_worker? (same : e'.workers = e.workers) (hw : e.workers[i]? = some w) (phase : Phase) :
    (e'.enter i phase).workers[i]? = some { w with phase := phase } := by
  simp [enter, modifyWorker, same, hw]

/-- One move of the worker alone. -/
theorem Comes.of_work? {phase : Phase} (moved : e.work? i = some e')
    (here : e'.workers[i]? = some { w with phase := phase }) : e.Comes i w phase :=
  ⟨1, e', by rw [List.replicate_one, play?, act?, step?, moved]; rfl, here⟩

/-- One move of the worker, and what it comes to then. -/
theorem Comes.of_work?_comes {phase phase' : Phase} (moved : e.work? i = some e')
    (comes : e'.Comes i { w with phase := phase' } phase) : e.Comes i w phase := by
  obtain ⟨n, e'', played, here⟩ := comes
  refine ⟨n + 1, e'', ?_, here⟩
  rw [List.replicate_succ, play?, act?, step?, moved]
  exact played

include hw hx

/-- Whose turn it is takes the lock, or leaves when the executor is shut down. -/
theorem comes_awaitingLock (phase : w.phase = .awaitingLock)
    (turn : e.lockHolder? w.host = some i) :
    e.Comes i w (if x.isOpen then .awaitingSlot else .gone) := by
  cases hopen : x.isOpen with
  | true =>
    have moved : e.work? i = some ((e.modifyExecutor w.executor fun x =>
        { x with slotOrder := x.slotOrder ++ [i] }).enter i .awaitingSlot) := by
      simp [work?, hw, hx, phase, turn, hopen]
    exact .of_work? moved (enter_worker? (by rfl) hw _)
  | false =>
    have moved : e.work? i = some (e.leave i w) := by
      simp [work?, hw, hx, phase, turn, hopen]
    exact .of_work? moved (enter_worker? (by rfl) hw _)

/-- When nobody has the lock, a worker that arrives takes it or leaves. -/
theorem comes_spawned (phase : w.phase = .spawned)
    (free : e.lockHolder? w.host = none) :
    e.Comes i w (if x.isOpen then .awaitingSlot else .gone) := by
  let e₁ := { e with lockOrder := e.lockOrder ++ [i] }.enter i .awaitingLock
  have moved : e.work? i = some e₁ := by simp [work?, hw, hx, phase, e₁]
  have here : e₁.workers[i]? = some { w with phase := .awaitingLock } := enter_worker? (by rfl) hw _
  have hosts (j : Nat) : e₁.workers[j]?.map Worker.host = e.workers[j]?.map Worker.host := by
    by_cases here : i = j
    · simp [e₁, enter, modifyWorker, here, Function.comp_def]
    · simp [e₁, enter, modifyWorker, here]
  have turn : e₁.lockHolder? w.host = some i := by
    simp only [lockHolder?, hosts] at free ⊢
    have order : e₁.lockOrder = e.lockOrder ++ [i] := rfl
    rw [order, List.find?_append, free, Option.none_or, List.find?_singleton, hw]
    simp
  exact .of_work?_comes moved (comes_awaitingLock here hx rfl turn)

theorem comes_awaitingSlot (phase : w.phase = .awaitingSlot) (slot : i ∈ x.slotHolders) :
    e.Comes i w .choosing := by
  have moved : e.work? i = some (e.enter i .choosing) := by simp [work?, hw, hx, phase, slot]
  exact .of_work? moved (enter_worker? rfl hw _)

theorem comes_gone (phase : w.phase = .awaitingSlot) (slotless : i ∉ x.slotHolders)
    (closed : x.isOpen = false) : e.Comes i w .gone := by
  have moved : e.work? i = some (e.leave i w) := by simp [work?, hw, hx, phase, slotless, closed]
  exact .of_work? moved (enter_worker? (by rfl) hw _)

end Work

-- ---------------------------------------------------------------------------
-- No deadlock
-- ---------------------------------------------------------------------------

section Deadlock

variable {j : Nat}

/-- Whoever has a lock or may take it next is in the queue. -/
theorem Lined.holder (h : e.Lined) {host : String} (holder : e.lockHolder? host = some j) :
    ∃ v, e.workers[j]? = some v ∧ v.host = host ∧ v.phase.isQueued = true := by
  obtain ⟨v, hv, queued⟩ := h.queued.mp (List.mem_of_find?_eq_some holder)
  refine ⟨v, hv, ?_, queued⟩
  simpa [hv] using List.find?_some holder

/-- Somebody has the lock of a host for which a worker queues. -/
theorem Lined.exists_holder (h : e.Lined) (hw : e.workers[i]? = some w)
    (queued : w.phase.isQueued = true) : ∃ j, e.lockHolder? w.host = some j := by
  refine Option.isSome_iff_exists.mp (List.find?_isSome.mpr ⟨i, h.queued.mpr ⟨w, hw, queued⟩, ?_⟩)
  simp [hw]

/-- The worker is free, or it waits, directly or through others, for one that is free. -/
def LeadsToFree (e : Engine) (i : Nat) : Prop :=
  ∃ j, Relation.ReflTransGen e.WaitsFor i j ∧ e.IsFree j

theorem IsFree.leadsToFree (free : e.IsFree i) : e.LeadsToFree i := ⟨i, .refl, free⟩

theorem WaitsFor.leadsToFree (waits : e.WaitsFor i j) (leads : e.LeadsToFree j) :
    e.LeadsToFree i := by
  obtain ⟨k, path, free⟩ := leads
  exact ⟨k, .head waits path, free⟩

theorem Guarded.isFree_of_hasSlot (h : e.Guarded) (hw : e.workers[i]? = some w)
    (slotted : w.phase.hasSlot = true) : e.IsFree i := by
  obtain ⟨x, hx⟩ := h.housed.executor hw fun spawned => by simp [spawned, Phase.hasSlot] at slotted
  exact .atWork hw hx slotted (h.locked hw (Phase.hasLock_of_hasSlot slotted)) (h.slotted hw hx slotted)

/-- Who has a lock and waits for a slot waits for workers that have one. -/
theorem Lined.leads_of_hasLock (h : e.Lined) (guarded : e.Guarded) (hw : e.workers[i]? = some w)
    (locked : w.phase.hasLock = true) : e.LeadsToFree i := by
  obtain slotted | phase := Phase.slot_or_awaits locked
  · exact (guarded.isFree_of_hasSlot hw slotted).leadsToFree
  obtain ⟨x, hx⟩ := guarded.housed.executor hw (by simp [phase])
  by_cases slot : i ∈ x.slotHolders
  · exact (IsFree.takesSlot hw hx phase slot (comes_awaitingSlot hw hx phase slot)).leadsToFree
  cases hopen : x.isOpen with
  | false =>
    refine (IsFree.leaves hw hx (by simp [phase]) hopen (fun j waits => ?_)
      (comes_gone hw hx phase slot hopen)).leadsToFree
    cases waits with
    | lock worker _ phase' =>
      cases hw.symm.trans worker
      simp [phase] at phase'
    | slot worker executor _ still =>
      cases hw.symm.trans worker
      cases hx.symm.trans executor
      simp [hopen] at still
  | true =>
    -- There is a first one in the queue, and it has a slot or is about to take it.
    have ranked := h.waiting hw hx phase hopen
    obtain ⟨j, rest, order⟩ := List.exists_cons_of_ne_nil (List.ne_nil_of_mem ranked)
    have first : j ∈ x.slotHolders := by
      have some_slot : x.slotCount = x.slotCount - 1 + 1 := by
        rw [Executor.slotCount]
        omega
      rw [Executor.slotHolders, order, some_slot, List.take_succ_cons]
      exact List.mem_cons_self
    obtain ⟨v, hv, mine, locked'⟩ := h.ranked hx j (by rw [order]; exact List.mem_cons_self)
    have hx' : e.executors[v.executor]? = some x := by rw [mine, hx]
    refine WaitsFor.leadsToFree (.slot hw hx phase hopen slot first) ?_
    obtain slotted | awaits := Phase.slot_or_awaits locked'
    · exact (guarded.isFree_of_hasSlot hv slotted).leadsToFree
    · exact (IsFree.takesSlot hv hx' awaits first
        (comes_awaitingSlot hv hx' awaits first)).leadsToFree

/-- Whose turn it is to take a lock is free. -/
theorem IsFree.of_turn (hw : e.workers[i]? = some w) (hx : e.executors[w.executor]? = some x)
    (phase : w.phase = .spawned ∨ w.phase = .awaitingLock)
    (turn : ∀ j, e.lockHolder? w.host = some j → j = i)
    (comes : e.Comes i w (if x.isOpen then .awaitingSlot else .gone)) : e.IsFree i := by
  cases hopen : x.isOpen with
  | true =>
    rw [hopen, if_pos rfl] at comes
    exact .takesLock hw phase turn comes
  | false =>
    rw [hopen] at comes
    refine .leaves hw hx (by rintro gone; simp [gone] at phase) hopen (fun j waits => ?_) comes
    cases waits with
    | lock worker _ _ holder other =>
      cases hw.symm.trans worker
      exact other (turn j holder)
    | slot worker _ phase' =>
      cases hw.symm.trans worker
      simp [phase'] at phase

/-- Who has a lock, or may take it next, waits for workers that have a slot at most. -/
theorem Lined.leads_of_holder (h : e.Lined) (guarded : e.Guarded) {host : String}
    (holder : e.lockHolder? host = some j) : e.LeadsToFree j := by
  obtain ⟨v, hv, rfl, queued⟩ := h.holder holder
  obtain locked | phase := Phase.lock_or_awaits queued
  · exact h.leads_of_hasLock guarded hv locked
  · obtain ⟨x, hx⟩ := guarded.housed.executor hv (by simp [phase])
    refine (IsFree.of_turn hv hx (.inr phase) (fun k holder' => ?_)
      (comes_awaitingLock hv hx phase holder)).leadsToFree
    exact Option.some.inj (holder'.symm.trans holder)

/-- From every live worker a chain of waiting ends at a free one: the queues for locks and slots are finite, and
whoever is first in both is free. -/
theorem Lined.leads (h : e.Lined) (guarded : e.Guarded) (hw : e.workers[i]? = some w)
    (hx : e.executors[w.executor]? = some x) (unfinished : w.phase ≠ .gone) : e.LeadsToFree i := by
  by_cases queued : w.phase.isQueued = true
  · obtain locked | phase := Phase.lock_or_awaits queued
    · exact h.leads_of_hasLock guarded hw locked
    · obtain ⟨j, holder⟩ := h.exists_holder hw queued
      by_cases mine : j = i
      · exact mine ▸ h.leads_of_holder guarded holder
      · exact WaitsFor.leadsToFree (.lock hw hx (.inr phase) holder mine)
          (h.leads_of_holder guarded holder)
  · have phase : w.phase = .spawned := by
      cases phase : w.phase <;> simp_all [Phase.isQueued]
    cases holder : e.lockHolder? w.host with
    | none =>
      exact (IsFree.of_turn hw hx (.inl phase) (by simp [holder])
        (comes_spawned hw hx phase holder)).leadsToFree
    | some j =>
      obtain ⟨v, hv, _, queued'⟩ := h.holder holder
      have other : j ≠ i := by
        rintro rfl
        cases hw.symm.trans hv
        exact queued queued'
      exact WaitsFor.leadsToFree (.lock hw hx (.inl phase) holder other)
        (h.leads_of_holder guarded holder)

/-- Locks and slots never deadlock. However many executors share the locks, whatever their numbers of slots
and whatever was dispatched, cancelled and shut down: each worker that is not gone leads, through those that
it waits for and those that they wait for, to one that waits for no worker. And in no set of workers each
one waits, and only for others of the set. -/
theorem nobody_waits_in_a_circle (reachable : e.Reachable) :
    (∀ (i : Nat) w x, e.workers[i]? = some w → e.executors[w.executor]? = some x → w.phase ≠ .gone →
      ∃ j, Relation.ReflTransGen e.WaitsFor i j ∧ e.IsFree j) ∧
    ∀ circle : Set Nat, circle.Nonempty →
      ¬ ∀ i ∈ circle, (∃ j, e.WaitsFor i j) ∧ ∀ j, e.WaitsFor i j → j ∈ circle := by
  have leads {i : Nat} {w : Worker} {x : Executor} :=
    (Lined.of_reachable reachable).leads (Guarded.of_reachable reachable) (i := i) (w := w) (x := x)
  refine ⟨fun i w x => leads, fun circle ⟨i, hi⟩ closed => ?_⟩
  have unfinished : ∃ w x, e.workers[i]? = some w ∧ e.executors[w.executor]? = some x ∧
      w.phase ≠ .gone := by
    obtain ⟨j, waits⟩ := (closed i hi).1
    cases waits with
    | lock hw hx phase => exact ⟨_, _, hw, hx, by rintro gone; simp [gone] at phase⟩
    | slot hw hx phase => exact ⟨_, _, hw, hx, by simp [phase]⟩
  obtain ⟨w, x, hw, hx, unfinished⟩ := unfinished
  obtain ⟨j, path, free⟩ := leads hw hx unfinished
  have inside : j ∈ circle := by
    clear free
    induction path with
    | refl => exact hi
    | tail _ waits ih => exact (closed _ ih).2 _ waits
  obtain ⟨k, waits⟩ := (closed j inside).1
  exact free.not_waitsFor k waits

/-! ## A chain -/

/-- The first executor has one slot. Its worker for alpha has taken it, its worker for beta has the lock and
waits for the slot, and the worker of the second executor waits for the lock of beta. -/
def chainActs : List Act :=
  let command (host : String) : TaskCommand :=
    ⟨.ofNat 0, 0, host, "db", "server", .stop, "1.0", .upgrade, 1⟩
  [.serve (.openRegistry .default),
    .serve (.openExecutor { DispatchSettings.default with maxConcurrentHosts := 0 } 0),
    .serve (.openExecutor .default 0), .serve (.dispatch 0 [command "alpha", command "beta"]),
    .serve (.dispatch 1 [command "beta"])] ++
  List.replicate 3 (.move (.work 0)) ++ List.replicate 2 (.move (.work 1)) ++ [.move (.work 2)]

/-- The engine after these acts. -/
def chain : Engine := ((empty .epoch).play? chainActs).getD (empty .epoch)

theorem nobody_waits_in_a_circle_chain :
    chain.Reachable ∧ chain.WaitsFor 2 1 ∧ chain.WaitsFor 1 0 ∧
      (∃ j, Relation.ReflTransGen chain.WaitsFor 2 j ∧ chain.IsFree j) ∧
      ¬ ∀ i ∈ ({1, 2} : Set Nat), (∃ j, chain.WaitsFor i j) ∧
        ∀ j, chain.WaitsFor i j → j ∈ ({1, 2} : Set Nat) := by
  have reachable : chain.Reachable := ⟨.epoch, chainActs, by decide +kernel⟩
  have beta : (chain.workers[1]?).map (fun w => (w.executor, w.host, w.phase)) =
      some (0, "beta", .awaitingSlot) := by decide +kernel
  have last : (chain.workers[2]?).map (fun w => (w.executor, w.host, w.phase)) =
      some (1, "beta", .awaitingLock) := by decide +kernel
  have slots : (chain.executors[0]?).map (fun x => (x.isOpen, x.slotHolders)) =
      some (true, [0]) := by decide +kernel
  have second : (chain.executors[1]?).isSome := by decide +kernel
  obtain ⟨v, hv, same⟩ := Option.map_eq_some_iff.mp beta
  obtain ⟨w, hw, same'⟩ := Option.map_eq_some_iff.mp last
  obtain ⟨x, hx, same''⟩ := Option.map_eq_some_iff.mp slots
  obtain ⟨y, hy⟩ := Option.isSome_iff_exists.mp second
  simp only [Prod.mk.injEq] at same same' same''
  obtain ⟨ex, at_beta, phase⟩ := same
  obtain ⟨ex', at_beta', phase'⟩ := same'
  have hx' : chain.executors[v.executor]? = some x := by rw [ex, hx]
  have hy' : chain.executors[w.executor]? = some y := by rw [ex', hy]
  obtain ⟨leads, no_circle⟩ := nobody_waits_in_a_circle reachable
  refine ⟨reachable, .lock hw hy' (.inr phase') ?_ (by decide), .slot hv hx' phase same''.1 ?_ ?_,
    leads 2 w y hw hy' (by simp [phase']), no_circle {1, 2} ⟨1, .inl rfl⟩⟩
  · rw [at_beta']
    decide +kernel
  · rw [same''.2]
    decide
  · rw [same''.2]
    decide

end Deadlock

end Engine

end Rollout
