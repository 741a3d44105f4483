-- SUMMARY: Calls exclude each other: one at a time for a host, and no more for an executor than it has slots.
import Mathlib.Data.List.Find
import Mathlib.Data.List.Nodup
import Mathlib.Data.List.Perm.Subperm
import Rollout.Proofs.Engine.WorkerSteps

/-!
# Exclusion

Executors share the locks of the hosts. A worker that goes about its commands has the lock of its
host and a slot of its executor, so the calls that are under way go to different hosts, and those of
one executor are no more than its slots. This holds whatever moves, requests and receptions of events
happen, in any order.
-/
namespace Rollout

namespace Phase

/-- The worker has the lock of its host. -/
def hasLock : Phase → Bool
  | .spawned | .awaitingLock | .gone => false
  | _ => true

/-- The worker has a slot of its executor. -/
def hasSlot : Phase → Bool
  | .spawned | .awaitingLock | .awaitingSlot | .gone => false
  | _ => true

/-- The worker waits for its agent. -/
def isCalling : Phase → Bool
  | .calling .. => true
  | _ => false

theorem hasSlot_of_isCalling {p : Phase} (h : p.isCalling = true) : p.hasSlot = true := by
  cases p <;> simp_all [isCalling, hasSlot]

theorem hasLock_of_hasSlot {p : Phase} (h : p.hasSlot = true) : p.hasLock = true := by
  cases p <;> simp_all [hasSlot, hasLock]

end Phase

namespace Engine

/-! ## Acts -/

/-- What may happen to an engine: a move inside, a request of a client, or the reception of an
event. -/
inductive Act where
  | move (move : Move)
  | serve (request : Request)
  | receive (executor : Nat)
  deriving DecidableEq, Repr

/-- The engine after an act, if the act is possible. -/
def act? (e : Engine) : Act → Option Engine
  | .move move => e.step? move
  | .serve request => some (e.serve request)
  | .receive executor => (e.receive? executor).map Prod.snd

/-- The engine after a sequence of acts, if all of them are possible. -/
def play? (e : Engine) : List Act → Option Engine
  | [] => some e
  | act :: acts => do (← e.act? act).play? acts

/-- Some sequence of acts leads from an empty engine to this one. -/
def Reachable (e : Engine) : Prop := ∃ wall acts, (empty wall).play? acts = some e

/-- What every act keeps holds of all engines that can be reached. -/
theorem Reachable.induction {P : Engine → Prop} (start : ∀ wall, P (empty wall))
    (act : ∀ {e e' a}, P e → e.act? a = some e' → P e') {e : Engine} (reachable : e.Reachable) :
    P e := by
  obtain ⟨wall, acts, played⟩ := reachable
  have from_here (acts : List Act) (e₀ : Engine) (holds : P e₀) (played : e₀.play? acts = some e) :
      P e := by
    induction acts generalizing e₀ with
    | nil =>
      cases played
      exact holds
    | cons a acts ih =>
      obtain ⟨e₁, first, rest⟩ := Option.bind_eq_some_iff.mp played
      exact ih e₁ (act holds first) rest
  exact from_here acts _ (start wall) played

/-! ## Calls in flight -/

/-- The calls that began and did not end, neither by an answer nor because they took too long: worker
and host, the latest first. -/
def callsInFlight : List Entry → List (Nat × String)
  | [] => []
  | ⟨_, host, .callBegan i _⟩ :: past => (i, host) :: callsInFlight past
  | ⟨_, host, .callEnded i ..⟩ :: past => (callsInFlight past).erase (i, host)
  | ⟨_, host, .callExpired i _⟩ :: past => (callsInFlight past).erase (i, host)
  | ⟨_, _, .pinged ..⟩ :: past => callsInFlight past
  | ⟨_, _, .reported ..⟩ :: past => callsInFlight past

/-- Of the calls in flight those that a worker of the executor makes. -/
def callsOf (e : Engine) (k : Nat) : List (Nat × String) :=
  (callsInFlight e.history).filter fun (i, _) => e.workers[i]?.map Worker.executor = some k

theorem callsInFlight_pings {pings past : List Entry}
    (all : ∀ p ∈ pings, ∃ registry request, p.happening = .pinged registry request) :
    callsInFlight (pings ++ past) = callsInFlight past := by
  induction pings with
  | nil => rfl
  | cons p pings ih =>
    obtain ⟨registry, request, ping⟩ := all p (by simp)
    obtain ⟨time, host, happening⟩ := p
    dsimp only at ping
    subst ping
    exact ih fun p hp => all p (by simp [hp])

/-- What a deed does to the calls in flight. -/
theorem Deed.flight {e : Engine} {i : Nat} {w : Worker} {x : Executor} {f : Effect}
    (deed : Deed e i w x f) :
    (w.phase.isCalling = false ∧ f.worker.phase.isCalling = true ∧
      callsInFlight (e.put i w f).history = (i, w.host) :: callsInFlight e.history) ∨
    (w.phase.isCalling = true ∧ f.worker.phase.isCalling = false ∧
      callsInFlight (e.put i w f).history = (callsInFlight e.history).erase (i, w.host)) ∨
    (w.phase.isCalling = false ∧ f.worker.phase.isCalling = false ∧
      callsInFlight (e.put i w f).history = callsInFlight e.history) := by
  cases deed with
  | call phase => exact .inl ⟨by rw [phase]; rfl, rfl, rfl⟩
  | answer _ phase | expire phase => exact .inr (.inl ⟨by rw [phase]; rfl, rfl, rfl⟩)
  | leave why =>
    refine .inr (.inr ⟨?_, rfl, rfl⟩)
    cases why with
    | noSlots phase | noSlot phase | done phase | unheard phase => rw [phase]; rfl
  | @conclude retries fault phase =>
    refine .inr (.inr ⟨by rw [phase]; rfl, ?_, rfl⟩)
    dsimp only
    obtain ⟨_, again⟩ | ⟨_, _, ended⟩ := afterCall_cases x retries fault
    · rw [again]; rfl
    · rw [ended]; rfl
  | arrive phase | lock phase | settle phase | knock phase | pass phase | turnBack phase
  | giveUp phase | announce phase | report phase =>
    exact .inr (.inr ⟨by rw [phase]; rfl, rfl, rfl⟩)

/-! ## Locks and slots -/

/-- What a deed does to the order of locks and the order of slots. A worker that leaves is taken out
of both. Otherwise workers are added behind the others at most, and what the worker has from now on it
had before, or it is its turn. -/
theorem Deed.queues {e : Engine} {i : Nat} {w : Worker} {x : Executor} {f : Effect}
    (deed : Deed e i w x f) :
    (f.worker.phase = .gone ∧ f.lockOrder = e.lockOrder.erase i ∧
      f.executor.slotOrder = x.slotOrder.erase i) ∨
    (f.worker.phase ≠ .spawned ∧
      (f.lockOrder = e.lockOrder ∨ f.lockOrder = e.lockOrder ++ [i]) ∧
      (f.executor.slotOrder = x.slotOrder ∨ f.executor.slotOrder = x.slotOrder ++ [i]) ∧
      (f.worker.phase.hasLock = true →
        w.phase.hasLock = true ∨ e.lockHolder? w.host = some i) ∧
      (f.worker.phase.hasSlot = true → w.phase.hasSlot = true ∨ i ∈ x.slotHolders)) := by
  cases deed with
  | leave => exact .inl ⟨rfl, rfl, rfl⟩
  | arrive => exact .inr ⟨by simp, .inr rfl, .inl rfl, by simp [Phase.hasLock], by simp [Phase.hasSlot]⟩
  | lock _ locked =>
    exact .inr ⟨by simp, .inl rfl, .inr rfl, fun _ => .inr locked, by simp [Phase.hasSlot]⟩
  | settle phase slotted =>
    exact .inr ⟨by simp, .inl rfl, .inl rfl, fun _ => .inl (by rw [phase]; rfl), fun _ => .inr slotted⟩
  | @conclude retries fault phase =>
    refine .inr ⟨?_, .inl rfl, .inl rfl, fun _ => .inl ?_, fun _ => .inl ?_⟩
    · obtain ⟨_, again⟩ | ⟨_, _, ended⟩ := afterCall_cases x retries fault
      · simp [again]
      · simp [ended]
    · rw [phase]; rfl
    · rw [phase]; rfl
  | knock phase | pass phase | turnBack phase | giveUp phase | announce phase | call phase
  | answer _ phase | expire phase | report phase =>
    exact .inr ⟨by simp, .inl rfl, .inl rfl, fun _ => .inl (by rw [phase]; rfl),
      fun _ => .inl (by rw [phase]; rfl)⟩

/-- Whoever is first stays first when another one leaves. -/
theorem find?_erase_of_ne {l : List Nat} {p : Nat → Bool} {i j : Nat} (h : l.find? p = some j)
    (ne : j ≠ i) : (l.erase i).find? p = some j := by
  induction l with
  | nil => simp at h
  | cons a l ih =>
    by_cases same : a = i
    · subst same
      rw [List.erase_cons_head]
      cases test : p a with
      | false => simpa [List.find?_cons, test] using h
      | true =>
        have : a = j := by simpa [List.find?_cons, test] using h
        exact absurd this.symm ne
    · rw [List.erase_cons_tail (by simpa using same), List.find?_cons]
      rw [List.find?_cons] at h
      split
      next test => simpa [test] using h
      next test => exact ih (by simpa [test] using h)

/-- Whoever is among the first stays among them when another one leaves. -/
theorem mem_take_erase {l : List Nat} {n i j : Nat} (h : j ∈ l.take n) (ne : j ≠ i) :
    j ∈ (l.erase i).take n := by
  induction l generalizing n with
  | nil => simp at h
  | cons a l ih =>
    cases n with
    | zero => simp at h
    | succ n =>
      rw [List.take_succ_cons] at h
      by_cases same : a = i
      · subst same
        rw [List.erase_cons_head]
        have : j ∈ l.take n := (List.mem_cons.mp h).resolve_left ne
        exact List.take_subset_take_left l (Nat.le_succ n) this
      · rw [List.erase_cons_tail (by simpa using same), List.take_succ_cons]
        obtain rfl | later := List.mem_cons.mp h
        · exact List.mem_cons_self
        · exact List.mem_cons_of_mem a (ih later)

/-! ## What workers have -/

/-- Workers that go about their commands have what they need: lock and slot. The calls in flight are
those that workers wait for. -/
structure Guarded (e : Engine) : Prop where
  housed : e.Housed
  ranked : ∀ i ∈ e.lockOrder, i < e.workers.length
  locked : ∀ {i : Nat} {w : Worker}, e.workers[i]? = some w → w.phase.hasLock = true →
    e.lockHolder? w.host = some i
  slotted : ∀ {i : Nat} {w : Worker} {x : Executor}, e.workers[i]? = some w →
    e.executors[w.executor]? = some x → w.phase.hasSlot = true → i ∈ x.slotHolders
  single : (callsInFlight e.history).Nodup
  calling : ∀ {i : Nat} {host : String}, (i, host) ∈ callsInFlight e.history ↔
    ∃ w, e.workers[i]? = some w ∧ w.host = host ∧ w.phase.isCalling = true

theorem empty_guarded (wall : Timestamp) : (empty wall).Guarded where
  housed := by simp [Housed, empty]
  ranked := by simp [empty]
  locked := by simp [empty]
  slotted := by simp [empty]
  single := by simp [empty, callsInFlight]
  calling := by simp [empty, callsInFlight]

/-- The holder of a lock depends on the hosts of those in the order only. -/
theorem lockHolder?_congr {e e' : Engine} (host : String) (lockOrder : e'.lockOrder = e.lockOrder)
    (hosts : ∀ i ∈ e.lockOrder, e'.workers[i]?.map Worker.host = e.workers[i]?.map Worker.host) :
    e'.lockHolder? host = e.lockHolder? host := by
  rw [lockHolder?, lockHolder?, lockOrder]
  exact List.find?_congr fun i hi => by rw [hosts i hi]

namespace Guarded

variable {e e' : Engine}

/-- Workers may be added, and executors may be added or changed, as long as nobody loses a slot. -/
theorem grow (h : e.Guarded) (new : List Worker) (spawned : ∀ w ∈ new, w.phase = .spawned)
    (workers : e'.workers = e.workers ++ new) (lockOrder : e'.lockOrder = e.lockOrder)
    (flight : callsInFlight e'.history = callsInFlight e.history)
    (slots : ∀ {k : Nat} {x : Executor}, e.executors[k]? = some x →
      ∃ x', e'.executors[k]? = some x' ∧ ∀ i ∈ x.slotHolders, i ∈ x'.slotHolders) :
    e'.Guarded := by
  have kept {i : Nat} {w : Worker} (hw : e.workers[i]? = some w) : e'.workers[i]? = some w := by
    rw [workers, List.getElem?_append_left (List.getElem?_eq_some_iff.mp hw).1, hw]
  have old {i : Nat} {w : Worker} (hw : e'.workers[i]? = some w) (active : w.phase ≠ .spawned) :
      e.workers[i]? = some w := by
    rw [workers, List.getElem?_append] at hw
    split at hw
    · exact hw
    · exact absurd (spawned w (List.mem_of_getElem? hw)) active
  refine ⟨?_, ?_, ?_, ?_, ?_, ?_⟩
  · intro w hw active
    obtain ⟨i, hi⟩ := List.mem_iff_getElem?.mp hw
    obtain ⟨x, hx⟩ := h.housed.executor (old hi active) active
    obtain ⟨x', hx', _⟩ := slots hx
    exact (List.getElem?_eq_some_iff.mp hx').1
  · intro i hi
    rw [lockOrder] at hi
    rw [workers, List.length_append]
    exact Nat.lt_add_right _ (h.ranked i hi)
  · intro i w hw locked
    have active : w.phase ≠ .spawned := fun spawned => by simp [spawned, Phase.hasLock] at locked
    rw [← h.locked (old hw active) locked]
    refine lockHolder?_congr w.host lockOrder fun j hj => ?_
    rw [workers, List.getElem?_append_left (h.ranked j hj)]
  · intro i w x' hw hx' slotted
    have active : w.phase ≠ .spawned := fun spawned => by simp [spawned, Phase.hasSlot] at slotted
    obtain ⟨x, hx⟩ := h.housed.executor (old hw active) active
    obtain ⟨x₁, hx₁, stay⟩ := slots hx
    cases hx'.symm.trans hx₁
    exact stay i (h.slotted (old hw active) hx slotted)
  · rw [flight]
    exact h.single
  · intro i host
    rw [flight, h.calling]
    constructor
    · intro ⟨w, hw, rest⟩
      exact ⟨w, kept hw, rest⟩
    · intro ⟨w, hw, there, calls⟩
      exact ⟨w, old hw fun spawned => by simp [spawned, Phase.isCalling] at calls, there, calls⟩

theorem quiet (h : e.Guarded) (q : Quiet e e') : e'.Guarded := by
  obtain ⟨pings, history, all⟩ := q.history
  refine h.grow [] (by simp) (by simp [q.workers]) q.lockOrder ?_ ?_
  · rw [history]
    exact callsInFlight_pings all
  · intro k x hx
    exact ⟨x, by rw [q.executors, hx], fun _ hi => hi⟩

/-- An executor may change as long as nobody loses a slot. -/
theorem modifyExecutor (h : e.Guarded) (k : Nat) {f : Executor → Executor}
    (slots : ∀ x, ∀ i ∈ x.slotHolders, i ∈ (f x).slotHolders) :
    (e.modifyExecutor k f).Guarded := by
  refine h.grow [] (by simp) (by simp [Engine.modifyExecutor]) rfl rfl ?_
  intro k' x hx
  simp only [Engine.modifyExecutor, List.getElem?_modify, hx]
  by_cases same : k = k'
  · exact ⟨f x, by simp [same], slots x⟩
  · exact ⟨x, by simp [same], fun _ hi => hi⟩

theorem openExecutor (h : e.Guarded) (settings : DispatchSettings) (registry : Nat) :
    (e.serve (.openExecutor settings registry)).Guarded := by
  refine h.grow [] (by simp) (by simp [serve]) rfl rfl ?_
  intro k x hx
  refine ⟨x, ?_, fun _ hi => hi⟩
  simp [serve, List.getElem?_append_left (List.getElem?_eq_some_iff.mp hx).1, hx]

theorem dispatch (h : e.Guarded) (k : Nat) (commands : List TaskCommand) :
    (e.dispatch k commands).Guarded := by
  refine h.grow _ ?_ rfl rfl rfl fun hx => ⟨_, hx, fun _ hi => hi⟩
  intro w hw
  obtain ⟨_, _, rfl⟩ := List.mem_map.mp hw
  rfl

section Deed

variable {i : Nat} {w : Worker} {x : Executor} {f : Effect}

/-- The others keep their locks. -/
theorem lockHolder?_put (hw : e.workers[i]? = some w)
    (deed : Deed e i w x f) {host : String} {j : Nat} (holder : e.lockHolder? host = some j)
    (stays : f.worker.phase = .gone → j ≠ i) : (e.put i w f).lockHolder? host = some j := by
  have hosts (j : Nat) :
      (e.put i w f).workers[j]?.map Worker.host = e.workers[j]?.map Worker.host := by
    rw [put_worker? hw]
    split
    next same => simp [same, hw, deed.host_eq]
    · rfl
  simp only [lockHolder?, hosts] at holder ⊢
  obtain ⟨gone, order, _⟩ | ⟨_, order, _⟩ := deed.queues
  · rw [put, order]
    exact find?_erase_of_ne holder (stays gone)
  · obtain order | order := order
    · rw [put, order]
      exact holder
    · rw [put, order, List.find?_append, holder]
      rfl

/-- The others keep waiting for their agents. -/
theorem calling_put (h : e.Guarded) (hw : e.workers[i]? = some w) (deed : Deed e i w x f) (j : Nat)
    (host : String) :
    (∃ w', (e.put i w f).workers[j]? = some w' ∧ w'.host = host ∧ w'.phase.isCalling = true) ↔
      if j = i then w.host = host ∧ f.worker.phase.isCalling = true
      else (j, host) ∈ callsInFlight e.history := by
  rw [put_worker? hw]
  split
  · simp [deed.host_eq]
  · exact h.calling.symm

/-- The others keep their slots. -/
theorem slotHolders_put (deed : Deed e i w x f) {j : Nat} (holder : j ∈ x.slotHolders)
    (stays : f.worker.phase = .gone → j ≠ i) : j ∈ f.executor.slotHolders := by
  rw [Executor.slotHolders, Executor.slotCount] at holder ⊢
  rw [deed.settings_eq]
  obtain ⟨gone, _, order⟩ | ⟨_, _, order, _⟩ := deed.queues
  · rw [order]
    exact mem_take_erase holder (stays gone)
  · obtain order | order := order
    · rw [order]
      exact holder
    · rw [order, List.take_append]
      exact List.mem_append_left _ holder

theorem housed_put (h : e.Guarded) (hx : e.executors[w.executor]? = some x)
    (deed : Deed e i w x f) : (e.put i w f).Housed := by
  have executors : (e.put i w f).executors.length = e.executors.length := by simp [put]
  rw [Housed, executors]
  refine forall_put h.housed fun _ => ?_
  rw [deed.executor_eq]
  exact (List.getElem?_eq_some_iff.mp hx).1

theorem ranked_put (h : e.Guarded) (hw : e.workers[i]? = some w) (deed : Deed e i w x f) :
    ∀ j ∈ (e.put i w f).lockOrder, j < (e.put i w f).workers.length := by
  intro j hj
  simp only [put, List.length_set] at hj ⊢
  obtain ⟨_, order, _⟩ | ⟨_, order | order, _⟩ := deed.queues
  · rw [order] at hj
    exact h.ranked j (List.mem_of_mem_erase hj)
  · rw [order] at hj
    exact h.ranked j hj
  · rw [order] at hj
    obtain hj | hj := List.mem_append.mp hj
    · exact h.ranked j hj
    · rw [List.mem_singleton.mp hj]
      exact (List.getElem?_eq_some_iff.mp hw).1

theorem locked_put (h : e.Guarded) (hw : e.workers[i]? = some w) (deed : Deed e i w x f) {j : Nat}
    {w' : Worker} (hw' : (e.put i w f).workers[j]? = some w') (locked : w'.phase.hasLock = true) :
    (e.put i w f).lockHolder? w'.host = some j := by
  rw [put_worker? hw] at hw'
  split at hw'
  next same =>
    cases hw'
    subst same
    rw [deed.host_eq]
    obtain ⟨gone, _⟩ | ⟨_, _, _, lock, _⟩ := deed.queues
    · simp [gone, Phase.hasLock] at locked
    · have holder : e.lockHolder? w.host = some j := (lock locked).elim (h.locked hw) id
      exact lockHolder?_put hw deed holder fun gone => by simp [gone, Phase.hasLock] at locked
  next other => exact lockHolder?_put hw deed (h.locked hw' locked) fun _ => other

/-- After a deed, whoever needs a slot still holds one. -/
theorem slotted_put (h : e.Guarded) (hw : e.workers[i]? = some w)
    (hx : e.executors[w.executor]? = some x) (deed : Deed e i w x f) {j : Nat} {w' : Worker}
    {x' : Executor} (hw' : (e.put i w f).workers[j]? = some w')
    (hx' : (e.put i w f).executors[w'.executor]? = some x') (slotted : w'.phase.hasSlot = true) :
    j ∈ x'.slotHolders := by
  rw [put_worker? hw] at hw'
  rw [put_executor? hx] at hx'
  split at hw'
  next same =>
    cases hw'
    subst same
    rw [if_pos deed.executor_eq] at hx'
    cases hx'
    obtain ⟨gone, _⟩ | ⟨_, _, _, _, slot⟩ := deed.queues
    · simp [gone, Phase.hasSlot] at slotted
    · have holder : j ∈ x.slotHolders := (slot slotted).elim (h.slotted hw hx) id
      exact slotHolders_put deed holder fun gone => by simp [gone, Phase.hasSlot] at slotted
  next other =>
    split at hx'
    next mine =>
      cases hx'
      exact slotHolders_put deed (h.slotted hw' (by rw [mine, hx]) slotted) fun _ => other
    · exact h.slotted hw' hx' slotted

theorem single_put (h : e.Guarded) (hw : e.workers[i]? = some w) (deed : Deed e i w x f) :
    (callsInFlight (e.put i w f).history).Nodup := by
  obtain ⟨idle, _, flight⟩ | ⟨_, _, flight⟩ | ⟨_, _, flight⟩ := deed.flight
  · rw [flight, List.nodup_cons]
    refine ⟨fun already => ?_, h.single⟩
    obtain ⟨w', hw', _, calls⟩ := h.calling.mp already
    cases hw.symm.trans hw'
    simp [idle] at calls
  · rw [flight]
    exact h.single.erase _
  · rw [flight]
    exact h.single

/-- The calls in flight change as the worker begins or ends a call, or does neither. -/
theorem mem_flight_put (h : e.Guarded) (hw : e.workers[i]? = some w) (deed : Deed e i w x f)
    (j : Nat) (host : String) :
    (j, host) ∈ callsInFlight (e.put i w f).history ↔
      if j = i then w.host = host ∧ f.worker.phase.isCalling = true
      else (j, host) ∈ callsInFlight e.history := by
  have mine : (i, host) ∈ callsInFlight e.history ↔ w.host = host ∧ w.phase.isCalling = true := by
    rw [h.calling]
    simp [hw]
  obtain ⟨idle, calls, flight⟩ | ⟨calls, idle, flight⟩ | ⟨before, after, flight⟩ := deed.flight
  · rw [flight, List.mem_cons, Prod.mk.injEq]
    split
    next same =>
      subst same
      simp [mine, idle, calls, eq_comm]
    next other => simp [other]
  · rw [flight, h.single.mem_erase_iff]
    split
    next same =>
      subst same
      simp only [mine, calls, idle, ne_eq, Prod.mk.injEq, true_and, and_true]
      simp [eq_comm]
    next other => simp [other]
  · rw [flight]
    split
    next same =>
      subst same
      simp [mine, before, after]
    · rfl

theorem deed (h : e.Guarded) (hw : e.workers[i]? = some w)
    (hx : e.executors[w.executor]? = some x) (deed : Deed e i w x f) : (e.put i w f).Guarded where
  housed := h.housed_put hx deed
  ranked := h.ranked_put hw deed
  locked := h.locked_put hw deed
  slotted := h.slotted_put hw hx deed
  single := h.single_put hw deed
  calling := (h.mem_flight_put hw deed ..).trans (h.calling_put hw deed ..).symm

end Deed

theorem shutdown_slots (x : Executor) : ∀ i ∈ x.slotHolders, i ∈ x.shutdown.slotHolders := by
  intro i hi
  have same : x.shutdown.slotHolders = x.slotHolders := by
    simp [Executor.shutdown, Executor.slotHolders, Executor.slotCount, List.take_take]
  rwa [same]

theorem serve (h : e.Guarded) (request : Request) : (e.serve request).Guarded := by
  cases request with
  | openRegistry => exact h.quiet (.of_same rfl rfl rfl rfl)
  | openExecutor settings registry => exact h.openExecutor settings registry
  | dispatch k commands => exact h.dispatch k commands
  | cancel k => exact h.modifyExecutor k fun _ _ hi => hi
  | shutdown k => exact h.modifyExecutor k shutdown_slots
  | closeChannel k => exact h.modifyExecutor k fun _ _ hi => hi
  | closeRegistry => exact h.quiet (.of_same rfl rfl rfl rfl)
  | ask => exact h.quiet (.of_same rfl rfl rfl rfl)

theorem receive (h : e.Guarded) {k : Nat} {event : TaskEvent}
    (received : e.receive? k = some (event, e')) : e'.Guarded := by
  obtain ⟨x, _, received⟩ := Option.bind_eq_some_iff.mp received
  split at received
  · cases received
  · cases received
    exact h.modifyExecutor k fun _ _ hi => hi

theorem move (h : e.Guarded) {m : Move} (moved : e.step? m = some e') : e'.Guarded := by
  obtain quiet | ⟨i, w, x, f, hw, hx, deed, rfl⟩ := step?_deed h.housed moved
  · exact h.quiet quiet
  · exact h.deed hw hx deed

/-- In every engine that can be reached workers have what they need. -/
theorem of_reachable (reachable : e.Reachable) : e.Guarded := by
  refine reachable.induction (P := Guarded) empty_guarded fun {e e' a} h done => ?_
  cases a with
  | move m => exact h.move done
  | serve request =>
    cases done
    exact h.serve request
  | receive k =>
    obtain ⟨⟨event, e'⟩, received, rfl⟩ := Option.map_eq_some_iff.mp done
    exact h.receive received

end Guarded

/-! ## Exclusion -/

theorem length_le_one_of_nodup {α : Type} {l : List α} (nodup : l.Nodup)
    (same : ∀ a ∈ l, ∀ b ∈ l, a = b) : l.length ≤ 1 := by
  match l with
  | [] => simp
  | [_] => simp
  | a :: b :: l =>
    have : a = b := same a (by simp) b (by simp)
    simp [this] at nodup

/-- Those who call a host have its lock, and there is one holder. -/
theorem Guarded.calls_to_host {e : Engine} (h : e.Guarded) (host : String) :
    ((callsInFlight e.history).filter fun c => c.2 = host).length ≤ 1 := by
  refine length_le_one_of_nodup (h.single.filter _) ?_
  have holder {c : Nat × String}
      (hc : c ∈ (callsInFlight e.history).filter fun c => c.2 = host) :
      c.2 = host ∧ e.lockHolder? host = some c.1 := by
    obtain ⟨hc, there⟩ := List.mem_filter.mp hc
    have there : c.2 = host := by simpa using there
    obtain ⟨w, hw, at_host, calls⟩ := h.calling.mp hc
    have locked : w.phase.hasLock = true :=
      Phase.hasLock_of_hasSlot (Phase.hasSlot_of_isCalling calls)
    refine ⟨there, ?_⟩
    rw [← there, ← at_host]
    exact h.locked hw locked
  intro a ha b hb
  obtain ⟨host_a, lock_a⟩ := holder ha
  obtain ⟨host_b, lock_b⟩ := holder hb
  have same : a.1 = b.1 := Option.some.inj (lock_a.symm.trans lock_b)
  exact Prod.ext same (host_a.trans host_b.symm)

/-- Those who call for an executor have one of its slots. -/
theorem Guarded.calls_of_executor {e : Engine} (h : e.Guarded) {k : Nat} {x : Executor}
    (hx : e.executors[k]? = some x) : (e.callsOf k).length ≤ x.slotCount := by
  have worker {c : Nat × String} (hc : c ∈ e.callsOf k) : ∃ w, e.workers[c.1]? = some w ∧
      w.host = c.2 ∧ w.executor = k ∧ w.phase.isCalling = true := by
    obtain ⟨hc, mine⟩ := List.mem_filter.mp hc
    obtain ⟨w, hw, at_host, calls⟩ := h.calling.mp hc
    exact ⟨w, hw, at_host, by simpa [hw] using mine, calls⟩
  have nodup : ((e.callsOf k).map Prod.fst).Nodup := by
    refine (h.single.filter _).map_on fun a ha b hb same => ?_
    obtain ⟨w, hw, host_a, _⟩ := worker ha
    obtain ⟨w', hw', host_b, _⟩ := worker hb
    rw [same] at hw
    cases hw.symm.trans hw'
    exact Prod.ext same (host_a.symm.trans host_b)
  have slots : (e.callsOf k).map Prod.fst ⊆ x.slotHolders := by
    intro i hi
    obtain ⟨c, hc, rfl⟩ := List.mem_map.mp hi
    obtain ⟨w, hw, _, mine, calls⟩ := worker hc
    exact h.slotted hw (by rw [mine, hx]) (Phase.hasSlot_of_isCalling calls)
  calc (e.callsOf k).length = ((e.callsOf k).map Prod.fst).length := (List.length_map _).symm
    _ ≤ x.slotHolders.length := (List.subperm_of_subset nodup slots).length_le
    _ ≤ x.slotCount := List.length_take_le ..

/-- However many executors there are, and whatever happens in whatever order: at most one call is in
flight to a host, and an executor has at most as many calls in flight, so at most as many hosts, as
its settings allow; zero counts as one. -/
theorem calls_exclude_each_other {e : Engine} (reachable : e.Reachable) :
    (∀ host, ((callsInFlight e.history).filter fun c => c.2 = host).length ≤ 1) ∧
    ∀ k x, e.executors[k]? = some x →
      (e.callsOf k).length ≤ max 1 x.settings.maxConcurrentHosts := by
  have guarded := Guarded.of_reachable reachable
  exact ⟨guarded.calls_to_host, fun _ _ hx => guarded.calls_of_executor hx⟩

/-- The workers of two executors come to the same host, and the first one calls it. -/
def crowdActs : List Act :=
  let command : TaskCommand :=
    ⟨.ofNat 0, 0, "alpha", "db", "server", .stop, "1.0", .upgrade, 1⟩
  [.serve (.openRegistry .default), .serve (.openExecutor .default 0),
    .serve (.openExecutor .default 0), .serve (.dispatch 0 [command]),
    .serve (.dispatch 1 [command]), .move (.work 0), .move (.work 1)] ++
  List.replicate 4 (.move (.work 0)) ++
  [.move (.supervise 0 "alpha"), .move (.work 0), .move (.supervise 0 "alpha"),
    .move (.pong 0 "alpha" (some .epoch))] ++
  List.replicate 4 (.move (.work 0))

/-- The engine after these acts. -/
def crowd : Engine := ((empty .epoch).play? crowdActs).getD (empty .epoch)

theorem calls_exclude_each_other_crowd :
    crowd.Reachable ∧ callsInFlight crowd.history = [(0, "alpha")] ∧
      ((callsInFlight crowd.history).filter fun c => c.2 = "alpha").length ≤ 1 ∧
      (crowd.callsOf 0).length ≤ 8 := by
  have reachable : crowd.Reachable := ⟨.epoch, crowdActs, by decide +kernel⟩
  have settings : (crowd.executors[0]?).map Executor.settings = some .default := by decide +kernel
  obtain ⟨x, hx, same⟩ := Option.map_eq_some_iff.mp settings
  obtain ⟨hosts, slots⟩ := calls_exclude_each_other reachable
  refine ⟨reachable, by decide +kernel, hosts "alpha", ?_⟩
  have count : max 1 x.settings.maxConcurrentHosts = 8 := by rw [same]; rfl
  exact count ▸ slots 0 x hx

end Engine

end Rollout
