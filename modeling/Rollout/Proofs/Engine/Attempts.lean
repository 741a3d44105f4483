-- SUMMARY: The calls for a task and their attempts: how they are counted, and what a deed of a worker adds to them.
import Rollout.Proofs.Engine.Crew

/-!
# Attempts

The calls for a task of a run can be read off the history, each with the worker that made it and with its
attempt. Whoever calls for a task again repeats a call; a worker does so until the settings forbid it. An
attempt is one more than the retries of the task, and the retries of the worker are added. So attempts rise
as long as the retries of the task account for the calls that were repeated. `Ledger` says what holds of the
calls at any time.
-/
namespace Rollout

namespace Engine

/-- The calls for a task of a run: who made them and with which attempts, the latest first. -/
def callsFor (history : List Entry) (run : RunId) (task : Nat) : List (Nat × UInt32) :=
  history.filterMap fun entry => match entry.happening with
    | .callBegan worker c =>
      if c.runId = run ∧ c.taskId = task then some (worker, c.attempt) else none
    | _ => none

/-- The attempts of one worker, the latest first. -/
def attemptsBy (worker : Nat) (calls : List (Nat × UInt32)) : List UInt32 :=
  (calls.filter fun call => call.1 = worker).map Prod.snd

/-- How many calls were repeated: their workers had called before. -/
def redispatches : List (Nat × UInt32) → Nat
  | [] => 0
  | (worker, _) :: past => redispatches past + if worker ∈ past.map Prod.fst then 1 else 0

/-- So many attempts from the first one on, the latest first. -/
def consecutive (first : UInt32) (count : Nat) : List UInt32 :=
  ((List.range count).map fun j => first + .ofNat j).reverse

theorem consecutive_succ (first : UInt32) (count : Nat) :
    consecutive first (count + 1) = (first + .ofNat count) :: consecutive first count := by
  simp [consecutive, List.range_succ]

theorem consecutive_length (first : UInt32) (count : Nat) : (consecutive first count).length = count := by
  simp [consecutive]

theorem attemptsBy_cons (worker caller : Nat) (attempt : UInt32) (calls : List (Nat × UInt32)) :
    attemptsBy worker ((caller, attempt) :: calls) =
      if caller = worker then attempt :: attemptsBy worker calls else attemptsBy worker calls := by
  by_cases mine : caller = worker <;> simp [attemptsBy, mine]

/-- A worker called before just when it made an attempt. -/
theorem mem_callers {worker : Nat} {calls : List (Nat × UInt32)} :
    worker ∈ calls.map Prod.fst ↔ attemptsBy worker calls ≠ [] := by
  simp [attemptsBy]

-- ---------------------------------------------------------------------------
-- Ledgers
-- ---------------------------------------------------------------------------

/-- What holds of the calls for a task that was put back in the queue `manual` times. Every time at most
`limit` calls are made, and `sent` calls were made since the last time. -/
structure Ledger (calls : List (Nat × UInt32)) (limit manual sent : Nat) : Prop where
  capped : sent ≤ limit
  total : calls.length ≤ manual * limit + sent
  /-- The attempts rise. The last one is one more than the calls that were repeated and the times that the
  task was put back, unless no call was made since. -/
  rising : ∃ values : List Nat, calls.map Prod.snd = values.map UInt32.ofNat ∧
    values.Pairwise (fun later earlier => earlier < later) ∧
    ∀ v ∈ values, v ≤ redispatches calls + manual + min sent 1

namespace Ledger

variable {calls : List (Nat × UInt32)} {limit manual sent : Nat}

theorem empty (limit : Nat) : Ledger [] limit 0 0 :=
  ⟨Nat.zero_le _, by simp, [], rfl, .nil, by simp⟩

/-- The task is put back in the queue. -/
theorem requeue (h : Ledger calls limit manual sent) : Ledger calls limit (manual + 1) 0 := by
  obtain ⟨values, attempts, sorted, bounded⟩ := h.rising
  refine ⟨Nat.zero_le _, ?_, values, attempts, sorted, fun v hv => ?_⟩
  · have := h.total
    have := h.capped
    rw [Nat.add_mul]
    omega
  · have := bounded v hv
    omega

/-- A worker makes another call, as long as it may. Its attempt is one more than the retries of the task, and
its own retries are added; afterwards these retries account for the calls again. -/
theorem call (h : Ledger calls limit manual sent) (allowed : sent < limit) {worker : Nat}
    (own : (attemptsBy worker calls).length = sent) {retries : UInt32}
    (accounted : retries + .ofNat (sent - 1) = .ofNat (redispatches calls + manual)) :
    Ledger ((worker, retries + 1 + .ofNat sent) :: calls) limit manual (sent + 1) ∧
      retries + .ofNat sent =
        .ofNat (redispatches ((worker, retries + 1 + .ofNat sent) :: calls) + manual) := by
  obtain ⟨values, attempts, sorted, bounded⟩ := h.rising
  -- The call is the first one of its worker, or it repeats one.
  have repeated : redispatches ((worker, retries + 1 + .ofNat sent) :: calls) =
      redispatches calls + min sent 1 := by
    simp only [redispatches, mem_callers]
    cases sent with
    | zero => simp [List.length_eq_zero_iff.mp own]
    | succ n => simp [List.ne_nil_of_length_eq_add_one own]
  have sum : retries + .ofNat sent = .ofNat (redispatches calls + min sent 1 + manual) := by
    cases sent with
    | zero => simpa using accounted
    | succ n =>
      have one : redispatches calls + min (n + 1) 1 + manual = redispatches calls + manual + 1 := by omega
      rw [Nat.add_sub_cancel] at accounted
      rw [one, UInt32.ofNat_add n, UInt32.ofNat_add (_ + _), ← accounted, UInt32.add_assoc]
  have attempt : retries + 1 + .ofNat sent = .ofNat (redispatches calls + min sent 1 + manual + 1) := by
    rw [UInt32.ofNat_add _ 1, ← sum, UInt32.add_assoc, UInt32.add_comm 1, ← UInt32.add_assoc]
    rfl
  refine ⟨⟨allowed, ?_, (redispatches calls + min sent 1 + manual + 1) :: values, ?_, ?_, ?_⟩, ?_⟩
  · have := h.total
    rw [List.length_cons]
    omega
  · rw [List.map_cons, List.map_cons, attempts, attempt]
  · refine List.pairwise_cons.mpr ⟨fun v hv => ?_, sorted⟩
    have := bounded v hv
    omega
  · rw [repeated]
    intro v hv
    obtain rfl | hv := List.mem_cons.mp hv
    · omega
    · have := bounded v hv
      omega
  · rw [repeated, sum]

/-- As long as the numbers do not overflow, no attempt is made twice. -/
theorem attempts_rise (h : Ledger calls limit manual sent)
    (small : 1 + redispatches calls + manual < UInt32.size) :
    (calls.map Prod.snd).Pairwise fun later earlier => earlier < later := by
  obtain ⟨values, attempts, sorted, bounded⟩ := h.rising
  rw [attempts, List.pairwise_map]
  refine List.Pairwise.imp_of_mem (fun {v u} hv hu below => ?_) sorted
  have := bounded v hv
  have := bounded u hu
  exact (UInt32.ofNat_lt_iff_lt (by omega) (by omega)).mpr below

theorem length_le (h : Ledger calls limit manual sent) : calls.length ≤ (1 + manual) * limit := by
  have := h.total
  have := h.capped
  rw [Nat.add_mul]
  omega

end Ledger

-- ---------------------------------------------------------------------------
-- History
-- ---------------------------------------------------------------------------

variable {e e' : Engine} {k : Nat} {w : Worker} {x : Executor} {f : Effect}

/-- What happens besides calls does not count. -/
theorem callsFor_silent {later history : List Entry}
    (silent : ∀ entry ∈ later, ∀ k c, entry.happening ≠ .callBegan k c) (run : RunId) (task : Nat) :
    callsFor (later ++ history) run task = callsFor history run task := by
  have nothing : callsFor later run task = [] := by
    refine List.filterMap_eq_nil_iff.mpr fun entry hentry => ?_
    split
    next call => exact absurd call (silent entry hentry _ _)
    · rfl
  rw [callsFor, List.filterMap_append]
  exact congrArg (· ++ callsFor history run task) nothing

theorem Quiet.callsFor (q : Quiet e e') (run : RunId) (task : Nat) :
    Engine.callsFor e'.history run task = Engine.callsFor e.history run task := by
  obtain ⟨pings, history, all⟩ := q.history
  rw [history]
  refine callsFor_silent (fun p hp k c => ?_) run task
  obtain ⟨registry, request, ping⟩ := all p hp
  simp [ping]

/-- The worker `w` at position `k` sends the command `c`, which comes first, after so many retries. -/
structure Calls (e : Engine) (k : Nat) (w : Worker) (f : Effect) (retries : UInt32) (c : TaskCommand) :
    Prop where
  phase : w.phase = .announced retries
  command : w.commands.head? = some c
  commands : f.worker.commands = w.commands
  next : ∃ position deadline, f.worker.phase = .calling retries position deadline
  calls : ∀ run task, callsFor (e.put k w f).history run task =
    if c.runId = run ∧ c.taskId = task then
      (k, c.attempt + retries) :: callsFor e.history run task
    else callsFor e.history run task

/-- A deed makes no call, or it is the call that the worker announced. -/
theorem Deed.callsFor (deed : Deed e k w x f) :
    (∀ run task, Engine.callsFor (e.put k w f).history run task = Engine.callsFor e.history run task) ∨
      ∃ retries c, Calls e k w f retries c := by
  cases deed with
  | @call retries c phase command =>
    refine .inr ⟨retries, c, phase, command, rfl, ⟨_, _, rfl⟩, fun run task => ?_⟩
    by_cases mine : c.runId = run ∧ c.taskId = task <;> simp [Engine.callsFor, put, mine]
  | arrive | leave | lock | settle | knock | pass | turnBack | giveUp | announce | answer | expire
  | conclude | report => exact .inl fun _ _ => rfl

theorem mem_callsFor {history : List Entry} {run : RunId} {task : Nat} {call : Nat × UInt32}
    (h : call ∈ callsFor history run task) :
    ∃ entry ∈ history, ∃ c, entry.happening = .callBegan call.1 c ∧ c.runId = run := by
  obtain ⟨entry, hentry, made⟩ := List.mem_filterMap.mp h
  split at made
  next worker c began =>
    split at made
    next mine =>
      cases made
      exact ⟨entry, hentry, c, began, mine.1⟩
    · cases made
  · cases made

-- ---------------------------------------------------------------------------
-- Workers
-- ---------------------------------------------------------------------------

end Engine

/-- How many calls may be made for a command. -/
def DispatchSettings.callLimit (s : DispatchSettings) : Nat := 1 + s.maxTaskRetries.toNat

/-- How many calls a worker in this phase made for its first command, of at most `limit` calls. -/
def Phase.Sent (limit count : Nat) : Phase → Prop
  | .sending retries | .announced retries => count = retries.toNat ∧ count < limit
  | .calling retries .. | .called retries _ => count = retries.toNat + 1 ∧ count ≤ limit
  | .reporting outcome => outcome.retries = .ofNat (count - 1) ∧ count ≤ limit
  | .spawned | .awaitingLock | .awaitingSlot | .choosing | .atGate _ | .gone => count = 0

/-- How many calls a worker made for one of its commands: none, unless the command comes first. -/
def Worker.Sent (w : Worker) (limit : Nat) (c : TaskCommand) (count : Nat) : Prop :=
  if w.commands.head? = some c then w.phase.Sent limit count else count = 0

namespace Engine

theorem failed_retries (fault : Fault) (retries : UInt32) :
    (TaskOutcome.failed fault retries).retries = retries := by
  unfold TaskOutcome.failed
  split <;> rfl

/-- After a call the worker may make another one, or it says how many it made. -/
theorem afterCall_sent {retries : UInt32} {count : Nat} (fault : Option Fault)
    (sent : (Phase.called retries fault).Sent x.settings.callLimit count) :
    (afterCall x retries fault).Sent x.settings.callLimit count := by
  obtain ⟨rfl, capped⟩ := sent
  have told : retries = .ofNat (retries.toNat + 1 - 1) := by simp
  cases fault with
  | none => exact ⟨told, capped⟩
  | some fault =>
    simp only [afterCall]
    split
    next again =>
      obtain ⟨⟨_, left⟩, _⟩ : (_ ∧ retries < x.settings.maxTaskRetries) ∧ _ := by
        simpa [sendsAgain] using again
      have left : retries.toNat < x.settings.maxTaskRetries.toNat := UInt32.lt_iff_toNat_lt.mp left
      have next : (retries + 1).toNat = retries.toNat + 1 := by
        have := x.settings.maxTaskRetries.toNat_lt
        rw [UInt32.toNat_add, UInt32.toNat_one]
        omega
      refine ⟨next.symm, ?_⟩
      rw [DispatchSettings.callLimit]
      omega
    · exact ⟨(failed_retries fault retries).trans told, capped⟩

/-- A worker that sends its command made fewer calls than it may, and makes one more. -/
theorem Calls.sent {retries : UInt32} {c : TaskCommand} (calls : Calls e k w f retries c) {limit count : Nat}
    (sent : w.phase.Sent limit count) :
    count = retries.toNat ∧ count < limit ∧ f.worker.phase.Sent limit (count + 1) := by
  obtain ⟨_, _, next⟩ := calls.next
  rw [calls.phase] at sent
  obtain ⟨rfl, allowed⟩ := sent
  exact ⟨rfl, allowed, next ▸ ⟨rfl, allowed⟩⟩

/-- What a deed adds to the calls of a worker, and what the worker says of them. -/
inductive Toil (e : Engine) (k : Nat) (w : Worker) (x : Executor) (f : Effect) : Prop
  /-- The worker goes on without a call. -/
  | goesOn (commands : f.worker.commands = w.commands)
      (calls : ∀ run task, callsFor (e.put k w f).history run task = callsFor e.history run task)
      (sent : w.commands ≠ [] → ∀ count, w.phase.Sent x.settings.callLimit count →
        f.worker.phase.Sent x.settings.callLimit count)
  /-- The worker makes a call for its first command. -/
  | call {retries : UInt32} {c : TaskCommand} (calls : Calls e k w f retries c)
  /-- The worker says that its first command is over, and goes on with the next one. -/
  | report {outcome : TaskOutcome} {c : TaskCommand} (phase : w.phase = .reporting outcome)
      (command : w.commands.head? = some c) (commands : f.worker.commands = w.commands.tail)
      (channel : f.executor.channel = x.channel ++ [.finished c.taskId outcome])
      (calls : ∀ run task, callsFor (e.put k w f).history run task = callsFor e.history run task)
      (next : f.worker.phase = .choosing)

/-- As long as the executor serves, a worker counts its calls. -/
theorem Deed.toil (deed : Deed e k w x f) (serving : x.IsServing) : Toil e k w x f := by
  obtain calls | ⟨_, _, calls⟩ := deed.callsFor
  · cases deed with
    | arrive phase | lock phase | settle phase | knock phase | announce phase | answer _ phase
    | expire phase =>
      refine .goesOn rfl calls fun _ count sent => ?_
      rw [phase] at sent
      exact sent
    | leave why =>
      refine .goesOn rfl calls fun busy => ?_
      cases why with
      | noSlots _ _ closed | noSlot _ _ closed => simp [serving.isOpen] at closed
      | done _ why => exact absurd (why.resolve_right (by simp [serving.going])) busy
      | unheard _ silent => simp [serving.heard] at silent
    | pass phase =>
      refine .goesOn rfl calls fun _ count sent => ?_
      rw [phase] at sent
      obtain rfl : count = 0 := sent
      exact ⟨rfl, Nat.lt_of_lt_of_le Nat.one_pos (Nat.le_add_right ..)⟩
    | turnBack phase =>
      refine .goesOn rfl calls fun _ count sent => ?_
      rw [phase] at sent
      obtain rfl : count = 0 := sent
      exact ⟨failed_retries _ _, Nat.zero_le _⟩
    | giveUp _ _ silent => simp [serving.heard] at silent
    | conclude phase =>
      refine .goesOn rfl calls fun _ count sent => ?_
      rw [phase] at sent
      exact afterCall_sent _ sent
    | report phase command => exact .report phase command rfl rfl calls rfl
    | @call _ c _ command =>
      -- A call is one more call.
      have more := congrArg List.length (calls c.runId c.taskId)
      simp [Engine.callsFor, put] at more
  · exact .call calls

end Engine

end Rollout
