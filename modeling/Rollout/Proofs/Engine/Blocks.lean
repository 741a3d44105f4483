-- SUMMARY: The events of a dispatch: on each host one block for each command, in the order of the commands.
import Rollout.Proofs.Engine.Logs
import Rollout.Proofs.Engine.Rest

/-!
# Blocks

As long as its executor serves, a worker does its commands one after another, and what it does for a command
is a block of its log. A command that the gate refuses is reported at once. Otherwise there is one attempt
after another, each announced before its call, up to the first one that succeeds, that fails with a fault
that is not retryable, or that is the last one which the settings allow; then the end is reported.
-/
namespace Rollout.Engine

-- ---------------------------------------------------------------------------
-- Jobs
-- ---------------------------------------------------------------------------

/-- What becomes of a command: the gate refuses it, or attempts are made, which end in this order. -/
inductive Treatment where
  | refused (fault : Fault)
  | tried (endings : List Ending)
  deriving DecidableEq, Repr

/-- A command that is over, with the inquiry about its host and what became of it. -/
structure Job where
  command : TaskCommand
  inquiry : Nat
  treatment : Treatment
  deriving DecidableEq, Repr

/-- One attempt after another: each is announced, then the call is made, and it ends. -/
def attempts (executor worker : Nat) (c : TaskCommand) (endings : List Ending) : List Happening :=
  endings.zipIdx.flatMap fun (ending, n) =>
    begun executor worker c (.ofNat n) ++ [ending.happening worker c.taskId]

/-- So many attempts failed in a way that lets the worker make another one. -/
def Repeats (host : String) (s : DispatchSettings) (endings : List Ending) : Prop :=
  endings.length ≤ s.maxTaskRetries.toNat ∧
    ∀ ending ∈ endings, ∃ fault, ending.fault? host s = some fault ∧ fault.isRetryable = true

/-- After so many attempts this ending is the last. -/
def Concludes (host : String) (s : DispatchSettings) (before : Nat) (ending : Ending) : Prop :=
  ∀ fault, ending.fault? host s = some fault →
    fault.isRetryable = false ∨ before = s.maxTaskRetries.toNat

/-- The treatment is that of a command on a host. -/
inductive Treatment.IsComplete (host : String) (s : DispatchSettings) : Treatment → Prop
  | refused (fault : Fault) : IsComplete host s (.refused fault)
  | tried {before : List Ending} {last : Ending} (repeats : Repeats host s before)
      (concludes : Concludes host s before.length last) :
      IsComplete host s (.tried (before ++ [last]))

namespace Job

/-- How the command is reported to have ended. The retries are the attempts before the last one. -/
def outcome (host : String) (s : DispatchSettings) (j : Job) : TaskOutcome :=
  match j.treatment with
  | .refused fault => .failed fault 0
  | .tried endings =>
    outcomeOf (.ofNat (endings.length - 1)) (endings.getLast?.bind (Ending.fault? host s))

/-- What a worker does for the command before it reports the end. -/
def deeds (executor worker : Nat) (j : Job) : List Happening :=
  match j.treatment with
  | .refused _ => []
  | .tried endings => attempts executor worker j.command endings

/-- All that a worker does for the command. -/
def block (executor worker : Nat) (host : String) (s : DispatchSettings) (j : Job) :
    List Happening :=
  j.deeds executor worker ++
    [.reported executor (.finished j.command.taskId (j.outcome host s))]

/-- What the executor reports about the command: the start of each attempt, and the end. -/
def events (host : String) (s : DispatchSettings) (j : Job) : List TaskEvent :=
  let starts := match j.treatment with
    | .refused _ => []
    | .tried endings => (List.range endings.length).map fun n =>
      .started j.command.taskId (j.command.attempt + .ofNat n)
  starts ++ [.finished j.command.taskId (j.outcome host s)]

/-- The inquiry about the host, which is none of the first `n`, ended accordingly, and the treatment is
complete. -/
structure IsDone (e : Engine) (host : String) (x : Executor) (n : Nat) (j : Job) : Prop where
  new : n ≤ j.inquiry
  asked : ∃ state, e.inquiries[j.inquiry]? = some ⟨x.registry, host, .pass, state⟩ ∧
    match j.treatment with
    | .refused fault => state = .refused fault
    | .tried _ => ∃ session, state = .passed session
  complete : j.treatment.IsComplete host x.settings

end Job

-- ---------------------------------------------------------------------------
-- Laws
-- ---------------------------------------------------------------------------

theorem attempts_concat (executor worker : Nat) (c : TaskCommand) (endings : List Ending)
    (ending : Ending) : attempts executor worker c (endings ++ [ending]) =
      attempts executor worker c endings ++ (begun executor worker c (.ofNat endings.length) ++
        [ending.happening worker c.taskId]) := by
  simp [attempts, List.zipIdx_append]

theorem attempts_events (executor worker : Nat) (c : TaskCommand) (endings : List Ending) :
    (attempts executor worker c endings).filterMap Happening.event? =
      (List.range endings.length).map fun n => .started c.taskId (c.attempt + .ofNat n) := by
  induction endings using List.reverseRecOn with
  | nil => rfl
  | append_singleton endings ending ih =>
    rw [attempts_concat, List.filterMap_append, ih, List.length_append, List.length_singleton,
      List.range_succ, List.map_append]
    cases ending <;> rfl

/-- The events of a block. -/
theorem Job.block_events (executor worker : Nat) (host : String) (s : DispatchSettings) (j : Job) :
    (j.block executor worker host s).filterMap Happening.event? = j.events host s := by
  rw [block, List.filterMap_append, deeds, events]
  cases j.treatment with
  | refused fault => rfl
  | tried endings =>
    dsimp only
    rw [attempts_events]
    rfl

theorem Repeats.nil (host : String) (s : DispatchSettings) : Repeats host s [] :=
  ⟨Nat.zero_le _, by simp⟩

/-- After attempts that let the worker make another one, the next ending is the last, or it lets the worker
make another one too. -/
theorem Repeats.next {host : String} {s : DispatchSettings} {endings : List Ending}
    (repeats : Repeats host s endings) (ending : Ending) :
    Concludes host s endings.length ending ∨ Repeats host s (endings ++ [ending]) := by
  by_cases concludes : Concludes host s endings.length ending
  · exact .inl concludes
  · simp only [Concludes, not_forall, not_or, Bool.not_eq_false] at concludes
    obtain ⟨fault, failed, retryable, left⟩ := concludes
    refine .inr ⟨?_, fun e he => ?_⟩
    · have := repeats.1
      rw [List.length_append, List.length_singleton]
      omega
    · obtain he | he := List.mem_append.mp he
      · exact repeats.2 e he
      · rw [List.mem_singleton.mp he]
        exact ⟨fault, failed, retryable⟩

variable {e e' : Engine} {i : Nat} {w : Worker} {x x₀ : Executor} {f : Effect}

/-- An inquiry that is over stays as it is. -/
theorem Advances.settled (advances : Advances e e') {j : Nat} {q : Inquiry}
    (hq : e.inquiries[j]? = some q)
    (settled : (∃ s, q.state = .passed s) ∨ ∃ fault, q.state = .refused fault) :
    e'.inquiries[j]? = some q := by
  obtain ⟨state, hq', advance⟩ := advances j q hq
  have same : state = q.state := by
    cases advance with
    | same => rfl
    | asks pending =>
      obtain opening | ⟨s, answered⟩ := pending
      · simp [opening] at settled
      · simp [answered] at settled
    | answered asked | dropped asked => simp [asked] at settled
    | decided answered => simp [answered] at settled
  rw [hq', same]

theorem Job.IsDone.advances {host : String} {n : Nat} {j : Job} (done : j.IsDone e host x₀ n)
    (advances : Advances e e') : j.IsDone e' host x₀ n := by
  obtain ⟨state, asked, ended⟩ := done.asked
  refine ⟨done.new, ⟨state, advances.settled asked ?_, ended⟩, done.complete⟩
  split at ended
  · exact .inr ⟨_, ended⟩
  · exact .inl ended

-- ---------------------------------------------------------------------------
-- Workers
-- ---------------------------------------------------------------------------

/-- A command for a host passed the gate, and the attempts so far lead to another one. The inquiry is none
of the first `n`. -/
structure Trying (e : Engine) (host : String) (x : Executor) (n : Nat) (tries : List Ending) : Prop where
  passed : ∃ (q : Nat) (s : Session), n ≤ q ∧
    e.inquiries[q]? = some ⟨x.registry, host, .pass, .passed s⟩
  repeats : Repeats host x.settings tries

/-- What a worker has done so far for its first command, whose inquiry is none of the first `n`. -/
def Underway (e : Engine) (i : Nat) (w : Worker) (x : Executor) (n : Nat)
    (current : List Happening) : Prop :=
  match w.phase with
  | .spawned | .awaitingLock | .awaitingSlot | .choosing => current = []
  | .gone => current = [] ∧ w.commands = []
  | .atGate q => current = [] ∧ w.commands ≠ [] ∧ n ≤ q ∧
    ∃ state, e.inquiries[q]? = some ⟨x.registry, w.host, .pass, state⟩
  | .sending retries => ∃ c tries, w.commands.head? = some c ∧ Trying e w.host x n tries ∧
    retries = .ofNat tries.length ∧ current = attempts w.executor i c tries
  | .announced retries => ∃ c tries, w.commands.head? = some c ∧ Trying e w.host x n tries ∧
    retries = .ofNat tries.length ∧
    current = attempts w.executor i c tries ++
      [.reported w.executor (.started c.taskId (c.attempt + retries))]
  | .calling retries _ _ => ∃ c tries, w.commands.head? = some c ∧ Trying e w.host x n tries ∧
    retries = .ofNat tries.length ∧
    current = attempts w.executor i c tries ++ begun w.executor i c retries
  | .called retries fault => ∃ c tries ending, w.commands.head? = some c ∧
    Trying e w.host x n tries ∧ retries = .ofNat tries.length ∧
    ending.fault? w.host x.settings = fault ∧
    current = attempts w.executor i c (tries ++ [ending])
  | .reporting outcome => ∃ j : Job, w.commands.head? = some j.command ∧ j.IsDone e w.host x n ∧
    outcome = j.outcome w.host x.settings ∧ current = j.deeds w.executor i

/-- The log of a worker: a block for each of the commands that are over, and what is done for the next. Each
command has an inquiry of its own, which is none of the first `n`. -/
structure Recorded (e : Engine) (i : Nat) (w : Worker) (x : Executor) (n : Nat)
    (commands : List TaskCommand) (log : List Happening) (jobs : List Job) (m : Nat)
    (current : List Happening) : Prop where
  order : commands = jobs.map Job.command ++ w.commands
  done : ∀ j ∈ jobs, j.IsDone e w.host x n
  own : (jobs.map Job.inquiry).Pairwise (· < ·)
  before : ∀ j ∈ jobs, j.inquiry < m
  first : n ≤ m
  next : m ≤ e.inquiries.length
  blocks : log = jobs.flatMap (Job.block w.executor i w.host x.settings) ++ current
  underway : Underway e i w x m current

/-- The log of a worker is recorded. -/
def Logged (e : Engine) (i : Nat) (w : Worker) (x : Executor) (n : Nat) (commands : List TaskCommand)
    (log : List Happening) : Prop :=
  ∃ jobs m current, Recorded e i w x n commands log jobs m current

theorem Trying.advances {host : String} {n : Nat} {tries : List Ending}
    (trying : Trying e host x₀ n tries) (advances : Advances e e') : Trying e' host x₀ n tries := by
  obtain ⟨q, s, new, passed⟩ := trying.passed
  exact ⟨⟨q, s, new, advances.settled passed (.inl ⟨s, rfl⟩)⟩, trying.repeats⟩

/-- A worker goes on as it was when only inquiries and supervisors move. -/
theorem Underway.advances {n : Nat} {current : List Happening}
    (underway : Underway e i w x₀ n current) (advances : Advances e e') :
    Underway e' i w x₀ n current := by
  cases phase : w.phase with
  | atGate q =>
    simp only [Underway, phase] at underway ⊢
    obtain ⟨none_yet, busy, new, state, asked⟩ := underway
    obtain ⟨state', asked', _⟩ := advances q _ asked
    exact ⟨none_yet, busy, new, state', asked'⟩
  | sending | announced | calling =>
    simp only [Underway, phase] at underway ⊢
    obtain ⟨c, tries, command, trying, rest⟩ := underway
    exact ⟨c, tries, command, trying.advances advances, rest⟩
  | called =>
    simp only [Underway, phase] at underway ⊢
    obtain ⟨c, tries, ending, command, trying, rest⟩ := underway
    exact ⟨c, tries, ending, command, trying.advances advances, rest⟩
  | reporting =>
    simp only [Underway, phase] at underway ⊢
    obtain ⟨j, command, done, rest⟩ := underway
    exact ⟨j, command, done.advances advances, rest⟩
  | spawned | awaitingLock | awaitingSlot | choosing | gone =>
    simpa only [Underway, phase] using underway

theorem Advances.length_le (advances : Advances e e') : e.inquiries.length ≤ e'.inquiries.length := by
  by_contra shorter
  obtain ⟨_, later, _⟩ := advances e'.inquiries.length _ (List.getElem?_eq_getElem (by omega))
  simp at later

theorem Logged.advances {n : Nat} {commands : List TaskCommand} {log : List Happening}
    (logged : Logged e i w x₀ n commands log) (advances : Advances e e') :
    Logged e' i w x₀ n commands log := by
  obtain ⟨jobs, m, current, r⟩ := logged
  exact ⟨jobs, m, current, { r with
    done := fun j hj => (r.done j hj).advances advances
    next := r.next.trans advances.length_le
    underway := r.underway.advances advances }⟩

/-! ## Deeds -/

/-- A command whose last attempt ended is over. -/
theorem Trying.ended {n : Nat} {c : TaskCommand} {tries : List Ending}
    (trying : Trying e w.host x₀ n tries) (command : w.commands.head? = some c) {ending : Ending}
    (concludes : Concludes w.host x₀.settings tries.length ending) :
    ∃ j : Job, w.commands.head? = some j.command ∧ j.IsDone e w.host x₀ n ∧
      outcomeOf (.ofNat tries.length) (ending.fault? w.host x₀.settings) =
        j.outcome w.host x₀.settings ∧
      attempts w.executor i c (tries ++ [ending]) = j.deeds w.executor i := by
  obtain ⟨q, s, new, passed⟩ := trying.passed
  refine ⟨⟨c, q, .tried (tries ++ [ending])⟩, command,
    ⟨new, ⟨_, passed, s, rfl⟩, .tried trying.repeats concludes⟩, ?_, rfl⟩
  simp [Job.outcome]

/-- After a call the worker makes another attempt just when the ending was not the last. -/
theorem Repeats.afterCall {host : String} {tries : List Ending} (repeats : Repeats host x₀.settings tries)
    (ages : x₀.Ages x) (serving : x.IsServing) (ending : Ending) :
    (Repeats host x₀.settings (tries ++ [ending]) ∧
      Engine.afterCall x (.ofNat tries.length) (ending.fault? host x₀.settings) =
        .sending (.ofNat (tries ++ [ending]).length)) ∨
    (Concludes host x₀.settings tries.length ending ∧
      Engine.afterCall x (.ofNat tries.length) (ending.fault? host x₀.settings) =
        .reporting (outcomeOf (.ofNat tries.length) (ending.fault? host x₀.settings))) := by
  have small := x₀.settings.maxTaskRetries.toNat_lt
  have left : UInt32.ofNat tries.length < x.settings.maxTaskRetries ↔
      tries.length < x₀.settings.maxTaskRetries.toNat := by
    have := repeats.1
    rw [ages.settings, UInt32.lt_iff_toNat_lt, UInt32.toNat_ofNat', Nat.mod_eq_of_lt (by omega)]
  obtain concludes | longer := repeats.next ending
  · refine .inr ⟨concludes, ?_⟩
    cases failed : ending.fault? host x₀.settings with
    | none => rfl
    | some fault =>
      have last : sendsAgain x fault (.ofNat tries.length) = false := by
        obtain final | full := concludes fault failed
        · simp [sendsAgain, final]
        · have none_left := left.not.mpr (by omega)
          simp [sendsAgain, none_left]
      simp [Engine.afterCall, last, outcomeOf]
  · refine .inl ⟨longer, ?_⟩
    obtain ⟨fault, failed, retryable⟩ := longer.2 ending (by simp)
    have room : tries.length < x₀.settings.maxTaskRetries.toNat := by
      have := longer.1
      rw [List.length_append, List.length_singleton] at this
      omega
    have again : sendsAgain x fault (.ofNat tries.length) = true := by
      simp [sendsAgain, retryable, left.mpr room, serving.going]
    rw [failed, Engine.afterCall, if_pos again, List.length_append, UInt32.ofNat_add]
    rfl

section Underway

variable {n : Nat} {current : List Happening} (underway : Underway e i w x₀ n current)
include underway

/-- At the gate nothing is done yet for the first command, and the inquiry is about its host. -/
theorem Underway.atGate {q : Nat} (phase : w.phase = .atGate q) {inquiry : Inquiry}
    (asked : e.inquiries[q]? = some inquiry) :
    current = [] ∧ (∃ c, w.commands.head? = some c) ∧ n ≤ q ∧
      ∃ state, inquiry = ⟨x₀.registry, w.host, .pass, state⟩ := by
  simp only [Underway, phase] at underway
  obtain ⟨none_yet, busy, new, state, there⟩ := underway
  cases asked.symm.trans there
  obtain ⟨c, rest, command⟩ := List.exists_cons_of_ne_nil busy
  exact ⟨none_yet, ⟨c, by rw [command]; rfl⟩, new, state, rfl⟩

/-- A call that ends completes an attempt. -/
theorem Underway.attempted (advances : Advances e e') {retries : UInt32} {call deadline : Nat}
    {c : TaskCommand} (phase : w.phase = .calling retries call deadline)
    (command : w.commands.head? = some c) (ending : Ending) :
    Underway e' i { w with phase := .called retries (ending.fault? w.host x₀.settings) } x₀ n
      (current ++ [ending.happening i c.taskId]) := by
  simp only [Underway, phase] at underway
  obtain ⟨c', tries, first, trying, count, rfl⟩ := underway
  cases command.symm.trans first
  refine ⟨c, tries, ending, command, trying.advances advances, count, rfl, ?_⟩
  rw [attempts_concat, ← count, List.append_assoc]

/-- After a call the worker comes to its next attempt, or its command is over. -/
theorem Underway.concluded (advances : Advances e e') (ages : x₀.Ages x) (serving : x.IsServing)
    {retries : UInt32} {fault : Option Fault} (phase : w.phase = .called retries fault) :
    Underway e' i { w with phase := Engine.afterCall x retries fault } x₀ n current := by
  simp only [Underway, phase] at underway
  obtain ⟨c, tries, ending, command, trying, rfl, rfl, rfl⟩ := underway
  obtain ⟨again, phase'⟩ | ⟨concludes, phase'⟩ := trying.repeats.afterCall ages serving ending
  · simp only [Underway, phase']
    exact ⟨c, _, command, Trying.advances ⟨trying.passed, again⟩ advances, rfl, rfl⟩
  · obtain ⟨j, first, done, outcome, deeds⟩ := trying.ended (i := i) command concludes
    simp only [Underway, phase', outcome]
    exact ⟨j, first, done.advances advances, rfl, deeds⟩

/-- A report ends the block of the first command. -/
theorem Underway.reported {outcome : TaskOutcome} {c : TaskCommand} (phase : w.phase = .reporting outcome)
    (command : w.commands.head? = some c) :
    ∃ j : Job, w.commands = j.command :: w.commands.tail ∧ j.IsDone e w.host x₀ n ∧
      current ++ [.reported w.executor (.finished c.taskId outcome)] =
        j.block w.executor i w.host x₀.settings := by
  simp only [Underway, phase] at underway
  obtain ⟨j, first, done, rfl, rfl⟩ := underway
  cases command.symm.trans first
  exact ⟨j, List.eq_cons_of_mem_head? command, done, rfl⟩

/-- What a deed adds to what a worker has done for its first command. Only a report ends the block. -/
theorem Underway.deed (next : n ≤ e.inquiries.length) (ages : x₀.Ages x) (serving : x.IsServing)
    (deed : Deed e i w x f) :
    (f.worker.commands = w.commands ∧
      Underway (e.put i w f) i f.worker x₀ n (current ++ f.happenings.reverse)) ∨
    ∃ j : Job, w.commands = j.command :: f.worker.commands ∧ f.worker.phase = .choosing ∧
      j.IsDone e w.host x₀ n ∧
      current ++ f.happenings.reverse = j.block w.executor i w.host x₀.settings := by
  have kept (same : f.happenings = []) : current ++ f.happenings.reverse = current := by
    rw [same, List.reverse_nil, List.append_nil]
  have adv : Advances e (e.put i w f) := .of_append rfl
  cases deed with
  | arrive phase | lock phase | settle phase =>
    simp only [Underway, phase] at underway
    exact .inl ⟨rfl, (kept rfl).trans underway⟩
  | leave why =>
    refine .inl ⟨rfl, ?_⟩
    cases why with
    | noSlots _ _ closed | noSlot _ _ closed => simp [serving.isOpen] at closed
    | unheard _ silent => simp [serving.heard] at silent
    | done phase why =>
      simp only [Underway, phase] at underway
      exact ⟨(kept rfl).trans underway, why.resolve_right (by simp [serving.going])⟩
  | knock phase busy =>
    simp only [Underway, phase] at underway
    refine .inl ⟨rfl, (kept rfl).trans underway, busy, next, .opening, ?_⟩
    simp [put, ages.registry]
  | @pass q _ _ _ s phase passed =>
    obtain ⟨none_yet, ⟨c, command⟩, new, _, same⟩ := underway.atGate phase passed
    cases same
    exact .inl ⟨rfl, c, [], command, ⟨⟨q, s, new, adv.settled passed (.inl ⟨s, rfl⟩)⟩, .nil _ _⟩, rfl,
      (kept rfl).trans none_yet⟩
  | @turnBack q _ _ _ fault phase refused =>
    obtain ⟨none_yet, ⟨c, command⟩, new, _, same⟩ := underway.atGate phase refused
    cases same
    exact .inl ⟨rfl, ⟨c, q, .refused fault⟩, command,
      ⟨new, ⟨_, adv.settled refused (.inr ⟨fault, rfl⟩), rfl⟩, .refused fault⟩, rfl,
      (kept rfl).trans none_yet⟩
  | giveUp _ _ silent => simp [serving.heard] at silent
  | @announce retries c phase command =>
    simp only [Underway, phase] at underway
    obtain ⟨c', tries, first, trying, count, rfl⟩ := underway
    cases command.symm.trans first
    exact .inl ⟨rfl, c, tries, command, trying.advances adv, count, rfl⟩
  | @call retries c phase command =>
    simp only [Underway, phase] at underway
    obtain ⟨c', tries, first, trying, count, rfl⟩ := underway
    cases command.symm.trans first
    exact .inl ⟨rfl, c, tries, command, trying.advances adv, count, List.append_assoc ..⟩
  | answer fault phase command =>
    exact .inl ⟨rfl, underway.attempted adv phase command (.answered fault)⟩
  | expire phase _ command =>
    have late : timeoutFault w x = timeoutFault w x₀ := by rw [timeoutFault, ages.settings, timeoutFault]
    rw [late] at adv ⊢
    exact .inl ⟨rfl, underway.attempted adv phase command .expired⟩
  | conclude phase =>
    exact .inl ⟨rfl, (kept rfl).symm ▸ underway.concluded adv ages serving phase⟩
  | report phase command =>
    obtain ⟨j, commands, done, block⟩ := underway.reported phase command
    exact .inr ⟨j, commands, rfl, done, block⟩

end Underway

theorem Job.IsDone.inquiry_lt {host : String} {n : Nat} {j : Job} (done : j.IsDone e host x₀ n) :
    j.inquiry < e.inquiries.length := by
  obtain ⟨_, asked, _⟩ := done.asked
  exact (List.getElem?_eq_some_iff.mp asked).1

/-- A deed of the worker is added to its log, and the log stays a sequence of blocks. -/
theorem Logged.deed {n : Nat} {commands : List TaskCommand} {log : List Happening}
    (logged : Logged e i w x₀ n commands log) (ages : x₀.Ages x) (serving : x.IsServing)
    (deed : Deed e i w x f) :
    Logged (e.put i w f) i f.worker x₀ n commands (log ++ f.happenings.reverse) := by
  obtain ⟨jobs, m, current, r⟩ := logged
  have adv : Advances e (e.put i w f) := .of_append rfl
  have earlier : ∀ j ∈ jobs, j.IsDone (e.put i w f) f.worker.host x₀ n := fun j hj => by
    rw [deed.host_eq]
    exact (r.done j hj).advances adv
  obtain ⟨same, underway⟩ | ⟨j, first, phase, finished, block⟩ := r.underway.deed r.next ages serving deed
  · refine ⟨jobs, m, _, { r with
      order := by rw [r.order, same]
      done := earlier
      next := r.next.trans adv.length_le
      blocks := ?_
      underway := underway }⟩
    rw [r.blocks, deed.host_eq, deed.executor_eq, List.append_assoc]
  · have later : m ≤ j.inquiry := finished.new
    have finished := finished.advances adv
    refine ⟨jobs ++ [j], j.inquiry + 1, [], ⟨by simp [r.order, first], fun j' hj' => ?done, ?own,
      fun j' hj' => ?before, by have := r.first; omega, finished.inquiry_lt, ?blocks,
      by simp only [Underway, phase]⟩⟩
    case done =>
      obtain hj' | hj' := List.mem_append.mp hj'
      · exact earlier j' hj'
      · rw [List.mem_singleton.mp hj', deed.host_eq]
        exact ⟨r.first.trans later, finished.asked, finished.complete⟩
    case own =>
      rw [List.map_append, List.pairwise_append]
      refine ⟨r.own, List.pairwise_singleton _ _, fun q hq q' hq' => ?_⟩
      obtain ⟨j', hj', rfl⟩ := List.mem_map.mp hq
      rw [List.mem_singleton.mp hq']
      exact Nat.lt_of_lt_of_le (r.before j' hj') later
    case before =>
      obtain hj' | hj' := List.mem_append.mp hj'
      · have := r.before j' hj'
        omega
      · rw [List.mem_singleton.mp hj']
        exact Nat.lt_succ_self _
    case blocks =>
      rw [r.blocks, List.append_assoc, block, deed.host_eq, deed.executor_eq]
      simp

/-- What a worker has done for its first command is the start of a block. -/
theorem Underway.starts {n : Nat} {current : List Happening} (underway : Underway e i w x₀ n current)
    (busy : current ≠ []) : ∃ j : Job, w.commands.head? = some j.command ∧ j.IsDone e w.host x₀ n ∧
      ∃ rest, rest ≠ [] ∧ j.block w.executor i w.host x₀.settings = current ++ rest := by
  -- An attempt that is under way may succeed.
  have succeeds {c : TaskCommand} {tries : List Ending} (command : w.commands.head? = some c)
      (trying : Trying e w.host x₀ n tries) : ∃ j : Job, w.commands.head? = some j.command ∧
        j.IsDone e w.host x₀ n ∧ ∃ rest, rest ≠ [] ∧ j.block w.executor i w.host x₀.settings =
          attempts w.executor i c tries ++ (begun w.executor i c (.ofNat tries.length) ++ rest) := by
    obtain ⟨j, first, done, _, deeds⟩ := trying.ended (i := i) command
      (show Concludes _ _ _ (.answered none) by simp [Concludes, Ending.fault?])
    refine ⟨j, first, done, [Ending.happening i c.taskId (.answered none),
      .reported w.executor (.finished j.command.taskId (j.outcome w.host x₀.settings))],
      List.cons_ne_nil _ _, ?_⟩
    rw [Job.block, ← deeds, attempts_concat]
    simp only [List.append_assoc, List.cons_append, List.nil_append]
  cases phase : w.phase with
  | spawned | awaitingLock | awaitingSlot | choosing | gone | atGate =>
    simp only [Underway, phase] at underway
    simp_all
  | sending =>
    simp only [Underway, phase] at underway
    obtain ⟨c, tries, command, trying, _, rfl⟩ := underway
    obtain ⟨j, first, done, rest, _, block⟩ := succeeds command trying
    exact ⟨j, first, done, _, List.cons_ne_nil _ _, block⟩
  | announced =>
    simp only [Underway, phase] at underway
    obtain ⟨c, tries, command, trying, rfl, rfl⟩ := underway
    obtain ⟨j, first, done, rest, _, block⟩ := succeeds command trying
    refine ⟨j, first, done,
      .callBegan i { c with attempt := c.attempt + .ofNat tries.length } :: rest, List.cons_ne_nil _ _, ?_⟩
    rw [block, List.append_assoc]
    rfl
  | calling =>
    simp only [Underway, phase] at underway
    obtain ⟨c, tries, command, trying, rfl, rfl⟩ := underway
    obtain ⟨j, first, done, rest, more, block⟩ := succeeds command trying
    exact ⟨j, first, done, rest, more, by rw [block, List.append_assoc]⟩
  | called =>
    simp only [Underway, phase] at underway
    obtain ⟨c, tries, ending, command, trying, _, _, rfl⟩ := underway
    obtain concludes | repeats := trying.repeats.next ending
    · obtain ⟨j, first, done, _, deeds⟩ := trying.ended (i := i) command concludes
      exact ⟨j, first, done, _, List.cons_ne_nil _ _, by rw [Job.block, deeds]⟩
    · obtain ⟨j, first, done, rest, _, block⟩ := succeeds command ⟨trying.passed, repeats⟩
      exact ⟨j, first, done, _, List.cons_ne_nil _ _, block⟩
  | reporting =>
    simp only [Underway, phase] at underway
    obtain ⟨j, first, done, _, rfl⟩ := underway
    exact ⟨j, first, done, _, List.cons_ne_nil _ _, rfl⟩

-- ---------------------------------------------------------------------------
-- Dispatches
-- ---------------------------------------------------------------------------

/-- A worker of a dispatch, with what it has done since. -/
theorem Logged.of_play? {e₁ : Engine} {k : Nat} {w₁ : Worker} {x₁ : Executor} (reachable : e₁.Reachable)
    (hw₁ : e₁.workers[i]? = some w₁) (spawned : w₁.phase = .spawned) (mine : w₁.executor = k)
    (hx₁ : e₁.executors[k]? = some x₁) {rest : List Act} (played : e₁.play? rest = some e)
    (hw : e.workers[i]? = some w) (hx : e.executors[k]? = some x) (serving : x.IsServing) :
    w.executor = k ∧ w.host = w₁.host ∧ Logged e i w x₁ e₁.inquiries.length w₁.commands (e₁.logOf i rest) := by
  suffices all : w.executor = k ∧ w.host = w₁.host ∧ ∃ x, e.executors[k]? = some x ∧ x₁.Ages x ∧
      (x.IsServing → Logged e i w x₁ e₁.inquiries.length w₁.commands (e₁.logOf i rest)) by
    obtain ⟨mine, here, x', hx', _, logged⟩ := all
    cases hx.symm.trans hx'
    exact ⟨mine, here, logged serving⟩
  refine logOf_induction (P := fun log e w => w.executor = k ∧ w.host = w₁.host ∧
    ∃ x, e.executors[k]? = some x ∧ x₁.Ages x ∧ (x.IsServing → Logged e i w x₁ e₁.inquiries.length w₁.commands log))
    reachable ?start ?born ?stays ?acts played w hw
  case start =>
    intro w hw
    cases hw₁.symm.trans hw
    refine ⟨mine, rfl, x₁, hx₁, .refl x₁, fun _ => ⟨[], e₁.inquiries.length, [], rfl, by simp, .nil,
      by simp, Nat.le_refl _, Nat.le_refl _, rfl, ?_⟩⟩
    simp only [Underway, spawned]
  case born =>
    rintro acts e w _ absent
    simp [hw₁] at absent
  case stays =>
    rintro acts log e e' a w played done hw _ ⟨mine, here, x, hx, ages, logged⟩
    have reachable := reachable.play? played
    obtain ⟨x', hx', ages'⟩ := act?_ages reachable.housed done hx
    have advances := (act?_attended done (linked_of_reachable reachable)).advances
    exact ⟨mine, here, x', hx', ages.trans ages',
      fun serving => (logged (ages'.serving serving)).advances advances⟩
  case acts =>
    rintro acts log e w y f _ hw hy deed ⟨mine, here, x, hx, ages, logged⟩
    cases hy.symm.trans (mine ▸ hx)
    refine ⟨deed.executor_eq.trans mine, deed.host_eq.trans here, f.executor, ?_,
      ages.trans deed.ages, fun serving => ?_⟩
    · rw [put_executor? hy, if_pos mine.symm]
    · have serving := deed.ages.serving serving
      exact (logged serving).deed ages serving deed

/-- A dispatch starts one worker for each host of its commands. -/
theorem exists_starter? {k : Nat} {commands : List TaskCommand} {c : TaskCommand} (hc : c ∈ commands) :
    ∃ i, e.workers.length ≤ i ∧ (e.serve (.dispatch k commands)).workers[i]? =
      some ⟨k, c.host, commands.filter fun b => b.host = c.host, .spawned⟩ := by
  obtain ⟨w, hw, holds⟩ := exists_starter k hc
  obtain ⟨mine, spawned, all⟩ := mem_starters hw
  have here : c.host = w.host := by
    rw [all] at holds
    simpa using (List.mem_filter.mp holds).2
  obtain ⟨n, hn⟩ := List.getElem?_of_mem hw
  refine ⟨e.workers.length + n, Nat.le_add_right _ _, ?_⟩
  rw [serve, dispatch, List.getElem?_append_right (Nat.le_add_right _ _), Nat.add_sub_cancel_left]
  obtain ⟨executor, host, held, phase⟩ := w
  dsimp only at mine spawned all here
  refine hn.trans ?_
  rw [mine, spawned, all, here]

/-- Those of a dispatch work for different hosts. -/
theorem starters_host_inj {k a b : Nat} {commands : List TaskCommand} {v w : Worker}
    (hv : (starters k commands)[a]? = some v) (hw : (starters k commands)[b]? = some w)
    (same : v.host = w.host) : a = b := by
  have nodup : ((starters k commands).map Worker.host).Nodup := by
    simp only [starters, byHost, List.map_map, Function.comp_def, List.map_id']
    exact Topology.foldr_insertHost_nodup _
  have inside : a < ((starters k commands).map Worker.host).length := by
    rw [List.length_map]
    exact (List.getElem?_eq_some_iff.mp hv).1
  refine (List.getElem?_inj inside nodup).mp ?_
  rw [List.getElem?_map, List.getElem?_map, hv, hw, Option.map_some, Option.map_some, same]

/-- When the workers that the executor had for a host are gone, the new one is alone. -/
theorem alone_of_dispatch {k : Nat} {commands : List TaskCommand} {host : String}
    (before : ∀ v ∈ e.workers, v.executor = k → v.host = host → v.phase = .gone)
    (new : e.workers.length ≤ i) (hw : (e.serve (.dispatch k commands)).workers[i]? = some w)
    (here : w.host = host) : (e.serve (.dispatch k commands)).Alone i k host := by
  rw [serve, dispatch, List.getElem?_append_right new] at hw
  intro j v hv mine' here'
  rw [serve, dispatch, List.getElem?_append] at hv
  split at hv
  · exact .inr (before v (List.mem_of_getElem? hv) mine' here')
  next later =>
    have same := starters_host_inj hv hw (here'.trans here.symm)
    exact .inl (by omega)

/-- What the commands of a dispatch for a host have come to: the worker at position `i` has done these jobs,
and `current` for the next command. -/
structure Carried (e₀ : Engine) (k i : Nat) (host : String) (x : Executor)
    (commands : List TaskCommand) (rest : List Act) (e : Engine) (w : Worker) (jobs : List Job)
    (current : List Happening) : Prop where
  new : e₀.workers.length ≤ i
  worker : e.workers[i]? = some w
  mine : w.executor = k
  /-- The jobs are the first commands for the host, in their order. -/
  order : (commands.filter fun c => c.host = host) = jobs.map Job.command ++ w.commands
  done : ∀ j ∈ jobs, j.IsDone e host x e₀.inquiries.length
  /-- Each has an inquiry of its own. -/
  own : (jobs.map Job.inquiry).Pairwise (· < ·)
  /-- The worker did one block after another. -/
  log : (e₀.serve (.dispatch k commands)).logOf i rest =
    jobs.flatMap (Job.block k i host x.settings) ++ current
  /-- What it did for the next command is the start of a block. -/
  starts : current ≠ [] → ∃ j : Job, w.commands.head? = some j.command ∧
    j.IsDone e host x e₀.inquiries.length ∧ ∃ more, more ≠ [] ∧ j.block k i host x.settings = current ++ more
  /-- Once it is gone there is a job for each of the commands. -/
  all : w.phase = .gone → w.commands = [] ∧ current = []
  settled : e.AtRest → w.phase = .gone
  /-- As long as nobody else reports events for the host, these are the events. -/
  events : (∀ v ∈ e₀.workers, v.executor = k → v.host = host → v.phase = .gone) →
    (∀ more, .serve (.dispatch k more) ∉ rest) → e.eventsOn k host = e₀.eventsOn k host ++
      (jobs.flatMap (Job.events host x.settings) ++ current.filterMap Happening.event?)

/-- A dispatch to an executor that is neither cancelled nor shut down, and whose events are received, starts
a worker for each host of the commands. Whatever agents answer and in whatever order all take turns, the
events of the host are one block for each of the commands, in their order, and once the engine is at rest
the block of every command is there. -/
theorem events_come_in_blocks {e₀ : Engine} {k : Nat} {commands : List TaskCommand} {c : TaskCommand}
    {rest : List Act} (reachable : e₀.Reachable) (hx₀ : e₀.executors[k]? = some x₀)
    (hc : c ∈ commands) (played : (e₀.serve (.dispatch k commands)).play? rest = some e)
    (hx : e.executors[k]? = some x) (serving : x.IsServing) :
    ∃ i w jobs current, Carried e₀ k i c.host x₀ commands rest e w jobs current := by
  obtain ⟨i, new, hw₁⟩ := exists_starter? (e := e₀) hc
  have reachable₁ : (e₀.serve (.dispatch k commands)).Reachable :=
    reachable.play? (show e₀.play? [.serve (.dispatch k commands)] = _ from rfl)
  obtain ⟨w, hw⟩ := play?_worker reachable₁ hw₁ played
  obtain ⟨mine, here, jobs, m, current, r⟩ :=
    Logged.of_play? reachable₁ hw₁ rfl rfl hx₀ played hw hx serving
  dsimp only at mine here
  have log := r.blocks
  rw [here, mine] at log
  refine ⟨i, w, jobs, current, new, hw, mine, r.order, here ▸ r.done, r.own, log, ?starts, ?all, ?settled,
    ?events⟩
  case starts =>
    intro busy
    obtain ⟨j, first, done, block⟩ := r.underway.starts busy
    rw [here, mine] at block
    rw [here] at done
    exact ⟨j, first, ⟨r.first.trans done.new, done.asked, done.complete⟩, block⟩
  case all =>
    intro gone
    have underway := r.underway
    simp only [Underway, gone] at underway
    exact underway.symm
  case settled =>
    exact fun rest => rest.gone (reachable₁.play? played) hw (by rw [mine, hx])
  case events =>
    intro before none_hired
    have alone := alone_of_dispatch before new hw₁ rfl
    rw [eventsOn_of_logOf reachable₁ hw₁ rfl rfl alone none_hired played, log, List.filterMap_append,
      List.filterMap_flatMap]
    simp only [Job.block_events]
    rfl

/-! ## Two hosts -/

/-- Before the two commands are dispatched. -/
def opened : Engine := ((empty .epoch).play? (firstAttempt.take 2)).getD (empty .epoch)

/-- The first attempt at alpha fails and the second one is not answered in time. Beta is marked at its gate. -/
def twoBlocks : List Act :=
  firstAttempt.drop 3 ++ failure ++ missedAtGate ++
  [.move (.work 0), .move (.pass 600000), .move (.expire 0)] ++
  List.replicate 3 (.move (.work 0)) ++ List.replicate 4 (.move (.work 1))

/-- The engine after these acts. -/
def bothDone : Engine :=
  ((opened.serve (.dispatch 0 [errand 0 "alpha", errand 1 "beta"])).play? twoBlocks).getD (empty .epoch)

theorem events_come_in_blocks_bothDone :
    (∃ x₀ i w jobs current, Carried opened 0 i "alpha" x₀ [errand 0 "alpha", errand 1 "beta"] twoBlocks
      bothDone w jobs current ∧ w.phase = .gone ∧ current = [] ∧ jobs.map Job.command = [errand 0 "alpha"]) ∧
    bothDone.eventsOn 0 "alpha" = [.started 0 1, .started 0 2,
      .finished 0 (.failed (.taskTimeout "alpha" 600) 1)] ∧
    bothDone.eventsOn 0 "beta" = [.finished 1 (.failed (.hostUnreachable "beta" 1) 0)] := by
  have reachable : opened.Reachable := ⟨.epoch, firstAttempt.take 2, by decide +kernel⟩
  have played : (opened.serve (.dispatch 0 [errand 0 "alpha", errand 1 "beta"])).play? twoBlocks =
      some bothDone := by decide +kernel
  have before : (opened.executors[0]?).isSome := by decide +kernel
  have after : (bothDone.executors[0]?).map (fun x => (x.isOpen, x.isCancelled, x.isReceived)) =
      some (true, false, true) := by decide +kernel
  have rest : bothDone.AtRest := .of_idle (by decide +kernel) (by decide +kernel) (by decide +kernel)
  obtain ⟨x₀, hx₀⟩ := Option.isSome_iff_exists.mp before
  obtain ⟨x, hx, flags⟩ := Option.map_eq_some_iff.mp after
  simp only [Prod.mk.injEq] at flags
  obtain ⟨i, w, jobs, current, carried⟩ := events_come_in_blocks (c := errand 0 "alpha") reachable hx₀
    List.mem_cons_self played hx ⟨flags.1, flags.2.1, flags.2.2⟩
  obtain ⟨no_commands, nothing⟩ := carried.all (carried.settled rest)
  refine ⟨⟨x₀, i, w, jobs, current, carried, carried.settled rest, nothing, ?_⟩, by decide +kernel,
    by decide +kernel⟩
  have order := carried.order
  rw [no_commands, List.append_nil] at order
  rw [← order]
  decide

end Rollout.Engine
