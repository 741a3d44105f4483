-- SUMMARY: The logbook of a driver: what it took in, in order; its run is what the calls of the logbook make of a new run.
import Rollout.Proofs.Orchestrator.ControlReplies
import Rollout.Proofs.Orchestrator.Sound

/-!
# Logbooks

Drivers take one input at a time, from the engine, from clients, or from the end of the orchestrator. Each
input is one call of an operation on the run, and a step follows. The inputs in the order in which a driver
takes them are its logbook. Whatever else happens in between, the run is what the calls of the logbook make
of it, one after the other.
-/
namespace Rollout

/-- What a driver takes in. -/
inductive Input where
  /-- The run may begin. -/
  | begin
  /-- The next event of the executor. -/
  | news (event : TaskEvent)
  /-- The next command of a client. -/
  | order (ticket : Ticket)
  /-- Nobody gives commands any more. -/
  | hangUp
  deriving DecidableEq, Repr

namespace Input

/-- The call that a driver makes for an input. -/
def call : Input → Run.Call
  | begin => .start
  | news event => .apply event
  | order ticket => ticket.control.call
  | hangUp => .abort "orchestrator shut down"

def ticket? : Input → Option Ticket
  | order ticket => some ticket
  | begin | news _ | hangUp => none

/-- The answer to a command, once its call led from one run to another: the fault of the call if it was
refused, and the other run if not. -/
def answer? (now : Timestamp) (before later : Run) (input : Input) : Option Answer :=
  input.ticket?.map fun t => ⟨t.client, (t.control.apply now before).2.map fun _ => later⟩

end Input

/-- What a driver took in, the oldest input first, each with its time. -/
abbrev Logbook : Type := List (Timestamp × Input)

/-- The calls of a logbook: every input is one call, and a step follows. -/
def Logbook.calls (log : Logbook) : List (Timestamp × Run.Call) :=
  log.flatMap fun (now, input) => [(now, input.call), (now, .step)]

namespace Run

/-- The run after an input and the step that follows. -/
def taking (r : Run) (now : Timestamp) (input : Input) : Run := ((r.call now input.call).step now).1

theorem after_calls_cons (r : Run) (now : Timestamp) (input : Input) (log : Logbook) :
    r.after (Logbook.calls ((now, input) :: log)) = (r.taking now input).after log.calls := rfl

theorem after_calls_append (r : Run) (log log' : Logbook) :
    r.after (Logbook.calls (log ++ log')) = (r.after log.calls).after log'.calls := by
  simp [Logbook.calls, after]

end Run

namespace Orchestrator

/-- What the driver at position `i` takes in at a turn. -/
def input? (o : Orchestrator) (i : Nat) : Turn → Option Input
  | .begin run => if run = i then some .begin else none
  | .event run =>
    if run = i then (o.engine.executors[i]?.bind fun x => x.channel.head?).map .news else none
  | .control run =>
    if run = i then (o.drivers[i]?.bind fun d => d.tickets.head?).map .order else none
  | .hangUp run => if run = i then some .hangUp else none
  | .engine _ | .create .. | .submit .. | .drop => none

/-- The logbook of the driver at position `i` over a sequence of turns. -/
def logbook (i : Nat) : Orchestrator → List Turn → Logbook
  | _, [] => []
  | o, turn :: turns =>
    match o.step? turn with
    | none => []
    | some o' => ((o.input? i turn).map fun input => (o.wall, input)).toList ++ logbook i o' turns

variable {o o' o₁ : Orchestrator} {i j : Nat} {d : Driver} {x : Executor} {turn : Turn}
  {turns : List Turn} {input : Input}

theorem logbook_cons (stepped : o.step? turn = some o₁) (i : Nat) (turns : List Turn) :
    o.logbook i (turn :: turns) =
      ((o.input? i turn).map fun input => (o.wall, input)).toList ++ o₁.logbook i turns := by
  rw [logbook, stepped]

theorem play?_append (o : Orchestrator) (first second : List Turn) :
    o.play? (first ++ second) = (o.play? first).bind fun o => o.play? second := by
  induction first generalizing o with
  | nil => rfl
  | cons turn first ih => simp [play?, ih, Option.bind_assoc]

theorem Reachable.play? {settings : EngineSettings} (reachable : o.Reachable settings)
    (played : o.play? turns = some o') : o'.Reachable settings := by
  obtain ⟨wall, before, start⟩ := reachable
  exact ⟨wall, before ++ turns, by rw [play?_append, start, Option.bind_some, played]⟩

theorem Reachable.step {settings : EngineSettings} (reachable : o.Reachable settings)
    (stepped : o.step? turn = some o') : o'.Reachable settings :=
  have played : o.play? [turn] = some o' := by
    rw [Orchestrator.play?, stepped]
    rfl
  reachable.play? played

theorem logbook_append {first : List Turn} (played : o.play? first = some o₁) (i : Nat)
    (second : List Turn) :
    o.logbook i (first ++ second) = o.logbook i first ++ o₁.logbook i second := by
  induction first generalizing o with
  | nil =>
    cases played
    rfl
  | cons turn first ih =>
    obtain ⟨o₂, stepped, played⟩ := Option.bind_eq_some_iff.mp played
    rw [List.cons_append, logbook_cons stepped, logbook_cons stepped, ih played, List.append_assoc]

theorem play?_snoc (played : o.play? turns = some o') (turn : Turn) :
    o.play? (turns ++ [turn]) = o'.step? turn := by
  rw [play?_append, played, Option.bind_some, play?]
  cases o'.step? turn <;> rfl

theorem logbook_snoc (played : o.play? turns = some o₁)
    (stepped : o₁.step? turn = some o') (i : Nat) :
    o.logbook i (turns ++ [turn]) =
      o.logbook i turns ++ ((o₁.input? i turn).map fun input => (o₁.wall, input)).toList := by
  rw [logbook_append played, logbook_cons stepped, logbook, List.append_nil]

-- ---------------------------------------------------------------------------
-- Inputs
-- ---------------------------------------------------------------------------

/-- The driver `d` at position `i` takes an input in, steps its run and publishes it. The commands `left`
are those that the input leaves waiting. The input is the first one just when the run begins. -/
structure Takes (i : Nat) (o o' : Orchestrator) (input : Input) (d : Driver) (left : List Ticket) :
    Prop where
  driver : o.drivers[i]? = some d
  live : d.run.state.isTerminal = false
  begins : d.hasBegun = false ↔ input = .begin
  tickets : d.tickets = input.ticket?.toList ++ left
  drivers : o'.drivers = o.drivers.set i
    (Driver.published { d with tickets := left, hasBegun := true } (d.run.taking o.wall input))
  answers : o'.answers = (d.run.taking o.wall input).farewells left ++
    ((input.answer? o.wall d.run (d.run.taking o.wall input)).toList ++ o.answers)
  clients : o'.clients = o.clients

/-- A driver that became the published one, and whose desk is as it should be, took its input in. -/
theorem Takes.of_desk {left : List Ticket} {d₁ : Driver} {r : Run} {new : List Worker}
    (hd : o.drivers[i]? = some d) (live : d.run.state.isTerminal = false)
    (became : Became i o o' (d₁.published r) x new)
    (entered : d₁ = { d with tickets := left, hasBegun := true })
    (taken : r = d.run.taking o.wall input) (begins : d.hasBegun = false ↔ input = .begin)
    (tickets : d.tickets = input.ticket?.toList ++ left)
    (desk : ∃ d', o'.drivers[i]? = some d' ∧ o'.answers = d'.run.farewells left ++
      ((input.answer? o.wall d.run d'.run).toList ++ o.answers) ∧ o'.clients = o.clients) :
    Takes i o o' input d left := by
  subst entered taken
  obtain ⟨d', hd', answers, clients⟩ := desk
  cases (became.driver? hd).symm.trans hd'
  rw [Driver.published_run] at answers
  exact ⟨hd, live, begins, tickets, became.drivers, answers, clients⟩

/-- A turn of a driver takes one input in. -/
theorem Driven.takes (driven : Driven i o o' turn) (stepped : o.step? turn = some o') :
    ∃ input d left, o.input? i turn = some input ∧ Takes i o o' input d left := by
  obtain @⟨d, d₁, x, x₁, r₁, r₂, commands, hd, hx, live, going, intake, step, became⟩ := driven
  have taken (input : Input) (call : d.run.call o.wall input.call = r₁) :
      r₂ = d.run.taking o.wall input := by
    rw [Run.taking, call, step]
  cases intake with
  | begin unbegun started =>
    have after := taken .begin (congrArg Prod.fst started)
    exact ⟨.begin, d, d.tickets, if_pos rfl, .of_desk hd live became rfl after (by simp [unbegun]) rfl
      (begin?_desk hd started stepped)⟩
  | @event event _ _ begun channel applied =>
    have after := taken (.news event) (congrArg Prod.fst applied)
    exact ⟨.news event, d, d.tickets, by simp [input?, hx, channel], .of_desk hd live became
      (by rw [← begun]) after (by simp [begun]) rfl (takeEvent?_desk hd hx channel applied stepped)⟩
  | @control ticket rest _ begun tickets controlled =>
    have after := taken (.order ticket)
      ((ticket.control.apply_call o.wall d.run).symm.trans controlled)
    exact ⟨.order ticket, d, rest, by simp [input?, hd, tickets], .of_desk hd live became
      (by rw [← begun]) after (by simp [begun]) tickets (takeControl?_desk hd tickets stepped)⟩
  | hangUp begun _ _ aborted =>
    have after := taken .hangUp aborted
    exact ⟨.hangUp, d, d.tickets, if_pos rfl, .of_desk hd live became (by rw [← begun]) after
      (by simp [begun]) rfl (hangUp?_desk hd stepped)⟩

theorem Takes.driver_after {left : List Ticket} (t : Takes i o o' input d left) :
    o'.drivers[i]? = some
      (Driver.published { d with tickets := left, hasBegun := true } (d.run.taking o.wall input)) := by
  rw [t.drivers, List.getElem?_set_self (List.getElem?_eq_some_iff.mp t.driver).1]

/-- At one turn one driver takes an input in. -/
theorem input?_of_ne (h : o.input? j turn = some input) (other : i ≠ j) : o.input? i turn = none := by
  cases turn with
  | begin run | event run | control run | hangUp run =>
    by_cases same : run = j
    · exact if_neg fun same' => other (same'.symm.trans same)
    · simp [input?, same] at h
  | engine | create | submit | drop => rfl

-- ---------------------------------------------------------------------------
-- Turns
-- ---------------------------------------------------------------------------

/-- What becomes of the desks at a turn: nothing, a new run gets a desk, a command is given to a driver, or
a driver takes an input in. -/
inductive Deskwork (o o' : Orchestrator) (turn : Turn) : Prop
  | quiet (idle : ∀ i, o.input? i turn = none) (drivers : o'.drivers = o.drivers)
      (answers : o'.answers = o.answers) (clients : o'.clients = o.clients)
  | opened {r : Run} (idle : ∀ i, o.input? i turn = none)
      (drivers : o'.drivers = o.drivers ++ [⟨r, r, [], false, false⟩])
      (answers : o'.answers = o.answers) (clients : o'.clients = o.clients)
      (created : ∃ id plan policy, r = Run.create id plan policy o.wall)
  | given {i : Nat} {d : Driver} {control : Control} (idle : ∀ i, o.input? i turn = none)
      (driver : o.drivers[i]? = some d) (going : d.isOver = false)
      (drivers : o'.drivers =
        o.drivers.set i { d with tickets := d.tickets ++ [⟨o.clients, control⟩] })
      (answers : o'.answers = o.answers) (clients : o'.clients = o.clients + 1)
  | taken {i : Nat} {input : Input} {d : Driver} {left : List Ticket}
      (input? : o.input? i turn = some input) (takes : Takes i o o' input d left)

/-- A turn gives one driver its input and answers at that desk, or leaves all desks alone. -/
theorem Sound.deskwork (h : o.Sound) (stepped : o.step? turn = some o') : Deskwork o o' turn := by
  have taken {i : Nat} (driven : Driven i o o' turn) : Deskwork o o' turn := by
    obtain ⟨_, _, _, input, takes⟩ := driven.takes stepped
    exact .taken input takes
  cases turn with
  | engine =>
    obtain ⟨_, _, rfl⟩ := Option.map_eq_some_iff.mp stepped
    exact .quiet (fun _ => rfl) rfl rfl rfl
  | begin => exact taken (h.begin_driven stepped)
  | event => exact taken (h.event_driven stepped)
  | control => exact taken (h.control_driven stepped)
  | hangUp => exact taken (h.hangUp_driven stepped)
  | create =>
    simp only [step?] at stepped
    split at stepped
    · cases stepped
    · cases stepped
      unfold createRun
      split
      · exact .quiet (fun _ => rfl) rfl rfl rfl
      · exact .opened (fun _ => rfl) rfl rfl rfl ⟨_, _, _, rfl⟩
  | submit id c =>
    simp only [step?] at stepped
    split at stepped
    · cases stepped
    · cases stepped
      unfold submit
      split
      · exact .quiet (fun _ => rfl) rfl rfl rfl
      next i d found =>
        split
        · exact .quiet (fun _ => rfl) rfl rfl rfl
        next going =>
          have hd := (find_eq found).1
          exact .given (fun _ => rfl) hd (by simpa using going) (Engine.modify_eq_set hd) rfl rfl
  | drop =>
    cases stepped
    exact .quiet (fun _ => rfl) rfl rfl rfl

/-- At a turn a driver takes an input in, or it is as before but for new commands that were given to it. -/
theorem Deskwork.driver (w : Deskwork o o' turn) (hd : o.drivers[i]? = some d) :
    (∃ input left, o.input? i turn = some input ∧ Takes i o o' input d left) ∨
      o.input? i turn = none ∧ ∃ given, (∀ t ∈ given, t.client = o.clients) ∧
        o'.drivers[i]? = some { d with tickets := d.tickets ++ given } := by
  have kept (same : o'.drivers[i]? = some d) : ∃ given : List Ticket,
      (∀ t ∈ given, t.client = o.clients) ∧
        o'.drivers[i]? = some { d with tickets := d.tickets ++ given } :=
    ⟨[], by simp, by rw [same, List.append_nil]⟩
  cases w with
  | quiet idle drivers => exact .inr ⟨idle i, kept (by rw [drivers, hd])⟩
  | opened idle drivers =>
    have inside := (List.getElem?_eq_some_iff.mp hd).1
    exact .inr ⟨idle i, kept (by rw [drivers, List.getElem?_append_left inside, hd])⟩
  | @given j _ control idle driver _ drivers =>
    by_cases here : j = i
    · subst here
      cases driver.symm.trans hd
      refine .inr ⟨idle j, [⟨o.clients, control⟩], by simp, ?_⟩
      rw [drivers, List.getElem?_set_self (List.getElem?_eq_some_iff.mp driver).1]
    · exact .inr ⟨idle i, kept (by rw [drivers, List.getElem?_set_ne here, hd])⟩
  | @taken j _ _ _ input takes =>
    by_cases here : j = i
    · subst here
      cases takes.driver.symm.trans hd
      exact .inl ⟨_, _, input, takes⟩
    · refine .inr ⟨input?_of_ne input (Ne.symm here), kept ?_⟩
      rw [takes.drivers, List.getElem?_set_ne here, hd]

/-- Answers are never taken back. -/
theorem Deskwork.answers (w : Deskwork o o' turn) : o.answers <:+ o'.answers := by
  cases w with
  | quiet _ _ answers | opened _ _ answers | given _ _ _ _ answers =>
    exact answers ▸ List.suffix_refl _
  | taken _ takes =>
    rw [takes.answers, ← List.append_assoc]
    exact List.suffix_append ..

theorem Deskwork.clients (w : Deskwork o o' turn) : o.clients ≤ o'.clients := by
  cases w with
  | quiet _ _ _ clients | opened _ _ _ clients => exact Nat.le_of_eq clients.symm
  | given _ _ _ _ _ clients => omega
  | taken _ takes => exact Nat.le_of_eq takes.clients.symm

theorem Sound.desk_grows (h : o.Sound) (played : o.play? turns = some o') :
    o.answers <:+ o'.answers ∧ o.clients ≤ o'.clients := by
  refine (play?_induction (P := fun o' => o'.Sound ∧ o.answers <:+ o'.answers ∧ o.clients ≤ o'.clients)
    ?_ played ⟨h, List.suffix_refl _, Nat.le_refl _⟩).2
  rintro o₁ o₂ turn ⟨sound, answers, clients⟩ stepped
  have work := sound.deskwork stepped
  exact ⟨sound.step stepped, answers.trans work.answers, Nat.le_trans clients work.clients⟩

/-- A turn adds an input to the logbook of a driver, or leaves the logbook as it is, and the driver too but
for new commands. -/
theorem Sound.logbook_turn (h : o.Sound) (hd : o.drivers[i]? = some d)
    (stepped : o.step? turn = some o₁) (turns : List Turn) :
    (∃ input left, Takes i o o₁ input d left ∧
      o.logbook i (turn :: turns) = (o.wall, input) :: o₁.logbook i turns) ∨
    o.logbook i (turn :: turns) = o₁.logbook i turns ∧
      ∃ given, (∀ t ∈ given, t.client = o.clients) ∧
        o₁.drivers[i]? = some { d with tickets := d.tickets ++ given } := by
  rw [logbook_cons stepped]
  obtain ⟨input, left, taken, takes⟩ | ⟨idle, kept⟩ := (h.deskwork stepped).driver hd
  · rw [taken]
    exact .inl ⟨input, left, takes, rfl⟩
  · rw [idle]
    exact .inr ⟨rfl, kept⟩

-- ---------------------------------------------------------------------------
-- Runs
-- ---------------------------------------------------------------------------

/-- What a driver makes of its run over a sequence of turns is what the calls of its logbook make of it. -/
theorem Sound.run_after (h : o.Sound) (hd : o.drivers[i]? = some d) (played : o.play? turns = some o') :
    ∃ d', o'.drivers[i]? = some d' ∧ d'.run = d.run.after (o.logbook i turns).calls := by
  induction turns generalizing o d with
  | nil =>
    cases played
    exact ⟨d, hd, rfl⟩
  | cons turn turns ih =>
    obtain ⟨o₁, stepped, played⟩ := Option.bind_eq_some_iff.mp played
    obtain ⟨input, _, takes, log⟩ | ⟨log, _, _, hd₁⟩ := h.logbook_turn hd stepped turns
    · obtain ⟨d', hd', run⟩ := ih (h.step stepped) takes.driver_after played
      rw [Driver.published_run] at run
      rw [log, Run.after_calls_cons]
      exact ⟨d', hd', run⟩
    · obtain ⟨d', hd', run⟩ := ih (h.step stepped) hd₁ played
      rw [log]
      exact ⟨d', hd', run⟩

/-- Nobody takes an input in for a run that there is not yet. -/
theorem Sound.logbook_of_absent (h : o.Sound) (played : o.play? turns = some o')
    (absent : o'.drivers[i]? = none) : o.logbook i turns = [] := by
  induction turns generalizing o with
  | nil => rfl
  | cons turn turns ih =>
    obtain ⟨o₁, stepped, played⟩ := Option.bind_eq_some_iff.mp played
    rw [logbook_cons stepped, ih (h.step stepped) played]
    cases taken : o.input? i turn with
    | none => rfl
    | some input =>
      obtain ⟨d, hd⟩ : ∃ d, o₁.drivers[i]? = some d := by
        cases h.deskwork stepped with
        | quiet idle | opened idle | given idle => cases (idle i).symm.trans taken
        | @taken j _ _ _ taken' takes =>
          have here : i = j := Decidable.of_not_not fun other => by
            cases (input?_of_ne taken' other).symm.trans taken
          exact ⟨_, here ▸ takes.driver_after⟩
      obtain ⟨d', hd', _⟩ := (h.step stepped).run_after hd played
      cases absent.symm.trans hd'

/-- A driver whose run is archived takes nothing in. -/
theorem Sound.logbook_of_archived (h : o.Sound) (hd : o.drivers[i]? = some d)
    (archived : d.run.state.isTerminal = true) (played : o.play? turns = some o') :
    o.logbook i turns = [] := by
  induction turns generalizing o d with
  | nil => rfl
  | cons turn turns ih =>
    obtain ⟨o₁, stepped, played⟩ := Option.bind_eq_some_iff.mp played
    obtain ⟨input, _, takes, _⟩ | ⟨log, _, _, hd₁⟩ := h.logbook_turn hd stepped turns
    · simp [takes.live] at archived
    · rw [log]
      exact ih (h.step stepped) hd₁ archived played

/-- A run begins once: a driver that has begun does not begin again. -/
theorem Sound.begins_no_more (h : o.Sound) (hd : o.drivers[i]? = some d) (begun : d.hasBegun = true)
    (played : o.play? turns = some o') : ∀ entry ∈ o.logbook i turns, entry.2 ≠ .begin := by
  induction turns generalizing o d with
  | nil => simp [logbook]
  | cons turn turns ih =>
    obtain ⟨o₁, stepped, played⟩ := Option.bind_eq_some_iff.mp played
    obtain ⟨input, _, takes, log⟩ | ⟨log, _, _, hd₁⟩ := h.logbook_turn hd stepped turns
    · have rest := ih (h.step stepped) takes.driver_after (by simp) played
      rw [log]
      refine List.forall_mem_cons.mpr ⟨fun begins => ?_, rest⟩
      simp [takes.begins.mpr begins] at begun
    · rw [log]
      exact ih (h.step stepped) hd₁ begun played

/-- What a driver takes in first makes the run begin. -/
theorem Sound.begins_first (h : o.Sound) (hd : o.drivers[i]? = some d) (unbegun : d.hasBegun = false)
    (played : o.play? turns = some o') : o.logbook i turns = [] ∨ ∃ now rest,
      o.logbook i turns = (now, .begin) :: rest ∧ ∀ entry ∈ rest, entry.2 ≠ .begin := by
  induction turns generalizing o d with
  | nil => exact .inl rfl
  | cons turn turns ih =>
    obtain ⟨o₁, stepped, played⟩ := Option.bind_eq_some_iff.mp played
    obtain ⟨input, _, takes, log⟩ | ⟨log, _, _, hd₁⟩ := h.logbook_turn hd stepped turns
    · have rest := (h.step stepped).begins_no_more takes.driver_after (by simp) played
      rw [log, takes.begins.mp unbegun]
      exact .inr ⟨o.wall, _, rfl, rest⟩
    · rw [log]
      exact ih (h.step stepped) hd₁ unbegun played

end Orchestrator

end Rollout
