-- SUMMARY: Each run has one writer: snapshots and answers are those of one sequence of calls, whatever the order of the inputs.
import Mathlib.Data.List.Nodup
import Rollout.Proofs.Orchestrator.PendingReplies
import Rollout.Proofs.Orchestrator.Progress
import Rollout.Proofs.Run.Refusal

/-!
# Verdicts

The answer to a command has a place in the logbook of the driver that took it. There its call was accepted,
and the client sees the run after the step that followed; or the call was refused, and neither the call nor
the step changed the run. A command that finds no driver any more is told what its call would answer on the
archived run.
-/
namespace Rollout

namespace Control

variable {c : Control} {now : Timestamp} {r : Run} {fault : Fault}

/-- A command that is refused leaves the run as it was. -/
theorem call_of_refused (refused : (c.apply now r).2 = .error fault) : r.call now c.call = r := by
  cases c with
  | retry =>
    cases answer : (r.retry now).2 with
    | error fault => exact Run.atomic_retry r now fault answer
    | ok => simp [apply, answer, Except.map] at refused
  | suspend => exact Run.atomic_suspend r now fault refused
  | resume => exact Run.atomic_resume r now fault refused
  | abort reason => exact Run.atomic_abort r now reason fault refused

/-- An archived run refuses every command, with the fault that a client meets when the driver is over. -/
theorem apply_of_archived (archived : r.state.isTerminal = true) (c : Control) (now : Timestamp) :
    c.apply now r = (r, .error (c.gone r)) := by
  cases c with
  | retry =>
    rw [apply, Run.retry_of_archived archived]
    rfl
  | suspend => exact Run.suspend_of_archived archived
  | resume => exact Run.resume_of_archived archived
  | abort => exact Run.abort_of_archived archived

end Control

/-- A run that waits is the same after a command that it refused and the step that follows. -/
theorem Run.Waits.taking_of_refused {r : Run} (waits : r.Waits) {now : Timestamp} {t : Ticket}
    {fault : Fault} (refused : (t.control.apply now r).2 = .error fault) :
    r.taking now (.order t) = r := by
  have same : r.call now (Input.order t).call = r := Control.call_of_refused refused
  rw [Run.taking, same, waits.step]

/-- How the answer to a command is explained by the logbook of a driver whose run was `first` at the
beginning. -/
inductive Verdict (first : Run) (log : Logbook) (t : Ticket) : Except Fault Run → Prop
  /-- The call of the command was accepted at its place in the logbook. The answer is the run after the step
  that follows. -/
  | accepted {before later : Logbook} {now : Timestamp}
      (place : log = before ++ (now, .order t) :: later)
      (accepted : (t.control.apply now (first.after before.calls)).2 = .ok ()) :
      Verdict first log t (.ok (first.after (Logbook.calls (before ++ [(now, .order t)]))))
  /-- The call of the command was refused at its place in the logbook, and the run stays as it is. -/
  | refused {before later : Logbook} {now : Timestamp} {fault : Fault}
      (place : log = before ++ (now, .order t) :: later)
      (refused : (t.control.apply now (first.after before.calls)).2 = .error fault)
      (same : first.after (Logbook.calls (before ++ [(now, .order t)])) = first.after before.calls) :
      Verdict first log t (.error fault)
  /-- The driver ended while the command waited. The archived run refuses its call with the same fault. -/
  | tooLate {fault : Fault} (absent : ∀ entry ∈ log, entry.2 ≠ .order t)
      (archived : (first.after log.calls).state.isTerminal = true)
      (gone : ∀ now, t.control.apply now (first.after log.calls) =
        (first.after log.calls, .error fault)) : Verdict first log t (.error fault)

/-- A logbook may be read from an earlier point on. -/
theorem Verdict.prepend {first : Run} {log : Logbook} {t : Ticket} {result : Except Fault Run}
    (front : Logbook) (v : Verdict (first.after front.calls) log t result)
    (absent : ∀ entry ∈ front, entry.2 ≠ .order t) : Verdict first (front ++ log) t result := by
  cases v with
  | @accepted before later now place accepted =>
    rw [← Run.after_calls_append] at accepted ⊢
    rw [← List.append_assoc]
    exact .accepted (by rw [place, List.append_assoc]) accepted
  | @refused before later now fault place refused same =>
    rw [← Run.after_calls_append] at refused
    rw [← Run.after_calls_append, ← Run.after_calls_append, ← List.append_assoc] at same
    exact .refused (by rw [place, List.append_assoc]) refused same
  | tooLate absent' archived gone =>
    rw [← Run.after_calls_append] at archived
    simp only [← Run.after_calls_append] at gone
    exact .tooLate (List.forall_mem_append.mpr ⟨absent, absent'⟩) archived gone

namespace Orchestrator

variable {settings : EngineSettings} {o o' o₁ : Orchestrator} {i : Nat} {d : Driver} {t : Ticket}
  {turn : Turn} {turns : List Turn}

-- ---------------------------------------------------------------------------
-- Answers
-- ---------------------------------------------------------------------------

/-- The command that a driver takes is answered. -/
theorem Takes.answered {left : List Ticket} (takes : Takes i o o₁ (.order t) d left)
    (waits : d.run.Waits) (later : Logbook) :
    ∃ result, ⟨t.client, result⟩ ∈ o₁.answers ∧
      Verdict d.run ((o.wall, .order t) :: later) t result := by
  have answer : ⟨t.client, (t.control.apply o.wall d.run).2.map fun _ =>
      d.run.taking o.wall (.order t)⟩ ∈ o₁.answers := by
    rw [takes.answers]
    simp [Input.answer?, Input.ticket?]
  have place : (o.wall, .order t) :: later = ([] : Logbook) ++ (o.wall, .order t) :: later := rfl
  cases verdict : (t.control.apply o.wall d.run).2 with
  | ok =>
    rw [verdict] at answer
    exact ⟨_, answer, .accepted place verdict⟩
  | error fault =>
    rw [verdict] at answer
    exact ⟨_, answer, .refused place verdict (waits.taking_of_refused verdict)⟩

/-- When an input archives the run, the commands that still wait are answered. -/
theorem Takes.dismissed {left : List Ticket} {input : Input} (takes : Takes i o o₁ input d left)
    (archived : (d.run.taking o.wall input).state.isTerminal = true) (waits : t ∈ left)
    (other : input ≠ .order t) :
    ∃ result, ⟨t.client, result⟩ ∈ o₁.answers ∧ Verdict d.run [(o.wall, input)] t result := by
  refine ⟨.error (t.control.gone (d.run.taking o.wall input)), ?_, ?_⟩
  · rw [takes.answers, Run.farewells, if_pos archived]
    refine List.mem_append_left _ (List.mem_reverse.mpr ?_)
    exact List.mem_map.mpr ⟨t, waits, rfl⟩
  · exact .tooLate (by simpa using other) archived (t.control.apply_of_archived archived)

/-- A command that waits will be found waiting, or its answer is explained by what the driver took in
meanwhile. -/
theorem Reachable.verdict (reachable : o.Reachable settings) (hd : o.drivers[i]? = some d)
    (waits : t ∈ d.tickets) (played : o.play? turns = some o') :
    (∃ d', o'.drivers[i]? = some d' ∧ t ∈ d'.tickets) ∨
      ∃ result, ⟨t.client, result⟩ ∈ o'.answers ∧ Verdict d.run (o.logbook i turns) t result := by
  induction turns generalizing o d with
  | nil =>
    cases played
    exact .inl ⟨d, hd, waits⟩
  | cons turn turns ih =>
    obtain ⟨o₁, stepped, played⟩ := Option.bind_eq_some_iff.mp played
    have reachable₁ := reachable.step stepped
    have sound₁ := Sound.of_reachable reachable₁
    obtain ⟨kept, _⟩ := sound₁.desk_grows played
    obtain ⟨input, left, takes, log⟩ | ⟨log, given, _, hd₁⟩ :=
      (Sound.of_reachable reachable).logbook_turn hd stepped turns
    · rw [log]
      by_cases mine : input = .order t
      · subst mine
        obtain ⟨waiting, _⟩ := reachable.waits d (List.mem_of_getElem? hd)
        obtain ⟨result, answer, verdict⟩ := takes.answered waiting (o₁.logbook i turns)
        exact .inr ⟨result, kept.subset answer, verdict⟩
      · have others : t ∈ left := by
          rw [takes.tickets] at waits
          refine (List.mem_append.mp waits).resolve_left fun taken => mine ?_
          cases input <;> simp_all [Input.ticket?]
        cases archived : (d.run.taking o.wall input).state.isTerminal with
        | true =>
          -- The driver is over, so the logbook ends here.
          rw [sound₁.logbook_of_archived takes.driver_after (by simpa using archived) played]
          obtain ⟨result, answer, verdict⟩ := takes.dismissed archived others mine
          exact .inr ⟨result, kept.subset answer, verdict⟩
        | false =>
          have waits₁ : t ∈ (Driver.published { d with tickets := left, hasBegun := true }
              (d.run.taking o.wall input)).tickets := by
            rw [Driver.published_tickets, archived]
            exact others
          obtain still | ⟨result, answer, verdict⟩ := ih reachable₁ takes.driver_after waits₁ played
          · exact .inl still
          · rw [Driver.published_run] at verdict
            exact .inr ⟨result, answer,
              verdict.prepend [(o.wall, input)] (by simpa using mine)⟩
    · obtain still | ⟨result, answer, verdict⟩ := ih reachable₁ hd₁ (List.mem_append_left _ waits) played
      · exact .inl still
      · rw [log]
        exact .inr ⟨result, answer, verdict⟩

-- ---------------------------------------------------------------------------
-- Clients
-- ---------------------------------------------------------------------------

/-- A command is given to the driver of its run unless that driver is over. -/
theorem Sound.submitted (h : o.Sound) (hd : o.drivers[i]? = some d) {control : Control}
    (stepped : o.step? (.submit d.run.id control) = some o₁) :
    (d.isOver = true ∧ (o.submit d.run.id control).2 = .error (control.gone d.snapshot)) ∨
      (o.submit d.run.id control).2 = .ok o.clients ∧ ∃ d₁, o₁.drivers[i]? = some d₁ ∧
        d₁.run = d.run ∧ ⟨o.clients, control⟩ ∈ d₁.tickets := by
  simp only [step?] at stepped
  split at stepped
  · cases stepped
  · cases stepped
    simp only [submit, h.find_run hd]
    cases ended : d.isOver with
    | true => exact .inl ⟨rfl, rfl⟩
    | false =>
      refine .inr ⟨rfl, { d with tickets := d.tickets ++ [⟨o.clients, control⟩] }, ?_, rfl, by simp⟩
      simp [modifyDriver, hd]

-- ---------------------------------------------------------------------------
-- One writer
-- ---------------------------------------------------------------------------

/-- From `o` over the turns to `o'` the run `first` at position `i` has one writer: what readers see and
what clients are answered is explained by the calls of one logbook. -/
structure OneWriter (i : Nat) (first : Run) (turns : List Turn) (o o' : Orchestrator) : Prop where
  /-- The run begins with the first input and with no other. -/
  begins : o.logbook i turns = [] ∨ ∃ now rest, o.logbook i turns = (now, .begin) :: rest ∧
    ∀ entry ∈ rest, entry.2 ≠ .begin
  /-- No command is taken twice. -/
  once : (o.logbook i turns).clients.Nodup
  /-- At any time readers see what the calls of the logbook so far made of the run. -/
  published : ∀ turns₁ turns₂ o₁, turns = turns₁ ++ turns₂ → o.play? turns₁ = some o₁ →
    o.logbook i turns₁ <+: o.logbook i turns ∧
      o₁.getRun first.id = .ok (first.after (o.logbook i turns₁).calls)
  /-- A command that is not given to the driver any more is told what its call answers on the archived
  run. -/
  closed : ∀ turns₁ turns₂ control o₁ fault, turns = turns₁ ++ .submit first.id control :: turns₂ →
    o.play? turns₁ = some o₁ → (o₁.submit first.id control).2 = .error fault →
    (first.after (o.logbook i turns₁).calls).state.isTerminal = true ∧
      ∀ now, control.apply now (first.after (o.logbook i turns₁).calls) =
        (first.after (o.logbook i turns₁).calls, .error fault)
  /-- A command that is given to the driver waits there, or it has one answer, with its verdict. -/
  judged : ∀ turns₁ turns₂ control o₁ client, turns = turns₁ ++ .submit first.id control :: turns₂ →
    o.play? turns₁ = some o₁ → (o₁.submit first.id control).2 = .ok client →
    (o'.answers.filter (fun a => a.client = client) = [] ∧
      ∃ d, o'.drivers[i]? = some d ∧ d.isOver = false ∧ ⟨client, control⟩ ∈ d.tickets) ∨
    ∃ result, o'.answers.filter (fun a => a.client = client) = [⟨client, result⟩] ∧
      Verdict first (o.logbook i turns) ⟨client, control⟩ result

theorem Reachable.run_after (reachable : o.Reachable settings) (hd : o.drivers[i]? = some d)
    (played : o.play? turns = some o') : ∃ d', o'.drivers[i]? = some d' ∧ d'.run.id = d.run.id ∧
      d'.snapshot = d'.run ∧ d'.run = d.run.after (o.logbook i turns).calls := by
  obtain ⟨d', hd', run⟩ := (Sound.of_reachable reachable).run_after hd played
  have published := Published.of_reachable (reachable.play? played)
  refine ⟨d', hd', ?_, published.current d' (List.mem_of_getElem? hd'), run⟩
  rw [run]
  exact Run.after_id ..

/-- What readers see is the run that the logbook makes. -/
theorem Reachable.getRun_after (reachable : o.Reachable settings) (hd : o.drivers[i]? = some d)
    (played : o.play? turns = some o') :
    o'.getRun d.run.id = .ok (d.run.after (o.logbook i turns).calls) := by
  obtain ⟨d', hd', id, current, run⟩ := reachable.run_after hd played
  have found := (Sound.of_reachable (reachable.play? played)).find_run hd'
  rw [← id, getRun, found, ← run, ← current]
  rfl

variable {turns₁ turns₂ : List Turn} {control : Control}

/-- Who finds the driver over is told what the call answers on the run as it is. -/
theorem Reachable.turned_away (reachable : o.Reachable settings) (hd : o.drivers[i]? = some d)
    {fault : Fault} (first : o.play? turns₁ = some o₁)
    (refused : (o₁.submit d.run.id control).2 = .error fault)
    (played : o.play? (turns₁ ++ .submit d.run.id control :: turns₂) = some o') :
    (d.run.after (o.logbook i turns₁).calls).state.isTerminal = true ∧
      ∀ now, control.apply now (d.run.after (o.logbook i turns₁).calls) =
        (d.run.after (o.logbook i turns₁).calls, .error fault) := by
  have sound₁ := Sound.of_reachable (reachable.play? first)
  rw [play?_append, first, Option.bind_some] at played
  obtain ⟨o₂, stepped, _⟩ := Option.bind_eq_some_iff.mp played
  obtain ⟨d₁, hd₁, id, current, run⟩ := reachable.run_after hd first
  rw [← id] at refused stepped
  obtain ⟨ended, told⟩ | ⟨accepted, _⟩ := sound₁.submitted hd₁ stepped
  · rw [told] at refused
    cases refused
    rw [← run, current]
    have archived : d₁.run.state.isTerminal = true :=
      (sound₁.closed d₁ (List.mem_of_getElem? hd₁)).symm.trans ended
    exact ⟨archived, control.apply_of_archived archived⟩
  · rw [accepted] at refused
    cases refused

/-- A command that is given to a driver, which may have taken inputs before, waits or has its verdict. -/
theorem Reachable.judged (reachable : o.Reachable settings) (hd : o.drivers[i]? = some d)
    {client : Nat} (first : o.play? turns₁ = some o₁)
    (given : (o₁.submit d.run.id control).2 = .ok client)
    (played : o.play? (turns₁ ++ .submit d.run.id control :: turns₂) = some o') :
    (o'.answers.filter (fun a => a.client = client) = [] ∧
      ∃ d, o'.drivers[i]? = some d ∧ d.isOver = false ∧ ⟨client, control⟩ ∈ d.tickets) ∨
    ∃ result, o'.answers.filter (fun a => a.client = client) = [⟨client, result⟩] ∧
      Verdict d.run (o.logbook i (turns₁ ++ .submit d.run.id control :: turns₂)) ⟨client, control⟩
        result := by
  have reachable₁ := reachable.play? first
  have booked := Booked.of_reachable (reachable.play? played)
  rw [play?_append, first, Option.bind_some] at played
  obtain ⟨o₂, stepped, played⟩ := Option.bind_eq_some_iff.mp played
  obtain ⟨d₁, hd₁, id, _, run⟩ := reachable.run_after hd first
  have asked := stepped
  rw [← id] at given stepped
  obtain ⟨_, refused⟩ | ⟨accepted, d₂, hd₂, same, waits⟩ :=
    (Sound.of_reachable reachable₁).submitted hd₁ stepped
  · rw [refused] at given
    cases given
  · rw [accepted] at given
    cases given
    obtain ⟨d', hd', waits⟩ | ⟨result, answer, verdict⟩ :=
      (reachable₁.step asked).verdict hd₂ waits played
    · refine .inl ⟨booked.unanswered hd' waits, d', hd', Bool.eq_false_iff.mpr fun ended => ?_, waits⟩
      rw [booked.served d' (List.mem_of_getElem? hd') ended] at waits
      cases waits
    · refine .inr ⟨result, booked.answered_once answer, ?_⟩
      rw [logbook_append first, logbook_cons asked]
      rw [same, run] at verdict
      -- The number of the command is new, so it was not taken before.
      refine verdict.prepend _ fun entry hentry taken => ?_
      have before : o₁.clients ∈ (o.logbook i turns₁).clients :=
        List.mem_filterMap.mpr ⟨entry, hentry, by simp only [taken]; rfl⟩
      exact Nat.lt_irrefl _ ((reachable.orders hd first).2 _ before).1

/-- Each run has one writer. Whatever happens to an orchestrator after it accepted a run, and in whatever
order events and commands reach the driver of the run, there is one sequence of calls, a start and then one
for each input, all followed by a step, that explains everything: readers see the run after a prefix of it,
clients are answered with the run after the step of their own call, or with the fault of their call, which
left the run as it was; and who comes too late is told what the call answers on the archived run. -/
theorem each_run_has_one_writer {settings : EngineSettings} {o o₀ o' : Orchestrator} {id : RunId}
    {topology : Topology} {directives : Directives} {reference : Option RunId} {turns : List Turn}
    (reachable : o.Reachable settings)
    (accepted : (o.createRun id topology directives reference).2 = .ok id)
    (created : o.step? (.create id topology directives reference) = some o₀)
    (played : o₀.play? turns = some o') :
    ∃ policy plan, o.prepare topology directives reference = .ok (policy, plan) ∧
      OneWriter o.drivers.length (Run.create id plan policy o.wall) turns o₀ o' := by
  have reachable₀ := reachable.step created
  obtain ⟨policy, plan, prepared, _, rfl⟩ := created_run accepted created
  have hd := addRun_driver? (Run.create id plan policy o.wall) o
  have sound := Sound.of_reachable reachable₀
  refine ⟨policy, plan, prepared, ⟨sound.begins_first hd rfl played, (reachable₀.orders hd played).1,
    ?_, ?_, ?_⟩⟩
  · rintro turns₁ turns₂ o₁ rfl played₁
    rw [logbook_append played₁]
    exact ⟨List.prefix_append _ _, reachable₀.getRun_after hd played₁⟩
  · rintro turns₁ turns₂ control o₁ fault rfl played₁ refused
    exact reachable₀.turned_away hd played₁ refused played
  · rintro turns₁ turns₂ control o₁ client rfl played₁ given
    exact reachable₀.judged hd played₁ given played

/-- The run of the small topology is asked for. -/
def smallRun : Turn := .create (.ofNat 0) smallTopology [] none

/-- Three commands wait when the run begins. The first is refused, the second aborts the run, the third is
still waiting then, and a fourth comes when the driver is over. -/
def race : List Turn :=
  [.submit (.ofNat 0) .retry, .submit (.ofNat 0) (.abort "wrong version"), .begin 0,
    .submit (.ofNat 0) .suspend, .control 0, .control 0, .submit (.ofNat 0) .resume]

theorem each_run_has_one_writer_race :
    ∃ o₀ o' policy plan, (start .default .epoch).step? smallRun = some o₀ ∧
      o₀.play? race = some o' ∧
      (start .default .epoch).prepare smallTopology [] none = .ok (policy, plan) ∧
      OneWriter 0 (Run.create (.ofNat 0) plan policy .epoch) race o₀ o' ∧
      (o₀.logbook 0 race).map Prod.snd =
        [.begin, .order ⟨0, .retry⟩, .order ⟨1, .abort "wrong version"⟩] ∧
      o'.answers.map (fun a => (a.client, a.result.toOption.map Run.state)) =
        [(2, none), (1, some .aborted), (0, none)] := by
  have possible : (((start .default .epoch).step? smallRun).bind fun o => (o.play? race).map fun o' =>
      ((o.logbook 0 race).map Prod.snd,
        o'.answers.map fun a => (a.client, a.result.toOption.map Run.state))) =
      some ([.begin, .order ⟨0, .retry⟩, .order ⟨1, .abort "wrong version"⟩],
        [(2, none), (1, some .aborted), (0, none)]) := by decide +kernel
  obtain ⟨o₀, created, played⟩ := Option.bind_eq_some_iff.mp possible
  obtain ⟨o', played, seen⟩ := Option.map_eq_some_iff.mp played
  obtain ⟨log, answers⟩ := Prod.mk.inj seen
  have reachable : (start .default .epoch).Reachable .default := ⟨.epoch, [], rfl⟩
  obtain ⟨policy, plan, prepared, writer⟩ :=
    each_run_has_one_writer reachable (by decide +kernel) created played
  exact ⟨o₀, o', policy, plan, created, played, prepared, writer, log, answers⟩

end Orchestrator

end Rollout
