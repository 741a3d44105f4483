-- SUMMARY: The journal of an orchestrator: all that is announced of its runs, in order; metrics and notices say what it says.
import Rollout.Proofs.Orchestrator.Announcements
import Rollout.Proofs.Orchestrator.Verdict

/-!
# Journals

The journal of an orchestrator holds what is announced at each turn: a run that is added, and the entries that
the driver whose turn it is makes. For each run it says that the run was created, and then every entry of its
history once and in order. Metrics of runs and notices are made from the journal and from nothing else.
-/
namespace Rollout

/-- The position of the driver whose turn it is. -/
def Turn.driver? : Turn → Option Nat
  | .begin i | .event i | .control i | .hangUp i => some i
  | .engine _ | .create .. | .submit .. | .drop => none

/-- The note is about the run with the given identifier. -/
def Note.about (id : RunId) (n : Note) : Bool := n.runId = id

/-- What a journal says of a run that took in the inputs of a logbook: that it was created, and then each entry
of its history once and in order. The first input makes it begin. -/
structure Recounts (journal : List Note) (log : Logbook) (first : Run) (now : Timestamp) (r : Run) :
    Prop where
  begins : log = [] ∨ ∃ now rest, log = (now, .begin) :: rest
  run : r = first.after log.calls
  notes : journal.filter (Note.about r.id) =
    .created first now :: (first.entries log.calls).map .entered

namespace Orchestrator

/-- What is announced at a turn that leads from `o` to `o'`. -/
def announced (o : Orchestrator) (turn : Turn) (o' : Orchestrator) : List Note :=
  (o'.drivers.drop o.drivers.length).map (fun d => .created d.run o.wall) ++
    match turn.driver?.bind fun i => (o.input? i turn).bind fun input => o.drivers[i]?.map (·.run, input) with
    | none => []
    | some (r, input) => (r.entries [(o.wall, input.call), (o.wall, .step)]).map .entered

/-- All that is announced over a sequence of turns. -/
def journal : Orchestrator → List Turn → List Note
  | _, [] => []
  | o, turn :: turns =>
    match o.step? turn with
    | none => []
    | some o' => o.announced turn o' ++ journal o' turns

variable {o o' o₁ : Orchestrator} {i : Nat} {d d' : Driver} {turn : Turn} {turns : List Turn}
  {input : Input}

theorem journal_cons (stepped : o.step? turn = some o₁) (turns : List Turn) :
    o.journal (turn :: turns) = o.announced turn o₁ ++ o₁.journal turns := by
  rw [journal, stepped]

theorem driver?_of_input? (taken : o.input? i turn = some input) : turn.driver? = some i := by
  cases turn with
  | begin run | event run | control run | hangUp run =>
    by_cases here : run = i
    · rw [Turn.driver?, here]
    · simp [input?, here] at taken
  | engine | create | submit | drop => cases taken

/-- A turn at which nobody takes an input in and no run is added announces nothing. -/
theorem announced_of_idle (idle : ∀ i, o.input? i turn = none)
    (kept : o'.drivers.length = o.drivers.length) : o.announced turn o' = [] := by
  have none_added : o'.drivers.drop o.drivers.length = [] := List.drop_eq_nil_iff.mpr (Nat.le_of_eq kept)
  have none_taken : (turn.driver?.bind fun i =>
      (o.input? i turn).bind fun input => o.drivers[i]?.map (·.run, input)) = none := by
    cases turn.driver? with
    | none => rfl
    | some i => simp [idle i]
  rw [announced, none_added, none_taken]
  rfl

theorem announced_of_taken (taken : o.input? i turn = some input) (hd : o.drivers[i]? = some d)
    (kept : o'.drivers.length = o.drivers.length) : o.announced turn o' =
      (d.run.entries [(o.wall, input.call), (o.wall, .step)]).map .entered := by
  have none_added : o'.drivers.drop o.drivers.length = [] := List.drop_eq_nil_iff.mpr (Nat.le_of_eq kept)
  rw [announced, none_added, driver?_of_input? taken]
  simp [taken, hd]

theorem announced_of_opened {r : Run} (idle : ∀ i, o.input? i turn = none)
    (drivers : o'.drivers = o.drivers ++ [⟨r, r, [], false, false⟩]) :
    o.announced turn o' = [.created r o.wall] := by
  have none_taken : (turn.driver?.bind fun i =>
      (o.input? i turn).bind fun input => o.drivers[i]?.map (·.run, input)) = none := by
    cases turn.driver? with
    | none => rfl
    | some i => simp [idle i]
  rw [announced, none_taken, drivers, List.drop_left]
  rfl

-- ---------------------------------------------------------------------------
-- Metrics and notices
-- ---------------------------------------------------------------------------

/-- What becomes of the announcements at a turn. -/
theorem Sound.announces (h : o.Sound) (stepped : o.step? turn = some o') :
    Announces (o.announced turn o') o o' := by
  have driven {i : Nat} (driven : Driven i o o' turn) : Announces (o.announced turn o') o o' := by
    obtain ⟨input, d, taken, hd, announces⟩ := driven.announces stepped
    obtain @⟨_, _, _, _, _, _, _, _, _, _, _, _, _, became⟩ := driven
    rw [announced_of_taken taken hd (by rw [became.drivers, List.length_set])]
    exact announces
  have quiet {o' : Orchestrator} (idle : ∀ i, o.input? i turn = none)
      (drivers : o'.drivers.length = o.drivers.length) (metrics : o'.metrics = o.metrics)
      (notices : o'.notices = o.notices) (settings : o'.settings = o.settings) :
      Announces (o.announced turn o') o o' := by
    rw [announced_of_idle idle drivers]
    exact .of_same metrics notices settings
  cases turn with
  | engine =>
    obtain ⟨_, _, rfl⟩ := Option.map_eq_some_iff.mp stepped
    exact quiet (fun _ => rfl) rfl rfl rfl rfl
  | begin => exact driven (h.begin_driven stepped)
  | event => exact driven (h.event_driven stepped)
  | control => exact driven (h.control_driven stepped)
  | hangUp => exact driven (h.hangUp_driven stepped)
  | create id t directives reference =>
    simp only [step?] at stepped
    split at stepped
    · cases stepped
    · cases stepped
      unfold createRun
      split
      · exact quiet (fun _ => rfl) rfl rfl rfl rfl
      next policy plan _ =>
        rw [announced_of_opened (fun _ => rfl) (addRun_drivers (Run.create id plan policy o.wall) o)]
        exact ⟨rfl, (List.append_nil _).symm, rfl⟩
  | submit id c =>
    simp only [step?] at stepped
    split at stepped
    · cases stepped
    · cases stepped
      unfold submit
      split
      · exact quiet (fun _ => rfl) rfl rfl rfl rfl
      · split
        · exact quiet (fun _ => rfl) rfl rfl rfl rfl
        · exact quiet (fun _ => rfl) (List.length_modify ..) rfl rfl rfl
  | drop =>
    cases stepped
    exact quiet (fun _ => rfl) rfl rfl rfl rfl

/-- Metrics of runs and notices are made from the journal. -/
theorem Sound.journal_announces (h : o.Sound) (played : o.play? turns = some o') :
    Announces (o.journal turns) o o' := by
  induction turns generalizing o with
  | nil =>
    cases played
    exact .refl _
  | cons turn turns ih =>
    obtain ⟨o₁, stepped, played⟩ := Option.bind_eq_some_iff.mp played
    rw [journal_cons stepped]
    exact (h.announces stepped).trans (ih (h.step stepped) played)

-- ---------------------------------------------------------------------------
-- The journal of one run
-- ---------------------------------------------------------------------------

/-- Notes of entries of a run are about this run. -/
theorem filter_entered {r : Run} {history : List (Timestamp × Run.Call)} {id : RunId} :
    ((r.entries history).map Note.entered).filter (Note.about id) =
      if r.id = id then (r.entries history).map Note.entered else [] := by
  have about : ∀ n ∈ (r.entries history).map Note.entered, n.runId = r.id := by
    intro n hn
    obtain ⟨e, he, rfl⟩ := List.mem_map.mp hn
    exact (Run.charter_eq_iff.mp (Run.entries_charter r history e he)).1
  split
  next same => exact List.filter_eq_self.mpr fun n hn => decide_eq_true ((about n hn).trans same)
  next other =>
    refine List.filter_eq_nil_iff.mpr fun n hn hit => other ?_
    exact (about n hn).symm.trans (of_decide_eq_true hit)

/-- What is announced of a run at a turn is what its driver makes of it. -/
theorem Sound.announced_about (h : o.Sound) (hd : o.drivers[i]? = some d)
    (stepped : o.step? turn = some o') : (o.announced turn o').filter (Note.about d.run.id) =
      match o.input? i turn with
      | none => []
      | some input => (d.run.entries [(o.wall, input.call), (o.wall, .step)]).map .entered := by
  cases h.deskwork stepped with
  | quiet idle drivers =>
    rw [announced_of_idle idle (by rw [drivers]), idle i]
    rfl
  | given idle _ _ drivers =>
    rw [announced_of_idle idle (by rw [drivers, List.length_set]), idle i]
    rfl
  | @opened r idle drivers =>
    have inside := (List.getElem?_eq_some_iff.mp hd).1
    have other : r.id ≠ d.run.id := by
      intro same
      have old : o'.drivers[i]? = some d := by rw [drivers, List.getElem?_append_left inside, hd]
      have new : o'.drivers[o.drivers.length]? = some ⟨r, r, [], false, false⟩ := by
        rw [drivers, List.getElem?_concat_length]
      have here := (h.step stepped).index_eq old new same
      omega
    rw [announced_of_opened idle drivers, idle i]
    simp [Note.about, Note.runId, other]
  | @taken j input d₁ _ taken takes =>
    rw [announced_of_taken taken takes.driver (by rw [takes.drivers, List.length_set]), filter_entered]
    by_cases here : i = j
    · subst here
      cases hd.symm.trans takes.driver
      rw [taken, if_pos rfl]
    · rw [input?_of_ne taken here, if_neg fun same => here (h.index_eq hd takes.driver same).symm]

/-- What is announced of a run is its history: every entry that the calls of the logbook make, once and in
order. -/
theorem Sound.journal_about (h : o.Sound) (hd : o.drivers[i]? = some d) (played : o.play? turns = some o') :
    (o.journal turns).filter (Note.about d.run.id) =
      (d.run.entries (o.logbook i turns).calls).map .entered := by
  induction turns generalizing o d with
  | nil => rfl
  | cons turn turns ih =>
    obtain ⟨o₁, stepped, played⟩ := Option.bind_eq_some_iff.mp played
    rw [journal_cons stepped, List.filter_append, h.announced_about hd stepped, logbook_cons stepped]
    obtain ⟨input, _, taken, takes⟩ | ⟨idle, _, _, hd₁⟩ := (h.deskwork stepped).driver hd
    · have same : (d.run.taking o.wall input).id = d.run.id :=
        Run.after_id d.run [(o.wall, input.call), (o.wall, .step)]
      have rest := ih (h.step stepped) takes.driver_after played
      rw [Driver.published_run, same] at rest
      have calls : Logbook.calls ([(o.wall, input)] ++ o₁.logbook i turns) =
          [(o.wall, input.call), (o.wall, .step)] ++ (o₁.logbook i turns).calls := rfl
      rw [rest, taken, Option.map_some, Option.toList_some, calls, Run.entries_append, List.map_append]
      rfl
    · rw [idle]
      exact ih (h.step stepped) (d := { d with tickets := d.tickets ++ _ }) hd₁ played

/-- What is announced at a turn is about a run that there is then. -/
theorem Sound.runId_of_announced (h : o.Sound) (stepped : o.step? turn = some o') :
    ∀ n ∈ o.announced turn o',
      ∃ (j : Nat) (d : Driver), o'.drivers[j]? = some d ∧ n.runId = d.run.id := by
  intro n hn
  cases h.deskwork stepped with
  | quiet idle drivers =>
    rw [announced_of_idle idle (by rw [drivers])] at hn
    cases hn
  | given idle _ _ drivers =>
    rw [announced_of_idle idle (by rw [drivers, List.length_set])] at hn
    cases hn
  | @opened r idle drivers =>
    rw [announced_of_opened idle drivers] at hn
    cases List.mem_singleton.mp hn
    exact ⟨o.drivers.length, _, by rw [drivers, List.getElem?_concat_length], rfl⟩
  | @taken j input d _ taken takes =>
    rw [announced_of_taken taken takes.driver (by rw [takes.drivers, List.length_set])] at hn
    obtain ⟨e, he, rfl⟩ := List.mem_map.mp hn
    refine ⟨j, _, takes.driver_after, ?_⟩
    have kept := Run.after_charter d.run [(o.wall, input.call), (o.wall, .step)]
    rw [Driver.published_run]
    exact (congrArg Run.Charter.id ((Run.entries_charter _ _ e he).trans kept.symm) :)

/-- A run keeps its identifier. -/
theorem Sound.run_kept (h : o.Sound) (hd : o.drivers[i]? = some d) (played : o.play? turns = some o') :
    ∃ d', o'.drivers[i]? = some d' ∧ d'.run.id = d.run.id := by
  obtain ⟨d', hd', run⟩ := h.run_after hd played
  exact ⟨d', hd', run ▸ Run.after_id ..⟩

/-- All notes are about runs that there are. -/
theorem Sound.runId_of_journal (h : o.Sound) (played : o.play? turns = some o') :
    ∀ n ∈ o.journal turns,
      ∃ (j : Nat) (d : Driver), o'.drivers[j]? = some d ∧ n.runId = d.run.id := by
  induction turns generalizing o with
  | nil => exact fun n hn => nomatch hn
  | cons turn turns ih =>
    obtain ⟨o₁, stepped, played⟩ := Option.bind_eq_some_iff.mp played
    rw [journal_cons stepped]
    intro n hn
    obtain now | later := List.mem_append.mp hn
    · obtain ⟨j, d, hd, about⟩ := h.runId_of_announced stepped n now
      obtain ⟨d', hd', id⟩ := (h.step stepped).run_kept hd played
      exact ⟨j, d', hd', about.trans id.symm⟩
    · exact ih (h.step stepped) played n later

/-- As long as there is no run at a position, nobody takes an input in for it, and no note is about it. -/
theorem Sound.unheard (h : o.Sound) (stepped : o.step? turn = some o₁) (few : o₁.drivers.length ≤ i)
    (played : o₁.play? turns = some o') (hd' : o'.drivers[i]? = some d') :
    o.input? i turn = none ∧ (o.announced turn o₁).filter (Note.about d'.run.id) = [] := by
  have sound₁ := h.step stepped
  constructor
  · cases h.deskwork stepped with
    | quiet idle | opened idle | given idle => exact idle i
    | @taken j _ _ _ taken takes =>
      refine input?_of_ne taken fun here => ?_
      have inside := (List.getElem?_eq_some_iff.mp (here ▸ takes.driver_after)).1
      omega
  · refine List.filter_eq_nil_iff.mpr fun n hn hit => ?_
    obtain ⟨j, d, hd, about⟩ := h.runId_of_announced stepped n hn
    obtain ⟨d₂, hd₂, id⟩ := sound₁.run_kept hd played
    have inside := (List.getElem?_eq_some_iff.mp hd).1
    have here := (play?_induction (fun h stepped => Sound.step h stepped) played sound₁).index_eq hd' hd₂
      (id.trans (about.symm.trans (of_decide_eq_true hit)))
    omega

/-- What is told of a run from the beginning: that it was created, and then its history. -/
theorem Sound.journal_of_new (h : o.Sound) (new : o.drivers.length ≤ i) (hd' : o'.drivers[i]? = some d')
    (played : o.play? turns = some o') : ∃ plan policy now,
      Recounts (o.journal turns) (o.logbook i turns) (Run.create d'.run.id plan policy now) now d'.run := by
  induction turns generalizing o with
  | nil =>
    cases played
    have inside := (List.getElem?_eq_some_iff.mp hd').1
    omega
  | cons turn turns ih =>
    obtain ⟨o₁, stepped, played⟩ := Option.bind_eq_some_iff.mp played
    have sound₁ := h.step stepped
    by_cases few : o₁.drivers.length ≤ i
    · obtain ⟨idle, silent⟩ := h.unheard stepped few played hd'
      obtain ⟨plan, policy, now, told⟩ := ih sound₁ few played
      rw [journal_cons stepped, logbook_cons stepped, idle]
      refine ⟨plan, policy, now, told.begins, told.run, ?_⟩
      rw [List.filter_append, silent]
      exact told.notes
    · cases h.deskwork stepped with
      | quiet _ drivers => exact absurd (drivers ▸ new) few
      | given _ _ _ drivers => exact absurd (by rw [drivers, List.length_set]; exact new) few
      | taken _ takes => exact absurd (by rw [takes.drivers, List.length_set]; exact new) few
      | @opened r idle drivers _ _ created =>
        obtain ⟨id, plan, policy, rfl⟩ := created
        have here : i = o.drivers.length := by
          rw [drivers, List.length_append, List.length_singleton] at few
          omega
        obtain ⟨d, hd, run, unbegun⟩ : ∃ d, o₁.drivers[i]? = some d ∧
            d.run = Run.create id plan policy o.wall ∧ d.hasBegun = false :=
          ⟨_, by rw [drivers, here, List.getElem?_concat_length], rfl, rfl⟩
        obtain ⟨d₂, hd₂, after⟩ := sound₁.run_after hd played
        cases hd'.symm.trans hd₂
        obtain ⟨named, same⟩ : d'.run.id = id ∧ d.run.id = id := by
          rw [after, run]
          exact ⟨Run.after_id .., rfl⟩
        have history := sound₁.journal_about hd played
        rw [same, run] at history
        rw [journal_cons stepped, logbook_cons stepped, idle i, announced_of_opened idle drivers, named]
        refine ⟨plan, policy, o.wall, ?_, run ▸ after, ?_⟩
        · exact (sound₁.begins_first hd unbegun played).imp_right fun ⟨now, rest, begins, _⟩ =>
            ⟨now, rest, begins⟩
        · have about : Note.about id (.created (Run.create id plan policy o.wall) o.wall) = true :=
            decide_eq_true rfl
          rw [named, List.singleton_append, List.filter_cons_of_pos about, history]
          rfl

end Orchestrator

end Rollout
