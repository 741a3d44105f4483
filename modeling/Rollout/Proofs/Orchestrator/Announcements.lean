-- SUMMARY: What drivers announce: each turn records the entries of its run into states, and gives their notices out.
import Rollout.Proofs.Metrics.Ledger
import Rollout.Proofs.Orchestrator.TurnFrame

/-!
# Announcements

A driver remembers the state of its run before it calls an operation, and announces the state after it if this is
another one. An announcement is a note in the metrics, and a notice if runs of this kind are announced. Each
function that drives a run has one law that says what it announces; most announce nothing. A turn announces
the entries of the call that it makes and of the step that follows.
-/
namespace Rollout

/-- The notice about a note, if the settings ask for it. -/
def Note.notice? (settings : NotificationSettings) : Note → Option Notice
  | .created .. => none
  | .entered e => if settings.covers e.run.policy then e.notice? else none

namespace Orchestrator

/-- From `o` to `o'` some notes are recorded of runs, and their notices are given out. -/
structure Announces (notes : List Note) (o o' : Orchestrator) : Prop where
  metrics : o'.metrics.aboutRuns = notes.foldl Metrics.note o.metrics.aboutRuns
  notices : o'.notices = o.notices ++ notes.filterMap (Note.notice? o.settings.notification)
  settings : o'.settings = o.settings

variable {o o' o₁ o₂ : Orchestrator} {i : Nat} {d d₁ : Driver} {x x₁ : Executor} {new : List Worker}
  {notes notes' : List Note} {turn : Turn}

namespace Announces

theorem refl (o : Orchestrator) : Announces [] o o := ⟨rfl, (List.append_nil _).symm, rfl⟩

theorem trans (h : Announces notes o o₁) (h' : Announces notes' o₁ o₂) :
    Announces (notes ++ notes') o o₂ where
  metrics := by rw [h'.metrics, h.metrics, List.foldl_append]
  notices := by rw [h'.notices, h.notices, h.settings, List.filterMap_append, List.append_assoc]
  settings := h'.settings.trans h.settings

/-- Nothing is announced in between. -/
theorem silently (h : Announces notes o o₁) (h' : Announces [] o₁ o₂) : Announces notes o o₂ := by
  simpa using h.trans h'

theorem of_same (metrics : o'.metrics = o.metrics) (notices : o'.notices = o.notices)
    (settings : o'.settings = o.settings) : Announces [] o o' :=
  ⟨congrArg Metrics.aboutRuns metrics, by simp [notices], settings⟩

end Announces

-- ---------------------------------------------------------------------------
-- Laws
-- ---------------------------------------------------------------------------

theorem modifyDriver_announces (i : Nat) (f : Driver → Driver) (o : Orchestrator) :
    Announces [] o (o.modifyDriver i f) := .of_same rfl rfl rfl

theorem foldl_reply_announces (tickets : List Ticket) (answer : Ticket → Except Fault Run)
    (o : Orchestrator) :
    Announces [] o (tickets.foldl (fun o t => o.reply t.client (answer t)) o) := by
  induction tickets generalizing o with
  | nil => exact .refl o
  | cons t tickets ih =>
    have replied : Announces [] o (o.reply t.client (answer t)) := .of_same rfl rfl rfl
    exact replied.silently (ih _)

theorem finish_announces (i : Nat) (o : Orchestrator) : Announces [] o (o.finish i) := by
  unfold finish
  split
  · exact .refl o
  next d _ =>
    split
    · exact .refl o
    · have answered := foldl_reply_announces d.tickets (fun t => .error (t.control.gone d.snapshot)) o
      exact answered.silently (.of_same rfl rfl rfl)

theorem recordTask_announces (i : Nat) (event : TaskEvent) (o : Orchestrator) :
    Announces [] o (o.recordTask i event) := by
  unfold recordTask
  split
  · exact .refl o
  · split
    · exact .refl o
    next t _ =>
      have counted := o.metrics.recordTask_aboutRuns t.operation t.status (taskSeconds t)
      dsimp only
      split <;> exact ⟨counted, (List.append_nil _).symm, rfl⟩

/-- The state of a run is announced if it is not the one that was remembered. -/
theorem observe_announces (hd : o.drivers[i]? = some d) (before : Run) :
    Announces ((before.entered o.wall d.run).map .entered) o (o.observe i before.state) := by
  unfold observe Run.entered
  simp only [hd]
  split
  · exact .refl o
  -- The executor may be shut down in between, which is not announced.
  have counted (m : Metrics) (o₁ : Orchestrator) (metrics : o₁.metrics = m)
      (notices : o₁.notices = o.notices) (settings : o₁.settings = o.settings)
      (recorded : m = o.metrics.note (.entered ⟨o.wall, before.state, d.run⟩)) :
      Announces [.entered ⟨o.wall, before.state, d.run⟩] o
        (if o₁.settings.notification.covers d.run.policy then
          { o₁ with notices := o₁.notices ++ (Notice.ofRun? d.run before.state).toList } else o₁) := by
    have about_runs : o₁.metrics.aboutRuns =
        [Note.entered ⟨o.wall, before.state, d.run⟩].foldl Metrics.note o.metrics.aboutRuns := by
      rw [metrics, recorded, Metrics.note_aboutRuns]
      rfl
    have covers : o₁.settings.notification.covers d.run.policy =
        o.settings.notification.covers d.run.policy := by rw [settings]
    cases covered : o.settings.notification.covers d.run.policy
    · rw [if_neg (by rw [covers, covered]; exact Bool.false_ne_true)]
      exact ⟨about_runs, by simp [Note.notice?, covered, notices], settings⟩
    · rw [if_pos (covers.trans covered)]
      refine ⟨about_runs, ?_, settings⟩
      cases built : Notice.ofRun? d.run before.state <;>
        simp [Note.notice?, Run.Entry.notice?, covered, built, notices]
  split
  · exact counted _ _ rfl rfl rfl rfl
  · exact counted _ _ rfl rfl rfl rfl

section Laws

variable (hd : o.drivers[i]? = some d) (hx : o.engine.executors[i]? = some x)
include hd hx

/-- A run that is changed is announced if it enters a state. -/
theorem change_announces {α : Type} (f : Run → Run.Reply α) :
    Announces ((d.run.entered o.wall (f d.run).1).map .entered) o (o.change i f).1 := by
  have set := setRun_became hd hx (f d.run).1
  have observed := observe_announces (set.driver? hd) d.run
  rw [set.wall] at observed
  have silent : Announces [] o (o.setRun i (f d.run).1) := modifyDriver_announces ..
  simp only [change, hd]
  exact silent.trans observed

theorem pump_announces {r : Run} {commands : List TaskCommand}
    (stepped : d.run.step o.wall = (r, .ok commands)) :
    Announces ((d.run.entered o.wall r).map .entered) o (o.pump i) := by
  have set := setRun_became hd hx r
  have silent : Announces [] o (o.setRun i r) := modifyDriver_announces ..
  have observed {o₁ : Orchestrator} (sent : Announces [] o o₁)
      (driver : o₁.drivers = (o.setRun i r).drivers) (wall : o₁.wall = o.wall) :
      Announces ((d.run.entered o.wall r).map .entered) o (o₁.observe i d.run.state) := by
    have seen := observe_announces (driver ▸ set.driver? hd) d.run
    rw [wall] at seen
    exact sent.trans seen
  simp only [pump, hd, stepped]
  cases commands with
  | nil => exact observed silent rfl set.wall
  | cons c rest => exact observed (silent.silently (.of_same rfl rfl rfl)) rfl set.wall

/-- After an input the run is stepped and published. -/
theorem stepped_announces {r₁ r₂ : Run} {commands : List TaskCommand}
    (input : Became i o o₁ d₁ x₁ new) (announced : Announces notes o o₁) (run : d₁.run = r₁)
    (stepped : r₁.step o.wall = (r₂, .ok commands)) :
    Announces (notes ++ (r₁.entered o.wall r₂).map .entered) o ((o₁.pump i).publish i) := by
  subst run
  have pumped := pump_announces (input.driver? hd) (input.executor? hx) (by rw [input.wall]; exact stepped)
  rw [input.wall] at pumped
  exact (announced.trans pumped).silently (modifyDriver_announces ..)

-- ---------------------------------------------------------------------------
-- Turns
-- ---------------------------------------------------------------------------

/-- A driver that begins announces the entries of its run up to the end of the first step. -/
theorem begin?_announces {r₁ r₂ : Run} {commands : List TaskCommand} (h : o.begin? i = some o')
    (started : d.run.start o.wall = (r₁, .ok ())) (stepped : r₁.step o.wall = (r₂, .ok commands)) :
    Announces ((d.run.entered o.wall r₁).map .entered ++ (r₁.entered o.wall r₂).map .entered) o o' := by
  have begun := modifyDriver_became hd hx fun d => { d with hasBegun := true }
  have silent := modifyDriver_announces i (fun d => { d with hasBegun := true }) o
  have wall : (o.modifyDriver i fun d => { d with hasBegun := true }).wall = o.wall := begun.wall
  obtain ⟨answer, input⟩ := change_became (begun.driver? hd) (begun.executor? hx) fun r => r.start o.wall
  have changed := silent.trans
    (change_announces (begun.driver? hd) (begun.executor? hx) fun r => r.start o.wall)
  simp only [started] at answer input changed
  simp only [begin?, hd, Option.bind_eq_bind, Option.bind_some, wall] at h
  split at h
  · cases h
  · simp only [answer] at h
    cases h
    exact (stepped_announces hd hx (begun.trans input) changed rfl stepped).silently
      (finish_announces i _)

/-- News are announced by what they and the step after them make of the run. -/
theorem takeEvent?_announces {event : TaskEvent} {rest : List TaskEvent} {r₁ r₂ : Run}
    {commands : List TaskCommand} (h : o.takeEvent? i = some o') (channel : x.channel = event :: rest)
    (applied : d.run.apply o.wall event = (r₁, .ok ())) (stepped : r₁.step o.wall = (r₂, .ok commands)) :
    Announces ((d.run.entered o.wall r₁).map .entered ++ (r₁.entered o.wall r₂).map .entered) o o' := by
  have received := modifyExecutor_became hd hx fun x => { x with channel := rest }
  have silent : Announces [] o
      { o with engine := o.engine.modifyExecutor i fun x => { x with channel := rest } } :=
    .of_same rfl rfl rfl
  have taken : o.engine.receive? i =
      some (event, o.engine.modifyExecutor i fun x => { x with channel := rest }) := by
    simp [Engine.receive?, hx, channel]
  obtain ⟨answer, input⟩ := change_became (received.driver? hd) (received.executor? hx)
    fun r => r.apply o.wall event
  have changed := silent.trans
    (change_announces (received.driver? hd) (received.executor? hx) fun r => r.apply o.wall event)
  simp only [applied] at answer input changed
  obtain ⟨_, _, h⟩ := Option.bind_eq_some_iff.mp h
  simp only [taken, Option.bind_eq_bind, Option.bind_some, answer] at h
  cases h
  obtain ⟨drivers, engine⟩ := recordTask_same i event _
  have counted := (received.trans input).same drivers engine
  exact (stepped_announces hd hx counted (changed.silently (recordTask_announces i event _)) rfl
    stepped).silently (finish_announces i _)

/-- So are commands of clients. -/
theorem takeControl?_announces {ticket : Ticket} {rest : List Ticket} {r₁ r₂ : Run}
    {commands : List TaskCommand} (h : o.takeControl? i = some o') (tickets : d.tickets = ticket :: rest)
    (controlled : (ticket.control.apply o.wall d.run).1 = r₁)
    (stepped : r₁.step o.wall = (r₂, .ok commands)) :
    Announces ((d.run.entered o.wall r₁).map .entered ++ (r₁.entered o.wall r₂).map .entered) o o' := by
  have popped := modifyDriver_became hd hx fun d => { d with tickets := rest }
  have silent := modifyDriver_announces i (fun d => { d with tickets := rest }) o
  have wall : (o.modifyDriver i fun d => { d with tickets := rest }).wall = o.wall := popped.wall
  obtain ⟨_, input⟩ := change_became (popped.driver? hd) (popped.executor? hx)
    fun r => ticket.control.apply o.wall r
  have changed := silent.trans (change_announces (popped.driver? hd) (popped.executor? hx)
    fun r => ticket.control.apply o.wall r)
  simp only [controlled] at input changed
  have published := stepped_became hd hx (popped.trans input) stepped
  have announced := stepped_announces hd hx (popped.trans input) changed rfl stepped
  obtain ⟨d', running, h⟩ := Option.bind_eq_some_iff.mp h
  obtain ⟨hd', _⟩ := running?_eq running
  cases hd.symm.trans hd'
  simp only [tickets, wall, published.driver? hd, Option.bind_eq_bind, Option.bind_some] at h
  cases h
  have replied (client : Nat) (result : Except Fault Run) (o : Orchestrator) :
      Announces [] o (o.reply client result) := .of_same rfl rfl rfl
  exact (announced.silently (replied ..)).silently (finish_announces i _)

theorem hangUp?_announces {r : Run} (h : o.hangUp? i = some o')
    (aborted : (d.run.abort o.wall "orchestrator shut down").1 = r) :
    Announces ((d.run.entered o.wall r).map .entered) o o' := by
  have changed := change_announces hd hx fun r => r.abort o.wall "orchestrator shut down"
  simp only [aborted] at changed
  simp only [hangUp?, Option.bind_eq_bind, Option.bind_eq_some_iff] at h
  obtain ⟨_, _, h⟩ := h
  split at h
  · cases h
  · cases h
    exact (changed.silently (modifyDriver_announces ..)).silently (finish_announces i _)

end Laws

/-- A turn of a driver announces the entries of the call that it makes and of the step that follows. -/
theorem Driven.announces (driven : Driven i o o' turn) (stepped : o.step? turn = some o') :
    ∃ input d, o.input? i turn = some input ∧ o.drivers[i]? = some d ∧
      Announces ((d.run.entries [(o.wall, input.call), (o.wall, .step)]).map .entered) o o' := by
  obtain @⟨d, d₁, x, x₁, r₁, r₂, commands, hd, hx, live, going, intake, step, became⟩ := driven
  have notes (input : Input) (call : d.run.call o.wall input.call = r₁) :
      (d.run.entries [(o.wall, input.call), (o.wall, .step)]).map Note.entered =
        (d.run.entered o.wall r₁).map .entered ++ (r₁.entered o.wall r₂).map .entered := by
    have next : r₁.call o.wall .step = r₂ := congrArg Prod.fst step
    rw [Run.entries, Run.entries, Run.entries, call, next, List.append_nil, List.map_append]
  cases intake with
  | begin unbegun started =>
    refine ⟨.begin, d, if_pos rfl, hd, ?_⟩
    rw [notes .begin (congrArg Prod.fst started)]
    exact begin?_announces hd hx stepped started step
  | @event event _ _ begun channel applied =>
    refine ⟨.news event, d, by simp [input?, hx, channel], hd, ?_⟩
    rw [notes (.news event) (congrArg Prod.fst applied)]
    exact takeEvent?_announces hd hx stepped channel applied step
  | @control ticket rest _ begun tickets controlled =>
    refine ⟨.order ticket, d, by simp [input?, hd, tickets], hd, ?_⟩
    rw [notes (.order ticket) ((ticket.control.apply_call o.wall d.run).symm.trans controlled)]
    exact takeControl?_announces hd hx stepped tickets controlled step
  | hangUp begun _ _ aborted =>
    refine ⟨.hangUp, d, if_pos rfl, hd, ?_⟩
    have archived : r₁.state.isTerminal = true := by
      rw [← aborted, Run.abort_of_live live]
      rfl
    cases (Run.step_of_archived archived).symm.trans step
    rw [notes .hangUp aborted, Run.entered_of_same (r := r₁) rfl, List.map_nil, List.append_nil]
    exact hangUp?_announces hd hx stepped aborted

end Orchestrator

end Rollout
