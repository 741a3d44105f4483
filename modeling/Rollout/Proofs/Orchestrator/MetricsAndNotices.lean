-- SUMMARY: Metrics and notices follow the runs: every entry is recorded once, and each notice is about an entry.
import Rollout.Proofs.Orchestrator.Journal
import Rollout.Proofs.Orchestrator.AttemptCounts

/-!
# Metrics and notices

Whatever the order of the inputs, metrics and notices say what became of the runs. Each run is recorded to be
created once, and then to enter each state that it enters, in order. Counters count the entries, the
gauge is the number of runs that are not archived, and each archived run was observed once. If runs of its kind
are announced, a run is announced to start, each time that it holds, and at last to end.
-/
namespace Rollout

theorem Note.notice?_runId {settings : NotificationSettings} {n : Note} {notice : Notice}
    (announced : n.notice? settings = some notice) : notice.runId = n.runId := by
  cases n with
  | created => cases announced
  | entered e =>
    rw [Note.notice?] at announced
    split at announced
    · exact Notice.ofRun?_runId announced
    · cases announced

/-- The notices about one run are those of its notes. -/
theorem Note.filterMap_notice? (settings : NotificationSettings) (id : RunId) (journal : List Note) :
    (journal.filterMap (Note.notice? settings)).filter (fun notice => notice.runId = id) =
      (journal.filter (Note.about id)).filterMap (Note.notice? settings) := by
  rw [List.filter_filterMap, List.filterMap_filter]
  refine List.filterMap_congr fun n _ => ?_
  cases announced : n.notice? settings with
  | none => simp
  | some notice =>
    have same := Note.notice?_runId announced
    by_cases about : n.runId = id <;> simp [Note.about, same, about]

/-- The titles of the notices about entries of a run. -/
theorem Run.titles_of_entries (settings : NotificationSettings) (r : Run)
    (history : List (Timestamp × Run.Call)) :
    (((r.entries history).map Note.entered).filterMap (Note.notice? settings)).map Notice.title =
      if settings.covers r.policy then (Run.verbs (r.entries history)).map (Notice.headed r.policy)
      else [] := by
  have policies : ∀ e ∈ r.entries history, e.run.policy = r.policy := fun e he =>
    (Run.charter_eq_iff.mp (Run.entries_charter r history e he)).2.2.1
  rw [List.filterMap_map, List.map_filterMap]
  split
  next covered =>
    rw [Run.verbs, List.map_filterMap]
    refine List.filterMap_congr fun e he => ?_
    have told : (Note.entered e).notice? settings = Notice.ofRun? e.run e.previous := by
      rw [Note.notice?, policies e he, if_pos covered, Run.Entry.notice?]
    rw [Function.comp_apply, told, Notice.ofRun?_title, policies e he]
  next silent =>
    refine List.filterMap_eq_nil_iff.mpr fun e he => ?_
    rw [Function.comp_apply, Note.notice?, policies e he, if_neg silent]
    rfl

/-- The last words of the notices about a run that is in the given state and held a number of times. -/
def RunState.story (state : RunState) (holds : Nat) : List String :=
  (if state = .pending then [] else ["Started"]) ++ List.replicate holds "Holding" ++ state.ending

/-- A run is announced to start, each time that it holds, and at last to end. -/
theorem Recounts.titles {journal : List Note} {log : Logbook} {first r : Run} {now : Timestamp}
    (h : Recounts journal log first now r) (pending : first.state = .pending)
    (settings : NotificationSettings) :
    ((journal.filterMap (Note.notice? settings)).filter fun notice => notice.runId = r.id).map
        Notice.title =
      if settings.covers r.policy then
        (r.state.story ((first.entries log.calls).countP (Run.Entry.into .holding))).map
          (Notice.headed r.policy)
      else [] := by
  have policy : r.policy = first.policy := by
    rw [h.run]
    exact Run.after_policy ..
  have verbs : Run.verbs (first.entries log.calls) =
      r.state.story ((first.entries log.calls).countP (Run.Entry.into .holding)) := by
    rw [h.run]
    obtain unbegun | ⟨begun, rest, begins⟩ := h.begins
    · rw [unbegun]
      simp [RunState.story, Logbook.calls, Run.verbs, Run.entries, Run.after, pending, RunState.ending]
    · have running : (first.call begun .start).state = .running :=
        congrArg (fun reply => reply.1.state) (Run.start_of_pending pending)
      have started : (first.after (Logbook.calls log)).state ≠ .pending := by
        rw [begins]
        exact Run.after_ne_pending (r := first.call begun .start)
          (by rw [running]; exact RunState.noConfusion) _
      have calls : Logbook.calls log = (begun, .start) :: (begun, .step) :: Logbook.calls rest := by
        rw [begins]
        rfl
      rw [RunState.story, if_neg started, calls, Run.verbs_of_start pending]
      rfl
  have silent : (Note.created first now).notice? settings = none := rfl
  rw [Note.filterMap_notice?, h.notes, List.filterMap_cons_none silent, Run.titles_of_entries, policy, verbs]

namespace Orchestrator

/-- Metrics and notices say what a journal says, and the journal tells the histories of the runs. -/
structure Publicizes (settings : NotificationSettings) (journal : List Note) (log : Nat → Logbook)
    (o : Orchestrator) : Prop where
  /-- Each note is recorded once, in order, and nothing else is recorded of runs. -/
  metrics : o.metrics.aboutRuns = journal.foldl Metrics.note .empty
  notices : o.notices = journal.filterMap (Note.notice? settings)
  /-- All notes are about runs that there are. -/
  known : ∀ n ∈ journal, ∃ d ∈ o.drivers, n.runId = d.run.id
  /-- The notes about a run are its creation and its entries, and its notices say so. -/
  recounts : ∀ i d, o.drivers[i]? = some d → ∃ plan policy now,
    Recounts journal (log i) (Run.create d.run.id plan policy now) now d.run ∧
      (o.notices.filter fun notice => notice.runId = d.run.id).map Notice.title =
        if settings.covers d.run.policy then
          (d.run.state.story (((Run.create d.run.id plan policy now).entries (log i).calls).countP
            (Run.Entry.into .holding))).map (Notice.headed d.run.policy)
        else []
  /-- Counters count entries by label. -/
  counts : ∀ labels, o.metrics.Counts labels fun state => journal.countP (Note.isEntry labels state)
  /-- The gauge is the number of runs that are not archived, and each archived run was observed once. -/
  reflects : o.metrics.Reflects (o.drivers.map Driver.run)

variable {o o' o₁ : Orchestrator} {turn : Turn} {turns : List Turn}

/-- What metrics say about the runs, they say after each turn. -/
theorem Sound.reflects (h : o.Sound) (reflects : o.metrics.Reflects (o.drivers.map Driver.run))
    (stepped : o.step? turn = some o') : o'.metrics.Reflects (o'.drivers.map Driver.run) := by
  have before : o.metrics.aboutRuns.Reflects (o.drivers.map Driver.run) := reflects.same rfl rfl rfl
  have distinct : ((o.drivers.map Driver.run).map Run.id).Nodup := by
    rw [List.map_map]
    exact h.distinct
  have recorded := (h.announces stepped).metrics
  suffices o'.metrics.aboutRuns.Reflects (o'.drivers.map Driver.run) from this.same rfl rfl rfl
  rw [recorded]
  cases h.deskwork stepped with
  | quiet idle drivers =>
    rw [announced_of_idle idle (by rw [drivers]), drivers]
    exact before
  | @given i d control idle hd _ drivers =>
    rw [announced_of_idle idle (by rw [drivers, List.length_set]), drivers, List.map_set,
      Engine.set_same (by simp [hd])]
    exact before
  | @opened r idle drivers _ _ created =>
    obtain ⟨id, plan, policy, rfl⟩ := created
    rw [announced_of_opened idle drivers, drivers, List.map_append]
    exact before.created rfl o.wall
  | @taken i input d _ taken takes =>
    have hr : (o.drivers.map Driver.run)[i]? = some d.run := by simp [takes.driver]
    rw [announced_of_taken taken takes.driver (by rw [takes.drivers, List.length_set]), takes.drivers,
      List.map_set, Driver.published_run]
    exact before.entries distinct hr _

/-- Metrics and notices follow the runs, whatever the order of the turns. -/
theorem metrics_and_notices_follow_runs {settings : EngineSettings} {wall : Timestamp}
    (played : (start settings wall).play? turns = some o) :
    o.Publicizes settings.notification ((start settings wall).journal turns)
      (fun i => (start settings wall).logbook i turns) := by
  have sound := start_sound settings wall
  have announces := sound.journal_announces played
  have notices : o.notices = ((start settings wall).journal turns).filterMap
      (Note.notice? settings.notification) := announces.notices.trans (List.nil_append _)
  have metrics : o.metrics.aboutRuns = ((start settings wall).journal turns).foldl Metrics.note .empty :=
    announces.metrics
  refine ⟨metrics, notices, fun n hn => ?_, fun i d hd => ?_, fun labels => ?_, ?_⟩
  · obtain ⟨j, d, hd, about⟩ := sound.runId_of_journal played n hn
    exact ⟨d, List.mem_of_getElem? hd, about⟩
  · obtain ⟨plan, policy, now, told⟩ := sound.journal_of_new (Nat.zero_le i) hd played
    have titles := told.titles rfl settings.notification
    rw [← notices] at titles
    exact ⟨plan, policy, now, told, titles⟩
  · have counts := Metrics.foldl_note_counts ((start settings wall).journal turns) labels
    rw [← metrics] at counts
    exact ⟨counts.transitions, counts.holding, counts.completed, counts.aborted⟩
  · refine (play?_induction (P := fun o => o.Sound ∧ o.metrics.Reflects (o.drivers.map Driver.run))
      (fun h stepped => ⟨h.1.step stepped, h.1.reflects h.2 stepped⟩) played ⟨sound, .empty⟩).2

/-- Upgrades are announced. -/
def publicly : EngineSettings := { persistent with notification := ⟨true, false⟩ }

/-- A run holds, and clients retry, suspend, resume and abort it. -/
def heldOnce : List Turn :=
  .create (.ofNat 0) lonely [] none :: firstTime ++ refusals ++ listening 3 ++
    [.submit (.ofNat 0) .retry, .control 0, .submit (.ofNat 0) .suspend, .control 0,
      .submit (.ofNat 0) .resume, .control 0, .submit (.ofNat 0) (.abort "wrong version"), .control 0]

theorem metrics_and_notices_follow_runs_heldOnce :
    ∃ o, (start publicly .epoch).play? heldOnce = some o ∧
      o.Publicizes ⟨true, false⟩ ((start publicly .epoch).journal heldOnce)
        (fun i => (start publicly .epoch).logbook i heldOnce) ∧
      o.notices.map Notice.title =
        ["Cluster Upgrade Started", "Cluster Upgrade Holding", "Cluster Upgrade Aborted"] ∧
      o.metrics.active = 0 ∧
      [RunState.running, .holding, .suspended, .aborted].map (fun state =>
        o.metrics.transitions.value (⟨"lonely", "UPGRADE"⟩, state)) = [3, 1, 1, 1] := by
  have possible : ((start publicly .epoch).play? heldOnce).map (fun o =>
      (o.notices.map Notice.title, o.metrics.active,
        [RunState.running, .holding, .suspended, .aborted].map fun state =>
          o.metrics.transitions.value (⟨"lonely", "UPGRADE"⟩, state))) =
      some (["Cluster Upgrade Started", "Cluster Upgrade Holding", "Cluster Upgrade Aborted"], 0,
        [3, 1, 1, 1]) := by decide +kernel
  obtain ⟨o, played, seen⟩ := Option.map_eq_some_iff.mp possible
  obtain ⟨titles, seen⟩ := Prod.mk.inj seen
  obtain ⟨active, counts⟩ := Prod.mk.inj seen
  exact ⟨o, played, metrics_and_notices_follow_runs played, titles, active, counts⟩

end Orchestrator

end Rollout
