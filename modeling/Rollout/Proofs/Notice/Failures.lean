-- SUMMARY: Which failed tasks the notice of a holding run shows: those that hold it, behind those of earlier stages.
import Rollout.Notice.Basic
import Rollout.Proofs.Run.Holding
import Rollout.Proofs.Run.Itinerary

/-!
# Failures in notices

The notice of a run that holds takes its rows from all failed tasks of the run, in their order, and shows the first
of them. Checks of skippable groups may fail without holding the run, and they stay failed. So the rows begin with
the failures that were tolerated on the way, and the tasks that hold the run come behind them, if there is room.
A retry counts the latter only.
-/
namespace Rollout.Run

instance (a b : Cursor) : Decidable (a < b) :=
  inferInstanceAs (Decidable (a.group < b.group ∨ a.group = b.group ∧ a.stage < b.stage))

/-- The failed tasks of the stages behind the cursor. -/
def tolerated (r : Run) : List Task :=
  r.tasks.filter fun t => t.status.isFailure && decide (t.position < r.cursor)

variable {r : Run}

-- ---------------------------------------------------------------------------
-- Failed tasks
-- ---------------------------------------------------------------------------

/-- The tasks of a run stand in the order of their positions. -/
theorem MirrorsPlan.tasks_sorted (h : r.MirrorsPlan) :
    r.tasks.Pairwise fun a b => ¬ b.position < a.position := by
  have sorted := r.plan.entries_sorted
  rw [← h] at sorted
  exact List.pairwise_map.mp sorted

theorem tolerated_eq_filter :
    r.tolerated = r.failedTasks.filter fun t => decide (t.position < r.cursor) := by
  rw [failedTasks, List.filter_filter]
  exact List.filter_congr fun t _ => Bool.and_comm ..

/-- Nothing failed ahead of the cursor, so what did not fail behind it failed at it. -/
theorem Barrier.failures_eq_filter (h : r.Barrier) :
    r.failures = r.failedTasks.filter fun t => !decide (t.position < r.cursor) := by
  rw [failures, stageTasks, failedTasks, List.filter_filter, List.filter_filter]
  refine List.filter_congr fun t ht => ?_
  rw [Bool.and_comm, Bool.eq_iff_iff, Bool.and_eq_true, Bool.and_eq_true, Bool.not_eq_true',
    decide_eq_false_iff_not, Task.isAt_iff]
  refine and_congr_left fun failed => ⟨fun here => ?_, fun not_behind => ?_⟩
  · rw [here, Cursor.lt_iff]
    omega
  · refine Decidable.byContradiction fun elsewhere => ?_
    have ahead : r.cursor < t.position := by
      generalize t.position = place at elsewhere not_behind ⊢
      cases place
      cases cursor : r.cursor
      rw [cursor] at elsewhere not_behind
      simp only [Cursor.lt_iff, Cursor.mk.injEq] at elsewhere not_behind ⊢
      omega
    obtain untouched | ⟨_, skipped⟩ := h.ahead t ht ahead
    · rw [untouched.1] at failed
      cases failed
    · rw [skipped] at failed
      cases failed

/-- The failed tasks of earlier stages come before those of the current one, and there are no others. -/
theorem failedTasks_eq (mirrors : r.MirrorsPlan) (barrier : r.Barrier) :
    r.failedTasks = r.tolerated ++ r.failures := by
  have front : r.failedTasks.Pairwise fun a b =>
      decide (b.position < r.cursor) = true → decide (a.position < r.cursor) = true := by
    refine (mirrors.tasks_sorted.filter _).imp fun {a b} ordered behind => decide_eq_true ?_
    have behind := of_decide_eq_true behind
    rw [Cursor.lt_iff] at ordered behind ⊢
    omega
  rw [tolerated_eq_filter, barrier.failures_eq_filter, Plan.filter_append_of_front front]

/-- The failures of earlier stages may be. -/
theorem Barrier.mayFail_of_tolerated (h : r.Barrier) {t : Task} (ht : t ∈ r.tolerated) :
    t.position < r.cursor ∧ t.MayFail r.plan := by
  obtain ⟨member, failed⟩ := List.mem_filter.mp ht
  obtain ⟨failed, behind⟩ := Bool.and_eq_true_iff.mp failed
  have behind := of_decide_eq_true behind
  exact ⟨behind, (h.behind t member behind).2 failed⟩

-- ---------------------------------------------------------------------------
-- Notices
-- ---------------------------------------------------------------------------

/-- The notice of a run that holds. -/
theorem notice_of_holding (holding : r.state = .holding) (previous : RunState) :
    ∃ n, Notice.ofRun? r previous = some n ∧
      n.failed = (r.failedTasks.take Notice.rowLimit).map Notice.row ∧
      n.moreFailed = r.failedTasks.length - Notice.rowLimit := by
  simp [Notice.ofRun?, Notice.headline?, holding]

/-- The notice of a run that holds shows the failures that were tolerated on the way and then those that hold it, in
the order of the tasks and as many as there is room for, and counts the rest of both. Rows and count make up the
number of tasks that a retry makes pending just when nothing was tolerated; then the rows are the first of the tasks
that hold the run. -/
theorem notice_shows_tolerated_failures_first {t : Topology} {policy : Policy} {plan : Plan}
    (built : Plan.build t policy = .ok plan) (id : RunId) (made : Timestamp)
    (history : List (Timestamp × Call)) {r : Run} (reached : (create id plan policy made).after history = r)
    (holding : r.state = .holding) (previous : RunState) :
    (∀ u ∈ r.tolerated, u.position < r.cursor ∧ u.MayFail plan) ∧
    r.failedTasks = r.tolerated ++ r.blocking ∧
    (∀ now, (r.retry now).2 = .ok r.blocking.length) ∧ 0 < r.blocking.length ∧
    ∃ n, Notice.ofRun? r previous = some n ∧
      n.failed = (r.tolerated.take 8).map Notice.row ++
        (r.blocking.take (8 - r.tolerated.length)).map Notice.row ∧
      n.moreFailed = r.tolerated.length + r.blocking.length - 8 ∧
      n.failed.length + n.moreFailed = r.tolerated.length + r.blocking.length ∧
      (n.failed.length + n.moreFailed = r.blocking.length ↔ r.tolerated = []) ∧
      (r.tolerated = [] → n.failed = (r.blocking.take 8).map Notice.row ∧
        n.moreFailed = r.blocking.length - 8) := by
  subst reached
  have mirrors := mirrorsPlan_after id plan policy made history
  have same : ((create id plan policy made).after history).plan = plan := after_plan _ history
  have barrier := barrier_after id plan policy made history
  have held := held_after id plan policy made history holding
  generalize (create id plan policy made).after history = r at *
  have uniform : r.plan.IsUniform := same ▸ Plan.build_isUniform built
  have blocking : r.blocking = r.failures := blocking_eq_failures mirrors uniform held.blocked
  have failed : r.failedTasks = r.tolerated ++ r.blocking := by
    rw [blocking]
    exact failedTasks_eq mirrors barrier
  obtain ⟨n, notice, rows, more⟩ := notice_of_holding holding previous
  rw [failed, List.take_append, List.map_append] at rows
  rw [failed, List.length_append] at more
  have counted : n.failed.length + n.moreFailed = r.tolerated.length + r.blocking.length := by
    rw [rows, more]
    simp only [List.length_append, List.length_map, List.length_take, Notice.rowLimit]
    omega
  refine ⟨fun u hu => same ▸ barrier.mayFail_of_tolerated hu, failed, fun now => ?_,
    List.length_pos_iff.mpr held.blocked, n, notice, rows, more, counted, ?_, fun none_tolerated => ?_⟩
  · rw [retry_of_holding holding, blocking]
    rfl
  · rw [counted, ← List.length_eq_zero_iff]
    omega
  · rw [rows, more, none_tolerated]
    simp [Notice.rowLimit]

/-- A cache whose checks may fail, and a database. -/
def cacheAndDb : Topology :=
  ⟨"twin", "1.0", "1.1", [⟨"cache", true, [⟨"node", ["alpha"], true⟩]⟩,
    ⟨"db", false, [⟨"server", ["beta"], true⟩]⟩]⟩

def cacheAndDbPlan : Plan := .along (.of cacheAndDb false false) cacheAndDb

/-- The check of the cache fails, and so does the restart of the database, which holds the run. -/
def cacheThenDbFails : List (Timestamp × Call) :=
  [.start, .step, .apply (.finished 0 (.completed 0)), .step,
    .apply (.finished 1 (.failed (.commandRejected "alpha" "not ready") 0)), .step,
    .apply (.finished 2 (.failed (.commandRejected "beta" "exit 1") 0)), .step].map fun c => (.epoch, c)

theorem notice_shows_tolerated_failures_first_cache :
    let r := (create (.ofNat 0) cacheAndDbPlan .upgrade .epoch).after cacheThenDbFails
    Plan.build cacheAndDb .upgrade = .ok cacheAndDbPlan ∧ r.state = .holding ∧
      r.tolerated.map Task.id = [1] ∧ r.blocking.map Task.id = [2] ∧
      r.failedTasks = r.tolerated ++ r.blocking ∧ (r.retry .epoch).2 = .ok r.blocking.length := by
  intro r
  have built : Plan.build cacheAndDb .upgrade = .ok cacheAndDbPlan := by decide +kernel
  have holding : r.state = .holding := by decide +kernel
  obtain ⟨_, failed, retried, _⟩ := notice_shows_tolerated_failures_first built (.ofNat 0) .epoch
    cacheThenDbFails rfl holding .running
  exact ⟨built, holding, by decide +kernel, by decide +kernel, failed, retried .epoch⟩

/-- The notice has a row for a failed check that does not hold the run, and a retry makes fewer tasks pending than
the notice counts. -/
theorem notice_counts_more_than_a_retry :
    let r := (create (.ofNat 0) cacheAndDbPlan .upgrade .epoch).after cacheThenDbFails
    Plan.build cacheAndDb .upgrade = .ok cacheAndDbPlan ∧ r.state = .holding ∧
      (r.retry .epoch).2 = .ok 1 ∧
      ∃ n, Notice.ofRun? r .running = some n ∧ n.failed.map FailedTaskRow.host = ["alpha", "beta"] ∧
        n.failed ≠ (r.blocking.take 8).map Notice.row ∧ n.failed.length + n.moreFailed ≠ 1 := by
  intro r
  refine ⟨by decide +kernel, by decide +kernel, by decide +kernel, ?_⟩
  have holding : r.state = .holding := by decide +kernel
  obtain ⟨n, notice, rows, _⟩ := notice_of_holding holding .running
  have hosts : n.failed.map FailedTaskRow.host = ["alpha", "beta"] := by
    rw [rows]
    decide +kernel
  have two_rows : n.failed.length = 2 := by simpa using congrArg List.length hosts
  refine ⟨n, notice, hosts, fun same => ?_, by omega⟩
  have one_row : ((r.blocking.take 8).map Notice.row).length = 1 := by decide +kernel
  rw [← same] at one_row
  omega

end Rollout.Run
