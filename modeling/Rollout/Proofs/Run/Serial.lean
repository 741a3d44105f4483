-- SUMMARY: A host works on one task of a run at a time, whatever is called and whatever events arrive.
import Rollout.Proofs.Run.Charter

/-!
# One task at a time

A task gets in progress only by the news that it was started, and such news are refused as long as
another task of the run is in progress on the same host. Everything else only takes tasks out of progress.
Tasks are found by index and compared by number, which is the same since tasks mirror the plan.
-/
namespace Rollout.Run

/-- No two tasks on one host are in progress. -/
def Serial (r : Run) : Prop :=
  r.tasks.Pairwise fun a b => a.status = .inProgress → b.status = .inProgress → a.host ≠ b.host

variable {r r' : Run} {now : Timestamp}

theorem isBusy_eq_false {id : Nat} {host : String} : r.isBusy id host = false ↔
    ∀ t ∈ r.tasks, t.id ≠ id → t.status = .inProgress → t.host ≠ host := by
  simp only [isBusy, List.any_eq_false, Bool.and_eq_true, decide_eq_true_eq, not_and]
  refine forall₂_congr fun t _ => ?_
  exact ⟨fun apart other busy here => apart ⟨other, here⟩ busy,
    fun apart ⟨other, here⟩ busy => apart other busy here⟩

/-- Of elements that exclude each other at most one has a property. -/
theorem countP_le_one {α : Type} {l : List α} {p : α → Bool}
    (apart : l.Pairwise fun a b => p a = true → p b = false) : l.countP p ≤ 1 := by
  induction l with
  | nil => simp
  | cons a l ih =>
    obtain ⟨first, rest⟩ := List.pairwise_cons.mp apart
    cases hit : p a with
    | true =>
      have others : l.countP p = 0 := List.countP_eq_zero.mpr fun b hb => by simp [first b hb hit]
      simp [hit, others]
    | false => simpa [List.countP_cons, hit] using ih rest

namespace Serial

theorem countP_le_one (h : r.Serial) (host : String) :
    r.tasks.countP (fun t => t.host = host && t.status = .inProgress) ≤ 1 := by
  refine Run.countP_le_one (h.imp fun {a b} apart busy => ?_)
  obtain ⟨here, busy⟩ : a.host = host ∧ a.status = .inProgress := by simpa using busy
  refine Bool.eq_false_iff.mpr fun busy' => ?_
  obtain ⟨here', busy'⟩ : b.host = host ∧ b.status = .inProgress := by simpa using busy'
  exact apart busy busy' (here.trans here'.symm)

/-- Tasks may change as long as they stay on their hosts and none gets in progress. -/
theorem map (h : r.Serial) {g : Task → Task} (tasks : r'.tasks = r.tasks.map g)
    (host : ∀ t, (g t).host = t.host)
    (busy : ∀ t, (g t).status = .inProgress → t.status = .inProgress) : r'.Serial := by
  rw [Serial, tasks, List.pairwise_map]
  refine h.imp fun {a b} apart busy_a busy_b => ?_
  rw [host, host]
  exact apart (busy a busy_a) (busy b busy_b)

/-- Tasks under the cursor may leave off. -/
theorem mapStage (h : r.Serial) {test : Task → Bool} {f : Task → Task}
    (tasks : r'.tasks = (r.mapStage test f).tasks) (host : ∀ t, (f t).host = t.host)
    (idle : ∀ t, (f t).status ≠ .inProgress) : r'.Serial := by
  refine h.map tasks (fun t => ?_) (fun t busy => ?_)
  · split
    · exact host t
    · rfl
  · split at busy
    · exact absurd busy (idle t)
    · exact busy

theorem order (h : r.Serial) (o : Order now r r') : r'.Serial := by
  cases o with
  | go | suspend => exact h
  | requeue => exact h.mapStage rfl (fun _ => rfl) fun t busy => by cases busy
  | @skipRest reason =>
    have tasks : (r.skipRest now reason).tasks = r.tasks.map (Task.skipped now) := rfl
    refine h.map tasks (fun t => ?_) (fun t busy => ?_)
    · unfold Task.skipped
      split <;> rfl
    · unfold Task.skipped at busy
      split at busy
      · exact busy
      · cases busy

theorem change (h : r.Serial) (c : Change now r r') : r'.Serial := by
  cases c with
  | order o => exact h.order o
  | handOut => exact h.mapStage (f := Task.queued) rfl (fun _ => rfl) fun t busy => by cases busy
  | closeStage | hold | closeGroup | complete => exact h

/-- A task may begin on a host where no other one is in progress. -/
theorem begun (h : r.Serial) (mirrors : r.MirrorsPlan) {id : Nat} {t : Task}
    (task : r.task? id = some t) (free : r.isBusy id t.host = false) :
    ((r.modifyTask id (Task.begun now)).touch now).Serial := by
  have free := isBusy_eq_false.mp free
  have numbers : r.tasks.Pairwise fun a b => a.id ≠ b.id :=
    List.pairwise_map.mp mirrors.ids_nodup
  have the_task {a : Task} (ha : a ∈ r.tasks) (same : a.id = id) : a = t :=
    Option.some.inj ((mirrors.task?_id ha).symm.trans (same ▸ task))
  rw [Serial]
  simp only [touch, mirrors.modifyTask_tasks, List.pairwise_map]
  refine (h.and numbers).imp_of_mem fun {a b} ha hb ⟨apart, other⟩ => ?_
  -- Of two tasks at most one is the task that begins.
  by_cases begins : a.id = id
  · have spared : b.id ≠ id := fun same => other (begins.trans same.symm)
    rw [if_pos begins, if_neg spared, the_task ha begins]
    exact fun _ busy => (free b hb spared busy).symm
  · rw [if_neg begins]
    split
    next same =>
      rw [the_task hb same]
      exact fun busy _ => free a ha begins busy
    · exact apart

theorem applied (h : r.Serial) (mirrors : r.MirrorsPlan) {event : TaskEvent} {reply : Reply Unit}
    (a : Applied now r event reply) : reply.1.Serial := by
  cases a with
  | dropped | refused => exact h
  | begun _ task _ _ free => exact h.begun mirrors task free
  | @ended id outcome _ _ _ _ _ final =>
    refine h.map (mirrors.modifyTask_tasks id (Task.ended now outcome)) (fun t => ?_) (fun t busy => ?_)
    · split <;> rfl
    · split at busy
      · rw [show outcome.status = .inProgress from busy] at final
        cases final
      · exact busy

end Serial

theorem create_serial (id : RunId) (plan : Plan) (policy : Policy) (now : Timestamp) :
    (create id plan policy now).Serial := by
  refine List.pairwise_map.mpr (List.pairwise_of_forall fun a b busy => ?_)
  cases busy

/-- After every history of a new run, whatever events it was told and whether it took them or not, at most
one of its tasks on each host is in progress. -/
theorem one_task_in_progress_per_host (id : RunId) (plan : Plan) (policy : Policy)
    (now : Timestamp) (history : List (Timestamp × Call)) (host : String) :
    ((create id plan policy now).after history).tasks.countP
      (fun t => t.host = host && t.status = .inProgress) ≤ 1 := by
  have kept : ((create id plan policy now).after history).MirrorsPlan ∧
      ((create id plan policy now).after history).Serial := by
    refine after_induction (P := fun r => r.MirrorsPlan ∧ r.Serial) ?_ ?_ ?_ history
    · intro now r r' change ⟨mirrors, serial⟩
      exact ⟨mirrors.of_charter change.charter, serial.change change⟩
    · intro now r event reply applied ⟨mirrors, serial⟩
      exact ⟨mirrors.of_charter applied.charter, serial.applied mirrors applied⟩
    · exact ⟨create_mirrorsPlan id plan policy now, create_serial id plan policy now⟩
  exact kept.2.countP_le_one host

end Rollout.Run
