-- SUMMARY: Histories of a run: any calls of its operations, in any order, with any arguments.
import Rollout.Proofs.Run.Stride

/-!
# Histories

A history of a run is a list of calls, accepted or not, each with its time. Whatever holds at first
and is kept by changes and by taken events holds after every history.
-/
namespace Rollout.Run

/-- A call of an operation on a run. -/
inductive Call where
  | start
  | step
  | advance
  | retry
  | suspend
  | resume
  | abort (reason : String)
  | apply (event : TaskEvent)
  deriving DecidableEq, Repr

/-- The run after a call, whatever the answer. -/
def call (r : Run) (now : Timestamp) : Call → Run
  | .start => (r.start now).1
  | .step => (r.step now).1
  | .advance => (r.advance now).1
  | .retry => (r.retry now).1
  | .suspend => (r.suspend now).1
  | .resume => (r.resume now).1
  | .abort reason => (r.abort now reason).1
  | .apply event => (r.apply now event).1

/-- The run after a history, the oldest call first. -/
def after (r : Run) (history : List (Timestamp × Call)) : Run :=
  history.foldl (fun r (now, c) => r.call now c) r

@[simp] theorem after_singleton (r : Run) (now : Timestamp) (c : Call) :
    r.after [(now, c)] = r.call now c := rfl

theorem after_append (r : Run) (history later : List (Timestamp × Call)) :
    r.after (history ++ later) = (r.after history).after later :=
  List.foldl_append

theorem step_changes (r : Run) (now : Timestamp) :
    Relation.ReflTransGen (Change now) r (r.step now).1 :=
  step_induction .refl (fun stride ih => ih.tail stride.change)
    fun running _ fresh ih => ih.tail (.handOut running fresh)

theorem orders_change {r r' : Run} {now : Timestamp} (orders : Relation.ReflGen (Order now) r r') :
    Relation.ReflTransGen (Change now) r r' := by
  cases orders with
  | refl => exact .refl
  | single order => exact .single (.order order)

/-- Unless it tells an event, a call is a sequence of changes. -/
theorem call_changes (r : Run) (now : Timestamp) {c : Call} (other : ∀ event, c ≠ .apply event) :
    Relation.ReflTransGen (Change now) r (r.call now c) := by
  cases c with
  | start => exact orders_change (start_order r now)
  | step => exact step_changes r now
  | advance => exact (advance_change r now).to_reflTransGen
  | retry => exact orders_change (retry_order r now)
  | suspend => exact orders_change (suspend_order r now)
  | resume => exact orders_change (resume_order r now)
  | abort reason => exact orders_change (abort_order r now reason)
  | apply event => exact absurd rfl (other event)

/-- What changes keep is kept by sequences of changes. -/
theorem changes_induction {P : Run → Prop} {r r' : Run} {now : Timestamp}
    (change : ∀ {r r'}, Change now r r' → P r → P r') (start : P r)
    (path : Relation.ReflTransGen (Change now) r r') : P r' := by
  induction path with
  | refl => exact start
  | tail _ last ih => exact change last ih

theorem call_induction {P : Run → Prop}
    (change : ∀ {now r r'}, Change now r r' → P r → P r')
    (applied : ∀ {now r event reply}, Applied now r event reply → P r → P reply.1)
    {r : Run} (start : P r) (now : Timestamp) (c : Call) : P (r.call now c) := by
  have changes (other : ∀ event, c ≠ .apply event) : P (r.call now c) :=
    changes_induction change start (call_changes r now other)
  cases c with
  | apply event => exact applied (apply_applied r now event) start
  | start | step | advance | retry | suspend | resume | abort =>
    exact changes fun event same => Call.noConfusion same

/-- What changes and taken events keep is kept by every history. -/
theorem after_induction {P : Run → Prop}
    (change : ∀ {now r r'}, Change now r r' → P r → P r')
    (applied : ∀ {now r event reply}, Applied now r event reply → P r → P reply.1)
    {r : Run} (start : P r) (history : List (Timestamp × Call)) : P (r.after history) := by
  induction history generalizing r with
  | nil => exact start
  | cons c history ih => exact ih (call_induction change applied start c.1 c.2)

end Rollout.Run
