-- SUMMARY: The entries of a run into states, and the notices that announce them.
import Rollout.Notice.Basic
import Rollout.Proofs.Run.Charter
import Rollout.Proofs.Run.Refusal

/-!
# Entries

A call enters a state if the run is in another state after it than before. The entries of a history say all
that is announced of a run: that it started, each time that it held, and at last how it ended. Whoever suspends
a run or makes it go on is not announced.
-/
namespace Rollout

/-- The last word of a notice about a state that a run entered from `previous`. -/
def RunState.verb? (state previous : RunState) : Option String :=
  match state with
  | .running => if previous = .pending then some "Started" else none
  | .holding => some "Holding"
  | .completed => some "Completed"
  | .aborted => some "Aborted"
  | .pending | .suspended => none

/-- The last words of the notices about a run that ended in a state. -/
def RunState.ending : RunState → List String
  | .completed => ["Completed"]
  | .aborted => ["Aborted"]
  | .pending | .running | .holding | .suspended => []

/-- The title of a notice about a run with the given policy. -/
def Notice.headed (policy : Policy) (verb : String) : String := s!"{Notice.subject policy} {verb}"

theorem Notice.ofRun?_title (r : Run) (previous : RunState) :
    (Notice.ofRun? r previous).map Notice.title =
      (r.state.verb? previous).map (Notice.headed r.policy) := by
  have titled : (Notice.ofRun? r previous).map Notice.title =
      (Notice.headline? r previous).map fun headline => Notice.headed r.policy headline.1 := by
    unfold ofRun?
    cases Notice.headline? r previous <;> rfl
  rw [titled]
  unfold headline? RunState.verb?
  cases r.state with
  | running => by_cases fresh : previous = .pending <;> simp [fresh]
  | pending | holding | suspended | completed | aborted => rfl

theorem Notice.ofRun?_runId {r : Run} {previous : RunState} {notice : Notice}
    (built : Notice.ofRun? r previous = some notice) : notice.runId = r.id := by
  obtain ⟨_, _, rest⟩ := Option.bind_eq_some_iff.mp built
  cases rest
  rfl

namespace Run

/-- An entry of a run into a state. -/
structure Entry where
  time : Timestamp
  previous : RunState
  /-- The run right after it entered the state. -/
  run : Run
  deriving DecidableEq, Repr

namespace Entry

/-- The run entered the given state. -/
def into (state : RunState) (e : Entry) : Bool := e.run.state = state

/-- The notice about an entry, if it is announced. -/
def notice? (e : Entry) : Option Notice := Notice.ofRun? e.run e.previous

end Entry

/-- The entry that takes a run to another one, if its state changed. -/
def entered (r : Run) (now : Timestamp) (r' : Run) : List Entry :=
  if r'.state = r.state then [] else [⟨now, r.state, r'⟩]

/-- The entries of a history, the oldest first. -/
def entries (r : Run) : List (Timestamp × Call) → List Entry
  | [] => []
  | (now, c) :: history => r.entered now (r.call now c) ++ (r.call now c).entries history

variable {r r' : Run} {now : Timestamp} {history : List (Timestamp × Call)}

theorem entered_of_same (same : r'.state = r.state) : r.entered now r' = [] := if_pos same

theorem entered_of_ne (changed : r'.state ≠ r.state) : r.entered now r' = [⟨now, r.state, r'⟩] :=
  if_neg changed

theorem mem_entered {e : Entry} (he : e ∈ r.entered now r') : e = ⟨now, r.state, r'⟩ := by
  unfold entered at he
  split at he
  · cases he
  · exact List.mem_singleton.mp he

theorem entries_append (r : Run) (history history' : List (Timestamp × Call)) :
    r.entries (history ++ history') = r.entries history ++ (r.after history).entries history' := by
  induction history generalizing r with
  | nil => rfl
  | cons c history ih =>
    obtain ⟨now, c⟩ := c
    rw [List.cons_append, entries, entries, ih, List.append_assoc]
    rfl

theorem entries_charter (r : Run) (history : List (Timestamp × Call)) :
    ∀ e ∈ r.entries history, e.run.charter = r.charter := by
  induction history generalizing r with
  | nil => exact fun e he => nomatch he
  | cons c history ih =>
    obtain ⟨now, c⟩ := c
    have kept : (r.call now c).charter = r.charter := after_charter r [(now, c)]
    intro e he
    obtain here | later := List.mem_append.mp he
    · rw [mem_entered here]
      exact kept
    · exact (ih (r.call now c) e later).trans kept

/-- An archived run enters no state. -/
theorem entries_of_archived (archived : r.state.isTerminal = true)
    (history : List (Timestamp × Call)) : r.entries history = [] := by
  induction history with
  | nil => rfl
  | cons c history ih =>
    rw [entries, call_of_archived archived, entered_of_same rfl, List.nil_append, ih]

/-- No call enters the pending state. -/
theorem call_ne_pending (begun : r.state ≠ .pending) (now : Timestamp) (c : Call) :
    (r.call now c).state ≠ .pending := by
  refine call_induction (P := fun r => r.state ≠ .pending) (fun change begun => ?_)
    (fun applied begun => ?_) begun now c
  · cases change with
    | order order => cases order <;> exact RunState.noConfusion
    | handOut | closeStage | closeGroup => exact begun
    | hold | complete => exact RunState.noConfusion
  · cases applied <;> exact begun

theorem after_ne_pending (begun : r.state ≠ .pending) (history : List (Timestamp × Call)) :
    (r.after history).state ≠ .pending := by
  induction history generalizing r with
  | nil => exact begun
  | cons c history ih => exact ih (call_ne_pending begun c.1 c.2)

-- ---------------------------------------------------------------------------
-- What is announced
-- ---------------------------------------------------------------------------

/-- The last words of the notices about entries. -/
def verbs (entries : List Entry) : List String :=
  entries.filterMap fun e => e.run.state.verb? e.previous

theorem verbs_cons (e : Entry) (entries : List Entry) :
    verbs (e :: entries) = (e.run.state.verb? e.previous).toList ++ verbs entries := by
  cases said : e.run.state.verb? e.previous <;> simp [verbs, said]

/-- Once a run has begun it is announced each time that it holds, and when it ends. -/
theorem verbs_of_begun (history : List (Timestamp × Call)) (begun : r.state ≠ .pending)
    (live : r.state.isTerminal = false) :
    verbs (r.entries history) =
      List.replicate ((r.entries history).countP (Entry.into .holding)) "Holding" ++
        (r.after history).state.ending := by
  induction history generalizing r with
  | nil =>
    have none_ends : r.state.ending = [] := by
      cases state : r.state <;> simp_all [RunState.ending, RunState.isTerminal]
    exact none_ends.symm
  | cons c history ih =>
    obtain ⟨now, c⟩ := c
    have begun' := call_ne_pending begun now c
    have after_both : r.after ((now, c) :: history) = (r.call now c).after history := rfl
    rw [entries, after_both]
    generalize r.call now c = r' at begun' ⊢
    by_cases same : r'.state = r.state
    · rw [entered_of_same same, List.nil_append]
      exact ih begun' (same ▸ live)
    rw [entered_of_ne same, List.singleton_append, verbs_cons, List.countP_cons]
    cases state : r'.state with
    | pending => exact absurd state begun'
    | running | suspended =>
      have rest := ih begun' (by rw [state]; rfl)
      simp [Entry.into, state, begun, RunState.verb?, rest]
    | holding =>
      have rest := ih begun' (by rw [state]; rfl)
      simp [Entry.into, state, RunState.verb?, rest, List.replicate_succ]
    | completed | aborted =>
      have archived : r'.state.isTerminal = true := by rw [state]; rfl
      rw [entries_of_archived archived, after_of_archived archived, state]
      simp [Entry.into, state, RunState.verb?, RunState.ending, verbs]

/-- The first thing that is announced of a run is that it started. -/
theorem verbs_of_start (pending : r.state = .pending) :
    verbs (r.entries ((now, .start) :: history)) = "Started" ::
      (List.replicate ((r.entries ((now, .start) :: history)).countP (Entry.into .holding)) "Holding" ++
        (r.after ((now, .start) :: history)).state.ending) := by
  have started : r.call now .start = r.inState now .running :=
    congrArg Prod.fst (start_of_pending pending)
  have changed : (r.inState now .running).state ≠ r.state := by
    rw [pending]
    exact RunState.noConfusion
  have after_both : r.after ((now, .start) :: history) = (r.inState now .running).after history := by
    rw [← started]
    rfl
  have rest := verbs_of_begun (r := r.inState now .running) history RunState.noConfusion rfl
  have first : RunState.verb? .running r.state = some "Started" := if_pos pending
  rw [entries, started, entered_of_ne changed, List.singleton_append, verbs_cons, List.countP_cons,
    rest, after_both]
  simp [Entry.into, inState, first]

end Run

end Rollout
