-- SUMMARY: What metrics of runs say: entries counted by label, runs that are active, and one duration for each archived run.
import Rollout.Metrics.Basic
import Rollout.Proofs.Run.Entries
import Rollout.Proofs.Run.Serial

/-!
# Ledgers

The metrics of runs are a function of what was recorded: that runs were created, and the entries of runs into
states. Counters count entries by label. As long as each run is recorded to be created once, and to enter
each of its states, the gauge is the number of runs that are not archived, and each archived run was observed
once.
-/
namespace Rollout

-- ---------------------------------------------------------------------------
-- Families and histograms
-- ---------------------------------------------------------------------------

namespace Family

variable {κ ν : Type} [DecidableEq κ]

theorem lookup_cons_of_ne {key k : κ} (v : ν) (family : Family κ ν) (other : k ≠ key) :
    List.lookup k ((key, v) :: family) = List.lookup k family := by
  rw [List.lookup_cons, beq_eq_false_iff_ne.mpr other]

/-- An update changes the value under its key only. -/
theorem lookup_update (key k : κ) (fresh : ν) (f : ν → ν) (family : Family κ ν) :
    (update key fresh f family).lookup k =
      if k = key then some (f ((family.lookup key).getD fresh)) else family.lookup k := by
  induction family with
  | nil =>
    rw [update]
    split
    next here => rw [here, List.lookup_cons_self]; rfl
    next other => exact lookup_cons_of_ne _ _ other
  | cons entry family ih =>
    obtain ⟨key', v⟩ := entry
    rw [update]
    split
    next found =>
      subst found
      split
      next here => rw [here, List.lookup_cons_self, List.lookup_cons_self]; rfl
      next other => rw [lookup_cons_of_ne _ _ other, lookup_cons_of_ne _ _ other]
    next elsewhere =>
      rw [lookup_cons_of_ne v family (Ne.symm elsewhere)]
      by_cases here : k = key'
      · have other : k ≠ key := fun same => elsewhere (here.symm.trans same)
        rw [here, List.lookup_cons_self, if_neg (here ▸ other), List.lookup_cons_self]
      · rw [lookup_cons_of_ne _ _ here, lookup_cons_of_ne _ _ here, ih]

/-- The count under a label. -/
def value (key : κ) (family : Family κ Nat) : Nat := (family.lookup key).getD 0

theorem value_count (key k : κ) (family : Family κ Nat) :
    value k (count key family) = value k family + if k = key then 1 else 0 := by
  rw [value, count, lookup_update]
  by_cases here : k = key <;> simp [value, here]

/-- The value under a label after another one was counted under a condition. -/
theorem value_count_if (key : κ) {p : Prop} [Decidable p] {family : Family κ Nat} (k : κ) :
    value k (if p then count key family else family) = value k family + if k = key ∧ p then 1 else 0 := by
  by_cases counts : p
  · rw [if_pos counts, value_count]
    simp [counts]
  · simp [counts]

end Family

namespace Histogram

theorem place_total {x : Float} {buckets buckets' : List (Float × Nat)} (beyond : Nat)
    (placed : place x buckets = some buckets') :
    (buckets'.map Prod.snd).foldr (· + ·) beyond = (buckets.map Prod.snd).foldr (· + ·) beyond + 1 := by
  induction buckets generalizing buckets' with
  | nil => cases placed
  | cons bucket rest ih =>
    obtain ⟨bound, n⟩ := bucket
    rw [place] at placed
    split at placed
    · cases placed
      simp only [List.map_cons, List.foldr_cons]
      omega
    · obtain ⟨rest', behind, rfl⟩ := Option.map_eq_some_iff.mp placed
      have more := ih behind
      simp only [List.map_cons, List.foldr_cons]
      omega

theorem foldr_succ (counts : List Nat) (beyond : Nat) :
    counts.foldr (· + ·) (beyond + 1) = counts.foldr (· + ·) beyond + 1 := by
  induction counts with
  | nil => rfl
  | cons n counts ih =>
    simp only [List.foldr_cons, ih]
    omega

/-- Each observation counts once. -/
theorem total_observe (x : Float) (h : Histogram) : (h.observe x).total = h.total + 1 := by
  unfold observe total
  cases placed : place x h.buckets with
  | some buckets => exact place_total h.beyond placed
  | none => exact foldr_succ _ _

theorem total_ofBounds (bounds : List Float) : (ofBounds bounds).total = 0 := by
  have zeros : ((ofBounds bounds).buckets.map Prod.snd) = List.replicate bounds.length 0 := by
    simp [ofBounds, List.eq_replicate_iff]
  rw [total, zeros]
  generalize bounds.length = n
  induction n with
  | zero => rfl
  | succ n ih => simpa [List.replicate_succ] using ih

end Histogram

-- ---------------------------------------------------------------------------
-- Notes
-- ---------------------------------------------------------------------------

/-- What is recorded of runs. -/
inductive Note where
  | created (run : Run) (time : Timestamp)
  | entered (entry : Run.Entry)
  deriving DecidableEq, Repr

namespace Note

def runId : Note → RunId
  | created run _ => run.id
  | entered entry => entry.run.id

/-- A run with the given labels entered the given state. -/
def isEntry (labels : RunLabels) (state : RunState) : Note → Bool
  | created .. => false
  | entered entry => entry.run.labels = labels && entry.run.state = state

end Note

theorem Run.labels_of_charter {r r' : Run} (charter : r'.charter = r.charter) :
    r'.labels = r.labels := by
  obtain ⟨_, plan, policy, _⟩ := Run.charter_eq_iff.mp charter
  rw [Run.labels, Run.labels, plan, policy]

namespace Metrics

def note (m : Metrics) : Note → Metrics
  | .created run time => m.recordCreated run.id run.labels time
  | .entered e => m.recordTransition e.run.id e.run.labels e.run.state e.time

/-- The metrics of runs alone. -/
def aboutRuns (m : Metrics) : Metrics := { m with tasks := [], taskDurations := [], unreachable := [] }

theorem close_aboutRuns (m : Metrics) (id : RunId) (labels : RunLabels) (now : Timestamp) :
    (m.close id labels now).aboutRuns = m.aboutRuns.close id labels now := by
  unfold close
  have tracked : m.aboutRuns.tracked = m.tracked := rfl
  rw [tracked]
  split <;> rfl

/-- What is recorded of runs does not depend on what is recorded of tasks. -/
theorem note_aboutRuns (m : Metrics) (n : Note) : (m.note n).aboutRuns = m.aboutRuns.note n := by
  cases n with
  | created => rfl
  | entered e =>
    simp only [note, recordTransition]
    split
    · rfl
    · exact close_aboutRuns ..
    · exact close_aboutRuns ..
    · rfl

theorem recordTask_aboutRuns (m : Metrics) (operation : Operation) (status : TaskStatus)
    (duration : Option Float) : (m.recordTask operation status duration).aboutRuns = m.aboutRuns := by
  cases duration <;> rfl

-- ---------------------------------------------------------------------------
-- Counters
-- ---------------------------------------------------------------------------

/-- The counters of a state: how many entries into it were recorded under some labels. -/
structure Counts (m : Metrics) (labels : RunLabels) (entries : RunState → Nat) : Prop where
  transitions : ∀ state, m.transitions.value (labels, state) = entries state
  holding : m.holding.value labels = entries .holding
  completed : m.completed.value labels = entries .completed
  aborted : m.aborted.value labels = entries .aborted

theorem close_counters (m : Metrics) (id : RunId) (labels : RunLabels) (now : Timestamp) :
    (m.close id labels now).transitions = m.transitions ∧ (m.close id labels now).holding = m.holding ∧
      (m.close id labels now).completed = m.completed ∧ (m.close id labels now).aborted = m.aborted := by
  unfold close
  split <;> exact ⟨rfl, rfl, rfl, rfl⟩

theorem recordTransition_counters (m : Metrics) (id : RunId) (labels : RunLabels) (state : RunState)
    (now : Timestamp) :
    (m.recordTransition id labels state now).transitions = m.transitions.count (labels, state) ∧
    (m.recordTransition id labels state now).holding =
      (if state = .holding then m.holding.count labels else m.holding) ∧
    (m.recordTransition id labels state now).completed =
      (if state = .completed then m.completed.count labels else m.completed) ∧
    (m.recordTransition id labels state now).aborted =
      if state = .aborted then m.aborted.count labels else m.aborted := by
  cases state with
  | completed | aborted => exact close_counters ..
  | pending | running | holding | suspended => exact ⟨rfl, rfl, rfl, rfl⟩

/-- A note counts its entry once. -/
theorem Counts.note {m : Metrics} {labels : RunLabels} {entries : RunState → Nat}
    (h : m.Counts labels entries) (n : Note) :
    (m.note n).Counts labels fun state => entries state + if n.isEntry labels state then 1 else 0 := by
  cases n with
  | created => exact ⟨h.transitions, h.holding, h.completed, h.aborted⟩
  | entered e =>
    obtain ⟨transitions, holding, completed, aborted⟩ :=
      recordTransition_counters m e.run.id e.run.labels e.run.state e.time
    have counted {state : RunState} {family : Family RunLabels Nat}
        (before : family.value labels = entries state) :
        (if e.run.state = state then family.count e.run.labels else family).value labels =
          entries state + if (Note.entered e).isEntry labels state then 1 else 0 := by
      rw [Family.value_count_if, before]
      simp only [Note.isEntry, eq_comm (a := labels), Bool.and_eq_true, decide_eq_true_eq]
    refine ⟨fun state => ?_, ?_, ?_, ?_⟩
    · have same : (labels, state) = (e.run.labels, e.run.state) ↔
          (Note.entered e).isEntry labels state = true := by
        simp only [Note.isEntry, Prod.mk.injEq, Bool.and_eq_true, decide_eq_true_eq]
        exact and_congr eq_comm eq_comm
      rw [Metrics.note, transitions, Family.value_count, h.transitions]
      simp only [same]
    · rw [Metrics.note, holding, counted h.holding]
    · rw [Metrics.note, completed, counted h.completed]
    · rw [Metrics.note, aborted, counted h.aborted]

/-- Counters count the entries that were recorded. -/
theorem foldl_note_counts (notes : List Note) (labels : RunLabels) :
    (notes.foldl Metrics.note .empty).Counts labels fun state =>
      notes.countP (Note.isEntry labels state) := by
  have counted (m : Metrics) (entries : RunState → Nat) (h : m.Counts labels entries) :
      (notes.foldl Metrics.note m).Counts labels fun state =>
        entries state + notes.countP (Note.isEntry labels state) := by
    induction notes generalizing m entries with
    | nil => exact h
    | cons n notes ih =>
      have rest := ih (m.note n) _ (h.note n)
      simp only [Nat.add_assoc] at rest
      simp only [List.countP_cons, Nat.add_comm (notes.countP _)]
      exact rest
  have none_yet : Metrics.empty.Counts labels fun _ => 0 := ⟨fun _ => rfl, rfl, rfl, rfl⟩
  have all := counted Metrics.empty _ none_yet
  simp only [Nat.zero_add] at all
  exact all

-- ---------------------------------------------------------------------------
-- Active and archived runs
-- ---------------------------------------------------------------------------

/-- How many durations of runs were observed under some labels. -/
def observed (m : Metrics) (labels : RunLabels) : Nat :=
  ((m.runDurations.lookup labels).map Histogram.total).getD 0

/-- What metrics say about the runs that there are: those that are not archived are active and tracked, and each
one that is archived was observed once. -/
structure Reflects (m : Metrics) (runs : List Run) : Prop where
  active : m.active = runs.countP fun r => !r.state.isTerminal
  tracked : ∀ id, id ∈ m.tracked.map Prod.fst ↔ 0 < runs.countP fun r => r.id = id && !r.state.isTerminal
  observed : ∀ labels, m.observed labels = runs.countP fun r => r.state.isTerminal && r.labels = labels

theorem lookup_eq_none {tracked : List (RunId × Timestamp)} {id : RunId} :
    tracked.lookup id = none ↔ id ∉ tracked.map Prod.fst := by
  simp only [List.lookup_eq_none_iff, bne_iff_ne, List.mem_map, not_exists, not_and]
  exact forall₂_congr fun entry _ => ne_comm

theorem close_of_tracked {m : Metrics} {id : RunId} (tracked : id ∈ m.tracked.map Prod.fst)
    (labels : RunLabels) (now : Timestamp) :
    (m.close id labels now).active = m.active - 1 ∧
    (m.close id labels now).tracked = m.tracked.filter (fun (other, _) => other ≠ id) ∧
    ∀ l, (m.close id labels now).observed l = m.observed l + if l = labels then 1 else 0 := by
  unfold close
  cases found : m.tracked.lookup id with
  | none => exact absurd tracked (lookup_eq_none.mp found)
  | some start =>
    refine ⟨rfl, rfl, fun l => ?_⟩
    simp only [Metrics.observed, Family.lookup_update]
    by_cases here : l = labels
    · rw [if_pos here, if_pos here, here]
      cases m.runDurations.lookup labels <;>
        simp [Histogram.total_observe, Histogram.total_ofBounds]
    · rw [if_neg here, if_neg here, Nat.add_zero]

/-- Replacing an element changes a count by what the two count for. -/
theorem countP_replace {α : Type} {l : List α} {i : Nat} {a : α} (here : l[i]? = some a) (b : α)
    (p : α → Bool) :
    (l.set i b).countP p + (if p a then 1 else 0) = l.countP p + if p b then 1 else 0 := by
  obtain ⟨inside, rfl⟩ := List.getElem?_eq_some_iff.mp here
  rw [List.countP_set inside]
  by_cases counts : p l[i]
  · have some_counts : 0 < l.countP p := List.countP_pos_iff.mpr ⟨l[i], List.getElem_mem inside, counts⟩
    simp only [counts, if_true]
    omega
  · simp only [counts, Bool.false_eq_true, if_false]
    omega

theorem mem_untracked {tracked : List (RunId × Timestamp)} {id other : RunId} :
    other ∈ (tracked.filter fun (known, _) => known ≠ id).map Prod.fst ↔
      other ∈ tracked.map Prod.fst ∧ other ≠ id := by
  simp only [List.mem_map, List.mem_filter, decide_eq_true_eq]
  constructor
  · rintro ⟨entry, ⟨member, apart⟩, rfl⟩
    exact ⟨⟨entry, member, rfl⟩, apart⟩
  · rintro ⟨⟨entry, member, rfl⟩, apart⟩
    exact ⟨entry, ⟨member, apart⟩, rfl⟩

namespace Reflects

variable {m m' : Metrics} {runs : List Run} {i : Nat} {r r' : Run}

theorem empty : Metrics.empty.Reflects [] :=
  ⟨rfl, fun id => by simp [Metrics.empty], fun _ => rfl⟩

/-- What else was recorded does not matter. -/
theorem same (h : m.Reflects runs) (active : m'.active = m.active) (tracked : m'.tracked = m.tracked)
    (durations : m'.runDurations = m.runDurations) : m'.Reflects runs := by
  refine ⟨active.trans h.active, tracked ▸ h.tracked, fun labels => ?_⟩
  rw [Metrics.observed, durations]
  exact h.observed labels

theorem created (h : m.Reflects runs) (live : r.state.isTerminal = false) (now : Timestamp) :
    (m.recordCreated r.id r.labels now).Reflects (runs ++ [r]) := by
  refine ⟨?_, fun id => ?_, fun labels => ?_⟩
  · simp [recordCreated, h.active, live]
  · rw [recordCreated, List.map_cons, List.mem_cons, mem_untracked, h.tracked, List.countP_append,
      List.countP_singleton]
    by_cases here : id = r.id
    · simp [here, live]
    · simp [here, Ne.symm here]
  · rw [List.countP_append, ← h.observed]
    simp [live, recordCreated, Metrics.observed]

/-- A run may change as long as it stays live, or archived. -/
theorem replace (h : m.Reflects runs) (hr : runs[i]? = some r) (charter : r'.charter = r.charter)
    (terminal : r'.state.isTerminal = r.state.isTerminal) : m.Reflects (runs.set i r') := by
  have id : r'.id = r.id := (Run.charter_eq_iff.mp charter).1
  have labels := Run.labels_of_charter charter
  have counted (p : Run → Bool) (alike : p r' = p r) : (runs.set i r').countP p = runs.countP p := by
    have replaced := countP_replace hr r' p
    rw [alike] at replaced
    omega
  refine ⟨?_, fun other => ?_, fun other => ?_⟩
  · rw [counted _ (by rw [terminal])]
    exact h.active
  · rw [counted _ (by rw [id, terminal])]
    exact h.tracked other
  · rw [counted _ (by rw [labels, terminal])]
    exact h.observed other

/-- A live run may be archived. -/
theorem archive (h : m.Reflects runs) (distinct : (runs.map Run.id).Nodup) (hr : runs[i]? = some r)
    (charter : r'.charter = r.charter) (live : r.state.isTerminal = false)
    (archived : r'.state.isTerminal = true) (now : Timestamp) :
    (m.close r'.id r'.labels now).Reflects (runs.set i r') := by
  have id : r'.id = r.id := (Run.charter_eq_iff.mp charter).1
  have member : r ∈ runs := List.mem_of_getElem? hr
  have tracked : r'.id ∈ m.tracked.map Prod.fst := by
    rw [h.tracked, List.countP_pos_iff]
    exact ⟨r, member, by simp [id, live]⟩
  obtain ⟨active, left, durations⟩ := close_of_tracked tracked r'.labels now
  refine ⟨?_, fun other => ?_, fun labels => ?_⟩
  · have replaced := countP_replace hr r' fun r => !r.state.isTerminal
    simp only [live, archived, Bool.not_false, Bool.not_true, if_true, Bool.false_eq_true,
      if_false] at replaced
    rw [active, h.active]
    omega
  · have replaced := countP_replace hr r' fun r => r.id = other && !r.state.isTerminal
    have before : (decide (r.id = other) && !r.state.isTerminal) = decide (r'.id = other) := by
      rw [live, id, Bool.not_false, Bool.and_true]
    have behind : (decide (r'.id = other) && !r'.state.isTerminal) = false := by
      rw [archived, Bool.not_true, Bool.and_false]
    rw [before, behind] at replaced
    rw [left, mem_untracked, h.tracked]
    by_cases here : r'.id = other
    · -- No other run has this identifier.
      have alone : runs.countP (fun r => r.id = other && !r.state.isTerminal) ≤ 1 := by
        refine Run.countP_le_one ((List.pairwise_map.mp distinct).imp fun {a b} apart hit => ?_)
        have first : a.id = other := by simpa using (Bool.and_eq_true_iff.mp hit).1
        simp [← first, Ne.symm apart]
      rw [decide_eq_true here, if_pos rfl, if_neg Bool.false_ne_true] at replaced
      exact iff_of_false (fun both => both.2 here.symm) (by omega)
    · simp only [here, decide_false, Bool.false_eq_true, if_false] at replaced
      have replaced : (runs.set i r').countP _ = runs.countP _ := replaced
      rw [replaced]
      exact and_iff_left (Ne.symm here)
  · have replaced := countP_replace hr r' fun r => r.state.isTerminal && r.labels = labels
    simp only [live, archived, Bool.false_and, Bool.true_and, Bool.false_eq_true, if_false,
      decide_eq_true_eq] at replaced
    rw [durations, h.observed]
    simp only [eq_comm (a := labels)]
    omega

/-- A live run may enter a state, or none. -/
theorem entered (h : m.Reflects runs) (distinct : (runs.map Run.id).Nodup) (hr : runs[i]? = some r)
    (charter : r'.charter = r.charter) (live : r.state.isTerminal = false) (now : Timestamp) :
    (((r.entered now r').map Note.entered).foldl note m).Reflects (runs.set i r') := by
  by_cases unchanged : r'.state = r.state
  · rw [Run.entered_of_same unchanged]
    exact h.replace hr charter (by rw [unchanged])
  rw [Run.entered_of_ne unchanged, List.map_singleton, List.foldl_cons, List.foldl_nil]
  simp only [note]
  cases state : r'.state with
  | pending | running | holding | suspended =>
    exact (h.replace hr charter (by rw [state, live]; rfl)).same rfl rfl rfl
  | completed =>
    have counted : Reflects { m with
        transitions := m.transitions.count (r'.labels, .completed)
        completed := m.completed.count r'.labels } runs := h.same rfl rfl rfl
    exact counted.archive distinct hr charter live (by rw [state]; rfl) now
  | aborted =>
    have counted : Reflects { m with
        transitions := m.transitions.count (r'.labels, .aborted)
        aborted := m.aborted.count r'.labels } runs := h.same rfl rfl rfl
    exact counted.archive distinct hr charter live (by rw [state]; rfl) now

/-- Whatever a run enters, metrics say what became of it. -/
theorem entries (h : m.Reflects runs) (distinct : (runs.map Run.id).Nodup) (hr : runs[i]? = some r)
    (history : List (Timestamp × Run.Call)) :
    (((r.entries history).map Note.entered).foldl note m).Reflects (runs.set i (r.after history)) := by
  induction history generalizing m runs r with
  | nil => exact h.replace hr rfl rfl
  | cons c history ih =>
    obtain ⟨now, c⟩ := c
    cases live : r.state.isTerminal with
    | true =>
      rw [Run.entries_of_archived live, Run.after_of_archived live]
      exact h.replace hr rfl rfl
    | false =>
      have charter : (r.call now c).charter = r.charter := Run.after_charter r [(now, c)]
      have id : (r.call now c).id = r.id := (Run.charter_eq_iff.mp charter).1
      have inside : i < runs.length := (List.getElem?_eq_some_iff.mp hr).1
      have distinct' : ((runs.set i (r.call now c)).map Run.id).Nodup := by
        obtain ⟨_, here⟩ := List.getElem?_eq_some_iff.mp hr
        rw [List.map_set, id, ← List.map_set, ← here, List.set_getElem_self]
        exact distinct
      have rest := ih (h.entered distinct hr charter live now) distinct' (List.getElem?_set_self inside)
      rw [List.set_set] at rest
      rw [Run.entries, List.map_append, List.foldl_append]
      exact rest

end Reflects

end Metrics

end Rollout
