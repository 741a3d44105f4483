-- SUMMARY: The gauge of active runs is the number of runs that are open, whatever is recorded and in which order.
import Mathlib.Data.List.Induction
import Mathlib.Data.List.Nodup
import Rollout.Proofs.Metrics.Ledger

/-!
# The gauge

The gauge of active runs and the runs that are tracked change in different places. They agree after every sequence of
records, as long as no run is created while it is open: a run is open from its creation to its first transition into
a terminal state. Each run that was closed was observed once. A transition into a terminal state of a run that is not
open is counted, and nothing else comes of it.
-/
namespace Rollout

/-- A family with one more value for each of its parts is larger by one. -/
theorem Family.total_update {κ ν : Type} [DecidableEq κ] {size : ν → Nat} {fresh : ν} {f : ν → ν} (key : κ)
    (none_yet : size fresh = 0) (more : ∀ v, size (f v) = size v + 1) (family : Family κ ν) :
    ((update key fresh f family).map fun entry => size entry.2).foldr (· + ·) 0 =
      (family.map fun entry => size entry.2).foldr (· + ·) 0 + 1 := by
  induction family with
  | nil => simp [update, more, none_yet]
  | cons entry family ih =>
    obtain ⟨k, v⟩ := entry
    rw [update]
    split
    · simp only [List.map_cons, List.foldr_cons, more]
      omega
    · simp only [List.map_cons, List.foldr_cons, ih]
      omega

namespace Metrics

/-- Something that is recorded. -/
inductive Record where
  | created (id : RunId) (labels : RunLabels) (time : Timestamp)
  | entered (id : RunId) (labels : RunLabels) (state : RunState) (time : Timestamp)
  | finished (operation : Operation) (status : TaskStatus) (duration : Option Float)
  | unreachable (host : String)

/-- The metrics after one more record. -/
def record (m : Metrics) : Record → Metrics
  | .created id labels time => m.recordCreated id labels time
  | .entered id labels state time => m.recordTransition id labels state time
  | .finished operation status duration => m.recordTask operation status duration
  | .unreachable host => m.recordUnreachable host

/-- The metrics after records, the oldest first. -/
def ofRecords (records : List Record) : Metrics := records.foldl record .empty

namespace Record

/-- The run with the identifier is created. -/
def Opens (id : RunId) : Record → Prop
  | created other .. => other = id
  | entered .. | finished .. | unreachable .. => False

/-- The run with the identifier enters a terminal state. -/
def Closes (id : RunId) : Record → Prop
  | entered other _ state _ => other = id ∧ state.isTerminal = true
  | created .. | finished .. | unreachable .. => False

/-- Some run is created. -/
def isCreation : Record → Bool
  | created .. => true
  | entered .. | finished .. | unreachable .. => false

theorem Opens.isCreation {record : Record} {id : RunId} (opens : record.Opens id) :
    record.isCreation = true := by
  cases record with
  | created => rfl
  | entered | finished | unreachable => exact opens.elim

end Record

/-- The run with the identifier was created, and not closed since. -/
def IsOpen (records : List Record) (id : RunId) : Prop :=
  ∃ before opening later, records = before ++ opening :: later ∧ opening.Opens id ∧
    ∀ record ∈ later, ¬ record.Closes id

/-- No run is created while it is open. -/
def IsProper (records : List Record) : Prop :=
  ∀ before opening later id, records = before ++ opening :: later → opening.Opens id → ¬ IsOpen before id

def trackedIds (m : Metrics) : List RunId := m.tracked.map Prod.fst

/-- How many durations of runs were observed, under all labels together. -/
def observations (m : Metrics) : Nat :=
  (m.runDurations.map fun entry => entry.2.total).foldr (· + ·) 0

variable {m m' : Metrics} {records : List Record} {id : RunId} {labels : RunLabels} {now : Timestamp}

-- ---------------------------------------------------------------------------
-- Open runs
-- ---------------------------------------------------------------------------

/-- What stands anywhere in a list that ends with `x` is this `x`, or stands before it. -/
theorem snoc_split {α : Type} {xs before later : List α} {x y : α}
    (split : xs ++ [x] = before ++ y :: later) :
    (later = [] ∧ before = xs ∧ y = x) ∨ ∃ rest, later = rest ++ [x] ∧ xs = before ++ y :: rest := by
  obtain rfl | ⟨rest, last, rfl⟩ := List.eq_nil_or_concat' later
  · obtain ⟨rfl, same⟩ := List.append_inj' split rfl
    exact .inl ⟨rfl, rfl, (List.singleton_inj.mp same).symm⟩
  · rw [← List.cons_append, ← List.append_assoc] at split
    obtain ⟨rfl, same⟩ := List.append_inj' split rfl
    exact .inr ⟨rest, by rw [List.singleton_inj.mp same], rfl⟩

theorem not_isOpen_nil : ¬ IsOpen [] id := by
  rintro ⟨before, opening, later, split, _⟩
  simp at split

theorem isOpen_snoc {record : Record} :
    IsOpen (records ++ [record]) id ↔ record.Opens id ∨ IsOpen records id ∧ ¬ record.Closes id := by
  constructor
  · rintro ⟨before, opening, later, split, opens, since⟩
    obtain ⟨rfl, rfl, rfl⟩ | ⟨rest, rfl, rfl⟩ := snoc_split split
    · exact .inl opens
    · refine .inr ⟨⟨before, opening, rest, rfl, opens, fun r hr => ?_⟩, ?_⟩
      · exact since r (List.mem_append_left _ hr)
      · exact since record (List.mem_append_right _ List.mem_cons_self)
  · rintro (opens | ⟨⟨before, opening, later, rfl, opens, since⟩, stays⟩)
    · exact ⟨records, record, [], rfl, opens, fun _ => nofun⟩
    · refine ⟨before, opening, later ++ [record], by simp, opens, fun r hr => ?_⟩
      obtain hr | hr := List.mem_append.mp hr
      · exact since r hr
      · rw [List.mem_singleton.mp hr]
        exact stays

theorem isProper_nil : IsProper [] := by
  intro before opening later id split
  simp at split

theorem isProper_snoc {record : Record} :
    IsProper (records ++ [record]) ↔
      IsProper records ∧ ∀ id, record.Opens id → ¬ IsOpen records id := by
  constructor
  · refine fun h => ⟨fun before opening later id split => ?_, fun id => h records record [] id rfl⟩
    exact h before opening (later ++ [record]) id (by simp [split])
  · rintro ⟨h, last⟩ before opening later id split opens
    obtain ⟨rfl, rfl, rfl⟩ | ⟨rest, rfl, rfl⟩ := snoc_split split
    · exact last id opens
    · exact h before opening rest id rfl opens

-- ---------------------------------------------------------------------------
-- Closing
-- ---------------------------------------------------------------------------

/-- The part of metrics that is about active runs and how long runs took. -/
def books (m : Metrics) : Int × List (RunId × Timestamp) × Family RunLabels Histogram :=
  (m.active, m.tracked, m.runDurations)

/-- The identifiers that are left when one is no longer tracked. -/
theorem untracked_ids {tracked : List (RunId × Timestamp)} (distinct : (tracked.map Prod.fst).Nodup) :
    (tracked.filter fun (other, _) => other ≠ id).map Prod.fst = (tracked.map Prod.fst).erase id := by
  rw [distinct.erase_eq_filter, List.filter_map]
  congr 1
  exact List.filter_congr fun entry _ => by simp [bne, beq_eq_decide]

theorem close_of_untracked (absent : id ∉ m.trackedIds) : m.close id labels now = m := by
  rw [close, lookup_eq_none.mpr absent]

theorem observations_close (tracked : id ∈ m.trackedIds) :
    (m.close id labels now).observations = m.observations + 1 := by
  cases known : m.tracked.lookup id with
  | none => exact absurd tracked (lookup_eq_none.mp known)
  | some start =>
    rw [close, known]
    exact Family.total_update labels (Histogram.total_ofBounds _) (Histogram.total_observe _) m.runDurations

theorem books_eq_iff : m'.books = m.books ↔
    m'.active = m.active ∧ m'.tracked = m.tracked ∧ m'.runDurations = m.runDurations := by
  simp [books]

theorem close_books (same : m'.books = m.books) :
    (m'.close id labels now).books = (m.close id labels now).books := by
  obtain ⟨active, tracked, durations⟩ := books_eq_iff.mp same
  unfold close
  rw [tracked]
  cases m.tracked.lookup id with
  | none => exact same
  | some start => simp only [books, active, durations]

/-- Of the transitions only those into terminal states are in the books. -/
theorem recordTransition_books (m : Metrics) (id : RunId) (labels : RunLabels) (state : RunState)
    (now : Timestamp) :
    (m.recordTransition id labels state now).books =
      if state.isTerminal then (m.close id labels now).books else m.books := by
  cases state with
  | completed | aborted => exact close_books rfl
  | pending | running | holding | suspended => rfl

-- ---------------------------------------------------------------------------
-- Records
-- ---------------------------------------------------------------------------

/-- Gauge, tracked runs and observed durations tell what was recorded. -/
structure Tracks (m : Metrics) (records : List Record) : Prop where
  distinct : m.trackedIds.Nodup
  mem_iff : ∀ id, id ∈ m.trackedIds ↔ IsOpen records id
  active : m.active = m.trackedIds.length
  observed : m.observations + m.trackedIds.length = records.countP Record.isCreation

namespace Tracks

theorem absent (h : m.Tracks records) (closed : ¬ IsOpen records id) : id ∉ m.trackedIds :=
  fun tracked => closed ((h.mem_iff id).mp tracked)

theorem of_books (h : m.Tracks records) (same : m'.books = m.books) : m'.Tracks records := by
  obtain ⟨active, tracked, durations⟩ := books_eq_iff.mp same
  have ids : m'.trackedIds = m.trackedIds := by rw [trackedIds, tracked]; rfl
  have observed : m'.observations = m.observations := by rw [observations, durations]; rfl
  exact ⟨ids ▸ h.distinct, ids ▸ h.mem_iff, by rw [active, ids]; exact h.active,
    by rw [observed, ids]; exact h.observed⟩

/-- A record that neither creates nor closes a run that is open. -/
theorem snoc (h : m.Tracks records) {record : Record} (creates : record.isCreation = false)
    (closes : ∀ id, IsOpen records id → ¬ record.Closes id) :
    m.Tracks (records ++ [record]) where
  distinct := h.distinct
  mem_iff id := by
    rw [h.mem_iff, isOpen_snoc]
    constructor
    · exact fun is_open => .inr ⟨is_open, closes id is_open⟩
    · rintro (opens | ⟨is_open, _⟩)
      · cases creates.symm.trans opens.isCreation
      · exact is_open
  active := h.active
  observed := by
    rw [h.observed, List.countP_append, List.countP_singleton, creates]
    rfl

/-- A new run is tracked. -/
theorem created (h : m.Tracks records) (fresh : ¬ IsOpen records id) :
    (m.recordCreated id labels now).Tracks (records ++ [.created id labels now]) := by
  have absent := h.absent fresh
  have ids : (m.recordCreated id labels now).trackedIds = id :: m.trackedIds := by
    have left := (untracked_ids h.distinct).trans (List.erase_of_not_mem absent)
    exact congrArg (id :: ·) left
  refine ⟨?_, fun other => ?_, ?_, ?_⟩
  · rw [ids]
    exact List.nodup_cons.mpr ⟨absent, h.distinct⟩
  · rw [ids, List.mem_cons, h.mem_iff, isOpen_snoc]
    simp [Record.Opens, Record.Closes, eq_comm]
  · rw [ids, List.length_cons]
    exact (congrArg (· + 1) h.active).trans (by simp)
  · have observed := h.observed
    have same : (m.recordCreated id labels now).observations = m.observations := rfl
    rw [ids, same, List.countP_append, List.length_cons]
    simp only [List.countP_singleton, Record.isCreation, if_true]
    omega

/-- A run that is archived is tracked no longer, and was observed once. -/
theorem closed (h : m.Tracks records) (is_open : IsOpen records id) {state : RunState}
    (terminal : state.isTerminal = true) :
    (m.close id labels now).Tracks (records ++ [.entered id labels state now]) := by
  have tracked : id ∈ m.trackedIds := (h.mem_iff id).mpr is_open
  obtain ⟨active, left, _⟩ := close_of_tracked tracked labels now
  have ids : (m.close id labels now).trackedIds = m.trackedIds.erase id := by
    rw [trackedIds, left]
    exact untracked_ids h.distinct
  have length := List.length_erase_of_mem tracked
  have some_tracked : 0 < m.trackedIds.length := List.length_pos_of_mem tracked
  refine ⟨?_, fun other => ?_, ?_, ?_⟩
  · rw [ids]
    exact h.distinct.erase id
  · rw [ids, h.distinct.mem_erase_iff, h.mem_iff, isOpen_snoc]
    simp [Record.Opens, Record.Closes, terminal, and_comm, eq_comm]
  · rw [active, h.active, ids, length]
    omega
  · have observed := h.observed
    rw [observations_close tracked, ids, length, List.countP_append]
    simp only [List.countP_singleton, Record.isCreation, Bool.false_eq_true, if_false]
    omega

theorem entered (h : m.Tracks records) (state : RunState) :
    (m.recordTransition id labels state now).Tracks (records ++ [.entered id labels state now]) := by
  have books := recordTransition_books m id labels state now
  cases terminal : state.isTerminal with
  | false =>
    rw [terminal, if_neg Bool.false_ne_true] at books
    refine (h.snoc rfl fun other _ closes => ?_).of_books books
    exact Bool.false_ne_true (terminal.symm.trans closes.2)
  | true =>
    rw [terminal, if_pos rfl] at books
    by_cases is_open : IsOpen records id
    · exact (h.closed is_open terminal).of_books books
    · rw [close_of_untracked (h.absent is_open)] at books
      refine (h.snoc rfl fun other open_ closes => ?_).of_books books
      exact is_open (closes.1 ▸ open_)

/-- One more record, which does not create a run that is open. -/
theorem record (h : m.Tracks records) (r : Record) (fresh : ∀ id, r.Opens id → ¬ IsOpen records id) :
    (m.record r).Tracks (records ++ [r]) := by
  cases r with
  | created id labels time => exact h.created (fresh id rfl)
  | entered id labels state time => exact h.entered state
  | finished operation status duration =>
    have stays : m.Tracks (records ++ [.finished operation status duration]) :=
      h.snoc rfl fun _ _ closes => closes
    refine stays.of_books ?_
    cases duration <;> rfl
  | unreachable host =>
    have stays : m.Tracks (records ++ [.unreachable host]) := h.snoc rfl fun _ _ closes => closes
    exact stays.of_books rfl

theorem empty : Metrics.empty.Tracks [] :=
  ⟨List.nodup_nil, fun _ => iff_of_false List.not_mem_nil not_isOpen_nil, rfl, rfl⟩

end Tracks

/-- Whatever is recorded, the books are kept, as long as no run is created while it is open. -/
theorem tracks_of_proper (proper : IsProper records) : (ofRecords records).Tracks records := by
  induction records using List.reverseRecOn with
  | nil => exact .empty
  | append_singleton records r ih =>
    obtain ⟨before, fresh⟩ := isProper_snoc.mp proper
    rw [ofRecords, List.foldl_append]
    exact (ih before).record r fresh

-- ---------------------------------------------------------------------------
-- Transitions of runs that are not open
-- ---------------------------------------------------------------------------

theorem recordTransition_taskDurations (m : Metrics) (id : RunId) (labels : RunLabels) (state : RunState)
    (now : Timestamp) : (m.recordTransition id labels state now).taskDurations = m.taskDurations := by
  cases state with
  | pending | running | holding | suspended => rfl
  | completed | aborted =>
    simp only [recordTransition, close]
    split <;> rfl

/-- A transition is counted by labels and state, and as a run that was completed or aborted. -/
theorem recordTransition_values (m : Metrics) (id : RunId) (labels : RunLabels) (state : RunState)
    (now : Timestamp) :
    (∀ key, (m.recordTransition id labels state now).transitions.value key =
      m.transitions.value key + if key = (labels, state) then 1 else 0) ∧
    (∀ l, (m.recordTransition id labels state now).completed.value l =
      m.completed.value l + if l = labels ∧ state = .completed then 1 else 0) ∧
    (∀ l, (m.recordTransition id labels state now).aborted.value l =
      m.aborted.value l + if l = labels ∧ state = .aborted then 1 else 0) := by
  obtain ⟨transitions, _, completed, aborted⟩ := recordTransition_counters m id labels state now
  rw [transitions, completed, aborted]
  exact ⟨fun key => Family.value_count .., Family.value_count_if labels, Family.value_count_if labels⟩

/-- The gauge of active runs never drifts. After every sequence of records in which no run is created while it is
open, the runs that are tracked are those that are open, each of them once, and the gauge is their number, so it is
never negative. All histograms of run durations together have one observation for each creation of a run that is not
active any more. A transition into a terminal state of a run that is not open, because it was never created or is
closed already, is counted as a transition and as a run that was completed or aborted, and it changes neither the
gauge nor a histogram. -/
theorem gauge_counts_open_runs (proper : IsProper records) :
    let m := ofRecords records
    (∀ id, id ∈ m.trackedIds ↔ IsOpen records id) ∧ m.trackedIds.Nodup ∧
    m.active = m.trackedIds.length ∧ 0 ≤ m.active ∧
    (m.observations : Int) = records.countP Record.isCreation - m.active ∧
    ∀ id labels state now, state.isTerminal = true → ¬ IsOpen records id →
      let m' := m.record (.entered id labels state now)
      (∀ key, m'.transitions.value key =
        m.transitions.value key + if key = (labels, state) then 1 else 0) ∧
      (∀ l, m'.completed.value l =
        m.completed.value l + if l = labels ∧ state = .completed then 1 else 0) ∧
      (∀ l, m'.aborted.value l =
        m.aborted.value l + if l = labels ∧ state = .aborted then 1 else 0) ∧
      m'.active = m.active ∧ m'.runDurations = m.runDurations ∧ m'.taskDurations = m.taskDurations := by
  intro m
  have tracks : m.Tracks records := tracks_of_proper proper
  have active := tracks.active
  have observed := tracks.observed
  refine ⟨tracks.mem_iff, tracks.distinct, active, by omega, by omega, ?_⟩
  intro id labels state now terminal closed m'
  obtain ⟨transitions, completed, aborted⟩ := recordTransition_values m id labels state now
  have books : m'.books = m.books :=
    calc m'.books
        = (m.close id labels now).books := (recordTransition_books ..).trans (if_pos terminal)
      _ = m.books := congrArg books (close_of_untracked (tracks.absent closed))
  obtain ⟨gauge, _, durations⟩ := books_eq_iff.mp books
  exact ⟨transitions, completed, aborted, gauge, durations,
    recordTransition_taskDurations m id labels state now⟩

/-- A run is completed, aborted too late, and created once more; another one was never created. -/
def secondLife : List Record :=
  [.created (.ofNat 0) ⟨"prod", "UPGRADE"⟩ .epoch, .entered (.ofNat 0) ⟨"prod", "UPGRADE"⟩ .running .epoch,
    .finished .restart .completed (some 12.5), .entered (.ofNat 0) ⟨"prod", "UPGRADE"⟩ .completed .epoch,
    .entered (.ofNat 0) ⟨"prod", "UPGRADE"⟩ .aborted .epoch,
    .created (.ofNat 0) ⟨"prod", "DOWNGRADE"⟩ .epoch, .unreachable "alpha"]

theorem gauge_counts_open_runs_secondLife :
    IsProper secondLife ∧ (ofRecords secondLife).trackedIds = [.ofNat 0] ∧
      (ofRecords secondLife).active = 1 ∧ (ofRecords secondLife).observations = 1 ∧
      ¬ IsOpen secondLife (.ofNat 1) ∧
      ((ofRecords secondLife).record
        (.entered (.ofNat 1) ⟨"prod", "UPGRADE"⟩ .aborted .epoch)).active = 1 := by
  have last_first : secondLife = [] ++ [_] ++ [_] ++ [_] ++ [_] ++ [_] ++ [_] ++ [_] := rfl
  have other : RunId.ofNat 0 ≠ RunId.ofNat 1 := by decide +kernel
  have proper : IsProper secondLife := by
    rw [last_first]
    simp only [isProper_snoc, isOpen_snoc, Record.Opens, Record.Closes]
    simp [isProper_nil, not_isOpen_nil, RunState.isTerminal]
  have unknown : ¬ IsOpen secondLife (.ofNat 1) := by
    rw [last_first]
    simp only [isOpen_snoc, Record.Opens, Record.Closes]
    simp [not_isOpen_nil, other]
  have ids : (ofRecords secondLife).trackedIds = [.ofNat 0] := by decide +kernel
  obtain ⟨_, _, active, _, observed, late⟩ := gauge_counts_open_runs proper
  rw [ids] at active
  refine ⟨proper, ids, active, ?_, unknown, ?_⟩
  · rw [active] at observed
    exact Int.ofNat.inj observed
  · exact (late _ _ .aborted .epoch rfl unknown).2.2.2.1.trans active

end Metrics

end Rollout
