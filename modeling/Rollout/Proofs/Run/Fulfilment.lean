-- SUMMARY: A run whose tasks succeed, but for checks that may fail, carries out its whole plan in order and completes.
import Rollout.Proofs.Run.Answers
import Rollout.Proofs.Run.Itinerary

/-!
# Fulfilment

Between two rounds of a run that meets no trouble the stages in front are settled, and those behind were not
touched. A round hands out the next stage and hears the answers to it. So the run goes along the itinerary of its
plan, one stage in each round, and completes at its end.
-/
namespace Rollout

/-- The command that sends an entry of a plan for the first time. -/
def Plan.firstCommand (id : RunId) (direction : Direction) (entry : (Nat × Nat × TaskSpec) × Nat) :
    TaskCommand where
  runId := id
  taskId := entry.2
  host := entry.1.2.2.host
  service := entry.1.2.2.service
  component := entry.1.2.2.component
  operation := entry.1.2.2.operation
  version := entry.1.2.2.version
  direction := direction
  attempt := 1

/-- What a command asks for. -/
def TaskCommand.spec (c : TaskCommand) : TaskSpec := ⟨c.host, c.service, c.component, c.operation, c.version⟩

/-- The first commands for the entries at a place ask for the tasks there. -/
theorem Plan.specs_of_firstCommands {p : Plan} {place : Cursor × Stage} (here : place ∈ p.itinerary)
    {id : RunId} {direction : Direction} :
    ((p.entriesAt place.1).map (Plan.firstCommand id direction)).map TaskCommand.spec = place.2.tasks := by
  rw [List.map_map]
  exact Plan.entriesAt_specs here

/-- No stage of a plan for a topology is empty. -/
theorem Plan.along_full {course : Course} {t : Topology} :
    ∀ place ∈ (Plan.along course t).itinerary, place.2.tasks ≠ [] := by
  rintro ⟨c, s⟩ here
  obtain ⟨g, group, stage⟩ := Plan.mem_itinerary.mp here
  obtain ⟨service, _, rfl⟩ := List.mem_map.mp (List.mem_of_getElem? group)
  obtain ⟨op, _, made⟩ := List.mem_filterMap.mp (List.mem_of_getElem? stage)
  exact Plan.stage?_ne_nil made

/-- The itinerary passes the stages of the groups in their order. -/
theorem Plan.itinerary_tasks (p : Plan) :
    p.itinerary.map (fun place => place.2.tasks) = p.groups.flatMap fun g => g.stages.map Stage.tasks :=
  calc p.itinerary.map (fun place => place.2.tasks)
      = (p.itinerary.map Prod.snd).map Stage.tasks := List.map_map.symm
    _ = (p.groups.flatMap Group.stages).map Stage.tasks := by rw [Plan.itinerary_stages]
    _ = p.groups.flatMap fun g => g.stages.map Stage.tasks := List.map_flatMap

namespace Run

def batch (r : Run) (now : Timestamp) : List TaskCommand := (r.step now).2.toOption.getD []

/-- The run after a number of rounds, each of which is a step and the events of one sheet. -/
def round (r : Run) (clock : Nat → Timestamp) (sheets : Nat → List (Timestamp × TaskEvent)) : Nat → Run
  | 0 => r
  | k + 1 => (((r.round clock sheets k).step (clock k)).1).hear (sheets k)

variable {r r' : Run} {now : Timestamp}

-- ---------------------------------------------------------------------------
-- Rounds
-- ---------------------------------------------------------------------------

/-- Between two rounds: the stages in front are settled, and those behind were not touched. -/
structure Poised (r : Run) (front back : List (Cursor × Stage)) : Prop where
  running : r.state = .running
  mirrors : r.MirrorsPlan
  barrier : r.Barrier
  handed_out : r.HandedOut
  itinerary : r.plan.itinerary = front ++ back
  full : ∀ place ∈ r.plan.itinerary, place.2.tasks ≠ []
  front : ∀ t ∈ r.tasks, ∀ place ∈ front, t.position = place.1 → t.IsSettled r.plan
  back : ∀ t ∈ r.tasks, ∀ place ∈ back, t.position = place.1 → t.IsUntouched

/-- Every task lies on the itinerary. -/
theorem MirrorsPlan.on_itinerary (h : r.MirrorsPlan) {t : Task} (ht : t ∈ r.tasks) :
    ∃ place ∈ r.plan.itinerary, t.position = place.1 := by
  obtain ⟨g, s, group, stage, _⟩ := h.entry ht
  exact ⟨(t.position, s), Plan.mem_itinerary.mpr ⟨g, group, stage⟩, rfl⟩

/-- The tasks at a position come from the entries there. -/
theorem MirrorsPlan.origins_at (h : r.MirrorsPlan) (c : Cursor) :
    (r.tasks.filter fun t => t.isAt c).map Task.origin = r.plan.entriesAt c := by
  rw [Plan.entriesAt, ← h, List.filter_map]
  congr 1
  refine List.filter_congr fun t _ => ?_
  rw [Bool.eq_iff_iff, Task.isAt_iff]
  exact decide_eq_true_iff.symm

/-- A task that was not touched is sent for the first time. -/
theorem command_of_untouched {t : Task} (untouched : t.IsUntouched) :
    r.command t = Plan.firstCommand r.id r.policy.direction t.origin := by
  simp [command, Plan.firstCommand, Task.origin, Task.spec, untouched.2.1]

namespace Poised

variable {front back : List (Cursor × Stage)} {place : Cursor × Stage}

theorem calm (h : r.Poised front back) : r.Calm where
  mirrors := h.mirrors
  barrier := h.barrier
  handed_out := h.handed_out
  tasks t ht := by
    obtain ⟨place, here, position⟩ := h.mirrors.on_itinerary ht
    rw [h.itinerary] at here
    obtain in_front | behind := List.mem_append.mp here
    · exact .inl (h.front t ht place in_front position)
    · exact .inr (h.back t ht place behind position)
  state := .inl h.running

/-- Some task lies at each place. -/
theorem someone (h : r.Poised front back) (here : place ∈ r.plan.itinerary) :
    ∃ t ∈ r.tasks, t.position = place.1 := by
  have specs := Plan.entriesAt_specs (p := r.plan) (c := place.1) (s := place.2) here
  have some_entry : r.plan.entriesAt place.1 ≠ [] := by
    intro none
    rw [none] at specs
    exact h.full place here specs.symm
  rw [← h.mirrors.origins_at] at some_entry
  obtain ⟨t, ht⟩ := List.exists_mem_of_ne_nil _ fun none => some_entry (List.map_eq_nil_iff.mpr none)
  obtain ⟨member, at_place⟩ := List.mem_filter.mp ht
  exact ⟨t, member, Task.isAt_iff.mp at_place⟩

/-- At the end of the itinerary a step completes the run. -/
theorem completes (h : r.Poised front []) (now : Timestamp) :
    ∃ r', r'.state = .completed ∧ r'.openCount = 0 ∧ r.step now = (r', .ok []) := by
  obtain ⟨r', calm, tasks, _, ⟨completed, ends⟩ | ⟨_, _, something, _⟩⟩ := h.calm.step now
  · refine ⟨r', completed, ?_, ends⟩
    rw [openCount, tasks, List.length_eq_zero_iff, List.filter_eq_nil_iff]
    intro t ht unfinished
    obtain ⟨place, here, position⟩ := h.mirrors.on_itinerary ht
    rw [h.itinerary, List.append_nil] at here
    simp [(h.front t ht place here position).1] at unfinished
  · obtain ⟨t, ht, pending⟩ := queueStage_ne_nil.mp something
    have member := (mem_stageTasks.mp ht).1
    rw [tasks] at member
    obtain ⟨place, here, position⟩ := h.mirrors.on_itinerary member
    rw [h.itinerary, List.append_nil] at here
    have finished := (h.front t member place here position).1
    rw [pending] at finished
    cases finished

/-- A run at rest that is about to hand something out has come to the next place. -/
theorem cursor_eq (h : r.Poised front (place :: back)) (calm : r'.Calm) (tasks : r'.tasks = r.tasks)
    (something : (r'.queueStage now).2 ≠ []) : r'.cursor = place.1 := by
  obtain ⟨t, ht, pending⟩ := queueStage_ne_nil.mp something
  obtain ⟨member, here⟩ := mem_stageTasks.mp ht
  obtain ⟨place', on_way, position⟩ := h.mirrors.on_itinerary (tasks ▸ member)
  have at_place' : r'.cursor = place'.1 := (Task.isAt_iff.mp here).symm.trans position
  rw [h.itinerary] at on_way
  obtain in_front | next := List.mem_append.mp on_way
  · have finished := (h.front t (tasks ▸ member) place' in_front position).1
    rw [pending] at finished
    cases finished
  · obtain rfl | behind := List.mem_cons.mp next
    · exact at_place'
    · -- Someone waits at the next place, so the cursor is not behind it.
      have sorted := Plan.itinerary_sorted r.plan
      rw [h.itinerary, List.pairwise_append, List.pairwise_cons] at sorted
      obtain ⟨u, hu, at_place⟩ := h.someone (h.itinerary ▸ List.mem_append_right _ List.mem_cons_self)
      have passed : u.position < r'.cursor := by
        rw [at_place, at_place']
        exact sorted.2.1.1 place' behind
      have finished := (calm.barrier.behind u (tasks ▸ hu) passed).1
      rw [(h.back u hu place List.mem_cons_self at_place).1] at finished
      cases finished

/-- A step hands out the next stage of the itinerary as a whole. -/
theorem hands_out (h : r.Poised front (place :: back)) (now : Timestamp) :
    let commands := (r.plan.entriesAt place.1).map (Plan.firstCommand r.id r.policy.direction)
    ∃ r', r.step now = (r', .ok commands) ∧ r'.charter = r.charter ∧ r'.cursor = place.1 ∧
      r'.Hearing commands [] := by
  have here : place ∈ r.plan.itinerary := h.itinerary ▸ List.mem_append_right _ List.mem_cons_self
  have untouched {t : Task} (ht : t ∈ r.tasks) (at_place : t.isAt place.1 = true) : t.IsUntouched :=
    h.back t ht place List.mem_cons_self (Task.isAt_iff.mp at_place)
  obtain ⟨r', calm, tasks, charter, ⟨completed, _⟩ | ⟨running, fresh, something, ends⟩⟩ :=
    h.calm.step now
  · obtain ⟨u, hu, at_place⟩ := h.someone here
    have finished := (calm.barrier.settled_of_completed calm.mirrors completed (tasks ▸ hu)).1
    rw [(untouched hu (Task.isAt_iff.mpr at_place)).1] at finished
    cases finished
  · have cursor := h.cursor_eq calm tasks something
    have stage : r'.stageTasks = r.tasks.filter fun t => t.isAt place.1 := by
      rw [stageTasks, tasks, cursor]
    have pending : ∀ t ∈ r'.stageTasks, t.status = .pending := by
      intro t ht
      obtain ⟨member, at_place⟩ := List.mem_filter.mp (stage ▸ ht)
      exact (untouched member at_place).1
    have commands : (r'.queueStage now).2 =
        (r.plan.entriesAt place.1).map (Plan.firstCommand r.id r.policy.direction) := by
      rw [← h.mirrors.origins_at, List.map_map, ← stage, queueStage,
        List.filter_eq_self.mpr fun t ht => decide_eq_true (pending t ht)]
      refine List.map_congr_left fun t ht => ?_
      obtain ⟨member, at_place⟩ := List.mem_filter.mp (stage ▸ ht)
      rw [command_congr charter, command_of_untouched (untouched member at_place)]
      rfl
    have hearing := calm.hearing running fresh pending now
    rw [commands] at hearing
    exact ⟨r'.handOut now, commands ▸ ends, (Change.handOut running fresh).charter.trans charter,
      cursor, hearing⟩

/-- After the answers of a stage, it is settled. -/
theorem goes_on (h : r.Poised front (place :: back)) {busy : List TaskCommand}
    (charter : r'.charter = r.charter) (cursor : r'.cursor = place.1) (heard : r'.Hearing [] busy) :
    r'.Poised (front ++ [place]) back := by
  have plan : r'.plan = r.plan := congrArg Charter.plan charter
  have sorted := Plan.itinerary_sorted r.plan
  rw [h.itinerary, List.pairwise_append, List.pairwise_cons] at sorted
  obtain ⟨_, ⟨behind, _⟩, before⟩ := sorted
  refine ⟨heard.running, heard.mirrors, heard.barrier, heard.handed_out, ?_, ?_, ?_, ?_⟩
  · rw [plan, h.itinerary, List.append_assoc, List.singleton_append]
  · rw [plan]
    exact h.full
  · intro t ht place' in_front position
    obtain old | new := List.mem_append.mp in_front
    · refine heard.barrier.behind t ht ?_
      rw [position, cursor]
      exact before place' old place List.mem_cons_self
    · obtain rfl := List.mem_singleton.mp new
      exact (heard.settled t ht (position.trans cursor.symm)).resolve_right (by simp)
  · intro t ht place' next position
    have lt : r'.cursor < t.position := by
      rw [position, cursor]
      exact behind place' next
    refine (heard.barrier.ahead t ht lt).resolve_right fun ⟨aborted, _⟩ => ?_
    rw [heard.running] at aborted
    cases aborted

theorem batch_eq (h : r.Poised front (place :: back)) (now : Timestamp) :
    r.batch now = (r.plan.entriesAt place.1).map (Plan.firstCommand r.id r.policy.direction) := by
  obtain ⟨r', ends, _⟩ := h.hands_out now
  rw [batch, ends]
  rfl

/-- One round takes the run over the next stage. -/
theorem round (h : r.Poised front (place :: back)) {events : List (Timestamp × TaskEvent)}
    (answers : Answers r.plan (r.batch now) [] events) :
    (r.step now).1.Accepts events ∧ ((r.step now).1.hear events).charter = r.charter ∧
      ((r.step now).1.hear events).Poised (front ++ [place]) back := by
  rw [h.batch_eq] at answers
  obtain ⟨r', ends, charter, cursor, hearing⟩ := h.hands_out now
  have plan : r'.plan = r.plan := congrArg Charter.plan charter
  obtain ⟨accepts, charter', cursor', _, heard⟩ := hearing.hear (by rwa [plan])
  rw [ends]
  exact ⟨accepts, charter'.trans charter,
    h.goes_on (charter'.trans charter) (cursor'.trans cursor) heard⟩

end Poised

/-- A new run has its whole itinerary before it. -/
theorem create_poised (id : RunId) (plan : Plan) (policy : Policy) (made now : Timestamp)
    (full : ∀ place ∈ plan.itinerary, place.2.tasks ≠ []) :
    ((create id plan policy made).start now).1.Poised [] plan.itinerary := by
  rw [start_of_pending rfl]
  have start : Change now (create id plan policy made) _ := .order (.go (.inl rfl))
  have mirrors := create_mirrorsPlan id plan policy made
  refine ⟨rfl, mirrors.of_charter start.charter, (create_barrier id plan policy made).change mirrors start,
    .of_undone rfl, rfl, full, fun _ _ _ nowhere => (by cases nowhere), fun t ht _ _ _ => ?_⟩
  obtain ⟨entry, _, rfl⟩ := List.mem_map.mp ht
  exact ⟨rfl, rfl, rfl, rfl⟩

section Rounds

variable {clock : Nat → Timestamp} {sheets : Nat → List (Timestamp × TaskEvent)}

/-- After a number of rounds, the run is poised after as many stages. -/
theorem Poised.rounds (h : r.Poised [] r.plan.itinerary) {n : Nat} (inside : n ≤ r.plan.itinerary.length)
    (answered : ∀ k < n, Answers r.plan ((r.round clock sheets k).batch (clock k)) [] (sheets k)) :
    (r.round clock sheets n).charter = r.charter ∧
      (r.round clock sheets n).Poised (r.plan.itinerary.take n) (r.plan.itinerary.drop n) := by
  induction n with
  | zero => exact ⟨rfl, h⟩
  | succ n ih =>
    obtain ⟨charter, poised⟩ := ih (Nat.le_of_succ_le inside) fun k hk => answered k (Nat.lt_succ_of_lt hk)
    have plan : (r.round clock sheets n).plan = r.plan := congrArg Charter.plan charter
    rw [List.drop_eq_getElem_cons inside] at poised
    obtain ⟨_, charter', poised'⟩ := poised.round (plan ▸ answered n (Nat.lt_succ_self n))
    rw [List.take_succ_eq_append_getElem inside]
    exact ⟨charter'.trans charter, poised'⟩

/-- The batch of each round is the next stage of the itinerary. -/
theorem Poised.batch_of_round (h : r.Poised [] r.plan.itinerary)
    (answered : ∀ k < r.plan.itinerary.length,
      Answers r.plan ((r.round clock sheets k).batch (clock k)) [] (sheets k))
    {k : Nat} (inside : k < r.plan.itinerary.length) :
    (r.round clock sheets k).batch (clock k) =
        (r.plan.entriesAt r.plan.itinerary[k].1).map (Plan.firstCommand r.id r.policy.direction) ∧
      ((r.round clock sheets k).step (clock k)).1.Accepts (sheets k) := by
  obtain ⟨charter, poised⟩ := h.rounds (Nat.le_of_lt inside) fun j hj => answered j (Nat.lt_trans hj inside)
  obtain ⟨id, plan, policy, _⟩ := charter_eq_iff.mp charter
  rw [List.drop_eq_getElem_cons inside] at poised
  refine ⟨?_, (poised.round (plan ▸ answered k inside)).1⟩
  rw [poised.batch_eq, id, plan, policy]

/-- The batches of all rounds are the stages of the itinerary. -/
theorem Poised.batches (h : r.Poised [] r.plan.itinerary)
    (answered : ∀ k < r.plan.itinerary.length,
      Answers r.plan ((r.round clock sheets k).batch (clock k)) [] (sheets k)) :
    (List.range r.plan.itinerary.length).map (fun k => (r.round clock sheets k).batch (clock k)) =
      r.plan.itinerary.map fun place =>
        (r.plan.entriesAt place.1).map (Plan.firstCommand r.id r.policy.direction) := by
  refine List.ext_getElem (by simp) fun k _ inside => ?_
  rw [List.getElem_map, List.getElem_range, List.getElem_map]
  exact (h.batch_of_round answered (by simpa using inside)).1

/-- No batch is empty, since no stage is. -/
theorem Poised.batch_ne_nil (h : r.Poised [] r.plan.itinerary)
    (answered : ∀ k < r.plan.itinerary.length,
      Answers r.plan ((r.round clock sheets k).batch (clock k)) [] (sheets k))
    {k : Nat} (inside : k < r.plan.itinerary.length) :
    (r.round clock sheets k).batch (clock k) ≠ [] := by
  have here : r.plan.itinerary[k] ∈ r.plan.itinerary := List.getElem_mem inside
  rw [(h.batch_of_round answered inside).1]
  refine fun none => h.full _ here ?_
  rw [← Plan.specs_of_firstCommands here, List.map_eq_nil_iff]
  exact none

end Rounds

/-- A run of a topology with a placement fulfils its plan in order, under any policy, if its commands are answered
well: each round hands out the next stage as a whole, the answers are accepted, and after the last stage the run
completes with nothing left over. So the batches are the stages of the plan, and one after the other they are its
tasks, each of which is sent once and as a first attempt. -/
theorem plan_is_fulfilled_in_order {t : Topology} {policy : Policy} (valid : t.validate = .ok ())
    (placed : t.placementCount ≠ 0) :
    ∃ plan, Plan.build t policy = .ok plan ∧
      ∀ (id : RunId) (made begun : Timestamp) (clock : Nat → Timestamp)
        (sheets : Nat → List (Timestamp × TaskEvent)),
        let r := ((create id plan policy made).start begun).1
        let batches k := (r.round clock sheets k).batch (clock k)
        let n := plan.stageCount
        (∀ k < n, Answers plan (batches k) [] (sheets k)) →
          (∀ k < n, batches k ≠ [] ∧ ((r.round clock sheets k).step (clock k)).1.Accepts (sheets k)) ∧
          (∃ r', (r.round clock sheets n).step (clock n) = (r', .ok []) ∧ r'.state = .completed ∧
            r'.openCount = 0) ∧
          (List.range n).map (fun k => (batches k).map TaskCommand.spec) =
            plan.groups.flatMap (fun g => g.stages.map Stage.tasks) ∧
          (List.range n).flatMap batches =
            plan.tasks.zipIdx.map (Plan.firstCommand id policy.direction) := by
  have fit := Topology.validate_eq_ok_iff.mp valid
  refine ⟨_, (Plan.expand_of_wellFormed fit).trans (if_neg placed), ?_⟩
  intro id made begun clock sheets r batches n answered
  have start : r.Poised [] r.plan.itinerary := create_poised id _ policy made begun Plan.along_full
  have length : n = r.plan.itinerary.length := r.plan.itinerary_length.symm
  rw [length] at answered ⊢
  have stages := start.batches answered
  refine ⟨fun k hk => ⟨start.batch_ne_nil answered hk, (start.batch_of_round answered hk).2⟩, ?_, ?_, ?_⟩
  · obtain ⟨_, poised⟩ := start.rounds (Nat.le_refl _) answered
    rw [List.drop_length] at poised
    obtain ⟨r', completed, closed, ends⟩ := poised.completes (clock r.plan.itinerary.length)
    exact ⟨r', ends, completed, closed⟩
  · calc (List.range r.plan.itinerary.length).map (fun k => (batches k).map TaskCommand.spec)
        = ((List.range r.plan.itinerary.length).map batches).map (List.map TaskCommand.spec) :=
          List.map_map.symm
      _ = r.plan.itinerary.map fun place => place.2.tasks := by
          rw [stages, List.map_map]
          exact List.map_congr_left fun place here => Plan.specs_of_firstCommands here
      _ = r.plan.groups.flatMap fun g => g.stages.map Stage.tasks := r.plan.itinerary_tasks
  · calc (List.range r.plan.itinerary.length).flatMap batches
        = ((List.range r.plan.itinerary.length).map batches).flatten := List.flatMap_def
      _ = r.plan.itinerary.flatMap fun place =>
            (r.plan.entriesAt place.1).map (Plan.firstCommand id policy.direction) := by
          rw [stages, List.flatMap_def]
          rfl
      _ = (r.plan.itinerary.flatMap fun place => r.plan.entriesAt place.1).map
            (Plan.firstCommand id policy.direction) := List.map_flatMap.symm
      _ = r.plan.tasks.zipIdx.map (Plan.firstCommand id policy.direction) := by
          rw [← Plan.itinerary_entries]

/-- A proxy on two hosts, whose checks may fail. -/
def proxies : Topology := ⟨"proxies", "1.0", "1.1", [⟨"web", true, [⟨"proxy", ["alpha", "beta"], true⟩]⟩]⟩

def proxiesPlan : Plan := .along (.of proxies false false) proxies

def proxyCommand (id : Nat) (host : String) (op : Operation) : TaskCommand :=
  ⟨.ofNat 0, id, host, "web", "proxy", op, "1.1", .upgrade, 1⟩

/-- Both restarts run side by side; then one check fails, and the other one is not even begun. -/
def mixedNews : Nat → List (Timestamp × TaskEvent)
  | 0 => [(.epoch, .started 1 1), (.epoch, .started 0 1), (.epoch, .finished 1 (.completed 0)),
      (.epoch, .finished 0 (.completed 0))]
  | 1 => [(.epoch, .started 2 1), (.epoch, .finished 3 (.failed (.hostUnreachable "beta" 3) 0)),
      (.epoch, .finished 2 (.failed (.commandRejected "alpha" "not ready") 0))]
  | _ => []

theorem plan_is_fulfilled_in_order_proxies :
    ∃ plan, Plan.build proxies .upgrade = .ok plan ∧ plan.stageCount = 2 ∧
      let r := ((create (.ofNat 0) plan .upgrade .epoch).start .epoch).1
      (∀ k < 2, Answers plan ((r.round (fun _ => .epoch) mixedNews k).batch .epoch) [] (mixedNews k)) ∧
        ∃ r', (r.round (fun _ => .epoch) mixedNews 2).step .epoch = (r', .ok []) ∧
          r'.state = .completed ∧ r'.openCount = 0 := by
  have fit : proxies.IsWellFormed := Topology.defect?_eq_none_iff.mp (by decide +kernel)
  have placed : proxies.placementCount ≠ 0 := by decide
  obtain ⟨plan, built, fulfilled⟩ :=
    @plan_is_fulfilled_in_order proxies .upgrade (Topology.validate_eq_ok_iff.mpr fit) placed
  obtain rfl : proxiesPlan = plan :=
    Except.ok.inj (((Plan.expand_of_wellFormed fit).trans (if_neg placed)).symm.trans built)
  refine ⟨_, built, rfl, ?_⟩
  intro r
  have restarts : (r.round (fun _ => .epoch) mixedNews 0).batch .epoch =
      [proxyCommand 0 "alpha" .restart, proxyCommand 1 "beta" .restart] := by decide +kernel
  have checks : (r.round (fun _ => .epoch) mixedNews 1).batch .epoch =
      [proxyCommand 2 "alpha" .check, proxyCommand 3 "beta" .check] := by decide +kernel
  have spares (i : Nat) (spec : TaskSpec) (check : spec.operation = .check)
      (entry : proxiesPlan.tasks[i]? = some (0, 1, spec)) : proxiesPlan.Spares i :=
    ⟨0, 1, spec, _, entry, check, rfl, rfl⟩
  have answered : ∀ k < 2,
      Answers proxiesPlan ((r.round (fun _ => .epoch) mixedNews k).batch .epoch) [] (mixedNews k) := by
    intro k hk
    match k, hk with
    | 0, _ =>
      rw [restarts]
      refine .begins (c := proxyCommand 1 "beta" .restart) (by decide) (by decide) ?_
      refine .begins (c := proxyCommand 0 "alpha" .restart) (by decide) (by decide) ?_
      refine .ends (c := proxyCommand 1 "beta" .restart) (by decide) (.inl rfl) ?_
      exact .ends (c := proxyCommand 0 "alpha" .restart) (by decide) (.inl rfl) .done
    | 1, _ =>
      rw [checks]
      refine .begins (c := proxyCommand 2 "alpha" .check) (by decide) (by decide) ?_
      refine .ends (c := proxyCommand 3 "beta" .check) (by decide) (.inr ⟨rfl, ?_⟩) ?_
      · exact spares 3 _ rfl rfl
      refine .ends (c := proxyCommand 2 "alpha" .check) (by decide) (.inr ⟨rfl, ?_⟩) .done
      exact spares 2 _ rfl rfl
  exact ⟨answered, (fulfilled (.ofNat 0) .epoch .epoch (fun _ => .epoch) mixedNews answered).2.1⟩

end Run

end Rollout
