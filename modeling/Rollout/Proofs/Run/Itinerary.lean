-- SUMMARY: The stages of a plan in order, with their positions, and which tasks lie at each of them.
import Rollout.Proofs.Plan.Placement
import Rollout.Proofs.Run.Barrier

/-!
# Itineraries

The itinerary of a plan lists its stages with their positions, over all groups and in ascending order. The
tasks of the plan are those of the stages along the itinerary. So whoever takes the tasks stage by stage takes
each of them once, in the order of the plan.
-/
namespace Rollout.Plan

/-- The stages in order, with their positions. -/
def itinerary (p : Plan) : List (Cursor × Stage) :=
  p.groups.zipIdx.flatMap fun (group, g) => group.stages.zipIdx.map fun (stage, s) => (⟨g, s⟩, stage)

/-- The position of an entry of a plan. -/
def entryPosition (entry : Nat × Nat × TaskSpec) : Cursor := ⟨entry.1, entry.2.1⟩

/-- The entries at a position, with their numbers. -/
def entriesAt (p : Plan) (c : Cursor) : List ((Nat × Nat × TaskSpec) × Nat) :=
  p.tasks.zipIdx.filter fun entry => entryPosition entry.1 = c

variable {p : Plan} {c : Cursor} {s : Stage}

-- ---------------------------------------------------------------------------
-- Stages
-- ---------------------------------------------------------------------------

theorem itinerary_stages (p : Plan) : p.itinerary.map Prod.snd = p.groups.flatMap Group.stages := by
  have stages (g : Group) (i : Nat) :
      (g.stages.zipIdx.map fun (stage, s) => ((⟨i, s⟩ : Cursor), stage)).map Prod.snd = g.stages := by
    rw [List.map_map]
    exact List.zipIdx_map_fst 0 g.stages
  simp only [itinerary, List.map_flatMap, stages]
  exact flatMap_zipIdx p.groups Group.stages

theorem itinerary_length (p : Plan) : p.itinerary.length = p.stageCount := by
  rw [← List.length_map Prod.snd, itinerary_stages, List.length_flatMap]
  rfl

theorem mem_itinerary : (c, s) ∈ p.itinerary ↔
    ∃ g, p.groups[c.group]? = some g ∧ g.stages[c.stage]? = some s := by
  cases c with
  | mk i j =>
    simp only [itinerary, List.mem_flatMap, List.mem_map, Prod.exists, Prod.mk.injEq, Cursor.mk.injEq,
      List.mem_zipIdx_iff_getElem?]
    constructor
    · rintro ⟨g, _, group, _, _, stage, ⟨rfl, rfl⟩, rfl⟩
      exact ⟨g, group, stage⟩
    · rintro ⟨g, group, stage⟩
      exact ⟨g, i, group, s, j, stage, ⟨rfl, rfl⟩, rfl⟩

/-- Places in a list ascend. -/
theorem zipIdx_sorted {α : Type} (l : List α) : l.zipIdx.Pairwise fun a b => a.2 < b.2 := by
  rw [← List.pairwise_map, List.zipIdx_map_snd]
  exact List.pairwise_lt_range'

/-- The positions ascend along the itinerary. -/
theorem itinerary_sorted (p : Plan) : p.itinerary.Pairwise fun a b => a.1 < b.1 := by
  refine List.pairwise_flatMap.mpr ⟨fun (g, i) _ => ?_, (zipIdx_sorted _).imp fun {a b} lt => ?_⟩
  · refine List.pairwise_map.mpr ((zipIdx_sorted _).imp fun {a b} lt => ?_)
    exact .inr ⟨rfl, lt⟩
  · intro x hx y hy
    obtain ⟨_, _, rfl⟩ := List.mem_map.mp hx
    obtain ⟨_, _, rfl⟩ := List.mem_map.mp hy
    exact .inl lt

-- ---------------------------------------------------------------------------
-- Tasks along the stages
-- ---------------------------------------------------------------------------

theorem tasks_eq (p : Plan) : p.tasks = p.itinerary.flatMap fun (c, stage) =>
    stage.tasks.map fun spec => (c.group, c.stage, spec) := by
  simp only [tasks, itinerary, List.flatMap_assoc, List.flatMap_map]

/-- The entries at the position of a stage are its tasks. -/
theorem entriesAt_specs (here : (c, s) ∈ p.itinerary) :
    (p.entriesAt c).map (fun entry => entry.1.2.2) = s.tasks := by
  have nodup : p.itinerary.Nodup := by
    refine (itinerary_sorted p).imp fun {a b} lt same => ?_
    rw [same, Cursor.lt_iff] at lt
    omega
  have entries : (p.entriesAt c).map Prod.fst = p.tasks.filter fun entry => entryPosition entry = c := by
    conv => rhs; rw [← List.zipIdx_map_fst 0 p.tasks, List.filter_map]
    rfl
  have specs : (p.entriesAt c).map (fun entry => entry.1.2.2) =
      ((p.entriesAt c).map Prod.fst).map fun entry => entry.2.2 := by
    rw [List.map_map]
    rfl
  rw [specs, entries, tasks_eq, List.filter_flatMap, flatMap_eq_of_only nodup here ?elsewhere]
  case elsewhere =>
    rintro ⟨c', s'⟩ there other
    refine List.filter_eq_nil_iff.mpr fun entry hentry same => ?_
    obtain ⟨spec, _, rfl⟩ := List.mem_map.mp hentry
    obtain rfl : c' = c := of_decide_eq_true same
    obtain ⟨g, group, stage⟩ := mem_itinerary.mp here
    obtain ⟨g', group', stage'⟩ := mem_itinerary.mp there
    cases group.symm.trans group'
    cases stage.symm.trans stage'
    exact other rfl
  simp [List.filter_map, Function.comp_def, entryPosition]

section Sorted

variable {α κ : Type} [DecidableEq κ] {lt : κ → κ → Prop} {key : α → κ} {k : κ} {l : List α}

/-- If whatever stands before an element that passes a test passes it as well, those that pass are in front. -/
theorem filter_append_of_front {test : α → Bool} (front : l.Pairwise fun a b => test b = true → test a = true) :
    l.filter test ++ l.filter (fun a => !test a) = l := by
  induction l with
  | nil => rfl
  | cons a l ih =>
    obtain ⟨first, front⟩ := List.pairwise_cons.mp front
    cases here : test a with
    | true =>
      rw [List.filter_cons_of_pos here, List.filter_cons_of_neg (by simp [here]), List.cons_append, ih front]
    | false =>
      have behind : ∀ b ∈ a :: l, test b = false := by
        refine List.forall_mem_cons.mpr ⟨here, fun b hb => Bool.eq_false_iff.mpr fun passes => ?_⟩
        rw [first b hb passes] at here
        cases here
      rw [List.filter_eq_nil_iff.mpr (by simpa using behind), List.nil_append,
        List.filter_eq_self.mpr (by simpa using behind)]

/-- In a sorted list the elements of the least key are in front. -/
theorem filter_append_of_least (least : ∀ a ∈ l, key a ≠ k → lt k (key a))
    (sorted : l.Pairwise fun a b => ¬ lt (key b) (key a)) :
    l.filter (fun a => key a = k) ++ l.filter (fun a => key a ≠ k) = l := by
  have front : l.Pairwise fun a b => decide (key b = k) = true → decide (key a = k) = true := by
    refine sorted.imp_of_mem fun {a b} ha _ ordered here => decide_eq_true ?_
    refine Decidable.byContradiction fun elsewhere => ordered ?_
    rw [of_decide_eq_true here]
    exact least a ha elsewhere
  simpa only [decide_not] using filter_append_of_front front

/-- Whoever takes the elements of a sorted list key by key, in the order of the keys, takes the list. -/
theorem flatMap_filter_of_sorted {keys : List κ} (irrefl : ∀ k, ¬ lt k k) (ascend : keys.Pairwise lt)
    (known : ∀ a ∈ l, key a ∈ keys) (sorted : l.Pairwise fun a b => ¬ lt (key b) (key a)) :
    (keys.flatMap fun k => l.filter fun a => key a = k) = l := by
  induction keys generalizing l with
  | nil =>
    rw [List.flatMap_nil, eq_comm, List.eq_nil_iff_forall_not_mem]
    intro a ha
    cases known a ha
  | cons k keys ih =>
    obtain ⟨first, ascend⟩ := List.pairwise_cons.mp ascend
    have later {a : α} (ha : a ∈ l) (other : key a ≠ k) : key a ∈ keys :=
      (List.mem_cons.mp (known a ha)).resolve_left other
    have rest : (keys.flatMap fun k' => l.filter fun a => key a = k') =
        l.filter fun a => key a ≠ k := by
      have others := ih ascend (l := l.filter fun a => key a ≠ k)
        (fun a ha => later (List.mem_filter.mp ha).1 (by simpa using (List.mem_filter.mp ha).2))
        (sorted.filter _)
      refine Eq.trans (List.flatMap_congr fun k' hk' => ?_) others
      rw [List.filter_filter]
      refine List.filter_congr fun a _ => ?_
      have apart : k' ≠ k := by
        rintro rfl
        exact irrefl k' (first k' hk')
      by_cases same : key a = k' <;> simp [same, apart]
    rw [List.flatMap_cons, rest]
    exact filter_append_of_least (fun a ha other => first _ (later ha other)) sorted

end Sorted

/-- The positions ascend along the entries of a plan. -/
theorem entries_sorted (p : Plan) :
    p.tasks.zipIdx.Pairwise fun a b => ¬ entryPosition b.1 < entryPosition a.1 := by
  have sorted : p.tasks.Pairwise fun a b => ¬ entryPosition b < entryPosition a := by
    rw [tasks_eq]
    refine List.pairwise_flatMap.mpr ⟨fun (c, s) _ => ?_, (itinerary_sorted p).imp fun {a b} lt => ?_⟩
    · refine List.pairwise_map.mpr (List.pairwise_of_forall fun _ _ => ?_)
      simp only [entryPosition, Cursor.lt_iff]
      omega
    · intro x hx y hy
      obtain ⟨_, _, rfl⟩ := List.mem_map.mp hx
      obtain ⟨_, _, rfl⟩ := List.mem_map.mp hy
      simp only [entryPosition, Cursor.lt_iff] at lt ⊢
      omega
  rw [← List.zipIdx_map_fst 0 p.tasks] at sorted
  exact List.pairwise_map.mp sorted

/-- Taken stage by stage, the entries of a plan come in order and once each. -/
theorem itinerary_entries (p : Plan) :
    (p.itinerary.flatMap fun (c, _) => p.entriesAt c) = p.tasks.zipIdx := by
  have known : ∀ entry ∈ p.tasks.zipIdx, entryPosition entry.1 ∈ p.itinerary.map Prod.fst := by
    intro entry hentry
    have member : entry.1 ∈ p.tasks := List.fst_mem_of_mem_zipIdx hentry
    rw [tasks_eq] at member
    obtain ⟨⟨c, s⟩, here, hspec⟩ := List.mem_flatMap.mp member
    obtain ⟨spec, _, same⟩ := List.mem_map.mp hspec
    rw [← same]
    exact List.mem_map_of_mem here
  have whole := flatMap_filter_of_sorted (fun c : Cursor => by rw [Cursor.lt_iff]; omega)
    (List.pairwise_map.mpr (itinerary_sorted p)) known (entries_sorted p)
  rwa [List.flatMap_map] at whole

end Rollout.Plan
