-- SUMMARY: Plans, topologies, runs, commands and resources are read back from their texts.
import Rollout.Wire.Run
import Rollout.Proofs.Wire.Plan

/-!
# Wire round trips

The wire forms of runs, commands and resources are faithful as well. Their bounds are those of the indices and the times
in them. So a value is read back from its text, and a text that was read and written once stays as it is.
-/
namespace Rollout.Wire

-- ---------------------------------------------------------------------------
-- States and types
-- ---------------------------------------------------------------------------

instance : Faithful RunState where
  isClean s := Json.isClean_text s.name
  ofJson?_toJson {s} _ := enum?_text (by cases s <;> rfl)

instance : Unbounded RunState := ⟨fun _ => trivial⟩

instance : Faithful TaskStatus where
  isClean s := Json.isClean_text s.name
  ofJson?_toJson {s} _ := enum?_text (by cases s <;> rfl)

instance : Unbounded TaskStatus := ⟨fun _ => trivial⟩

instance : Faithful ResourceType where
  isClean t := Json.isClean_text t.name
  ofJson?_toJson {t} _ := enum?_text (by cases t <;> rfl)

instance : Unbounded ResourceType := ⟨fun _ => trivial⟩

-- ---------------------------------------------------------------------------
-- Runs
-- ---------------------------------------------------------------------------

instance : Faithful Cursor where
  Fits c := Fits c.group ∧ Fits c.stage
  isClean c := isClean_record (by simp)
  ofJson?_toJson {c} within := by
    obtain ⟨group, stage⟩ := within
    refine read_record (by exact .refl _) (by decide) ?_
    exact read_field rfl group (read_field rfl stage rfl)
  fits_of_ofJson? {j c} read := by
    obtain ⟨fs, -, read⟩ := Option.bind_eq_some_iff.mp read
    obtain ⟨group, hgroup, read⟩ := Option.bind_eq_some_iff.mp read
    obtain ⟨stage, hstage, read⟩ := Option.bind_eq_some_iff.mp read
    cases read
    exact ⟨fits_of_get? hgroup, fits_of_get? hstage⟩

instance : Faithful Task where
  Fits t := Fits t.id ∧ Fits t.group ∧ Fits t.stage ∧ Fits t.startedAt ∧ Fits t.completedAt
  isClean t := isClean_record (by simp)
  ofJson?_toJson {t} within := by
    obtain ⟨id, group, stage, startedAt, completedAt⟩ := within
    refine read_record (by exact .refl _) (by decide) ?_
    refine read_field rfl id (read_field rfl group (read_field rfl stage ?_))
    iterate 7 refine read_field rfl (fits _) ?_
    exact read_default rfl (fits _) (read_default rfl startedAt (read_default rfl completedAt rfl))
  fits_of_ofJson? {j t} read := by
    obtain ⟨fs, -, read⟩ := Option.bind_eq_some_iff.mp read
    obtain ⟨id, hid, read⟩ := Option.bind_eq_some_iff.mp read
    obtain ⟨group, hgroup, read⟩ := Option.bind_eq_some_iff.mp read
    obtain ⟨stage, hstage, read⟩ := Option.bind_eq_some_iff.mp read
    iterate 8 obtain ⟨_, -, read⟩ := Option.bind_eq_some_iff.mp read
    obtain ⟨startedAt, hstarted, read⟩ := Option.bind_eq_some_iff.mp read
    obtain ⟨completedAt, hcompleted, read⟩ := Option.bind_eq_some_iff.mp read
    cases read
    exact ⟨fits_of_get? hid, fits_of_get? hgroup, fits_of_get? hstage,
      fits_of_getOr? fits_none hstarted, fits_of_getOr? fits_none hcompleted⟩

instance : Faithful Run where
  Fits r := Fits r.cursor ∧ Fits r.tasks ∧ Fits r.createdAt ∧ Fits r.updatedAt ∧ Fits r.completedAt
  isClean r := isClean_record (by simp)
  ofJson?_toJson {r} within := by
    obtain ⟨cursor, tasks, createdAt, updatedAt, completedAt⟩ := within
    have policy : Policy.ofJsonAt? 2 (toJson r.policy) = some r.policy :=
      ofJsonAt?_policy (by decide) r.policy
    refine read_record (by exact .refl _) (by decide) ?_
    refine read_field rfl (fits _) (read_field rfl (fits _) ?_)
    -- The policy lies inside of the run, which counts for what may be kept of it.
    refine Option.bind_eq_some_iff.mpr ⟨_, rfl, Option.bind_eq_some_iff.mpr ⟨_, policy, ?_⟩⟩
    refine read_field rfl (fits _) (read_field rfl cursor (read_field rfl (fits _) ?_))
    refine read_field rfl tasks (read_default rfl (fits _) (read_field rfl createdAt ?_))
    exact read_field rfl updatedAt (read_default rfl completedAt rfl)
  fits_of_ofJson? {j r} read := by
    obtain ⟨fs, -, read⟩ := Option.bind_eq_some_iff.mp read
    iterate 5 obtain ⟨_, -, read⟩ := Option.bind_eq_some_iff.mp read
    obtain ⟨cursor, hcursor, read⟩ := Option.bind_eq_some_iff.mp read
    obtain ⟨_, -, read⟩ := Option.bind_eq_some_iff.mp read
    obtain ⟨tasks, htasks, read⟩ := Option.bind_eq_some_iff.mp read
    obtain ⟨_, -, read⟩ := Option.bind_eq_some_iff.mp read
    obtain ⟨createdAt, hcreated, read⟩ := Option.bind_eq_some_iff.mp read
    obtain ⟨updatedAt, hupdated, read⟩ := Option.bind_eq_some_iff.mp read
    obtain ⟨completedAt, hcompleted, read⟩ := Option.bind_eq_some_iff.mp read
    cases read
    exact ⟨fits_of_get? hcursor, fits_of_get? htasks, fits_of_get? hcreated, fits_of_get? hupdated,
      fits_of_getOr? fits_none hcompleted⟩

-- ---------------------------------------------------------------------------
-- Commands and resources
-- ---------------------------------------------------------------------------

instance : Faithful TaskCommand where
  Fits c := Fits c.taskId
  isClean c := isClean_record (by simp)
  ofJson?_toJson {c} within := by
    have kept : isKept 1 c.direction.toFields = true :=
      isKept_of_flat (by decide) (flat_of_mem_direction c.direction)
    refine read_openRecord (List.append_assoc _ _ _) (by exact .refl _) (keys_direction c.direction)
      (by decide) kept ?_
    refine read_field rfl (fits _) (read_field rfl within ?_)
    iterate 5 refine read_field rfl (fits _) ?_
    refine Option.bind_eq_some_iff.mpr ⟨_, ofFields?_direction c.direction, ?_⟩
    exact read_field rfl (fits _) rfl
  fits_of_ofJson? {j c} read := by
    obtain ⟨⟨fs, rest⟩, -, read⟩ := Option.bind_eq_some_iff.mp read
    obtain ⟨_, -, read⟩ := Option.bind_eq_some_iff.mp read
    obtain ⟨taskId, htask, read⟩ := Option.bind_eq_some_iff.mp read
    iterate 7 obtain ⟨_, -, read⟩ := Option.bind_eq_some_iff.mp read
    cases read
    exact fits_of_get? htask

instance : Faithful TaskView where
  Fits t := Fits t.id
  isClean t := isClean_record (by simp)
  ofJson?_toJson {t} within := by
    refine read_record ?keys (by decide) ?_
    case keys =>
      iterate 9 refine List.Sublist.cons_cons _ ?_
      exact keys_presentField _ _
    refine read_field rfl within ?_
    iterate 8 refine read_field rfl (fits _) ?_
    refine read_optional ?_ (fits t.lastError) rfl
    simp [List.lookup_cons, lookup_presentField]
  fits_of_ofJson? {j t} read := by
    obtain ⟨fs, -, read⟩ := Option.bind_eq_some_iff.mp read
    obtain ⟨id, hid, read⟩ := Option.bind_eq_some_iff.mp read
    iterate 9 obtain ⟨_, -, read⟩ := Option.bind_eq_some_iff.mp read
    cases read
    exact fits_of_get? hid

instance : Faithful UpgradeResource where
  Fits r :=
    Fits r.failedTasks ∧ Fits r.tasks ∧ Fits r.createdAt ∧ Fits r.updatedAt ∧ Fits r.completedAt
  isClean r := isClean_record (by simp)
  ofJson?_toJson {r} within := by
    obtain ⟨failedTasks, tasks, createdAt, updatedAt, completedAt⟩ := within
    have kept : isKept 1 r.directives.toFields = true :=
      isKept_of_flat (by decide) (flat_of_mem_policy r.directives)
    refine read_openRecord (by simp only [List.append_assoc]; rfl) ?keys (keys_policy r.directives)
      (by decide) kept ?_
    case keys =>
      iterate 6 refine List.Sublist.cons_cons _ ?_
      refine keys_presentField_append (keys_presentField_append (.cons_cons _ ?_))
      refine keys_presentField_append ?_
      iterate 4 refine List.Sublist.cons_cons _ ?_
      exact keys_presentField _ _
    iterate 6 refine read_field rfl (fits _) ?_
    refine Option.bind_eq_some_iff.mpr ⟨_, ofRest?_policy r.directives, ?_⟩
    refine read_optional ?_ (fits r.currentGroup) (read_optional ?_ (fits r.currentStage)
      (read_field ?_ (fits r.progressPercent) (read_optional ?_ (fits r.message)
      (read_default ?_ failedTasks (read_default ?_ tasks (read_field ?_ createdAt
      (read_field ?_ updatedAt (read_optional ?_ completedAt rfl))))))))
    -- Each field is found behind those before it, whether they are there or not.
    all_goals simp [List.lookup_append, List.lookup_cons, lookup_presentField]
  fits_of_ofJson? {j r} read := by
    obtain ⟨⟨fs, rest⟩, -, read⟩ := Option.bind_eq_some_iff.mp read
    iterate 11 obtain ⟨_, -, read⟩ := Option.bind_eq_some_iff.mp read
    obtain ⟨failedTasks, hfailed, read⟩ := Option.bind_eq_some_iff.mp read
    obtain ⟨tasks, htasks, read⟩ := Option.bind_eq_some_iff.mp read
    obtain ⟨createdAt, hcreated, read⟩ := Option.bind_eq_some_iff.mp read
    obtain ⟨updatedAt, hupdated, read⟩ := Option.bind_eq_some_iff.mp read
    obtain ⟨completedAt, hcompleted, read⟩ := Option.bind_eq_some_iff.mp read
    cases read
    exact ⟨fits_of_getOr? fits_nil hfailed, fits_of_getOr? fits_nil htasks, fits_of_get? hcreated,
      fits_of_get? hupdated, fits_of_getOr? fits_none hcompleted⟩

-- ---------------------------------------------------------------------------
-- Texts
-- ---------------------------------------------------------------------------

/-- The text that a value is written as after it was read from a text. -/
def rewrite? (α : Type) [Wire α] (s : String) : Option String := (parse? s : Option α).map render

/-- Values within bounds are read back from their texts, and to rewrite a text once more changes nothing. -/
structure RoundTrips (α : Type) [Wire α] (Within : α → Prop) : Prop where
  parse?_render (a : α) : Within a → parse? (render a) = some a
  rewrite?_rewrite? (s t : String) : rewrite? α s = some t → rewrite? α t = some t

theorem roundTrips (α : Type) [Wire α] [Faithful α] : RoundTrips α Fits where
  parse?_render _ := parse?_render
  rewrite?_rewrite? s t rewritten := by
    obtain ⟨a, read, rfl⟩ := Option.map_eq_some_iff.mp rewritten
    rw [rewrite?, parse?_render (fits_of_parse? read), Option.map_some]

/-- Runs, resources, commands, plans and topologies are read back from their texts: all plans and topologies,
and of the others those whose indices take 64 bits and whose times have a year that has timestamps. -/
theorem wire_forms_round_trip :
    RoundTrips Run Fits ∧ RoundTrips UpgradeResource Fits ∧ RoundTrips TaskCommand Fits ∧
      RoundTrips Plan (fun _ => True) ∧ RoundTrips Topology (fun _ => True) :=
  ⟨roundTrips Run, roundTrips UpgradeResource, roundTrips TaskCommand, roundTrips Plan,
    roundTrips Topology⟩

/-- A downgrade with a task is read back. -/
theorem wire_forms_round_trip_downgrade :
    let r := Run.create (RunId.ofNat 2)
      ⟨"demo", "2", "1", [⟨"db", false, [⟨"stop db (2)", .stop, [⟨"h1", "db", "node", .stop, "2"⟩]⟩]⟩]⟩
      ⟨.downgrade (RunId.ofNat 1), true⟩ .epoch
    Fits r ∧ parse? (render r) = some r := by
  intro r
  have zero : Fits 0 := Nat.two_pow_pos 64
  have epoch : Fits Timestamp.epoch := fits_of_year (by decide)
  have tasks : Fits r.tasks := by
    intro t ht
    obtain rfl := List.mem_singleton.mp ht
    exact ⟨zero, zero, zero, fits_none, fits_none⟩
  have fits : Fits r := ⟨⟨zero, zero⟩, tasks, epoch, epoch, fits_none⟩
  exact ⟨fits, wire_forms_round_trip.1.parse?_render r fits⟩

end Rollout.Wire
