-- SUMMARY: The wire forms of directions, policies, topologies and plans are faithful.
import Rollout.Wire.Plan
import Rollout.Proofs.Wire.Faithful

/-!
# Faithful topologies, policies and plans

Nothing in a topology or in a plan has bounds, so all of them are read back. A direction stands among the fields of the
record around it, which tells its fields from its own by their keys.
-/
namespace Rollout.Wire

-- ---------------------------------------------------------------------------
-- Directions and policies
-- ---------------------------------------------------------------------------

theorem keys_direction (d : Direction) : (d.toFields.map Prod.fst).Sublist ["direction", "of"] := by
  cases d with
  | upgrade => exact (List.nil_sublist _).cons_cons _
  | downgrade id => exact .refl _

theorem keys_policy (p : Policy) :
    (p.toFields.map Prod.fst).Sublist ["direction", "of", "skipServiceChecks"] := by
  rw [Policy.toFields, List.map_append]
  exact (keys_direction p.direction).append (.refl _)

/-- Fields are kept when their values are meaningful and hold no arrays or objects. -/
theorem isKept_of_flat {level : Nat} (outer : level ≤ depthLimit) {fs : Fields}
    (flat : ∀ field ∈ fs, field.2.isMeaningful = true ∧ field.2.depth = 0) : isKept level fs = true := by
  rw [isKept, List.all_eq_true]
  intro field hf
  obtain ⟨meaningful, shallow⟩ := flat field hf
  simp [meaningful, shallow, outer]

theorem flat_text (s : String) : (Json.text s).isMeaningful = true ∧ (Json.text s).depth = 0 := by
  simp [Json.text, Json.isMeaningful, Json.depth, Json.Quoted.decode_encode]

theorem flat_of_mem_direction (d : Direction) :
    ∀ field ∈ d.toFields, field.2.isMeaningful = true ∧ field.2.depth = 0 := by
  cases d <;> simp [Direction.toFields, flat_text, toJson]

theorem flat_of_mem_policy (p : Policy) :
    ∀ field ∈ p.toFields, field.2.isMeaningful = true ∧ field.2.depth = 0 := by
  rw [Policy.toFields, List.forall_mem_append]
  exact ⟨flat_of_mem_direction p.direction, by simp [toJson, Json.isMeaningful, Json.depth]⟩

theorem tagOrNumber?_name (d : Direction) : Direction.tagOrNumber? (Json.text d.name) = some d.name := by
  have known : Direction.tags.contains d.name = true := by
    cases d <;> simp [Direction.tags, Direction.name]
  change Direction.tagName? (Json.text d.name) = some d.name
  rw [Direction.tagName?, text?_text]
  exact if_pos known

/-- The direction is read from its tag, with the reversed run beside it. -/
theorem ofFields?_direction (d : Direction) : Direction.ofFields? d.toFields = some d := by
  have tag : Direction.only? d.toFields "direction" = some (Json.text d.name) := by cases d <;> rfl
  rw [Direction.ofFields?, tag, Option.bind_eq_bind, Option.bind_some, tagOrNumber?_name,
    Option.bind_eq_bind, Option.bind_some]
  cases d with
  | upgrade => rfl
  | downgrade id =>
    have beside : Direction.only? (Direction.downgrade id).toFields "of" = some (toJson id) := rfl
    simp [Direction.ofTag?, Direction.name, beside, ofJson?_toJson]

/-- The policy is read from its own field and the fields of its direction. -/
theorem ofFields?_policy (p : Policy) : Policy.ofFields?
    [("skipServiceChecks", toJson p.skipServiceChecks)] p.direction.toFields = some p := by
  rw [Policy.ofFields?, ofFields?_direction]
  rfl

theorem ofRest?_policy (p : Policy) : Policy.ofRest? p.toFields = some p := by
  obtain ⟨d, skip⟩ := p
  have flag : Direction.only? (Policy.toFields ⟨d, skip⟩) "skipServiceChecks" = some (toJson skip) := by
    cases d <;> rfl
  rw [Policy.ofRest?, flag, Option.bind_eq_bind, Option.bind_some]
  -- The key of the flag is none of those of the direction.
  cases d with
  | upgrade => exact ofFields?_policy ⟨.upgrade, skip⟩
  | downgrade id => exact ofFields?_policy ⟨.downgrade id, skip⟩

theorem ofJsonAt?_policy {level : Nat} (outer : level ≤ depthLimit) (p : Policy) :
    Policy.ofJsonAt? level (toJson p) = some p := by
  have kept := isKept_of_flat outer (flat_of_mem_direction p.direction)
  exact read_openRecord (List.nil_append p.toFields).symm (by exact .refl _)
    (keys_direction p.direction) (by decide) kept (ofFields?_policy p)

@[simp] theorem isClean_direction (d : Direction) : Fields.IsClean d.toFields := by
  cases d <;> simp [Direction.toFields, Json.isClean_text]

@[simp] theorem isClean_policy (p : Policy) : Fields.IsClean p.toFields := by
  simp [Policy.toFields]

instance : Faithful Policy where
  isClean p := isClean_record (isClean_policy p)
  ofJson?_toJson {p} _ := ofJsonAt?_policy (by decide) p

-- ---------------------------------------------------------------------------
-- Topologies
-- ---------------------------------------------------------------------------

instance : Faithful Component where
  isClean c := isClean_record (by simp)
  ofJson?_toJson {c} _ := by
    refine read_record (by exact .refl _) (by decide) ?_
    refine read_field rfl (fits _) ?_
    exact read_default rfl (fits _) (read_default rfl (fits _) rfl)

instance : Unbounded Component := ⟨fun _ => trivial⟩

instance : Faithful Service where
  isClean s := isClean_record (by simp)
  ofJson?_toJson {s} _ := by
    refine read_record (by exact .refl _) (by decide) ?_
    refine read_field rfl (fits _) ?_
    exact read_default rfl (fits _) (read_default rfl (fits _) rfl)

instance : Unbounded Service := ⟨fun _ => trivial⟩

instance : Faithful Topology where
  isClean t := isClean_record (by simp)
  ofJson?_toJson {t} _ := by
    refine read_record (by exact .refl _) (by decide) ?_
    iterate 3 refine read_field rfl (fits _) ?_
    exact read_default rfl (fits _) rfl

instance : Unbounded Topology := ⟨fun _ => trivial⟩

-- ---------------------------------------------------------------------------
-- Plans
-- ---------------------------------------------------------------------------

instance : Faithful Operation where
  isClean op := Json.isClean_text op.name
  ofJson?_toJson {op} _ := enum?_text (by cases op <;> rfl)

instance : Unbounded Operation := ⟨fun _ => trivial⟩

instance : Faithful TaskSpec where
  isClean t := isClean_record (by simp)
  ofJson?_toJson {t} _ := by
    refine read_record (by exact .refl _) (by decide) ?_
    iterate 5 refine read_field rfl (fits _) ?_
    rfl

instance : Unbounded TaskSpec := ⟨fun _ => trivial⟩

instance : Faithful Stage where
  isClean s := isClean_record (by simp)
  ofJson?_toJson {s} _ := by
    refine read_record (by exact .refl _) (by decide) ?_
    iterate 3 refine read_field rfl (fits _) ?_
    rfl

instance : Unbounded Stage := ⟨fun _ => trivial⟩

instance : Faithful Group where
  isClean g := isClean_record (by simp)
  ofJson?_toJson {g} _ := by
    refine read_record (by exact .refl _) (by decide) ?_
    iterate 3 refine read_field rfl (fits _) ?_
    rfl

instance : Unbounded Group := ⟨fun _ => trivial⟩

instance : Faithful Plan where
  isClean p := isClean_record (by simp)
  ofJson?_toJson {p} _ := by
    refine read_record (by exact .refl _) (by decide) ?_
    iterate 4 refine read_field rfl (fits _) ?_
    rfl

instance : Unbounded Plan := ⟨fun _ => trivial⟩

end Rollout.Wire
