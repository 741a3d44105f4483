-- SUMMARY: Which directives are accepted, and the policy that they ask for.
import Rollout.Policy

/-!
# Accepted directives

The directives of a request are a map from keys to values. What is accepted can be said of the map, whatever
is looked at first: every key is known, every value spells a truth value, and a downgrade is asked for just
when a run is referenced.
-/
namespace Rollout

/-- The text spells a truth value, in any case and between any blanks. -/
def Text.Spells (text : String) (b : Bool) : Prop :=
  asciiLower (trim text) = if b then "true" else "false"

namespace Directives

/-- Every key is known, and every value spells a truth value. -/
structure AreFit (ds : Directives) : Prop where
  keys : ∀ key value, ds.lookup key = some value → key = downgradeKey ∨ key = skipServiceChecksKey
  values : ∀ key value, ds.lookup key = some value →
    Text.Spells value true ∨ Text.Spells value false

/-- The value of the key spells true. -/
def IsSet (ds : Directives) (key : String) : Prop :=
  ∃ value, ds.lookup key = some value ∧ Text.Spells value true

variable {ds : Directives} {key : String} {fault : Fault} {reference : Option RunId}

-- ---------------------------------------------------------------------------
-- Keys
-- ---------------------------------------------------------------------------

/-- If every step of a search keeps or finds something, nothing is found only in an empty list. -/
theorem foldl_eq_none_iff {α : Type} {f : Option α → α → Option α} (finds : ∀ found a, (f found a).isSome)
    {l : List α} : l.foldl f none = none ↔ l = [] := by
  constructor
  · intro nothing
    obtain rfl | ⟨front, last, rfl⟩ := List.eq_nil_or_concat l
    · rfl
    · rw [List.concat_eq_append, List.foldl_append, List.foldl_cons, List.foldl_nil] at nothing
      have found := finds (front.foldl f none) last
      rw [nothing] at found
      cases found
  · rintro rfl
    rfl

/-- All directives are supported when the only keys are those of the two directives. -/
theorem unsupported?_eq_none_iff : ds.unsupported? = none ↔
    ∀ key value, ds.lookup key = some value → key = downgradeKey ∨ key = skipServiceChecksKey := by
  have known (key : String) :
      ¬ (!accepted.contains key) = true ↔ key = downgradeKey ∨ key = skipServiceChecksKey := by
    rw [Bool.not_eq_true', Bool.not_eq_false, List.contains_iff_mem]
    simp [accepted]
  rw [unsupported?, foldl_eq_none_iff ?finds, List.filter_eq_nil_iff]
  case finds =>
    intro found key
    cases found with
    | none => rfl
    | some k => by_cases less : key < k <;> simp [less]
  simp only [known, List.forall_mem_map]
  constructor
  · intro every key value found
    obtain ⟨front, back, same, _⟩ := List.lookup_eq_some_iff.mp found
    exact every (key, value) (by simp [same])
  · intro every entry member
    have given : (ds.lookup entry.1).isSome = true :=
      List.lookup_isSome_iff.mpr ⟨entry, member, beq_self_eq_true _⟩
    obtain ⟨value, found⟩ := Option.isSome_iff_exists.mp given
    exact every entry.1 value found

-- ---------------------------------------------------------------------------
-- Values
-- ---------------------------------------------------------------------------

theorem flag_eq_ok_iff {b : Bool} : ds.flag key = .ok b ↔
    (∀ value, ds.lookup key = some value → Text.Spells value true ∨ Text.Spells value false) ∧
      (b = true ↔ ds.IsSet key) := by
  unfold flag IsSet
  cases found : ds.lookup key with
  | none => cases b <;> simp
  | some value =>
    simp only [Option.some.injEq, forall_eq', exists_eq_left', Text.Spells, if_true,
      Bool.false_eq_true, if_false]
    split
    next spelled => simp [spelled, eq_comm]
    next other =>
      split
      next spelled => cases b <;> simp [spelled]
      next neither => simp [other, neither]

theorem flag_error (refused : ds.flag key = .error fault) : fault.isValidation = true := by
  unfold flag at refused
  split at refused
  · cases refused
  · dsimp only at refused
    split at refused
    · cases refused
    · split at refused
      · cases refused
      · cases refused
        rfl

-- ---------------------------------------------------------------------------
-- Policies
-- ---------------------------------------------------------------------------

/-- Every key is looked at, so the values of the two known keys are all values. -/
theorem areFit_iff : ds.AreFit ↔ ds.unsupported? = none ∧
    (∃ b, ds.flag downgradeKey = .ok b) ∧ ∃ b, ds.flag skipServiceChecksKey = .ok b := by
  constructor
  · rintro ⟨keys, values⟩
    have decided (key : String) : ∃ b, ds.flag key = .ok b := by
      by_cases isSet : ds.IsSet key
      · exact ⟨true, flag_eq_ok_iff.mpr ⟨values key, by simp [isSet]⟩⟩
      · exact ⟨false, flag_eq_ok_iff.mpr ⟨values key, by simp [isSet]⟩⟩
    exact ⟨unsupported?_eq_none_iff.mpr keys, decided _, decided _⟩
  · rintro ⟨supported, ⟨_, downgrade⟩, ⟨_, skip⟩⟩
    have keys := unsupported?_eq_none_iff.mp supported
    refine ⟨keys, fun key value found => ?_⟩
    obtain rfl | rfl := keys key value found
    · exact (flag_eq_ok_iff.mp downgrade).1 value found
    · exact (flag_eq_ok_iff.mp skip).1 value found

/-- The policies that directives ask for. -/
theorem policy_eq_ok_iff {policy : Policy} : ds.policy reference = .ok policy ↔
    ds.AreFit ∧ (ds.IsSet downgradeKey ↔ reference.isSome = true) ∧
      policy.direction = reference.elim .upgrade .downgrade ∧
      (policy.skipServiceChecks = true ↔ ds.IsSet skipServiceChecksKey) := by
  rw [areFit_iff]
  unfold Directives.policy
  simp only [bind, Except.bind, pure, Except.pure, throw, throwThe, MonadExceptOf.throw]
  cases supported : ds.unsupported? with
  | some key => simp
  | none =>
    dsimp only
    cases asked : ds.flag downgradeKey with
    | error fault => simp
    | ok downgrade =>
      cases skipped : ds.flag skipServiceChecksKey with
      | error fault => simp
      | ok skip =>
        rw [← (flag_eq_ok_iff.mp asked).2, ← (flag_eq_ok_iff.mp skipped).2]
        cases policy with
        | mk direction skips =>
          cases downgrade <;> cases reference <;> simp [eq_comm]

/-- Directives that are refused are refused by validation. -/
theorem policy_error (refused : ds.policy reference = .error fault) : fault.isValidation = true := by
  unfold Directives.policy at refused
  simp only [bind, Except.bind, pure, Except.pure, throw, throwThe, MonadExceptOf.throw] at refused
  cases supported : ds.unsupported? with
  | some key =>
    simp only [supported] at refused
    cases refused
    rfl
  | none =>
    simp only [supported] at refused
    cases asked : ds.flag downgradeKey with
    | error fault' =>
      simp only [asked] at refused
      cases refused
      exact flag_error asked
    | ok downgrade =>
      simp only [asked] at refused
      cases skipped : ds.flag skipServiceChecksKey with
      | error fault' =>
        simp only [skipped] at refused
        cases refused
        exact flag_error skipped
      | ok skip =>
        simp only [skipped] at refused
        cases downgrade <;> cases reference <;> cases refused <;> rfl

end Directives

end Rollout
