-- SUMMARY: Faithful wire forms, from which each value is read back: basic types, options, lists and fields.
import Rollout.Wire.Basic
import Rollout.Proofs.Json.Printing
import Rollout.Proofs.Timestamp.Reading

/-!
# Faithful wire forms

A wire form is faithful when each value that fits into it is read back from what is written for it, and when
no other value is ever read. What fits is decided by the numbers and the times in a value only: an index has to
take 64 bits, and a time a year that has timestamps.
-/
namespace Rollout.Wire

/-- A wire form that loses nothing. -/
class Faithful (α : Type) [Wire α] where
  /-- The numbers and the times in the value are within the bounds of the wire form. Most types have none. -/
  Fits : α → Prop := fun _ => True
  isClean (a : α) : (toJson a).IsClean
  ofJson?_toJson {a : α} : Fits a → ofJson? (toJson a) = some a
  fits_of_ofJson? {j : Json} {a : α} : ofJson? j = some a → Fits a := by exact fun _ => trivial

export Faithful (Fits isClean ofJson?_toJson fits_of_ofJson?)

attribute [simp] isClean

/-- A wire form without bounds. -/
class Unbounded (α : Type) [Wire α] [Faithful α] : Prop where
  fits (a : α) : Fits a

export Unbounded (fits)

attribute [simp] fits

/-- A wire form in which no value is written as nothing. -/
class Present (α : Type) [Wire α] : Prop where
  toJson_ne_null (a : α) : toJson a ≠ .null

export Present (toJson_ne_null)

section

variable {α : Type} [Wire α] [Faithful α]

theorem parse?_render {a : α} (fits : Fits a) : parse? (render a) = some a := by
  rw [parse?, render, Json.parse?_render (isClean a)]
  exact ofJson?_toJson fits

theorem fits_of_parse? {s : String} {a : α} (read : parse? s = some a) : Fits a := by
  obtain ⟨j, -, read⟩ := Option.bind_eq_some_iff.mp read
  exact fits_of_ofJson? read

end

-- ---------------------------------------------------------------------------
-- Basic types
-- ---------------------------------------------------------------------------

theorem decodeBody?_encode (s : String) : Json.decodeBody? (Json.Quoted.encode s.toList) = some s := by
  rw [Json.decodeBody?, Json.Quoted.decode_encode, Option.map_some, String.ofList_toList]

theorem text?_text (s : String) : text? (Json.text s) = some s := decodeBody?_encode s

theorem natBelow?_nat {bound n : Nat} (below : n < bound) : natBelow? bound (Json.nat n) = some n := by
  simp [natBelow?, Json.nat, Json.Numeral.toNat?, Json.Numeral.ofNat, below]

theorem lt_of_natBelow? {bound n : Nat} {j : Json} (read : natBelow? bound j = some n) : n < bound := by
  unfold natBelow? at read
  split at read
  case h_1 m =>
    obtain ⟨k, -, read⟩ := Option.bind_eq_some_iff.mp read
    obtain ⟨below, same⟩ := Option.ite_none_right_eq_some.mp read
    cases same
    exact below
  case h_2 => cases read

instance : Faithful String where
  isClean := Json.isClean_text
  ofJson?_toJson _ := text?_text _

instance : Unbounded String := ⟨fun _ => trivial⟩

instance : Present String := ⟨nofun⟩

instance : Faithful Bool where
  isClean _ := by simp only [toJson, Json.IsClean]
  ofJson?_toJson _ := rfl

instance : Unbounded Bool := ⟨fun _ => trivial⟩

/-- Indices take 64 bits. -/
instance : Faithful Nat where
  Fits n := n < Nat.pow 2 64
  isClean := Json.isClean_nat
  ofJson?_toJson := natBelow?_nat
  fits_of_ofJson? := lt_of_natBelow?

instance : Faithful UInt32 where
  isClean n := Json.isClean_nat n.toNat
  ofJson?_toJson {n} _ := by
    change (natBelow? (Nat.pow 2 32) (Json.nat n.toNat)).map UInt32.ofNat = some n
    rw [natBelow?_nat n.toNat_lt, Option.map_some, UInt32.ofNat_toNat]

instance : Unbounded UInt32 := ⟨fun _ => trivial⟩

instance : Faithful UInt8 where
  isClean n := Json.isClean_nat n.toNat
  ofJson?_toJson {n} _ := by
    change (natBelow? (Nat.pow 2 8) (Json.nat n.toNat)).map UInt8.ofNat = some n
    rw [natBelow?_nat n.toNat_lt, Option.map_some, UInt8.ofNat_toNat]

instance : Unbounded UInt8 := ⟨fun _ => trivial⟩

instance : Faithful RunId where
  isClean id := Json.isClean_text id.render
  ofJson?_toJson {id} _ := by
    simp only [ofJson?, toJson, text?_text, RunId.parse?_render, Option.bind_eq_bind, Option.bind_some]

instance : Unbounded RunId := ⟨fun _ => trivial⟩

instance : Faithful Timestamp where
  Fits t := Timestamp.isSupportedYear t.year = true
  isClean t := Json.isClean_text t.render
  ofJson?_toJson {t} supported := by
    simp only [ofJson?, toJson, text?_text, Timestamp.parse?_render supported, Option.bind_eq_bind,
      Option.bind_some]
  fits_of_ofJson? read := by
    obtain ⟨s, -, read⟩ := Option.bind_eq_some_iff.mp read
    exact Timestamp.isSupportedYear_of_parse? s _ read

instance : Present Timestamp := ⟨nofun⟩

/-- All times in years of four digits fit. -/
theorem fits_of_year {t : Timestamp} (year : 0 ≤ t.year ∧ t.year ≤ 9999) : Fits t := by
  change Timestamp.isSupportedYear t.year = true
  rw [Timestamp.isSupportedYear, Bool.and_eq_true, decide_eq_true_eq, decide_eq_true_eq]
  omega

-- ---------------------------------------------------------------------------
-- Options and lists
-- ---------------------------------------------------------------------------

section

variable {α : Type} [Wire α]

theorem ofJson?_option {j : Json} (present : j ≠ .null) :
    (ofJson? j : Option (Option α)) = (ofJson? j).map some := by
  cases j <;> first | rfl | contradiction

theorem mapM_ofJson?_map {as : List α} (read : ∀ a ∈ as, ofJson? (toJson a) = some a) :
    (as.map toJson).mapM ofJson? = some as := by
  induction as with
  | nil => rfl
  | cons a as ih =>
    simp [read a List.mem_cons_self, ih fun a ha => read a (List.mem_cons_of_mem _ ha)]

/-- Every item that was read was read from some document. -/
theorem exists_of_mapM_ofJson? {items : List Json} {as : List α}
    (read : items.mapM ofJson? = some as) : ∀ a ∈ as, ∃ j, ofJson? j = some a := by
  induction items generalizing as with
  | nil =>
    cases read
    nofun
  | cons j items ih =>
    rw [List.mapM_cons] at read
    obtain ⟨a, first, read⟩ := Option.bind_eq_some_iff.mp read
    obtain ⟨others, rest, same⟩ := Option.bind_eq_some_iff.mp read
    cases same
    intro b hb
    obtain rfl | hb := List.mem_cons.mp hb
    · exact ⟨j, first⟩
    · exact ih rest b hb

variable [Faithful α]

instance [Present α] : Faithful (Option α) where
  Fits value := ∀ a ∈ value, Fits a
  isClean value := by
    cases value with
    | none => simp only [toJson, Json.IsClean]
    | some a => exact isClean a
  ofJson?_toJson {value} fits := by
    cases value with
    | none => rfl
    | some a =>
      have read := ofJson?_toJson (fits a rfl)
      change ofJson? (toJson a) = some (some a)
      rw [ofJson?_option (toJson_ne_null a), read, Option.map_some]
  fits_of_ofJson? {j value} read := by
    rintro a rfl
    have present : j ≠ .null := by
      rintro rfl
      cases read
    rw [ofJson?_option present] at read
    obtain ⟨b, read, same⟩ := Option.map_eq_some_iff.mp read
    cases same
    exact fits_of_ofJson? read

theorem fits_none [Present α] : Fits (none : Option α) := fun _ => nofun

instance [Present α] [Unbounded α] : Unbounded (Option α) := ⟨fun _ a _ => fits a⟩

instance : Faithful (List α) where
  Fits as := ∀ a ∈ as, Fits a
  isClean as := Json.isClean_array (by simp)
  ofJson?_toJson fits := mapM_ofJson?_map fun a ha => ofJson?_toJson (fits a ha)
  fits_of_ofJson? {j as} read a ha := by
    cases j with
    | array items =>
      obtain ⟨j, read⟩ := exists_of_mapM_ofJson? read a ha
      exact fits_of_ofJson? read
    | _ => cases read

theorem fits_nil : Fits ([] : List α) := fun _ => nofun

instance [Unbounded α] : Unbounded (List α) := ⟨fun _ a _ => fits a⟩

end

-- ---------------------------------------------------------------------------
-- Names
-- ---------------------------------------------------------------------------

/-- A value is found by its name when it is the first with that name. -/
theorem enum?_text {α : Type} {values : List α} {name : α → String} {a : α}
    (found : named? values name (name a) = some a) : enum? values name (Json.text (name a)) = some a := by
  change (text? (Json.text (name a))).bind _ = _
  rw [text?_text, Option.bind_some, found]

-- ---------------------------------------------------------------------------
-- Fields
-- ---------------------------------------------------------------------------

/-- Fields whose keys differ are told apart by what the record knows. -/
theorem splitMembers?_record (known : List String) {fs : Fields} (nodup : (fs.map Prod.fst).Nodup) :
    splitMembers? known (fs.map fun (key, value) => (Json.Quoted.encode key.toList, value)) =
      some (fs.filter (known.contains ·.1), fs.filter (!known.contains ·.1)) := by
  induction fs with
  | nil => rfl
  | cons field fs ih =>
    obtain ⟨key, value⟩ := field
    obtain ⟨fresh, nodup⟩ := List.nodup_cons.mp nodup
    have once : ((fs.filter (known.contains ·.1)).lookup key).isSome = false := by
      rw [Option.isSome_eq_false_iff, Option.isNone_iff_eq_none, List.lookup_eq_none_iff]
      intro other among
      have listed := List.mem_map_of_mem (f := Prod.fst) (List.mem_filter.mp among).1
      exact bne_iff_ne.mpr fun same => fresh (same ▸ listed)
    simp only [List.map_cons, splitMembers?, decodeBody?_encode, ih nodup, Option.bind_eq_bind,
      Option.bind_some, once]
    rw [List.filter_cons, List.filter_cons]
    cases known.contains key <;> rfl

/-- A record that knows all its fields is built from them. -/
theorem read_record {α : Type} {known : List String} {fs : Fields} {build : Fields → Option α} {a : α}
    (keys : (fs.map Prod.fst).Sublist known) (nodup : known.Nodup) (built : build fs = some a) :
    (fields? known (Json.record fs)).bind build = some a := by
  have all : ∀ field ∈ fs, known.contains field.1 = true := fun field hf =>
    List.contains_iff_mem.mpr (keys.subset (List.mem_map_of_mem hf))
  have split : fields? known (Json.record fs) = some fs := by
    change (splitMembers? known _).map Prod.fst = some fs
    rw [splitMembers?_record known (keys.nodup nodup), Option.map_some, List.filter_eq_self.mpr all]
  rw [split, Option.bind_some, built]

/-- An open record is built from its own fields, around those of the part inside, and from those. -/
theorem read_openRecord {α : Type} {known inner : List String} {fs before part after : Fields}
    {level : Nat} {build : Fields × Fields → Option α} {a : α} (fields : fs = before ++ (part ++ after))
    (own : ((before ++ after).map Prod.fst).Sublist known) (others : (part.map Prod.fst).Sublist inner)
    (nodup : (known ++ inner).Nodup) (kept : isKept level part = true)
    (built : build (before ++ after, part) = some a) :
    (openFields? known level (Json.record fs)).bind build = some a := by
  have apart := (List.nodup_append.mp nodup).2.2
  have all_known : ∀ field ∈ before ++ after, known.contains field.1 = true := fun field hf =>
    List.contains_iff_mem.mpr (own.subset (List.mem_map_of_mem hf))
  obtain ⟨known_before, known_after⟩ := List.forall_mem_append.mp all_known
  have all_unknown : ∀ field ∈ part, known.contains field.1 = false := by
    intro field hf
    have listed := others.subset (List.mem_map_of_mem hf)
    simpa using fun among => apart _ among _ listed rfl
  have keys : (fs.map Prod.fst).Nodup := by
    have order : fs.Perm (before ++ after ++ part) := by
      rw [fields, List.append_assoc]
      exact List.perm_append_comm.append_left before
    rw [(order.map Prod.fst).nodup_iff, List.map_append]
    exact (own.append others).nodup nodup
  have mine : fs.filter (known.contains ·.1) = before ++ after := by
    rw [fields, List.filter_append, List.filter_append, List.filter_eq_self.mpr known_before,
      List.filter_eq_nil_iff.mpr (by simpa using all_unknown), List.filter_eq_self.mpr known_after,
      List.nil_append]
  have left_over : fs.filter (!known.contains ·.1) = part := by
    rw [fields, List.filter_append, List.filter_append,
      List.filter_eq_nil_iff.mpr (by simpa using known_before),
      List.filter_eq_self.mpr (by simpa using all_unknown),
      List.filter_eq_nil_iff.mpr (by simpa using known_after), List.nil_append, List.append_nil]
  have split : openFields? known level (Json.record fs) = some (before ++ after, part) := by
    change (splitMembers? known _).bind _ = _
    rw [splitMembers?_record known keys, mine, left_over, Option.bind_some]
    exact if_pos kept
  rw [split, Option.bind_some, built]

section

variable {α : Type} [Wire α]

theorem lookup_presentField (key k : String) (value : Option α) :
    (presentField key value).lookup k = if k = key then value.map toJson else none := by
  cases value with
  | none => simp [presentField]
  | some a =>
    by_cases same : k = key
    · simp [presentField, same]
    · simp [presentField, List.lookup_cons, same, beq_false_of_ne same]

theorem keys_presentField (key : String) (value : Option α) :
    ((presentField key value).map Prod.fst).Sublist [key] := by
  cases value with
  | none => exact List.nil_sublist _
  | some a => exact .refl _

/-- A field that is written only when it has a value takes the place of its key. -/
theorem keys_presentField_append {key : String} {value : Option α} {fs : Fields} {keys : List String}
    (others : (fs.map Prod.fst).Sublist keys) :
    ((presentField key value ++ fs).map Prod.fst).Sublist (key :: keys) := by
  rw [List.map_append]
  exact (keys_presentField key value).append others

variable [Faithful α]

/-- What is read from a field fits, and so does the value that stands for a missing field. -/
theorem fits_of_get? {fs : Fields} {key : String} {a : α} (read : fs.get? key = some a) : Fits a := by
  obtain ⟨j, -, read⟩ := Option.bind_eq_some_iff.mp read
  exact fits_of_ofJson? read

theorem fits_of_getOr? {fs : Fields} {key : String} {default a : α} (fits : Fits default)
    (read : fs.getOr? key default = some a) : Fits a := by
  unfold Fields.getOr? at read
  split at read
  · cases read
    exact fits
  · exact fits_of_ofJson? read

-- A record is built from its fields one after the other.
variable {β : Type} {next : α → Option β} {b : β}

theorem read_field {fs : Fields} {key : String} {a : α} (found : fs.lookup key = some (toJson a))
    (fits : Fits a) (rest : next a = some b) : (fs.get? key).bind next = some b := by
  rw [Fields.get?, found, Option.bind_eq_bind, Option.bind_some, ofJson?_toJson fits, Option.bind_some, rest]

theorem read_default {fs : Fields} {key : String} {a default : α}
    (found : fs.lookup key = some (toJson a)) (fits : Fits a) (rest : next a = some b) :
    (fs.getOr? key default).bind next = some b := by
  rw [Fields.getOr?, found]
  dsimp only
  rw [ofJson?_toJson fits, Option.bind_some, rest]

/-- A value that was written only if there is one is read back either way. -/
theorem read_optional [Present α] {fs : Fields} {key : String} {value : Option α}
    {next : Option α → Option β} (found : fs.lookup key = value.map toJson) (fits : Fits value)
    (rest : next value = some b) : (fs.getOr? key none).bind next = some b := by
  rw [Fields.getOr?, found]
  cases value with
  | none => exact rest
  | some a =>
    dsimp only [Option.map_some]
    rw [show ofJson? (toJson a) = some (some a) from ofJson?_toJson fits, Option.bind_some, rest]

end

/-- The values of all fields are clean. -/
def Fields.IsClean (fs : Fields) : Prop := ∀ field ∈ fs, field.2.IsClean

namespace Fields

@[simp] theorem isClean_nil : IsClean [] := fun _ => nofun

@[simp] theorem isClean_cons {key : String} {value : Json} {fs : Fields} :
    IsClean ((key, value) :: fs) ↔ value.IsClean ∧ fs.IsClean := List.forall_mem_cons

@[simp] theorem isClean_append {fs gs : Fields} : IsClean (fs ++ gs) ↔ fs.IsClean ∧ gs.IsClean :=
  List.forall_mem_append

@[simp] theorem isClean_presentField {α : Type} [Wire α] [Faithful α] (key : String) (value : Option α) :
    IsClean (presentField key value) := by
  cases value <;> simp [presentField]

end Fields

theorem isClean_record {fs : Fields} (clean : fs.IsClean) : (Json.record fs).IsClean :=
  Json.isClean_record clean

end Rollout.Wire
