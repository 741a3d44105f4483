-- SUMMARY: Every value that a command line gives to an option is one that the option may have.
import Mathlib.Data.List.TakeDrop
import Mathlib.Data.List.TakeWhile
import Rollout.Config
import Rollout.Proofs.Text.Digits

/-!
# Values of options

Whatever the arguments and the environment are: a value that comes out of a command line was read for its option, or
is the standard value of the option. So a number keeps within the bound of its option. And any number within the bound
can be given, since the digits that write a number are read as that number.
-/
namespace Rollout.CommandLine

/-- A sequence of two readings succeeds when both do. -/
theorem bind_eq_ok {α β : Type} {x : Except Refusal α} {f : α → Except Refusal β} {b : β} :
    (x >>= f) = .ok b ↔ ∃ a, x = .ok a ∧ f a = .ok b := by
  cases x with
  | error refusal => simp [bind, Except.bind]
  | ok a => simp [bind, Except.bind]

-- ---------------------------------------------------------------------------
-- Admitted values
-- ---------------------------------------------------------------------------

/-- The values that an option may have: those that a text spells, the truth of a switch, and the standard value. -/
inductive OptionSpec.Admits (o : OptionSpec) : Value → Prop
  | spelled {kind : ValueKind} {s : String} {v : Value} (takes : o.kind = some kind)
      (read : kind.read s = .ok v) : o.Admits v
  | switched (takes : o.kind = none) : o.Admits (.truth true)
  | standard {v : Value} (standard : o.standard = some v) : o.Admits v

/-- Every value is admitted by an option of its name. -/
def Admitted (options : List OptionSpec) (values : Values) : Prop :=
  ∀ entry ∈ values, ∃ o ∈ options, o.name = entry.1 ∧ o.Admits entry.2

variable {options : List OptionSpec} {values values' : Values}

theorem Admitted.nil : Admitted options [] := by simp [Admitted]

theorem Admitted.append (first : Admitted options values) (second : Admitted options values') :
    Admitted options (values ++ values') := fun entry given =>
  (List.mem_append.mp given).elim (first entry) (second entry)

theorem Admitted.mono {more : List OptionSpec} (h : Admitted options values) (sub : options ⊆ more) :
    Admitted more values := fun entry given => by
  obtain ⟨o, ho, fits⟩ := h entry given
  exact ⟨o, sub ho, fits⟩

theorem standardValues_admitted (options : List OptionSpec) :
    Admitted options (standardValues options) := by
  intro entry given
  obtain ⟨o, ho, standard⟩ := List.mem_filterMap.mp given
  obtain ⟨v, value, rfl⟩ := Option.map_eq_some_iff.mp standard
  exact ⟨o, ho, rfl, .standard value⟩

/-! ## Readings -/

/-- All that is taken from the environment is admitted by its option. -/
theorem readEnvironment_admitted {env : String → Option String} {given values : Values}
    (read : readEnvironment env given options = .ok values) : Admitted options values := by
  induction options generalizing values with
  | nil =>
    cases read
    exact .nil
  | cons option options ih =>
    -- The option itself has a value or none, and the others have theirs.
    have others (own : Option Value) (admits : ∀ v, own = some v → option.Admits v)
        (read : (do let values ← readEnvironment env given options
                    pure ((own.map (option.name, ·)).toList ++ values)) = Except.ok values) :
        Admitted (option :: options) values := by
      obtain ⟨later, rest, read⟩ := bind_eq_ok.mp read
      cases read
      refine .append (fun entry here => ?_) ((ih rest).mono (List.subset_cons_self option options))
      obtain ⟨v, value, rfl⟩ := Option.map_eq_some_iff.mp (Option.mem_toList.mp here)
      exact ⟨option, List.mem_cons_self, rfl, admits v value⟩
    rw [readEnvironment] at read
    split at read
    next kind s takes _ =>
      split at read
      · exact others none nofun read
      · obtain ⟨own, spelled, read⟩ := bind_eq_ok.mp read
        refine others own (fun v value => .spelled (s := s) takes ?_) read
        cases here : kind.read s with
        | error =>
          rw [here] at spelled
          cases spelled
        | ok =>
          rw [here] at spelled
          cases spelled
          cases value
          rfl
    · exact others none nofun read

/-- What is read so far is admitted, and the last option is a known one. -/
structure Reading.Fits (options : List OptionSpec) (r : Reading) : Prop where
  given : Admitted options r.given
  last : ∀ o attached, r.last = some (o, attached) → o ∈ options

namespace Reading.Fits

variable {r r' : Reading} {option : OptionSpec} {scope : Scope}

theorem start : Reading.start.Fits options := ⟨.nil, nofun⟩

theorem give {read : Except Refusal Value} (fits : r.Fits options) (known : option ∈ options)
    (admits : ∀ v, read = .ok v → option.Admits v) (given : r.give option read = .ok r') :
    r'.Fits options := by
  unfold Reading.give at given
  dsimp only at given
  split at given
  · obtain ⟨_, refused, _⟩ := bind_eq_ok.mp given
    cases refused
  · obtain ⟨v, value, given⟩ := bind_eq_ok.mp given
    cases given
    refine ⟨fits.given.append fun entry here => ?_, fits.last⟩
    rw [List.mem_singleton.mp here]
    exact ⟨option, known, rfl, admits v value⟩

theorem close (fits : r.Fits options) (closed : r.close = .ok r') : r'.Fits options := by
  unfold Reading.close at closed
  have forgotten : { r with last := none }.Fits options := ⟨fits.given, nofun⟩
  split at closed
  · cases closed
    exact fits
  · cases closed
  next option s last =>
    split at closed
    next kind takes =>
      exact forgotten.give (fits.last _ _ last) (fun v spelled => .spelled takes spelled) closed
    · cases closed
      exact forgotten

/-- A refusal that comes after the option that waits is a refusal, whatever comes of that option. -/
theorem refusal_ne_ok (refusal : Refusal) : (r.close.bind fun _ => .error refusal) ≠ .ok r' := by
  cases r.close <;> simp [Except.bind]

/-- A long option leaves a reading that fits: its value is admitted, or it waits for one. -/
theorem readLong {name : String} {attached : Option String} (fits : r.Fits scope.options)
    (read : scope.readLong r name attached = .ok r') : r'.Fits scope.options := by
  rw [Scope.readLong] at read
  dsimp only at read
  split at read
  next option found =>
    have known := List.mem_of_find?_eq_some found
    split at read
    · cases read
    next takes =>
      obtain ⟨closed, ends, read⟩ := bind_eq_ok.mp read
      exact (fits.close ends).give known (fun v truth => by cases truth; exact .switched takes) read
    next kind s takes =>
      obtain ⟨closed, ends, read⟩ := bind_eq_ok.mp read
      exact (fits.close ends).give known (fun v spelled => .spelled takes spelled) read
    · obtain ⟨closed, ends, read⟩ := bind_eq_ok.mp read
      cases read
      exact ⟨(fits.close ends).given, by rintro _ _ ⟨⟩; exact known⟩
  · -- An option that is not known gives nothing.
    split at read
    · split at read
      · cases read
      · exact absurd read (refusal_ne_ok _)
    · split at read
      · split at read
        · cases read
        · exact absurd read (refusal_ne_ok _)
      · cases read

/-- Short options give nothing. -/
theorem readShort_ne_ok (letters : List Char) : scope.readShort r letters ≠ .ok r' := by
  unfold Scope.readShort
  split
  · exact refusal_ne_ok _
  · split
    · exact refusal_ne_ok _
    · simp
  · simp

/-- A reading that fits goes on to fit, whichever arguments follow. -/
theorem read {args : List String} {found : Option (String × List String)} (fits : r.Fits scope.options)
    (read : scope.read r args = .ok (r', found)) : r'.Fits scope.options := by
  induction args generalizing r with
  | nil =>
    cases read
    exact fits
  | cons arg args ih =>
    unfold Scope.read at read
    split at read
    · cases read
      exact fits
    · split at read
      · split at read
        · cases read
          exact fits
        · cases read
      · obtain ⟨r₁, first, read⟩ := bind_eq_ok.mp read
        exact ih (fits.readLong first) read
      · obtain ⟨r₁, first, _⟩ := bind_eq_ok.mp read
        exact absurd first (readShort_ne_ok _)
      · split at read
        next option last =>
          have waiting : { r with last := some (option, some arg) }.Fits scope.options := by
            refine ⟨fits.given, fun o attached same => ?_⟩
            cases same
            exact fits.last option none last
          exact ih waiting read
        · cases read

end Reading.Fits

/-- Every value that a command line gives is admitted by an option of the command or of all commands. -/
theorem parse_admitted {g : Grammar} {env : String → Option String} {args : List String} {name : String}
    {values : Values} (parsed : parse g env args = .ok (name, values)) :
    ∃ command ∈ g.commands, Admitted (command.options ++ g.options) values := by
  rw [parse] at parsed
  dsimp only at parsed
  obtain ⟨⟨outer, found⟩, read, parsed⟩ := bind_eq_ok.mp parsed
  dsimp only at parsed
  split at parsed
  · obtain ⟨_, _, parsed⟩ := bind_eq_ok.mp parsed
    obtain ⟨_, _, parsed⟩ := bind_eq_ok.mp parsed
    cases parsed
  · split at parsed
    · cases parsed
    next command known =>
      obtain ⟨⟨inner, _⟩, readInner, parsed⟩ := bind_eq_ok.mp parsed
      obtain ⟨inner', closed, parsed⟩ := bind_eq_ok.mp parsed
      obtain ⟨environment, around, parsed⟩ := bind_eq_ok.mp parsed
      split at parsed
      · obtain ⟨_, refused, _⟩ := bind_eq_ok.mp parsed
        cases refused
      · obtain ⟨outer', closedOuter, parsed⟩ := bind_eq_ok.mp parsed
        obtain ⟨outerEnvironment, aroundOuter, parsed⟩ := bind_eq_ok.mp parsed
        cases parsed
        have global : g.options ⊆ command.options ++ g.options := List.subset_append_right _ _
        have first := (Reading.Fits.read .start read).close closedOuter
        have second := (Reading.Fits.read .start readInner).close closed
        refine ⟨command, List.mem_of_find?_eq_some known, ?_⟩
        exact (((second.given.append (first.given.mono global)).append
          (readEnvironment_admitted around)).append
            ((readEnvironment_admitted aroundOuter).mono global)).append (standardValues_admitted _)

-- ---------------------------------------------------------------------------
-- Numbers
-- ---------------------------------------------------------------------------

/-- The option takes numbers below a bound, and its standard value is one. -/
def OptionSpec.isBelow (bound : Nat) (o : OptionSpec) : Bool :=
  match o.kind, o.standard with
  | some (.number b _), some (.number n) => b = bound && n < bound
  | _, _ => false

/-- A number that an option admits is below the bound of the option. -/
theorem OptionSpec.Admits.lt {o : OptionSpec} {bound n : Nat} (admits : o.Admits (.number n))
    (below : o.isBelow bound = true) : n < bound := by
  unfold OptionSpec.isBelow at below
  split at below
  next b signed standard takes given =>
    obtain ⟨rfl, standard_lt⟩ : b = bound ∧ standard < bound := by simpa using below
    cases admits with
    | spelled takes' read =>
      cases takes.symm.trans takes'
      unfold ValueKind.read at read
      dsimp only at read
      split at read
      · split at read
        · cases read
          assumption
        · cases read
      · cases read
    | standard given' =>
      cases given.symm.trans given'
      exact standard_lt
  · cases below

/-- A number that a command line gives keeps within the bound of its option. -/
theorem numberOf_lt {name : String} {bound : Nat} (admitted : Admitted options values)
    (below : ∀ o ∈ options, o.name = name → o.isBelow bound = true) (positive : 0 < bound) :
    Config.numberOf values name < bound := by
  unfold Config.numberOf
  split
  next n found =>
    obtain ⟨front, back, split, _⟩ := List.lookup_eq_some_iff.mp found
    obtain ⟨o, ho, named, admits⟩ := admitted (name, .number n) (by simp [split])
    exact admits.lt (below o ho named)
  · exact positive

/-- A number is written with a digit in front, not with a sign. -/
theorem head?_toString {c : Char} (sign : c.isDigit = false) (n : Nat) :
    (toString n).toList.head? ≠ some c := by
  have written : (toString n).toList = Nat.toDigits 10 n := Nat.toList_repr
  obtain ⟨d, ds, digits, digit⟩ := Text.exists_toDigits n
  rw [written, digits]
  rintro ⟨⟩
  cases sign.symm.trans digit

/-- The digits that write a number are read as that number. -/
theorem number?_toString (signed : Bool) (n : Nat) : number? signed (toString n) = some n := by
  have written : (toString n).toList = Nat.toDigits 10 n := Nat.toList_repr
  have read : digits? (toString n).toList = some n := by
    have all_digits : (Nat.toDigits 10 n).all Char.isDigit = true :=
      List.all_eq_true.mpr (Text.toDigits_isDigit n)
    have value : Nat.ofDigitChars 10 (Nat.toDigits 10 n) 0 = n := Nat.ofDigitChars_ten_toDigits
    have some_digits : Nat.toDigits 10 n ≠ [] := Nat.toDigits_ne_nil
    rw [written, digits?, if_pos (by simp [all_digits, some_digits])]
    exact congrArg some value
  unfold number?
  split
  next cs plus => exact absurd (by rw [plus]; rfl) (head?_toString rfl n)
  next cs minus => exact absurd (by rw [minus]; rfl) (head?_toString rfl n)
  · exact read

theorem read_number {bits n : Nat} (fits : n < Nat.pow 2 bits) :
    (Config.numberKind bits).read (toString n) = .ok (.number n) := by
  simp only [Config.numberKind, ValueKind.read, number?_toString, if_pos fits]

-- ---------------------------------------------------------------------------
-- Options with values
-- ---------------------------------------------------------------------------

/-- An option by its name, with the text that is given for it, and the value that the text spells. -/
structure Given where
  name : String
  text : String
  value : Value

/-- The text spells the value for an option that is known by the name, and neither looks like something else. -/
structure Given.Spelled (scope : Scope) (x : Given) : Prop where
  word : "--" ++ x.name ∉ scope.commands
  long : x.name.toList ≠ []
  plain : '=' ∉ x.name.toList
  value : x.text.toList.head? ≠ some '-'
  option : ∃ option kind, scope.options.find? (fun o => o.name = x.name) = some option ∧
    option.kind = some kind ∧ kind.read x.text = .ok x.value

def argumentsOf (given : List Given) : List String := given.flatMap fun x => ["--" ++ x.name, x.text]

/-- The values of options that are given. -/
def valuesOf (given : List Given) : Values := given.map fun x => (x.name, x.value)

section Given

variable {scope : Scope} {r r₁ : Reading} {option : OptionSpec} {kind : ValueKind}

/-- An option that takes a value waits for it, when the one before it is in order. -/
theorem Scope.read_option {name : String} (args : List String) (word : "--" ++ name ∉ scope.commands)
    (long : name.toList ≠ []) (plain : '=' ∉ name.toList)
    (known : scope.options.find? (fun o => o.name = name) = some option)
    (takes : option.kind = some kind) (closed : r.close = .ok r₁) :
    scope.read r (("--" ++ name) :: args) =
      scope.read { r₁ with last := some (option, none) } args := by
  have written : ("--" ++ name).toList = '-' :: '-' :: name.toList := by simp
  obtain ⟨c, cs, letters⟩ := List.exists_cons_of_ne_nil long
  have whole : (c :: cs).span (fun x => decide (x ≠ '=')) = (name.toList, []) := by
    have all_plain : ∀ x ∈ name.toList, decide (x ≠ '=') = true := fun x hx => by
      simpa using fun same : x = '=' => plain (same ▸ hx)
    rw [← letters, List.span_eq_takeWhile_dropWhile, List.takeWhile_eq_self_iff.mpr all_plain,
      List.dropWhile_eq_nil_iff.mpr all_plain]
  rw [Scope.read.eq_def]
  dsimp only
  rw [if_neg (by simp [word]), written, letters]
  simp only [whole]
  simp [Scope.readLong, known, takes, closed, bind, Except.bind, pure, Except.pure]

/-- A value that does not look like an option goes to the one that waits for it. -/
theorem Scope.read_value {text : String} (args : List String) (waits : r.last = some (option, none))
    (value : text.toList.head? ≠ some '-') :
    scope.read r (text :: args) = scope.read { r with last := some (option, some text) } args := by
  rw [Scope.read.eq_def]
  dsimp only
  rw [if_neg (by simp [Reading.isExpecting, waits])]
  split
  next dashes => simp [dashes] at value
  next dashes => simp [dashes] at value
  next dash => simp [dash] at value
  · simp only [waits]

theorem Reading.close_give {before : Values} {text : String} {v : Value} (takes : option.kind = some kind)
    (read : kind.read text = .ok v) (once : before.lookup option.name = none) :
    (Reading.mk before (some (option, some text))).close =
      .ok ⟨before ++ [(option.name, v)], none⟩ := by
  simp [Reading.close, takes, Reading.give, once, read, bind, Except.bind, pure, Except.pure]

/-- Options that are given once each are read with their values. -/
theorem Scope.read_given {given : List Given} {before : Values}
    (spelled : ∀ x ∈ given, x.Spelled scope)
    (once : (before.map Prod.fst ++ given.map Given.name).Nodup)
    (closed : r.close = .ok ⟨before, none⟩) :
    ∃ r', scope.read r (argumentsOf given) = .ok (r', none) ∧
      r'.close = .ok ⟨before ++ valuesOf given, none⟩ := by
  induction given generalizing before r with
  | nil => exact ⟨r, rfl, by simpa [valuesOf] using closed⟩
  | cons x given ih =>
    obtain ⟨word, long, plain, value, option, kind, known, takes, read⟩ := spelled x List.mem_cons_self
    have named : option.name = x.name := by simpa using List.find?_some known
    have fresh : before.lookup option.name = none := by
      refine List.lookup_eq_none_iff.mpr fun entry here => ?_
      have other := (List.nodup_append.mp once).2.2 entry.1 (List.mem_map_of_mem here) x.name (by simp)
      simpa [named] using Ne.symm other
    have step : scope.read r (argumentsOf (x :: given)) =
        scope.read ⟨before, some (option, some x.text)⟩ (argumentsOf given) := by
      rw [argumentsOf, List.flatMap_cons, ← argumentsOf, List.cons_append, List.cons_append,
        List.nil_append, Scope.read_option _ word long plain known takes closed,
        Scope.read_value _ rfl value]
    have later : ((before ++ [(option.name, x.value)]).map Prod.fst ++ given.map Given.name).Nodup := by
      simpa [named] using once
    obtain ⟨r', rest, ends⟩ := ih (fun y hy => spelled y (List.mem_cons_of_mem x hy)) later
      (Reading.close_give takes read fresh)
    refine ⟨r', step.trans rest, ends.trans ?_⟩
    simp [valuesOf, named]

theorem readEnvironment_none (before : Values) (options : List OptionSpec) :
    readEnvironment (fun _ => none) before options = .ok [] := by
  induction options with
  | nil => rfl
  | cons option options ih =>
    rw [readEnvironment]
    cases option.kind <;> cases option.envVar <;> simp [ih, bind, Except.bind, pure, Except.pure]

/-- A command with options that are given once each is accepted, with their values before the standard ones. -/
theorem parse_given {g : Grammar} {command : CommandSpec} {given : List Given}
    (known : g.commands.find? (fun c => c.name = command.name) = some command)
    (spelled : ∀ x ∈ given, x.Spelled ⟨command.options ++ g.options, []⟩)
    (once : (given.map Given.name).Nodup)
    (complete : ∀ o ∈ command.options ++ g.options, o.isRequired = true → o.name ∈ given.map Given.name) :
    parse g (fun _ => none) (command.name :: argumentsOf given) =
      .ok (command.name, valuesOf given ++ standardValues (command.options ++ g.options)) := by
  have named : (g.commands.map CommandSpec.name ++ ["help"]).contains command.name = true := by
    have there := List.mem_map_of_mem (f := CommandSpec.name) (List.mem_of_find?_eq_some known)
    simp [there]
  have outer : (Scope.mk g.options (g.commands.map CommandSpec.name ++ ["help"])).read .start
      (command.name :: argumentsOf given) = .ok (.start, some (command.name, argumentsOf given)) := by
    rw [Scope.read.eq_def]
    dsimp only
    rw [if_pos (by rw [named]; rfl)]
  have nothing : Reading.start.close = .ok ⟨[], none⟩ := rfl
  have names : (([] : Values).map Prod.fst ++ given.map Given.name).Nodup := once
  obtain ⟨r', inner, ends⟩ := Scope.read_given spelled names nothing
  rw [List.nil_append] at ends
  have present : (command.options ++ g.options).any (isMissing (valuesOf given)) = false := by
    refine List.any_eq_false.mpr fun o ho missing => ?_
    obtain ⟨required, absent⟩ : o.isRequired = true ∧ (valuesOf given).lookup o.name = none := by
      simpa [isMissing] using missing
    obtain ⟨x, hx, same⟩ := List.mem_map.mp (complete o ho required)
    have other := List.lookup_eq_none_iff.mp absent (x.name, x.value) (List.mem_map_of_mem hx)
    simp [same] at other
  rw [parse]
  dsimp only
  simp only [outer, known, inner, ends, nothing, readEnvironment_none, present, bind, Except.bind, pure,
    Except.pure, List.append_nil, Bool.false_eq_true, if_false]

end Given

end Rollout.CommandLine
