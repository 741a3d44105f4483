-- SUMMARY: Applying an upgrade among everything else that happens: each step of it is one turn of the orchestrator, or none.
import Rollout.Apply
import Rollout.Proofs.Orchestrator.Commission
import Rollout.Proofs.Orchestrator.InnerTurns

/-!
# Undertakings

An upgrade is applied by an orchestrator of its own. Engine and drivers take their turns in any order, and the
application goes on whenever it can, at once or later. Nobody else gives orders and nobody interrupts. Each step of
the application is one turn of the orchestrator, which is a request or an order, or it is no turn at all.
-/
namespace Rollout

/-- The request for a run that a turn is, accepted or not. -/
def Turn.request? : Turn → Option Commission
  | .create id t directives reference => some ⟨id, t, directives, reference⟩
  | .engine _ | .begin _ | .event _ | .control _ | .hangUp _ | .submit .. | .drop => none

/-- How often a run may be retried. -/
def ApplyOptions.budget (options : ApplyOptions) : Nat :=
  match options.onHold with
  | .retry => options.maxRunRetries.toNat
  | .wait | .abort => 0

namespace Attendant

variable {options : ApplyOptions} {o o' : Orchestrator} {a a' : Attendant}

/-- The order that an attendant gives to a run that holds. -/
def reaction? (options : ApplyOptions) (r : Run) (a : Attendant) : Option Control :=
  let giveUp := Control.abort (holdReason ((r.currentStage?.map Stage.name).getD "unknown"))
  match options.onHold with
  | .wait => none
  | .retry => some (if a.retries < options.maxRunRetries then .retry else giveUp)
  | .abort => some giveUp

/-- The order that an attendant gives when it goes on. -/
def order? (options : ApplyOptions) (o : Orchestrator) (a : Attendant) : Option Control :=
  match a.watch with
  | .watching => match o.awaited? a.run fun r => r.state.isSettled with
    | .ok (some r) => if r.state = .holding then a.reaction? options r else none
    | .ok none | .error _ => none
  | .held _ | .asked .. | .over _ | .failed _ => none

theorem command_orchestrator (control : Control) (o : Orchestrator) (a : Attendant) :
    (a.command control o).1 = (o.submit a.run control).1 := by
  unfold command
  dsimp only
  cases (o.submit a.run control).2 <;> rfl

/-- An attendant reacts to a run that holds by giving its order, if it has one. -/
theorem onHold_orchestrator (options : ApplyOptions) (r : Run) (o : Orchestrator) (a : Attendant) :
    (a.onHold options r o).1 = match a.reaction? options r with
      | none => o
      | some control => (o.submit a.run control).1 := by
  unfold onHold reaction?
  cases options.onHold with
  | wait => rfl
  | abort => exact command_orchestrator ..
  | retry =>
    dsimp only
    by_cases left : a.retries < options.maxRunRetries
    · rw [if_pos left, if_pos left]
      exact command_orchestrator ..
    · rw [if_neg left, if_neg left]
      exact command_orchestrator ..

/-- An attendant that goes on gives its order, and does nothing else to the orchestrator. -/
theorem step?_orchestrator (stepped : a.step? options o = some (o', a')) :
    o' = match a.order? options o with
      | none => o
      | some control => (o.submit a.run control).1 := by
  unfold step? at stepped
  unfold order?
  cases watch : a.watch with
  | watching =>
    simp only [watch] at stepped
    cases awaited : o.awaited? a.run fun r => r.state.isSettled with
    | error fault =>
      simp only [awaited] at stepped
      cases stepped
      rfl
    | ok settled =>
      cases settled with
      | none => simp only [awaited, reduceCtorEq] at stepped
      | some r =>
        simp only [awaited] at stepped
        dsimp only
        split at stepped
        next holding =>
          rw [if_pos holding, ← onHold_orchestrator, Option.some.inj stepped]
        next archived =>
          rw [if_neg archived]
          cases stepped
          rfl
  | asked control client =>
    simp only [watch] at stepped
    obtain ⟨answer, _, stepped⟩ := Option.bind_eq_some_iff.mp stepped
    cases stepped
    rfl
  | held | «over» | failed => simp only [watch, reduceCtorEq] at stepped

end Attendant

-- ---------------------------------------------------------------------------
-- Applications
-- ---------------------------------------------------------------------------

namespace Application

variable {o o' : Orchestrator} {a a' : Application}

/-- The turn that a step of the application is. -/
def turn? (o : Orchestrator) (a : Application) : Option Turn :=
  match a.phase with
  | .upgrade attendant => match attendant.watch with
    | .over r =>
      if r.state = .aborted && a.options.downgradeOnAbort then
        some (.create a.downgradeId a.topology (directives a.options true) (some r.id))
      else none
    | _ => (attendant.order? a.options o).map (.submit attendant.run)
  | .downgrade _ attendant => (attendant.order? a.options o).map (.submit attendant.run)
  | .done _ | .failed _ => none

/-- While its attendant follows the upgrade, the application does what the attendant does. -/
theorem step?_upgrade {attendant : Attendant} (phase : a.phase = .upgrade attendant)
    (follows : ∀ r, attendant.watch ≠ .over r) (fit : ∀ fault, attendant.watch ≠ .failed fault) :
    (a.step? o = (attendant.step? a.options o).map fun (o, attendant) =>
        (o, { a with phase := .upgrade attendant })) ∧
      a.turn? o = (attendant.order? a.options o).map (.submit attendant.run) := by
  cases watch : attendant.watch with
  | «over» r => exact absurd watch (follows r)
  | failed fault => exact absurd watch (fit fault)
  | watching | held | asked => simp only [step?, turn?, phase, watch, and_self]

theorem step?_downgrade {upgrade : Run} {attendant : Attendant}
    (phase : a.phase = .downgrade upgrade attendant) (follows : ∀ r, attendant.watch ≠ .over r)
    (fit : ∀ fault, attendant.watch ≠ .failed fault) :
    (a.step? o = (attendant.step? a.options o).map fun (o, attendant) =>
        (o, { a with phase := .downgrade upgrade attendant })) ∧
      a.turn? o = (attendant.order? a.options o).map (.submit attendant.run) := by
  cases watch : attendant.watch with
  | «over» r => exact absurd watch (follows r)
  | failed fault => exact absurd watch (fit fault)
  | watching | held | asked => simp only [step?, turn?, phase, watch, and_self]

/-- An upgrade that is archived is followed by the request for the downgrade, or by nothing. -/
theorem afterUpgrade_orchestrator (upgrade : Run) (o : Orchestrator) (a : Application) :
    (a.afterUpgrade upgrade o).1 =
      if upgrade.state = .aborted && a.options.downgradeOnAbort then
        (o.createRun a.downgradeId a.topology (directives a.options true) (some upgrade.id)).1
      else o := by
  unfold afterUpgrade
  split
  · dsimp only
    cases (o.createRun a.downgradeId a.topology (directives a.options true) (some upgrade.id)).2 <;> rfl
  · rfl

/-- A step of the application is one turn of the orchestrator, or none, as long as the identifier for the
downgrade is free while the upgrade is followed. -/
theorem step?_turn (stepped : a.step? o = some (o', a')) (kept : o.isDropped = false)
    (free : ∀ attendant, a.phase = .upgrade attendant → o.find? a.downgradeId = none) :
    match a.turn? o with
      | none => o' = o
      | some turn => o.step? turn = some o' := by
  have ordered {attendant attendant' : Attendant}
      (went : attendant.step? a.options o = some (o', attendant')) :
      match (attendant.order? a.options o).map (Turn.submit attendant.run) with
        | none => o' = o
        | some turn => o.step? turn = some o' := by
    have same := Attendant.step?_orchestrator went
    cases asked : attendant.order? a.options o with
    | none =>
      rw [asked] at same
      exact same
    | some control =>
      rw [asked] at same
      simp [Orchestrator.step?, kept, same]
  unfold step? at stepped
  unfold turn?
  cases phase : a.phase with
  | upgrade attendant =>
    simp only [phase] at stepped
    cases watch : attendant.watch with
    | «over» r =>
      simp only [watch, Option.some.injEq] at stepped ⊢
      have went := (congrArg Prod.fst stepped).symm.trans (afterUpgrade_orchestrator ..)
      cases reverses : r.state = .aborted && a.options.downgradeOnAbort with
      | false =>
        rw [reverses] at went
        exact went
      | true =>
        rw [reverses] at went
        rw [if_pos rfl] at went
        simp only [if_true, Orchestrator.step?, kept, free attendant phase]
        exact congrArg some went.symm
    | failed fault =>
      simp only [watch] at stepped ⊢
      cases stepped
      simp [Attendant.order?, watch]
    | watching | held | asked =>
      simp only [watch] at stepped ⊢
      obtain ⟨⟨o₁, attendant'⟩, went, same⟩ := Option.map_eq_some_iff.mp stepped
      cases same
      exact ordered went
  | downgrade upgrade attendant =>
    simp only [phase] at stepped
    cases watch : attendant.watch with
    | «over» r | failed fault =>
      simp only [watch] at stepped ⊢
      cases stepped
      simp [Attendant.order?, watch]
    | watching | held | asked =>
      simp only [watch] at stepped ⊢
      obtain ⟨⟨o₁, attendant'⟩, went, same⟩ := Option.map_eq_some_iff.mp stepped
      cases same
      exact ordered went
  | done | failed => simp only [phase, reduceCtorEq] at stepped

/-- A turn that an application takes is an order or a request: no driver takes an input in. -/
theorem turn?_idle {turn : Turn} (asked : a.turn? o = some turn) :
    (∀ i, o.input? i turn = none) ∧ turn ≠ .drop := by
  have ordered {attendant : Attendant}
      (ordered : (attendant.order? a.options o).map (Turn.submit attendant.run) = some turn) :
      (∀ i, o.input? i turn = none) ∧ turn ≠ .drop := by
    obtain ⟨_, _, rfl⟩ := Option.map_eq_some_iff.mp ordered
    exact ⟨fun _ => rfl, Turn.noConfusion⟩
  unfold turn? at asked
  split at asked
  · split at asked
    · split at asked
      · cases asked
        exact ⟨fun _ => rfl, Turn.noConfusion⟩
      · cases asked
    · exact ordered asked
  · exact ordered asked
  · cases asked
  · cases asked

/-- A step changes neither the options nor the topology nor the identifier for the downgrade. -/
theorem step?_kept (stepped : a.step? o = some (o', a')) :
    a'.options = a.options ∧ a'.topology = a.topology ∧ a'.downgradeId = a.downgradeId := by
  have followed (r : Run) (reports : List Run) :
      (({ a with reports := reports } : Application).afterUpgrade r o).2.options = a.options ∧
      (({ a with reports := reports } : Application).afterUpgrade r o).2.topology = a.topology ∧
      (({ a with reports := reports } : Application).afterUpgrade r o).2.downgradeId = a.downgradeId := by
    unfold afterUpgrade
    split
    · dsimp only
      split <;> exact ⟨rfl, rfl, rfl⟩
    · exact ⟨rfl, rfl, rfl⟩
  unfold step? at stepped
  split at stepped
  · split at stepped
    next r _ =>
      have kept := followed r (a.reports ++ [r])
      rw [Option.some.inj stepped] at kept
      exact kept
    · cases stepped
      exact ⟨rfl, rfl, rfl⟩
    · obtain ⟨_, _, same⟩ := Option.map_eq_some_iff.mp stepped
      cases same
      exact ⟨rfl, rfl, rfl⟩
  · split at stepped
    · cases stepped
      exact ⟨rfl, rfl, rfl⟩
    · cases stepped
      exact ⟨rfl, rfl, rfl⟩
    · obtain ⟨_, _, same⟩ := Option.map_eq_some_iff.mp stepped
      cases same
      exact ⟨rfl, rfl, rfl⟩
  · cases stepped
  · cases stepped

end Application

-- ---------------------------------------------------------------------------
-- Undertakings
-- ---------------------------------------------------------------------------

/-- What is undertaken: to apply an upgrade to a topology. -/
structure Undertaking where
  settings : EngineSettings
  wall : Timestamp
  options : ApplyOptions
  topology : Topology
  upgradeId : RunId
  downgradeId : RunId

/-- How far an undertaking is, and the turns that led there. -/
structure Situation where
  turns : List Turn
  orchestrator : Orchestrator
  application : Application

namespace Situation

/-- What may happen next. -/
inductive Act where
  /-- The engine or a driver takes a turn. -/
  | turn (turn : Turn)
  /-- The application goes on. -/
  | go
  deriving DecidableEq, Repr

/-- The situation after an act, if the act is possible. -/
def act? (s : Situation) : Act → Option Situation
  | .turn turn =>
    if turn.isInner then
      (s.orchestrator.step? turn).map fun o => { s with turns := s.turns ++ [turn], orchestrator := o }
    else none
  | .go => (s.application.step? s.orchestrator).map fun (o, a) =>
    ⟨s.turns ++ (s.application.turn? s.orchestrator).toList, o, a⟩

/-- The situation after a sequence of acts, if all of them are possible. -/
def play? : Situation → List Act → Option Situation
  | s, [] => some s
  | s, act :: acts => do (← s.act? act).play? acts

end Situation

namespace Undertaking

/-- The orchestrator at first. -/
def fresh (u : Undertaking) : Orchestrator := .start u.settings u.wall

/-- The request for the upgrade, and the one for the downgrade that reverses it. -/
def requests (u : Undertaking) : List Commission :=
  [⟨u.upgradeId, u.topology, Application.directives u.options false, none⟩,
    ⟨u.downgradeId, u.topology, Application.directives u.options true, some u.upgradeId⟩]

/-- The upgrade was asked for. -/
def begun (u : Undertaking) : Situation :=
  let (o, a) := Application.start u.options u.topology u.upgradeId u.downgradeId u.fresh
  ⟨[.create u.upgradeId u.topology (Application.directives u.options false) none], o, a⟩

end Undertaking

end Rollout
