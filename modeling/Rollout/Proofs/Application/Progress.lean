-- SUMMARY: How far the runs are in each phase of an application, and that every act keeps it so.
import Rollout.Proofs.Application.Attendance
import Rollout.Proofs.Orchestrator.Admission

/-!
# Progress of an application

While an upgrade is applied there is the run of the upgrade, and after it was aborted there may be the run of the
downgrade that reverses it. Each of them is followed to its end, and goes as its conduct says. The request for the
downgrade is valid whenever it is made.
-/
namespace Rollout

namespace Application

/-- The policies that the directives of an application ask for. -/
theorem directives_policy (options : ApplyOptions) :
    (directives options false).policy none = .ok ⟨.upgrade, options.skipServiceChecks⟩ ∧
      ∀ id, (directives options true).policy (some id) =
        .ok ⟨.downgrade id, options.skipServiceChecks⟩ := by
  unfold directives
  cases options.skipServiceChecks
  · exact ⟨rfl, fun _ => rfl⟩
  · exact ⟨rfl, fun _ => rfl⟩

end Application

namespace Undertaking

open Orchestrator

variable {u : Undertaking} {o o' : Orchestrator} {turns turns' : List Turn} {turn : Turn} {i k : Nat}
  {id : RunId} {policy : Policy} {d : Driver} {r : Run} {phase : ApplyPhase}

/-- The policy of the upgrade. -/
def forth (u : Undertaking) : Policy := ⟨.upgrade, u.options.skipServiceChecks⟩

/-- The policy of the downgrade that reverses the upgrade. -/
def back (u : Undertaking) : Policy := ⟨.downgrade u.upgradeId, u.options.skipServiceChecks⟩

/-- The run at position `i` was created for the topology, and went as it should. -/
def Carries (u : Undertaking) (turns : List Turn) (i k : Nat) (id : RunId) (policy : Policy) (r : Run) :
    Prop :=
  k ≤ u.options.budget ∧ ∃ plan now, Plan.build u.topology policy = .ok plan ∧
    Conducted u.options.budget k (Run.create id plan policy now) (u.fresh.logbook i turns) r

theorem Carries.same (h : u.Carries turns i k id policy r)
    (log : u.fresh.logbook i turns' = u.fresh.logbook i turns) : u.Carries turns' i k id policy r := by
  obtain ⟨within, plan, now, built, conducted⟩ := h
  exact ⟨within, plan, now, built, log ▸ conducted⟩

theorem Carries.charter (h : u.Carries turns i k id policy r) :
    r.id = id ∧ r.policy = policy ∧ Plan.build u.topology policy = .ok r.plan := by
  obtain ⟨_, plan, now, built, conducted⟩ := h
  have kept := Run.after_charter (Run.create id plan policy now) (u.fresh.logbook i turns).calls
  rw [← conducted.run] at kept
  obtain ⟨same, plan_same, policy_same, _⟩ := Run.charter_eq_iff.mp kept
  exact ⟨same, policy_same, built.trans (congrArg Except.ok plan_same.symm)⟩

/-- How far the runs are in each phase of the application. -/
inductive Progress (u : Undertaking) (turns : List Turn) (o : Orchestrator) : ApplyPhase → Prop
  /-- The upgrade was refused. -/
  | refused {fault : Fault} (nothing : o.drivers = []) (refused : u.fresh.prepare u.topology
      (Application.directives u.options false) none = .error fault) : Progress u turns o (.failed fault)
  | upgrade {d : Driver} {k : Nat} {attendant : Attendant} (alone : o.drivers = [d])
      (forward : u.Carries turns 0 k u.upgradeId u.forth d.run)
      (attends : Attendant.Attends u.options.budget k o d attendant) : Progress u turns o (.upgrade attendant)
  | downgrade {d d' : Driver} {k k' : Nat} {attendant : Attendant} (both : o.drivers = [d, d'])
      (forward : u.Carries turns 0 k u.upgradeId u.forth d.run) (aborted : d.run.state = .aborted)
      (wanted : u.options.downgradeOnAbort = true)
      (backward : u.Carries turns 1 k' u.downgradeId u.back d'.run)
      (attends : Attendant.Attends u.options.budget k' o d' attendant) :
      Progress u turns o (.downgrade d.run attendant)
  /-- There is no downgrade. -/
  | finished {d : Driver} {k : Nat} (alone : o.drivers = [d])
      (forward : u.Carries turns 0 k u.upgradeId u.forth d.run) (archived : d.run.state.isTerminal = true)
      (unwanted : (d.run.state = .aborted && u.options.downgradeOnAbort) = false) :
      Progress u turns o (.done d.run)
  /-- The downgrade is archived too. -/
  | reversed {d d' : Driver} {k k' : Nat} (both : o.drivers = [d, d'])
      (forward : u.Carries turns 0 k u.upgradeId u.forth d.run) (aborted : d.run.state = .aborted)
      (wanted : u.options.downgradeOnAbort = true)
      (backward : u.Carries turns 1 k' u.downgradeId u.back d'.run)
      (archived : d'.run.state.isTerminal = true) : Progress u turns o (.done d.run)

/-- An inner turn keeps the progress. -/
theorem Progress.inner_turn (h : Progress u turns o phase) (sound : o.Sound) (kept : o.isDropped = false)
    (played : u.fresh.play? turns = some o) (inner : turn.isInner = true)
    (stepped : o.step? turn = some o') : Progress u (turns ++ [turn]) o' phase := by
  have log := logbook_snoc played stepped
  have idle {i : Nat} (idle : o.input? i turn = none) :
      u.fresh.logbook i (turns ++ [turn]) = u.fresh.logbook i turns := by
    rw [log, idle]
    exact List.append_nil _
  cases h with
  | refused nothing refused =>
    have archived : ∀ d ∈ o.drivers, d.run.state.isTerminal = true := by
      rw [nothing]
      exact List.forall_mem_nil _
    obtain ⟨drivers, _⟩ := sound.inner_of_archived archived inner stepped
    exact .refused (drivers.trans nothing) refused
  | @upgrade d k attendant alone forward attends =>
    obtain ⟨_, plan, now, built, conducted⟩ := forward
    have hd : o.drivers[0]? = some d := by rw [alone]; rfl
    have others : ∀ j d', o.drivers[j]? = some d' → j ≠ 0 → d'.run.state.isTerminal = true := by
      intro j d' hd' other
      have inside := (List.getElem?_eq_some_iff.mp hd').1
      simp [alone] at inside
      omega
    obtain ⟨k', d', drivers, attends', conducted', _⟩ :=
      attends.inner_turn sound kept hd others conducted inner stepped
    rw [← log] at conducted'
    exact .upgrade (by rw [drivers, alone]; rfl) ⟨attends'.le, plan, now, built, conducted'⟩ attends'
  | @downgrade d d₁ k k₁ attendant both forward aborted wanted backward attends =>
    obtain ⟨_, plan, now, built, conducted⟩ := backward
    have hd : o.drivers[1]? = some d₁ := by rw [both]; rfl
    have others : ∀ j d', o.drivers[j]? = some d' → j ≠ 1 → d'.run.state.isTerminal = true := by
      intro j d' hd' other
      rw [both] at hd'
      match j with
      | 0 =>
        cases hd'
        rw [aborted]
        rfl
      | 1 => exact absurd rfl other
      | j + 2 => simp at hd'
    obtain ⟨k', d', drivers, attends', conducted', others_idle⟩ :=
      attends.inner_turn sound kept hd others conducted inner stepped
    rw [← log] at conducted'
    exact .downgrade (by rw [drivers, both]; rfl) (forward.same (idle (others_idle 0 (by omega)))) aborted
      wanted ⟨attends'.le, plan, now, built, conducted'⟩ attends'
  | finished alone forward archived unwanted =>
    obtain ⟨drivers, all_idle⟩ := sound.inner_of_archived (by simpa [alone] using archived) inner stepped
    exact .finished (drivers.trans alone) (forward.same (idle (all_idle 0))) archived unwanted
  | reversed both forward aborted wanted backward archived =>
    obtain ⟨drivers, all_idle⟩ := sound.inner_of_archived
      (by simpa [both, aborted, RunState.isTerminal] using archived) inner stepped
    exact .reversed (drivers.trans both) (forward.same (idle (all_idle 0))) aborted wanted
      (backward.same (idle (all_idle 1))) archived

-- ---------------------------------------------------------------------------
-- Steps of the application
-- ---------------------------------------------------------------------------

/-- The request for the downgrade is valid once the upgrade was aborted. -/
theorem Carries.reversible (h : u.Carries turns 0 k u.upgradeId u.forth d.run) (published : o.Published)
    (hd : o.drivers[0]? = some d) (aborted : d.run.state = .aborted) :
    ∃ plan, Plan.build u.topology u.back = .ok plan ∧
      o.prepare u.topology (Application.directives u.options true) (some u.upgradeId) =
        .ok (u.back, plan) := by
  obtain ⟨named, policy, built⟩ := h.charter
  obtain ⟨plan, built'⟩ : ∃ plan, Plan.build u.topology u.back = .ok plan :=
    Plan.expand_isOk_iff.mpr (Plan.expand_isOk_iff.mp ⟨_, built⟩)
  have found := published.find_run hd
  have current := published.current d (List.mem_of_getElem? hd)
  have asked := (Application.directives_policy u.options).2
  refine ⟨plan, built', prepare_eq_ok_iff.mpr ⟨asked _, ?_, built'⟩⟩
  intro id reverses
  cases reverses
  rw [named] at found
  refine checkReference_eq_ok_iff.mpr ⟨0, d, ?_, ?_, ?_, ?_⟩
  · unfold find at found
    split at found
    next entry known =>
      cases found
      exact known
    · cases found
  · rw [current, policy]
    rfl
  · rw [current, aborted]
    rfl
  · rw [current, Plan.eq_along built]
    rfl

/-- The requests that a step of the application makes, which are accepted, are those for the runs that it
adds. -/
structure Asks (u : Undertaking) (o o' : Orchestrator) (turn? : Option Turn) : Prop where
  drivers : 0 < o.drivers.length
  requested : u.requests.take o'.drivers.length =
    u.requests.take o.drivers.length ++ (turn?.bind Turn.request?).toList
  accepted : turn?.bind o.commission? = turn?.bind Turn.request?

/-- An order is no request. -/
theorem asks_order (order? : Option Control) (id : RunId) (drivers : 0 < o.drivers.length)
    (length : o'.drivers.length = o.drivers.length) :
    u.Asks o o' (order?.map (.submit id)) := by
  refine ⟨drivers, ?_, ?_⟩ <;> cases order? <;> simp [length, Turn.request?, commission?]

/-- When the upgrade is archived, the downgrade is asked for and added, or the application is finished. -/
theorem Carries.followed {a a' : Application} (forward : u.Carries turns 0 k u.upgradeId u.forth d.run)
    (alone : o.drivers = [d]) (archived : d.run.state.isTerminal = true) (published : o.Published)
    (options : a.options = u.options) (topology : a.topology = u.topology)
    (downgradeId : a.downgradeId = u.downgradeId) (absent : u.fresh.logbook 1 turns = [])
    (logs : ∀ i, u.fresh.logbook i turns' = u.fresh.logbook i turns)
    (went : a.afterUpgrade d.run o = (o', a')) :
    Progress u turns' o' a'.phase ∧
      u.Asks o o' (if d.run.state = .aborted && a.options.downgradeOnAbort then
        some (.create a.downgradeId a.topology (Application.directives a.options true) (some d.run.id))
      else none) := by
  have some_drivers : 0 < o.drivers.length := by rw [alone]; exact Nat.one_pos
  rw [Application.afterUpgrade] at went
  rw [options, topology, downgradeId] at went ⊢
  cases wanted : d.run.state = .aborted && u.options.downgradeOnAbort with
  | false =>
    rw [wanted] at went
    cases went
    exact ⟨.finished alone (forward.same (logs 0)) archived wanted,
      asks_order none u.upgradeId some_drivers rfl⟩
  | true =>
    obtain ⟨aborted, on_abort⟩ := Bool.and_eq_true_iff.mp wanted
    have aborted : d.run.state = .aborted := of_decide_eq_true aborted
    have hd : o.drivers[0]? = some d := by rw [alone]; rfl
    obtain ⟨plan, built, prepared⟩ := forward.reversible published hd aborted
    have created : o.createRun u.downgradeId _ _ _ = _ := createRun_of_ok prepared
    rw [forward.charter.1] at went ⊢
    rw [wanted, if_pos rfl, created] at went
    cases went
    let new := Run.create u.downgradeId plan u.back o.wall
    have drivers : (o.addRun new).drivers = [d, ⟨new, new, [], false, false⟩] := by
      rw [addRun_drivers, alone]
      rfl
    have conducted : Conducted u.options.budget 0 new (u.fresh.logbook 1 turns') new := by
      rw [logs 1, absent]
      exact .new rfl
    refine ⟨.downgrade drivers (forward.same (logs 0)) aborted on_abort
      ⟨Nat.zero_le _, plan, o.wall, built, conducted⟩ ⟨rfl, Nat.zero_le _, .watching rfl rfl⟩,
      some_drivers, ?_, ?_⟩
    · rw [drivers, alone]
      rfl
    · simp [commission?, Turn.request?, created, Except.isOk, Except.toBool]

/-- While the upgrade is followed there is no run that the downgrade could be taken for. -/
theorem Progress.free {attendant : Attendant} (h : Progress u turns o (.upgrade attendant))
    (published : o.Published) (distinct : u.downgradeId ≠ u.upgradeId) :
    o.find? u.downgradeId = none := by
  cases h with
  | @upgrade d _ _ alone forward =>
    cases found : o.find? u.downgradeId with
    | none => rfl
    | some entry =>
      obtain ⟨j, d'⟩ := entry
      obtain ⟨hd', named⟩ := find?_eq found
      have same : d' = d := by
        have member := List.mem_of_getElem? hd'
        rw [alone] at member
        exact List.mem_singleton.mp member
      have current := published.current d (same ▸ List.mem_of_getElem? hd')
      rw [same, current, forward.charter.1] at named
      exact absurd named.symm distinct

/-- A step of the application keeps the progress, if it leaves the logbooks as they are. -/
theorem Progress.go {a a' : Application} (h : Progress u turns o a.phase) (published : o.Published)
    (booked : o.Booked) (automatic : u.options.onHold ≠ .wait) (options : a.options = u.options)
    (topology : a.topology = u.topology) (downgradeId : a.downgradeId = u.downgradeId)
    (absent : o.drivers[1]? = none → u.fresh.logbook 1 turns = [])
    (logs : ∀ i, u.fresh.logbook i turns' = u.fresh.logbook i turns)
    (stepped : a.step? o = some (o', a')) :
    Progress u turns' o' a'.phase ∧ u.Asks o o' (a.turn? o) := by
  generalize phase : a.phase = p at h
  cases h with
  | refused | finished | reversed =>
    simp only [Application.step?, phase, reduceCtorEq] at stepped
  | @upgrade d k attendant alone forward attends =>
    have hd : o.drivers[0]? = some d := by rw [alone]; rfl
    have some_drivers : 0 < o.drivers.length := by rw [alone]; exact Nat.one_pos
    obtain ⟨seen, archived⟩ | ⟨follows, fit⟩ := attends.over_or_at_work
    · simp only [Application.step?, phase, seen, Option.some.injEq] at stepped
      have asked : a.turn? o = if d.run.state = .aborted && a.options.downgradeOnAbort then
          some (.create a.downgradeId a.topology (Application.directives a.options true) (some d.run.id))
        else none := by
        simp only [Application.turn?, phase, seen]
      rw [asked]
      exact forward.followed (a := { a with reports := a.reports ++ [d.run], phase := .upgrade attendant })
        alone archived published options topology downgradeId (absent (by rw [alone]; rfl)) logs stepped
    · obtain ⟨same, turn⟩ := Application.step?_upgrade (o := o) phase follows fit
      obtain ⟨⟨o₁, attendant'⟩, went, made⟩ := Option.map_eq_some_iff.mp (same.symm.trans stepped)
      cases made
      rw [options] at went
      obtain ⟨d', drivers, run, attends'⟩ := attends.step published booked hd automatic went
      rw [turn]
      refine ⟨.upgrade (by rw [drivers, alone]; rfl) (run ▸ forward.same (logs 0)) attends', ?_⟩
      exact asks_order _ _ some_drivers (by rw [drivers, List.length_set])
  | @downgrade d d₁ k k₁ attendant both forward aborted wanted backward attends =>
    have hd : o.drivers[1]? = some d₁ := by rw [both]; rfl
    have some_drivers : 0 < o.drivers.length := by rw [both]; exact Nat.two_pos
    obtain ⟨seen, archived⟩ | ⟨follows, fit⟩ := attends.over_or_at_work
    · simp only [Application.step?, phase, seen] at stepped
      cases stepped
      have nobody : a.turn? o = none := by simp [Application.turn?, phase, Attendant.order?, seen]
      rw [nobody]
      exact ⟨.reversed both (forward.same (logs 0)) aborted wanted (backward.same (logs 1)) archived,
        asks_order none u.upgradeId some_drivers rfl⟩
    · obtain ⟨same, turn⟩ := Application.step?_downgrade (o := o) phase follows fit
      obtain ⟨⟨o₁, attendant'⟩, went, made⟩ := Option.map_eq_some_iff.mp (same.symm.trans stepped)
      cases made
      rw [options] at went
      obtain ⟨d', drivers, run, attends'⟩ := attends.step published booked hd automatic went
      rw [turn]
      refine ⟨.downgrade (by rw [drivers, both]; rfl) (forward.same (logs 0)) aborted wanted
        (run ▸ backward.same (logs 1)) attends', ?_⟩
      exact asks_order _ _ some_drivers (by rw [drivers, List.length_set])

/-- A turn at which no driver takes an input in, or no turn at all. -/
theorem taken_turn {turn? : Option Turn} (played : u.fresh.play? turns = some o) (kept : o.isDropped = false)
    (turned : match turn? with
      | none => o' = o
      | some turn => o.step? turn = some o')
    (idle : ∀ turn, turn? = some turn → (∀ i, o.input? i turn = none) ∧ turn ≠ .drop) :
    u.fresh.play? (turns ++ turn?.toList) = some o' ∧ o'.isDropped = false ∧
      (∀ i, u.fresh.logbook i (turns ++ turn?.toList) = u.fresh.logbook i turns) ∧
      u.fresh.commissions (turns ++ turn?.toList) =
        u.fresh.commissions turns ++ (turn?.bind o.commission?).toList := by
  cases turn? with
  | none =>
    cases turned
    simpa using ⟨played, kept⟩
  | some turn =>
    obtain ⟨unheard, other⟩ := idle turn rfl
    refine ⟨(play?_snoc played turn).trans turned, (isDropped_of_step other turned).trans kept, fun i => ?_,
      commissions_snoc played turned⟩
    rw [Option.toList_some, logbook_snoc played turned, unheard i]
    exact List.append_nil _

/-- An undertaking as it should be. -/
structure Underway (u : Undertaking) (s : Situation) : Prop where
  played : u.fresh.play? s.turns = some s.orchestrator
  kept : s.orchestrator.isDropped = false
  options : s.application.options = u.options
  topology : s.application.topology = u.topology
  downgradeId : s.application.downgradeId = u.downgradeId
  progress : Progress u s.turns s.orchestrator s.application.phase
  requested : s.turns.filterMap Turn.request? = u.requests.take (max 1 s.orchestrator.drivers.length)
  accepted : u.fresh.commissions s.turns = u.requests.take s.orchestrator.drivers.length

variable {s s' : Situation} {act : Situation.Act} {acts : List Situation.Act}

/-- A fresh orchestrator knows no run. -/
theorem fresh_create (u : Undertaking) :
    u.fresh.step? (.create u.upgradeId u.topology (Application.directives u.options false) none) =
      some (u.fresh.createRun u.upgradeId u.topology (Application.directives u.options false) none).1 := rfl

/-- After the request for the upgrade the undertaking is as it should be: it waits for a run, or it failed. -/
theorem begun_underway (u : Undertaking) : u.Underway u.begun := by
  have created := u.fresh_create
  have log (i : Nat) : u.fresh.logbook i u.begun.turns = [] := logbook_cons created i []
  have asked : u.begun.turns.filterMap Turn.request? = u.requests.take 1 := rfl
  have granted : u.fresh.commissions u.begun.turns = (u.fresh.commission? (.create u.upgradeId u.topology
      (Application.directives u.options false) none)).toList :=
    (commissions_cons created []).trans (List.append_nil _)
  have played : u.fresh.play? u.begun.turns = some
      (u.fresh.createRun u.upgradeId u.topology (Application.directives u.options false) none).1 := by
    rw [begun, play?, created]
    rfl
  cases prepared : u.fresh.prepare u.topology (Application.directives u.options false) none with
  | error fault =>
    have refused : u.fresh.createRun u.upgradeId _ _ _ = _ := createRun_of_error prepared
    have same : u.begun = ⟨u.begun.turns, u.fresh,
        ⟨u.options, u.topology, u.downgradeId, .failed fault, []⟩⟩ := by
      simp only [begun, Application.start, refused]
    rw [refused] at played
    rw [commission?, refused] at granted
    rw [same]
    exact ⟨played, rfl, rfl, rfl, rfl, .refused rfl prepared, asked, granted⟩
  | ok entry =>
    obtain ⟨policy, plan⟩ := entry
    obtain ⟨directed, _, built⟩ := prepare_eq_ok_iff.mp prepared
    cases ((Application.directives_policy u.options).1.symm.trans directed)
    have accepted : u.fresh.createRun u.upgradeId _ _ _ = _ := createRun_of_ok prepared
    let new := Run.create u.upgradeId plan u.forth u.wall
    have same : u.begun = ⟨u.begun.turns, u.fresh.addRun new,
        ⟨u.options, u.topology, u.downgradeId, .upgrade (.start u.upgradeId), []⟩⟩ := by
      simp only [begun, Application.start, accepted]
      rfl
    have conducted : Conducted u.options.budget 0 new (u.fresh.logbook 0 u.begun.turns) new := by
      rw [log 0]
      exact .new rfl
    rw [accepted] at played
    rw [commission?, accepted] at granted
    rw [same]
    exact ⟨played, rfl, rfl, rfl, rfl,
      .upgrade rfl ⟨Nat.zero_le _, plan, u.wall, built, conducted⟩
        ⟨rfl, Nat.zero_le _, .watching rfl rfl⟩, asked, granted⟩

/-- Whatever happens in between leaves an undertaking as it should be. -/
theorem Underway.inner_turn (h : u.Underway s) (inner : turn.isInner = true)
    (stepped : s.orchestrator.step? turn = some o') :
    u.Underway { s with turns := s.turns ++ [turn], orchestrator := o' } := by
  have sound := Sound.of_reachable ⟨u.wall, s.turns, h.played⟩
  have progress := h.progress.inner_turn sound h.kept h.played inner stepped
  have length : o'.drivers.length = s.orchestrator.drivers.length := by
    obtain ⟨_, drivers, _⟩ | ⟨_, _, _, _, _, takes⟩ := sound.inner_desks inner stepped
    · rw [drivers]
    · rw [takes.drivers, List.length_set]
  obtain ⟨unasked, ungranted⟩ : turn.request? = none ∧ s.orchestrator.commission? turn = none := by
    cases turn with
    | create | submit | drop => cases inner
    | engine | begin | event | control | hangUp => exact ⟨rfl, rfl⟩
  have stays : turn ≠ .drop := by
    rintro rfl
    cases inner
  refine ⟨(play?_snoc h.played turn).trans stepped, (isDropped_of_step stays stepped).trans h.kept,
    h.options, h.topology, h.downgradeId, progress, ?_, ?_⟩
  · simp [unasked, length, h.requested]
  · simp [commissions_snoc h.played stepped, ungranted, length, h.accepted]

/-- So does every step of the application. -/
theorem Underway.go (h : u.Underway s) (distinct : u.downgradeId ≠ u.upgradeId)
    (automatic : u.options.onHold ≠ .wait) {a' : Application}
    (stepped : s.application.step? s.orchestrator = some (o', a')) :
    u.Underway ⟨s.turns ++ (s.application.turn? s.orchestrator).toList, o', a'⟩ := by
  obtain ⟨turns, o, a⟩ := s
  obtain ⟨played, kept, options, topology, downgradeId, progress, requested, accepted⟩ := h
  dsimp only at played kept options topology downgradeId progress requested accepted stepped ⊢
  have reachable : o.Reachable u.settings := ⟨u.wall, turns, played⟩
  have published := Published.of_reachable reachable
  have free : ∀ attendant, a.phase = .upgrade attendant → o.find? a.downgradeId = none := by
    intro attendant phase
    rw [phase] at progress
    rw [downgradeId]
    exact progress.free published distinct
  have turned := Application.step?_turn stepped kept free
  have idle (turn : Turn) (asked : a.turn? o = some turn) := Application.turn?_idle asked
  obtain ⟨options', topology', downgradeId'⟩ := Application.step?_kept stepped
  have absent : o.drivers[1]? = none → u.fresh.logbook 1 turns = [] :=
    (start_sound u.settings u.wall).logbook_of_absent played
  obtain ⟨played', dropped', logs, commissions⟩ := taken_turn played kept turned idle
  obtain ⟨progress', some_drivers, requested', accepted'⟩ := progress.go published
    (Booked.of_reachable reachable) automatic options topology downgradeId absent logs stepped
  have few : 0 < o'.drivers.length := by
    have more := congrArg List.length requested'
    simp only [List.length_append, List.length_take] at more
    have two : u.requests.length = 2 := rfl
    omega
  refine ⟨played', dropped', options'.trans options, topology'.trans topology,
    downgradeId'.trans downgradeId, progress', ?_, ?_⟩
  · have one : (a.turn? o).toList.filterMap Turn.request? = ((a.turn? o).bind Turn.request?).toList := by
      cases a.turn? o with
      | none => rfl
      | some turn => cases asked : turn.request? <;> simp [asked]
    rw [Nat.max_eq_right few, requested', List.filterMap_append, requested, Nat.max_eq_right some_drivers,
      one]
  · rw [commissions, accepted, accepted', requested']

/-- An undertaking stays as it should be, whatever is played. -/
theorem Underway.play (h : u.Underway s) (distinct : u.downgradeId ≠ u.upgradeId)
    (automatic : u.options.onHold ≠ .wait) (played : s.play? acts = some s') : u.Underway s' := by
  induction acts generalizing s with
  | nil =>
    cases played
    exact h
  | cons act acts ih =>
    obtain ⟨s₁, acted, played⟩ := Option.bind_eq_some_iff.mp played
    refine ih ?_ played
    cases act with
    | turn turn =>
      rw [Situation.act?] at acted
      split at acted
      next inner =>
        obtain ⟨o', stepped, rfl⟩ := Option.map_eq_some_iff.mp acted
        exact h.inner_turn inner stepped
      · cases acted
    | go =>
      obtain ⟨⟨o', a'⟩, stepped, rfl⟩ := Option.map_eq_some_iff.mp acted
      exact h.go distinct automatic stepped

end Undertaking

end Rollout
