-- SUMMARY: The runs of an orchestrator are those of the requests that it accepted, in order.
import Mathlib.Data.List.Forall2
import Rollout.Proofs.Orchestrator.Finality
import Rollout.Proofs.Orchestrator.Request

/-!
# Accepted requests

No turn takes a run away or changes its charter, and only an accepted request adds a run. So the charters of an
orchestrator are, one by one, what the accepted requests of its history asked for.
-/
namespace Rollout

/-- A request for a run, with the identifier that the run is to have. -/
structure Commission where
  id : RunId
  topology : Topology
  directives : Directives
  reference : Option RunId
  deriving DecidableEq, Repr

/-- The charter is what a request asks for. -/
structure Run.Charter.Grants (c : Run.Charter) (q : Commission) : Prop where
  id : c.id = q.id
  policy : q.directives.policy q.reference = .ok c.policy
  plan : Plan.build q.topology c.policy = .ok c.plan

/-- Whoever has a charter for a plan of a topology has its name. -/
theorem Run.Charter.Grants.topology {c : Run.Charter} {q : Commission} (h : c.Grants q) :
    c.plan.topology = q.topology.name := by
  rw [Plan.eq_along h.plan]
  rfl

/-- A run goes forward just when its request references no other run. -/
theorem Run.Charter.Grants.forward_iff {c : Run.Charter} {q : Commission} (h : c.Grants q) :
    c.policy.isDowngrade = false ↔ q.reference = none := by
  obtain ⟨_, _, direction, _⟩ := Directives.policy_eq_ok_iff.mp h.policy
  rw [Policy.isDowngrade, direction]
  cases q.reference <;> simp [Direction.isDowngrade]

namespace Orchestrator

/-- The request of a turn, if it asks for a run and is accepted. -/
def commission? (o : Orchestrator) : Turn → Option Commission
  | .create id t directives reference =>
    if (o.createRun id t directives reference).2.isOk then some ⟨id, t, directives, reference⟩ else none
  | .engine _ | .begin _ | .event _ | .control _ | .hangUp _ | .submit .. | .drop => none

/-- The accepted requests of a sequence of turns, the oldest first. -/
def commissions : Orchestrator → List Turn → List Commission
  | _, [] => []
  | o, turn :: turns =>
    match o.step? turn with
    | none => []
    | some o' => (o.commission? turn).toList ++ commissions o' turns

/-- The charters of the runs, the oldest run first. -/
def charters (o : Orchestrator) : List Run.Charter := o.drivers.map fun d => d.run.charter

variable {o o' : Orchestrator} {i : Nat} {turn : Turn} {turns : List Turn} {past : List Commission}

theorem commissions_cons (stepped : o.step? turn = some o') (turns : List Turn) :
    o.commissions (turn :: turns) = (o.commission? turn).toList ++ o'.commissions turns := by
  rw [commissions, stepped]

-- ---------------------------------------------------------------------------
-- Turns
-- ---------------------------------------------------------------------------

/-- A driver keeps the charters of all runs. -/
theorem Driven.charters (driven : Driven i o o' turn) : o'.charters = o.charters := by
  obtain @⟨d, _, _, _, r₁, _, _, driver, _, _, _, intake, stepped, became⟩ := driven
  have charter := Run.step_charter r₁ o.wall
  rw [stepped] at charter
  rw [Orchestrator.charters, became.drivers, List.map_set, Driver.published_run, charter, intake.charter]
  exact Engine.set_same (by simp [driver])

theorem modifyDriver_charters {f : Driver → Driver} (same : ∀ d, (f d).run = d.run) :
    (o.modifyDriver i f).charters = o.charters := by
  refine List.ext_getElem? fun j => ?_
  simp only [charters, modifyDriver, List.getElem?_map, List.getElem?_modify]
  cases o.drivers[j]? with
  | none => rfl
  | some d => by_cases here : i = j <;> simp [here, same]

/-- A turn that creates no run keeps the charters. -/
theorem Sound.charters_of_other (h : o.Sound) (stepped : o.step? turn = some o')
    (other : ∀ id t directives reference, turn ≠ .create id t directives reference) :
    o'.charters = o.charters := by
  cases turn with
  | engine m =>
    obtain ⟨e, _, rfl⟩ := Option.map_eq_some_iff.mp stepped
    rfl
  | begin => exact (h.begin_driven stepped).charters
  | event => exact (h.event_driven stepped).charters
  | control => exact (h.control_driven stepped).charters
  | hangUp => exact (h.hangUp_driven stepped).charters
  | create id t directives reference => exact absurd rfl (other id t directives reference)
  | submit id c =>
    simp only [step?] at stepped
    split at stepped
    · cases stepped
    · cases stepped
      unfold submit
      split
      · rfl
      · split
        · rfl
        · exact modifyDriver_charters fun _ => rfl
  | drop =>
    cases stepped
    rfl

/-- An accepted request adds a run with its charter, and a refused one adds none. -/
theorem grants_create {id : RunId} {t : Topology} {directives : Directives} {reference : Option RunId}
    (granted : List.Forall₂ Run.Charter.Grants o.charters past)
    (stepped : o.step? (.create id t directives reference) = some o') :
    List.Forall₂ Run.Charter.Grants o'.charters
      (past ++ (o.commission? (.create id t directives reference)).toList) := by
  simp only [step?] at stepped
  split at stepped
  · cases stepped
  · cases stepped
    rw [commission?, createRun]
    cases prepared : o.prepare t directives reference with
    | error fault => simpa [Except.isOk, Except.toBool] using granted
    | ok entry =>
      obtain ⟨policy, plan⟩ := entry
      obtain ⟨asked, _, built⟩ := prepare_eq_ok_iff.mp prepared
      have new : (Run.create id plan policy o.wall).charter.Grants ⟨id, t, directives, reference⟩ :=
        ⟨rfl, asked, built⟩
      have added : (o.addRun (Run.create id plan policy o.wall)).charters =
          o.charters ++ [(Run.create id plan policy o.wall).charter] := by
        rw [charters, addRun_drivers, List.map_append]
        rfl
      dsimp only
      rw [added]
      exact List.rel_append granted (.cons new .nil)

theorem Sound.grants (h : o.Sound) (granted : List.Forall₂ Run.Charter.Grants o.charters past)
    (stepped : o.step? turn = some o') :
    List.Forall₂ Run.Charter.Grants o'.charters (past ++ (o.commission? turn).toList) := by
  cases turn with
  | create => exact grants_create granted stepped
  | engine | begin | event | control | hangUp | submit | drop =>
    rw [h.charters_of_other stepped (by simp)]
    simpa [commission?] using granted

-- ---------------------------------------------------------------------------
-- Histories
-- ---------------------------------------------------------------------------

theorem Sound.grants_commissions (h : o.Sound)
    (granted : List.Forall₂ Run.Charter.Grants o.charters past) (played : o.play? turns = some o') :
    List.Forall₂ Run.Charter.Grants o'.charters (past ++ o.commissions turns) := by
  induction turns generalizing o past with
  | nil =>
    cases played
    rwa [commissions, List.append_nil]
  | cons turn turns ih =>
    obtain ⟨o₁, stepped, played⟩ := Option.bind_eq_some_iff.mp played
    rw [commissions_cons stepped, ← List.append_assoc]
    exact ih (h.step stepped) (h.grants granted stepped) played

/-- The charters of an orchestrator are those that the accepted requests of its history asked for. -/
theorem grants_commissions {settings : EngineSettings} {wall : Timestamp}
    (played : (start settings wall).play? turns = some o) :
    List.Forall₂ Run.Charter.Grants o.charters ((start settings wall).commissions turns) :=
  (start_sound settings wall).grants_commissions .nil played

theorem commissions_snoc {o₁ : Orchestrator} (played : o.play? turns = some o₁)
    (stepped : o₁.step? turn = some o') :
    o.commissions (turns ++ [turn]) = o.commissions turns ++ (o₁.commission? turn).toList := by
  induction turns generalizing o with
  | nil =>
    cases played
    rw [List.nil_append, commissions_cons stepped]
    simp [commissions]
  | cons first turns ih =>
    obtain ⟨o₂, stepped₁, played⟩ := Option.bind_eq_some_iff.mp played
    rw [List.cons_append, commissions_cons stepped₁, commissions_cons stepped₁, ih played,
      List.append_assoc]

/-- What is related to the elements of a list one by one are related elements. -/
theorem exists_of_forall₂ {α β : Type} {R : α → β → Prop} {as : List α} {bs : List β}
    (related : List.Forall₂ R as bs) :
    (∀ a ∈ as, ∃ b ∈ bs, R a b) ∧ ∀ b ∈ bs, ∃ a ∈ as, R a b := by
  induction related with
  | nil => simp
  | cons first _ ih =>
    refine ⟨List.forall_mem_cons.mpr ⟨⟨_, List.mem_cons_self, first⟩, fun a ha => ?_⟩,
      List.forall_mem_cons.mpr ⟨⟨_, List.mem_cons_self, first⟩, fun b hb => ?_⟩⟩
    · obtain ⟨b, hb, rel⟩ := ih.1 a ha
      exact ⟨b, List.mem_cons_of_mem _ hb, rel⟩
    · obtain ⟨a, ha, rel⟩ := ih.2 b hb
      exact ⟨a, List.mem_cons_of_mem _ ha, rel⟩

variable {settings : EngineSettings} {wall : Timestamp} {q : Commission} {id : RunId} {r : Run}

theorem getRun_eq_ok_iff : o.getRun id = .ok r ↔ ∃ i d, o.find? id = some (i, d) ∧ d.snapshot = r := by
  unfold getRun find
  cases found : o.find? id with
  | none => simp [bind, Except.bind]
  | some entry =>
    obtain ⟨i, d⟩ := entry
    simp [bind, Except.bind, pure, Except.pure]

/-- Every run that can be read was asked for by an accepted request. -/
theorem commission_of_read (played : (start settings wall).play? turns = some o)
    (read : o.getRun id = .ok r) :
    ∃ q ∈ (start settings wall).commissions turns, q.id = id ∧ r.charter.Grants q := by
  obtain ⟨i, d, found, rfl⟩ := getRun_eq_ok_iff.mp read
  obtain ⟨hd, named⟩ := find?_eq found
  have member := List.mem_of_getElem? hd
  obtain ⟨q, accepted, grants⟩ :=
    (exists_of_forall₂ (grants_commissions played)).1 _ (List.mem_map_of_mem member)
  rw [(Published.of_reachable ⟨wall, turns, played⟩).current d member] at named ⊢
  exact ⟨q, accepted, grants.id.symm.trans named, grants⟩

/-- What is read of the run of an accepted request has the charter that the request asked for. -/
theorem grants_of_read (played : (start settings wall).play? turns = some o)
    (accepted : q ∈ (start settings wall).commissions turns) (read : o.getRun q.id = .ok r) :
    r.charter.Grants q := by
  have published := Published.of_reachable ⟨wall, turns, played⟩
  obtain ⟨c, hc, grants⟩ := (exists_of_forall₂ (grants_commissions played)).2 q accepted
  obtain ⟨d, member, rfl⟩ := List.mem_map.mp hc
  obtain ⟨i, hd⟩ := List.mem_iff_getElem?.mp member
  have id : d.run.id = q.id := grants.id
  have found := published.find_run hd
  rw [id] at found
  rw [getRun, found] at read
  cases read
  rw [published.current d member]
  exact grants

end Orchestrator

end Rollout
