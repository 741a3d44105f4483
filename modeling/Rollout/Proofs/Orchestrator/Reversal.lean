-- SUMMARY: A reversal waits for the run that it reverses: each host ends the calls of the forward run first.
import Rollout.Proofs.Orchestrator.HostCalls
import Rollout.Proofs.Orchestrator.Request

/-!
# Reversals

A downgrade names the forward run that it reverses, and is refused unless that run is archived. So when
it is accepted the forward run winds down. A call that began before may still be in flight then, and a call that
was announced before may still begin. But its worker keeps the lock of the host, which all runs share, so the
first call of the downgrade to that host waits until the call has ended.
-/
namespace Rollout

namespace Orchestrator

variable {o o' : Orchestrator}

/-! ## Acceptance of a reversal -/

/-- The forward run is over from the moment that its reversal is accepted, and the reversal has a new
identifier. -/
theorem Published.created (h : o.Published) {reversal forward : RunId} {t : Topology}
    {directives : Directives} {reference : Option RunId} {policy : Policy}
    (asked : directives.policy reference = .ok policy)
    (reverses : policy.direction = .downgrade forward)
    (accepted : (o.createRun reversal t directives reference).2 = .ok reversal)
    (created : o.step? (.create reversal t directives reference) = some o') :
    (∀ d ∈ o.drivers, d.run.id ≠ reversal) ∧ o'.engine.history = o.engine.history ∧ forward ≠ reversal ∧
      ∃ (i : Nat) (d : Driver), o'.drivers[i]? = some d ∧ d.run.id = forward ∧ d.isOver = true := by
  obtain ⟨policy', plan, prepared, fresh, rfl⟩ := created_run accepted created
  obtain ⟨asked', checked, _⟩ := prepare_eq_ok_iff.mp prepared
  cases asked.symm.trans asked'
  obtain ⟨i, d, found, _, archived, _⟩ :=
    checkReference_eq_ok_iff.mp (checked forward (by rw [reverses]; rfl))
  obtain ⟨hd, named⟩ := find?_eq found
  have member := List.mem_of_getElem? hd
  have unknown : ∀ d ∈ o.drivers, d.run.id ≠ reversal := fun d' hd' same =>
    fresh_of_find? fresh d' hd' ((h.named d' hd').trans same)
  refine ⟨unknown, rfl, ?_, i, d, ?_, ?_, ?_⟩
  · exact named ▸ h.named d member ▸ unknown d member
  · rw [addRun_drivers, List.getElem?_append_left (List.getElem?_eq_some_iff.mp hd).1, hd]
  · rw [← h.named d member, named]
  · rw [h.closed d member, ← h.current d member, archived]

/-- On each host the calls of the forward run come before those of the reversal, also a call that a worker is
about to make. -/
structure Precedes (forward reversal : RunId) (o : Orchestrator) : Prop where
  waiting : ∀ k w x c, Engine.Sends o.engine k w x c → c.runId = forward → ∀ entry ∈ o.engine.history,
    ∀ k' c', entry.happening = .callBegan k' c' → c'.runId = reversal → entry.host ≠ w.host
  called : ∀ entry past k c, entry :: past <:+ o.engine.history → entry.happening = .callBegan k c →
    c.runId = forward → ∀ earlier ∈ past, ∀ k' c', earlier.happening = .callBegan k' c' →
    c'.runId = reversal → earlier.host ≠ entry.host

namespace Precedes

variable {forward reversal : RunId} {i : Nat} {d : Driver} {turn : Turn}

/-- As long as nobody called for the reversal the forward run precedes it. -/
theorem of_unknown (h : o.Recorded) (unknown : ∀ d ∈ o.drivers, d.run.id ≠ reversal)
    (history : o'.engine.history = o.engine.history) : Precedes forward reversal o' := by
  have none_yet : ∀ entry ∈ o'.engine.history, ∀ k c, entry.happening = .callBegan k c →
      c.runId ≠ reversal := by
    intro entry hentry k c call named
    obtain ⟨_, d, _, hd, run⟩ := h.served entry (history ▸ hentry) k c call
    exact unknown d (List.mem_of_getElem? hd) (run.trans named)
  refine ⟨fun _ _ _ _ _ _ entry hentry k c call named => absurd named (none_yet entry hentry k c call), ?_⟩
  intro entry past _ _ told _ _ earlier hearlier k c call named
  exact absurd named (none_yet earlier (told.subset (List.mem_cons_of_mem _ hearlier)) k c call)

/-- When the forward run is over it goes on preceding its reversal. A worker that is about to make a call has
the lock of the host, so no other one calls the host meanwhile. -/
theorem step (p : Precedes forward reversal o) (h : o.Recorded) (hd : o.drivers[i]? = some d)
    (mine : d.run.id = forward) (archived : d.isOver = true) (other : forward ≠ reversal)
    (stepped : o.step? turn = some o') : Precedes forward reversal o' := by
  have shift := h.shift stepped
  refine ⟨fun k w x c sends named entry hentry k' c' call reverses same => ?_, ?_⟩
  · obtain ⟨x, before, _⟩ | announces := h.sends_before shift sends
    · obtain ⟨front, past, split⟩ := List.append_of_mem hentry
      obtain old | ⟨w', x', sends', rfl, _⟩ := shift.growth.recorded call ⟨front, split.symm⟩
      · exact p.waiting k w x c before named entry (old.subset List.mem_cons_self) k' c' call reverses same
      · have one := h.guarded.one_sender before sends' same
        exact other (named.symm.trans (one ▸ reverses))
    · exact h.not_announced hd archived announces (named.trans mine.symm)
  · intro entry past k c told call named earlier hearlier k' c' call' reverses
    obtain old | ⟨w, x, sends, rfl, rfl⟩ := shift.growth.recorded call told
    · exact p.called entry past k c old call named earlier hearlier k' c' call' reverses
    · exact p.waiting k w x c sends named earlier hearlier k' c' call' reverses

/-- A call of the forward run lies in the past of each call of its reversal to the same host. -/
theorem mem_past (p : Precedes forward reversal o) (other : forward ≠ reversal) {entry earlier : Entry}
    {past before : List Entry} {k k' : Nat} {c c' : TaskCommand}
    (told : entry :: past <:+ o.engine.history) (call : entry.happening = .callBegan k c)
    (reverses : c.runId = reversal) (told' : earlier :: before <:+ o.engine.history)
    (call' : earlier.happening = .callBegan k' c') (named : c'.runId = forward)
    (same : entry.host = earlier.host) : earlier :: before <:+ past := by
  obtain first | first := List.suffix_or_suffix_of_suffix told' told
  · obtain here | later := List.suffix_cons_iff.mp first
    · cases here
      cases call.symm.trans call'
      exact absurd (named.symm.trans reverses) other
    · exact later
  · obtain here | later := List.suffix_cons_iff.mp first
    · cases here
      cases call.symm.trans call'
      exact absurd (named.symm.trans reverses) other
    · exact absurd same (p.called earlier before k' c' told' call' named entry
        (later.subset List.mem_cons_self) k c call reverses)

end Precedes

/-- A reversal never overtakes the run that it reverses. After it is accepted no call of the forward run begins,
except those that were announced before, at most one of each worker. And when a call of the reversal to a host
begins, each call of the forward run to that host, whenever it was made, lies in the past and has ended there. -/
theorem reversal_waits_for_forward_run {settings : EngineSettings} {o o₁ o₂ : Orchestrator}
    {reversal forward : RunId} {t : Topology} {directives : Directives} {reference : Option RunId}
    {policy : Policy} {turns : List Turn} (reachable : o.Reachable settings)
    (asked : directives.policy reference = .ok policy)
    (reverses : policy.direction = .downgrade forward)
    (accepted : (o.createRun reversal t directives reference).2 = .ok reversal)
    (created : o.step? (.create reversal t directives reference) = some o₁)
    (played : o₁.play? turns = some o₂) :
    (∃ (i : Nat) (d : Driver) (later : List Entry), o₁.drivers[i]? = some d ∧ d.run.id = forward ∧
      WindsDown i forward o₁ o₂ later) ∧
    ∀ host time time' worker worker' past before (c c' : TaskCommand), c.runId = reversal →
      c'.runId = forward →
      ⟨time, host, .callBegan worker c⟩ :: past <:+ o₂.engine.history →
      ⟨time', host, .callBegan worker' c'⟩ :: before <:+ o₂.engine.history →
      ∃ between, past = between ++ ⟨time', host, .callBegan worker' c'⟩ :: before ∧
        ∃ entry ∈ between, entry.EndsCall worker' := by
  have recorded := Recorded.of_reachable reachable
  obtain ⟨unknown, history₁, other, i, d, hd, named, archived⟩ :=
    recorded.created asked reverses accepted created
  have recorded₁ := recorded.step created
  obtain ⟨recorded₂, ⟨later, rests⟩, precedes⟩ : o₂.Recorded ∧ (∃ later, Rests i d.run o₁ o₂ later) ∧
      Precedes forward reversal o₂ := by
    refine play?_induction (P := fun o => o.Recorded ∧ (∃ later, Rests i d.run o₁ o later) ∧
      Precedes forward reversal o) ?_ played
      ⟨recorded₁, ⟨_, .refl hd archived⟩, .of_unknown recorded unknown history₁⟩
    rintro o o' turn ⟨h, ⟨_, rests⟩, precedes⟩ stepped
    obtain ⟨d', hd', same, isOver⟩ := rests.driver
    exact ⟨h.step stepped, rests.step recorded₁.toPublished h.toPublished stepped,
      precedes.step h hd' (same ▸ named) isOver other stepped⟩
  refine ⟨⟨i, d, later, hd, named, named ▸ rests.toWindsDown⟩, ?_⟩
  intro host time time' worker worker' past before c c' mine theirs hcall hcall'
  obtain ⟨between, split⟩ := precedes.mem_past other hcall rfl mine hcall' rfl theirs rfl
  refine ⟨between, split.symm, ?_⟩
  by_contra pending
  refine recorded₂.exclusive _ _ worker c rfl hcall worker' (split ▸
    Engine.inFlight_of_open fun entry hentry ends => pending ⟨entry, hentry, ends⟩)

/-- A client asks for the reversal of a run. -/
def callBack : Turn :=
  let topology : Topology :=
    ⟨"small", "1.0", "1.1", [⟨"db", false, [⟨"server", ["alpha", "beta"], false⟩]⟩]⟩
  .create (.ofNat 1) topology [("downgrade", "true")] (some (.ofNat 0))

/-- The run is aborted when its first command is announced and not sent yet. -/
def calledOff : List Turn := lateAbort ++ [.control 0]

/-- The command is sent while the reversal begins. Then its call ends, and the reversal calls the same host. -/
def takeOver : List Turn :=
  [.engine (.work 0), .begin 1, .engine (.work 2), .engine (.answer 0 2 none), .engine (.work 0),
    .engine (.work 0)] ++
  List.replicate 4 (.engine (.work 2)) ++
  [.engine (.supervise 1 "alpha"), .engine (.work 2), .engine (.supervise 1 "alpha"),
    .engine (.pong 1 "alpha" (some .epoch))] ++
  List.replicate 4 (.engine (.work 2))

theorem reversal_waits_for_forward_run_takeOver :
    ∃ o₁ o₂, (after calledOff).step? callBack = some o₁ ∧ o₁.play? takeOver = some o₂ ∧
      (∃ (i : Nat) (d : Driver) (later : List Entry), o₁.drivers[i]? = some d ∧ d.run.id = .ofNat 0 ∧
        WindsDown i (.ofNat 0) o₁ o₂ later) ∧
      ∃ c c' past between before, c.runId = .ofNat 1 ∧
        c'.runId = .ofNat 0 ∧ o₂.engine.history = ⟨0, "alpha", .callBegan 2 c⟩ :: past ∧
        past = between ++ ⟨0, "alpha", .callBegan 0 c'⟩ :: before ∧
        ∃ entry ∈ between, entry.EndsCall 0 := by
  have reachable : (after calledOff).Reachable .default := after_reachable (by decide +kernel)
  have possible : ((after calledOff).step? callBack).isSome = true := by decide +kernel
  have calls : (((after calledOff).step? callBack).bind fun o => o.play? takeOver).map (fun o =>
      (o.engine.history.head?, (o.engine.history.drop 4).head?)) =
      some (some ⟨0, "alpha", .callBegan 2 ⟨.ofNat 1, 0, "alpha", "db", "server", .stop, "1.1",
          .downgrade (.ofNat 0), 1⟩⟩,
        some ⟨0, "alpha", .callBegan 0 ⟨.ofNat 0, 0, "alpha", "db", "server", .stop, "1.0",
          .upgrade, 1⟩⟩) := by decide +kernel
  obtain ⟨o₁, created⟩ := Option.isSome_iff_exists.mp possible
  rw [created, Option.bind_some] at calls
  obtain ⟨o₂, played, both⟩ := Option.map_eq_some_iff.mp calls
  obtain ⟨first, fifth⟩ := Prod.mk.inj both
  obtain ⟨past, mine⟩ := List.head?_eq_some_iff.mp first
  obtain ⟨before, theirs⟩ := List.head?_eq_some_iff.mp fifth
  have mine_told : _ :: past <:+ o₂.engine.history := ⟨[], mine.symm⟩
  have theirs_told := theirs ▸ List.drop_suffix 4 o₂.engine.history
  have reversal : (⟨.downgrade (.ofNat 0), false⟩ : Policy).direction = .downgrade (.ofNat 0) := rfl
  obtain ⟨down, ended⟩ := reversal_waits_for_forward_run reachable (by decide +kernel) reversal
    (by decide +kernel) created played
  obtain ⟨between, split, ends⟩ := ended "alpha" 0 0 2 0 past before _ _ rfl rfl
    mine_told theirs_told
  exact ⟨o₁, o₂, created, played, down, _, _, past, between, before, rfl, rfl, mine, split, ends⟩

/-- The reversal is accepted, and only then the worker of the forward run sends the command that it announced. -/
theorem call_after_reversal :
    (after calledOff).Reachable .default ∧ ∃ o₁ o₂ d c, (after calledOff).step? callBack = some o₁ ∧
      o₁.drivers[1]? = some d ∧ d.run.policy.direction = .downgrade (.ofNat 0) ∧
      o₁.step? (.engine (.work 0)) = some o₂ ∧ c.runId = .ofNat 0 ∧
      o₂.engine.history = ⟨0, "alpha", .callBegan 0 c⟩ :: o₁.engine.history ∧
      ¬ SilentSince (.ofNat 0) o₁ o₂ := by
  let c : TaskCommand := ⟨.ofNat 0, 0, "alpha", "db", "server", .stop, "1.0", .upgrade, 1⟩
  have possible : ((after calledOff).step? callBack).bind (fun o₁ =>
      (o₁.step? (.engine (.work 0))).map fun o₂ =>
        (o₁.drivers[1]?.map fun d => d.run.policy.direction,
          decide (o₂.engine.history = ⟨0, "alpha", .callBegan 0 c⟩ :: o₁.engine.history))) =
      some (some (.downgrade (.ofNat 0)), true) := by decide +kernel
  obtain ⟨o₁, created, called⟩ := Option.bind_eq_some_iff.mp possible
  obtain ⟨o₂, worked, both⟩ := Option.map_eq_some_iff.mp called
  obtain ⟨added, history⟩ := Prod.mk.inj both
  obtain ⟨d, hd, direction⟩ := Option.map_eq_some_iff.mp added
  have history := of_decide_eq_true history
  exact ⟨after_reachable (by decide +kernel), o₁, o₂, d, c, created, hd, direction, worked, rfl, history,
    not_silentSince history⟩

end Orchestrator

end Rollout
