-- SUMMARY: Runs with drivers follow the graph of the lifecycle: a driver starts its run once.
import Rollout.Proofs.Orchestrator.Logbook
import Rollout.Proofs.Run.Lifecycle

/-!
# Lifecycles of driven runs

A run leaves the graph of its lifecycle only by a start that finds it begun. A driver starts its run when it
begins, and never again, and nobody else calls anything on the run. So every run of an orchestrator follows the
graph.
-/
namespace Rollout

theorem Input.call_eq_start_iff {input : Input} : input.call = .start ↔ input = .begin := by
  cases input with
  | begin => simp [Input.call]
  | order ticket => cases h : ticket.control <;> simp [Input.call, Control.call, h]
  | news | hangUp => simp [Input.call]

/-- Who does not begin does not start. -/
theorem Logbook.calls_ne_start {log : Logbook} (begun : ∀ entry ∈ log, entry.2 ≠ .begin) :
    ∀ c ∈ log.calls, c.2 ≠ .start := by
  intro c member
  obtain ⟨entry, hentry, made⟩ := List.mem_flatMap.mp member
  obtain rfl | rfl : c = (entry.1, entry.2.call) ∨ c = (entry.1, .step) := by simpa using made
  · exact fun starts => begun entry hentry (Input.call_eq_start_iff.mp starts)
  · exact Run.Call.noConfusion

/-- Without starts there are no restarts. -/
theorem Run.legs_restarts_eq_false {r : Run} {history : List (Timestamp × Call)}
    (others : ∀ c ∈ history, c.2 ≠ .start) : ∀ leg ∈ r.legs history, leg.restarts = false := by
  induction history generalizing r with
  | nil => exact List.forall_mem_nil _
  | cons c history ih =>
    obtain ⟨other, others⟩ := List.forall_mem_cons.mp others
    rw [legs]
    split
    · refine List.forall_mem_cons.mpr ⟨?_, ih others⟩
      simp [Leg.restarts, Leg.starts, other]
    · exact ih others

namespace Orchestrator

variable {o o' : Orchestrator} {i : Nat} {d : Driver} {turns : List Turn}

/-- What a driver calls from the beginning of its run has no restart. -/
theorem Sound.never_restarts (h : o.Sound) (hd : o.drivers[i]? = some d) (unbegun : d.hasBegun = false)
    (played : o.play? turns = some o') :
    ∀ leg ∈ d.run.legs (o.logbook i turns).calls, leg.restarts = false := by
  have pending := h.begun d (List.mem_of_getElem? hd) unbegun
  obtain empty | ⟨now, rest, log, begun⟩ := h.begins_first hd unbegun played
  · rw [empty]
    exact List.forall_mem_nil _
  · have others := Logbook.calls_ne_start begun
    have behind (r : Run) : ∀ leg ∈ r.legs ((now, .step) :: Logbook.calls rest), leg.restarts = false :=
      Run.legs_restarts_eq_false (List.forall_mem_cons.mpr ⟨Run.Call.noConfusion, others⟩)
    rw [log]
    change ∀ leg ∈ d.run.legs ((now, .start) :: (now, .step) :: Logbook.calls rest), leg.restarts = false
    rw [Run.legs]
    split
    · refine List.forall_mem_cons.mpr ⟨?_, behind _⟩
      simp [Run.Leg.restarts, pending]
    · exact behind _

/-- Every run of an orchestrator follows the graph of the lifecycle. Whatever happens after its request was
accepted, the accepted calls of its driver make a path along the graph from the pending state to the state
of the run. -/
theorem driven_runs_follow_the_lifecycle {settings : EngineSettings} {o₀ : Orchestrator} {id : RunId}
    {t : Topology} {directives : Directives} {reference : Option RunId} (reachable : o.Reachable settings)
    (accepted : (o.createRun id t directives reference).2 = .ok id)
    (created : o.step? (.create id t directives reference) = some o₀) (played : o₀.play? turns = some o') :
    ∃ d d', o₀.drivers[o.drivers.length]? = some d ∧ d.run.id = id ∧
      o'.drivers[o.drivers.length]? = some d' ∧
      Run.Path Run.Leads .pending (d.run.legs (o₀.logbook o.drivers.length turns).calls) d'.run.state := by
  have sound := Sound.of_reachable (reachable.step created)
  obtain ⟨policy, plan, _, _, rfl⟩ := created_run accepted created
  have hd := addRun_driver? (Run.create id plan policy o.wall) o
  obtain ⟨d', hd', run⟩ := sound.run_after hd played
  refine ⟨_, d', hd, rfl, hd', ?_⟩
  rw [run]
  exact (Run.legs_path _ _).leads_iff.mpr (sound.never_restarts hd rfl played)

end Orchestrator

end Rollout
