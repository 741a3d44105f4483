-- SUMMARY: No run is ever stuck: while it is running someone works for it, and when it holds a retry hands out its failed tasks.
import Rollout.Proofs.Orchestrator.Finality
import Rollout.Proofs.Run.Holding

/-!
# Progress

A driver publishes its run right after a step. So a run that readers see running waits for a task that was
handed out, and by the account of the run someone is about to settle that task: a worker still holds its
command, or the news of its end are on their way to the driver.
-/
namespace Rollout.Orchestrator

variable {o : Orchestrator} {i : Nat} {d : Driver}

/-- Someone works for a task of the run at position `i`: a worker that is not gone holds its command, or
the news of its end wait for the driver. -/
def WorksOn (o : Orchestrator) (i : Nat) (c : TaskCommand) : Prop :=
  (∃ w ∈ o.engine.crew i, w.phase ≠ .gone ∧ c ∈ w.commands) ∨
    ∃ x, o.engine.executors[i]? = some x ∧ ∃ outcome, .finished c.taskId outcome ∈ x.channel

theorem Sound.worksOn (h : o.Sound) (hd : o.drivers[i]? = some d)
    (live : d.run.state.isTerminal = false) {t : Task} (ht : t ∈ d.run.tasks)
    (out : t.isOutstanding = true) : o.WorksOn i (d.run.command t) := by
  obtain ⟨x, hx⟩ := h.executor hd
  obtain ⟨_, account⟩ := h.agreed hd hx live
  exact (account.at_work ht out).imp_right fun told => ⟨x, hx, told⟩

/-- What drivers publish as running waits for a task that was handed out. -/
theorem Reachable.waits {settings : EngineSettings} (reachable : o.Reachable settings) :
    ∀ d ∈ o.drivers, d.run.Waits ∧ d.run.HandedOut :=
  reachable.run_induction (P := fun r => r.Waits ∧ r.HandedOut)
    (fun id plan policy now => ⟨Run.create_waits id plan policy now, .create id plan policy now⟩)
    fun now c ⟨_, handed_out⟩ => ⟨Run.step_waits _ now, (handed_out.call now c).call now .step⟩

/-- No run is ever stuck. Whatever happened to a run, if it is running after a step then the cursor is at a
stage of its plan, of which no task is pending and some task is outstanding. If it holds then the tasks of
its stage are over and some of them failed; a retry makes just these pending, which are as many as the
message says, and the next step hands out one command for each. And when readers see a run running, it
has an outstanding task for which someone works. -/
theorem no_run_is_stuck {settings : EngineSettings} {o : Orchestrator}
    (reachable : o.Reachable settings) :
    (∀ id plan policy created history now (r : Run),
      (((Run.create id plan policy created).after history).step now).1 = r → r.state = .running →
      (∃ s, r.currentStage? = some s) ∧ (∀ t ∈ r.stageTasks, t.status ≠ .pending) ∧
      ∃ t ∈ r.stageTasks, t.status = .queued ∨ t.status = .inProgress) ∧
    (∀ topology policy' id plan policy created history (r : Run),
      Plan.build topology policy' = .ok plan → (Run.create id plan policy created).after history = r →
      r.state = .holding →
      (∀ t ∈ r.stageTasks, t.status.isTerminal = true) ∧ 1 ≤ r.failures.length ∧
      (∃ s, r.currentStage? = some s ∧ r.message = some (Run.holdMessage s.name r.failures)) ∧
      ∀ now now', ∃ r', r.retry now = (r', .ok r.failures.length) ∧
        r'.tasks =
          (r.tasks.map fun t => if t.isAt r.cursor && t.status.isFailure then t.requeued else t) ∧
        (r'.step now').2 = .ok (r.failures.map fun t => r.command t.requeued)) ∧
    ∀ (i : Nat) (d : Driver), o.drivers[i]? = some d → d.snapshot.state = .running →
      ∃ t ∈ d.snapshot.stageTasks, t.isOutstanding = true ∧
        o.WorksOn i (d.snapshot.command t) := by
  refine ⟨?_, ?_, ?_⟩
  · rintro id plan policy created history now _ rfl running
    have handed_out := (Run.HandedOut.after id plan policy created history).call now .step
    obtain ⟨stage, sent, t, ht, out⟩ := (Run.step_waits _ now).outstanding handed_out running
    exact ⟨stage, sent, t, ht, by simpa [Task.isOutstanding] using out⟩
  · rintro topology policy' id plan policy created history _ built rfl holding
    have held := Run.held_after id plan policy created history holding
    have charter := Run.after_charter (Run.create id plan policy created) history
    have mirrors := (Run.create_mirrorsPlan id plan policy created).of_charter charter
    generalize (Run.create id plan policy created).after history = r at holding held charter mirrors
    have uniform : r.plan.IsUniform := by
      rw [(Run.charter_eq_iff.mp charter).2.1]
      exact Plan.build_isUniform built
    obtain ⟨t, ht⟩ := List.exists_mem_of_ne_nil _ held.failures_ne_nil
    obtain ⟨s, stage, _⟩ := Run.stage_of_staged mirrors uniform (List.mem_filter.mp ht).1
    have said := held.said
    rw [Run.blocking_eq_failures mirrors uniform held.blocked, stage] at said
    refine ⟨held.terminal, List.length_pos_of_mem ht, ⟨s, stage, said⟩, fun now now' => ?_⟩
    exact ⟨r.requeue now, Run.retry_of_holding holding, rfl, held.step_requeue mirrors now now'⟩
  · intro i d hd running
    have published := Published.of_reachable reachable
    have member := List.mem_of_getElem? hd
    rw [published.current d member] at running ⊢
    obtain ⟨waits, handed_out⟩ := reachable.waits d member
    obtain ⟨_, _, t, ht, out⟩ := waits.outstanding handed_out running
    have live : d.run.state.isTerminal = false := by rw [running]; rfl
    exact ⟨t, ht, out, published.worksOn hd live (Run.mem_stageTasks.mp ht).1 out⟩

/-- A component on two hosts. -/
def smallTopology : Topology :=
  ⟨"small", "1.0", "1.1", [⟨"db", false, [⟨"server", ["alpha", "beta"], false⟩]⟩]⟩

/-- The first stage is handed out, and the task of the first host fails. -/
def firstFailure : List (Timestamp × Run.Call) :=
  [(.epoch, .start), (.epoch, .step),
    (.epoch, .apply (.finished 0 (.failed (.hostUnreachable "alpha" 3) 0))),
    (.epoch, .apply (.finished 1 (.completed 0))), (.epoch, .step)]

theorem no_run_is_stuck_firstFailure :
    (after firstCall).Reachable .default ∧
    (∃ d, (after firstCall).drivers[0]? = some d ∧ d.snapshot.state = .running ∧
      ∃ t ∈ d.snapshot.stageTasks, t.isOutstanding = true ∧
        (after firstCall).WorksOn 0 (d.snapshot.command t)) ∧
    ∃ plan r, Plan.build smallTopology ⟨.upgrade, false⟩ = .ok plan ∧
      (Run.create (.ofNat 0) plan ⟨.upgrade, false⟩ .epoch).after firstFailure = r ∧
      r.state = .holding ∧ 1 ≤ r.failures.length ∧
      ∃ r', r.retry .epoch = (r', .ok r.failures.length) ∧
        (r'.step .epoch).2 = .ok (r.failures.map fun t => r.command t.requeued) := by
  have reachable : (after firstCall).Reachable .default := after_reachable (by decide +kernel)
  obtain ⟨_, held, working⟩ := no_run_is_stuck reachable
  have run : ((after firstCall).drivers[0]?).map (fun d => d.snapshot.state) = some .running := by
    decide +kernel
  obtain ⟨d, hd, running⟩ := Option.map_eq_some_iff.mp run
  have state : (Plan.build smallTopology ⟨.upgrade, false⟩).toOption.map (fun plan =>
      ((Run.create (.ofNat 0) plan ⟨.upgrade, false⟩ .epoch).after firstFailure).state) =
      some .holding := by decide +kernel
  obtain ⟨plan, built, holding⟩ := Option.map_eq_some_iff.mp state
  have built : Plan.build smallTopology ⟨.upgrade, false⟩ = .ok plan := by
    cases built' : Plan.build smallTopology ⟨.upgrade, false⟩ with
    | error fault => simp [built', Except.toOption] at built
    | ok plan' => simpa [built', Except.toOption] using built
  obtain ⟨_, some_failed, _, retried⟩ := held _ _ _ plan _ _ _ _ built rfl holding
  obtain ⟨r', answer, _, handed_out⟩ := retried .epoch .epoch
  exact ⟨reachable, ⟨d, hd, running, working 0 d hd running⟩, plan, _, built, rfl, holding,
    some_failed, r', answer, handed_out⟩

end Rollout.Orchestrator
