-- SUMMARY: Which accepted command lines give an engine that can be started: every interval and every number of hosts is accepted, not each can be used.
import Rollout.Engine.Basic
import Rollout.Proofs.Config.Values

/-!
# Engines that can be started

A supervisor waits for its first ping of the background from its start, and an executor hands out slots. The clocks
and the slots of the runtime take neither an interval of zero, nor a time that they cannot tell, nor more slots than
there can be. The number of hosts is at least one for that, but the interval is used as it is given, and a command
line with any number of 64 bits for either is accepted.
-/
namespace Rollout

/-- A clock: the time that it tells, and the latest time that it can tell. -/
structure Clock where
  now : Nat
  latest : Nat

/-- The most slots that there can be: the greatest number of 64 bits without the last three of them. -/
def mostSlots : Nat := (UInt64.size - 1) >>> 3

/-- Supervisors and executors with these settings can be started by a clock. -/
structure EngineSettings.IsSafeOn (clock : Clock) (s : EngineSettings) : Prop where
  interval : s.probe.intervalMs ≠ 0
  firstTick : ∀ host, (Supervisor.start s.probe host clock.now).nextTick ≤ clock.latest
  slots : ∀ registry, (Executor.fresh s.dispatch registry).slotCount ≤ mostSlots

theorem EngineSettings.isSafeOn_iff {clock : Clock} {s : EngineSettings} : s.IsSafeOn clock ↔
    s.probe.intervalMs ≠ 0 ∧ clock.now + s.probe.intervalMs ≤ clock.latest ∧
      s.dispatch.maxConcurrentHosts ≤ mostSlots := by
  constructor
  · rintro ⟨interval, firstTick, slots⟩
    exact ⟨interval, firstTick "", (Nat.le_max_right _ _).trans (slots 0)⟩
  · rintro ⟨interval, firstTick, slots⟩
    exact ⟨interval, fun _ => firstTick, fun _ => Nat.max_le.mpr ⟨by decide, slots⟩⟩

/-- The clock of a program begins with its start and counts seconds in 63 bits. -/
def Clock.ofProgram : Clock := ⟨0, 1000 * Nat.pow 2 63 - 1⟩

/-- A program tests whether its settings are safe on its clock. -/
theorem EngineSettings.isStartable_iff {s : EngineSettings} :
    s.isStartable = true ↔ s.IsSafeOn .ofProgram := by
  rw [isSafeOn_iff]
  simp only [isStartable, Clock.ofProgram, mostSlots, UInt64.size, Nat.pow_eq, Bool.and_eq_true, decide_eq_true_eq]
  omega

example : EngineSettings.default.isStartable = true := by decide

namespace Config

open CommandLine

variable {seconds hosts : Nat}

-- ---------------------------------------------------------------------------
-- What is accepted
-- ---------------------------------------------------------------------------

/-- The options for the interval and for the number of hosts take numbers of 64 bits, for every command. -/
theorem options_isBelow : ∀ command ∈ commands, ∀ o ∈ command.options ++ globalOptions,
    o.name = "ping-interval-seconds" ∨ o.name = "max-concurrent-hosts" →
      o.isBelow UInt64.size = true := by
  decide +kernel

theorem engine_of_parse {env : String → Option String} {args : List String} {c : Config}
    (accepted : Config.parse env args = .ok c) : ∃ seconds < UInt64.size, ∃ hosts < UInt64.size,
      c.engine.probe.intervalMs = 1000 * seconds ∧ c.engine.dispatch.maxConcurrentHosts = hosts := by
  obtain ⟨⟨name, values⟩, parsed, same⟩ := bind_eq_ok.mp accepted
  cases same
  obtain ⟨command, known, admitted⟩ := parse_admitted parsed
  have below (option : String)
      (which : option = "ping-interval-seconds" ∨ option = "max-concurrent-hosts") :
      numberOf values option < UInt64.size :=
    numberOf_lt admitted (fun o ho named => options_isBelow command known o ho (named ▸ which))
      (by decide)
  exact ⟨_, below _ (.inl rfl), _, below _ (.inr rfl), rfl, rfl⟩

def planCommand : CommandSpec :=
  ⟨"plan", [topologyOption, switch "downgrade", switch "skip-service-checks"]⟩

/-- The options of a plan with an interval and a number of hosts. -/
def planGiven (seconds hosts : Nat) : List Given :=
  [⟨"topology", "t.yaml", .text "t.yaml"⟩,
    ⟨"ping-interval-seconds", toString seconds, .number seconds⟩,
    ⟨"max-concurrent-hosts", toString hosts, .number hosts⟩]

theorem planGiven_spelled (hs : seconds < UInt64.size) (hh : hosts < UInt64.size) :
    ∀ x ∈ planGiven seconds hosts, x.Spelled ⟨planCommand.options ++ globalOptions, []⟩ := by
  have number (name envVar : String) (n standard : Nat) (small : n < UInt64.size) (long : name.toList ≠ [])
      (plain : '=' ∉ name.toList)
      (known : (planCommand.options ++ globalOptions).find? (fun o => o.name = name) =
        some (globalOption name envVar (numberKind 64) (.number standard))) :
      (⟨name, toString n, .number n⟩ : Given).Spelled ⟨planCommand.options ++ globalOptions, []⟩ :=
    ⟨List.not_mem_nil, long, plain, head?_toString rfl n, _, _, known, rfl, read_number small⟩
  intro x hx
  simp only [planGiven, List.mem_cons, List.not_mem_nil, or_false] at hx
  obtain rfl | rfl | rfl := hx
  · exact ⟨List.not_mem_nil, by decide, by decide, by decide, topologyOption, .path, by decide +kernel, rfl,
      by decide +kernel⟩
  · exact number _ "RUO_PING_INTERVAL_SECONDS" _ 30 hs (by decide) (by decide) (by decide +kernel)
  · exact number _ "RUO_MAX_CONCURRENT_HOSTS" _ 8 hh (by decide) (by decide) (by decide +kernel)

/-- Every interval and every number of hosts that 64 bits hold is accepted. -/
theorem parse_planGiven (hs : seconds < UInt64.size) (hh : hosts < UInt64.size) : ∃ c,
    Config.parse (fun _ => none) ("plan" :: argumentsOf (planGiven seconds hosts)) = .ok c ∧
      c.engine.probe.intervalMs = 1000 * seconds ∧ c.engine.dispatch.maxConcurrentHosts = hosts := by
  have known : grammar.commands.find? (fun c => c.name = planCommand.name) = some planCommand := by
    decide +kernel
  have complete : ∀ o ∈ planCommand.options ++ grammar.options, o.isRequired = true →
      o.name ∈ (planGiven seconds hosts).map Given.name := by
    show ∀ o ∈ planCommand.options ++ grammar.options, o.isRequired = true →
      o.name ∈ ["topology", "ping-interval-seconds", "max-concurrent-hosts"]
    decide +kernel
  have once : ((planGiven seconds hosts).map Given.name).Nodup := by
    show ["topology", "ping-interval-seconds", "max-concurrent-hosts"].Nodup
    decide
  have parsed := parse_given known (planGiven_spelled hs hh) once complete
  exact ⟨_, bind_eq_ok.mpr ⟨_, parsed, rfl⟩, rfl, rfl⟩

-- ---------------------------------------------------------------------------
-- What is safe
-- ---------------------------------------------------------------------------

/-- Of the engines that are accepted those are safe whose interval is not zero and ends while the clock can tell the
time, and that have no more hosts than there can be slots. A program starts an accepted engine just when it is safe on
the clock of the program. But command lines are accepted with every interval and every number of hosts, so with those
that are not safe as well. -/
theorem accepted_engine_is_safe_iff (clock : Clock) :
    (∀ env args c, Config.parse env args = .ok c → ∃ seconds < UInt64.size, ∃ hosts < UInt64.size,
      c.engine.probe.intervalMs = 1000 * seconds ∧ c.engine.dispatch.maxConcurrentHosts = hosts ∧
        (c.engine.IsSafeOn clock ↔
          seconds ≠ 0 ∧ clock.now + 1000 * seconds ≤ clock.latest ∧ hosts ≤ mostSlots) ∧
        (c.engine.isStartable = true ↔ c.engine.IsSafeOn .ofProgram)) ∧
      ∀ seconds < UInt64.size, ∀ hosts < UInt64.size, ∃ args c, Config.parse (fun _ => none) args = .ok c ∧
        c.engine.probe.intervalMs = 1000 * seconds ∧ c.engine.dispatch.maxConcurrentHosts = hosts := by
  refine ⟨fun env args c accepted => ?_, fun seconds hs hosts hh => ?_⟩
  · obtain ⟨seconds, hs, hosts, hh, interval, slots⟩ := engine_of_parse accepted
    refine ⟨seconds, hs, hosts, hh, interval, slots, ?_, EngineSettings.isStartable_iff⟩
    rw [EngineSettings.isSafeOn_iff, interval, slots]
    omega
  · obtain ⟨c, accepted, engine⟩ := parse_planGiven hs hh
    exact ⟨_, c, accepted, engine⟩

/-- An interval of zero is accepted for an upgrade, and no supervisor can be started with it. -/
theorem accepted_engine_is_not_safe : ∃ c,
    Config.parse (fun _ => none) ["apply", "--topology", "t.yaml", "--ping-interval-seconds", "0"] = .ok c ∧
      c.engine.probe.intervalMs = 0 ∧ ∀ clock, ¬ c.engine.IsSafeOn clock := by
  refine ⟨_, rfl, rfl, fun clock safe => safe.interval rfl⟩

end Config

end Rollout
