-- SUMMARY: One who follows a run: what it waits for is there, and its orders are those that the run needs.
import Rollout.Proofs.Application.Conduct
import Rollout.Proofs.Application.Undertaking
import Rollout.Proofs.Orchestrator.PendingReplies
import Rollout.Proofs.Orchestrator.Finality

/-!
# Attendances

One who follows a run watches it, waits for the answer to an order, or has seen its end. An order is given to a
run that holds, and nothing moves such a run but the order itself. So every order is accepted, each hold is
seen once, and the number of retries is known on both sides.
-/
namespace Rollout

namespace Attendant

/-- The order fits a run that was retried `k` times: it is retried once more, or it is aborted since it may not
be retried any more. -/
inductive Fits (budget k n : Nat) : Control → Prop
  | retry (once_more : n = k + 1) : Fits budget k n .retry
  | abort (stage : String) (same : n = k) (spent : k = budget) :
      Fits budget k n (.abort (holdReason stage))

/-- What one does who retried the run of a driver `n` times, of which the driver took `k` in. -/
inductive Watches (budget k : Nat) (o : Orchestrator) (d : Driver) (n : Nat) : Watch → Prop
  | watching (silent : d.tickets = []) (same : n = k) : Watches budget k o d n .watching
  /-- The order waits at the driver of the run, which holds. -/
  | waiting {control : Control} {client : Nat} (waits : d.tickets = [⟨client, control⟩])
      (holding : d.run.state = .holding) (fits : Fits budget k n control) :
      Watches budget k o d n (.asked control client)
  /-- The order was accepted. -/
  | answered {control : Control} {client : Nat} {r : Run} (silent : d.tickets = []) (same : n = k)
      (answer : o.answers.find? (fun a => a.client = client) = some ⟨client, .ok r⟩) :
      Watches budget k o d n (.asked control client)
  | ended (silent : d.tickets = []) (same : n = k) (archived : d.run.state.isTerminal = true) :
      Watches budget k o d n (.over d.run)

/-- One follows the run of a driver, within a budget of retries. -/
structure Attends (budget k : Nat) (o : Orchestrator) (d : Driver) (a : Attendant) : Prop where
  run : a.run = d.run.id
  within : a.retries.toNat ≤ budget
  watches : Watches budget k o d a.retries.toNat a.watch

open Orchestrator

variable {budget k n i : Nat} {o o' : Orchestrator} {d : Driver} {a a' : Attendant} {first : Run}
  {log : Logbook} {turn : Turn}

theorem Watches.same {watch : Watch} (h : Watches budget k o d n watch)
    (answers : o'.answers = o.answers) : Watches budget k o' d n watch := by
  cases h with
  | watching silent same => exact .watching silent same
  | waiting waits holding fits => exact .waiting waits holding fits
  | answered silent same answer => exact .answered silent same (by rw [answers]; exact answer)
  | ended silent same archived => exact .ended silent same archived

theorem Attends.le (h : Attends budget k o d a) : k ≤ budget := by
  have counted : k ≤ a.retries.toNat := by
    have watches := h.watches
    generalize a.watch = watch at watches
    cases watches with
    | watching _ same | answered _ same | ended _ same => exact Nat.le_of_eq same.symm
    | waiting _ _ fits =>
      cases fits with
      | retry once_more => omega
      | abort _ same => exact Nat.le_of_eq same.symm
  exact Nat.le_trans counted h.within

/-- Whoever follows a run has seen its end, or is at work and has not failed. -/
theorem Attends.over_or_at_work (h : Attends budget k o d a) :
    (a.watch = .over d.run ∧ d.run.state.isTerminal = true) ∨
      (∀ r, a.watch ≠ .over r) ∧ ∀ fault, a.watch ≠ .failed fault := by
  have watches := h.watches
  generalize a.watch = watch at watches ⊢
  cases watches with
  | ended _ _ archived => exact .inl ⟨rfl, archived⟩
  | watching | waiting | answered => exact .inr ⟨by simp, by simp⟩

theorem Attends.not_failed (h : Attends budget k o d a) (fault : Fault) : a.watch ≠ .failed fault := by
  obtain ⟨seen, _⟩ | ⟨_, fit⟩ := h.over_or_at_work
  · rw [seen]
    exact Watch.noConfusion
  · exact fit fault

-- ---------------------------------------------------------------------------
-- Turns of the driver
-- ---------------------------------------------------------------------------

/-- What a driver becomes that takes an input in. -/
abbrev taken (d : Driver) (left : List Ticket) (now : Timestamp) (input : Input) : Driver :=
  Driver.published { d with tickets := left, hasBegun := true } (d.run.taking now input)

/-- A driver at whose desk nothing waits begins its run or hears of a task. -/
theorem silent_take {input : Input} {left : List Ticket} (sound : o.Sound)
    (takes : Takes i o o' input d left) (silent : d.tickets = []) (stays : input ≠ .hangUp)
    (conducted : Conducted budget k first log d.run) :
    (taken d left o.wall input).tickets = [] ∧ o'.answers = o.answers ∧
      Conducted budget k first (log ++ [(o.wall, input)]) (taken d left o.wall input).run := by
  have desk := takes.tickets.symm.trans silent
  obtain ⟨_, rfl⟩ := List.append_eq_nil_iff.mp desk
  have tickets : (taken d [] o.wall input).tickets = [] := by
    rw [Driver.published_tickets]
    split <;> rfl
  have quiet : input.ticket? = none → o'.answers = o.answers := by
    intro nobody
    rw [takes.answers, Input.answer?, nobody]
    simp [Run.farewells]
  rw [Driver.published_run]
  cases input with
  | begin =>
    have pending := sound.begun d (List.mem_of_getElem? takes.driver) (takes.begins.mpr rfl)
    exact ⟨tickets, quiet rfl, conducted.begin pending⟩
  | news event => exact ⟨tickets, quiet rfl, conducted.news⟩
  | order ticket => cases desk
  | hangUp => exact absurd rfl stays

/-- A driver whose run holds takes the order that waits, or hears of a task. -/
theorem waiting_take {input : Input} {left : List Ticket} {control : Control} {client : Nat}
    (sound : o.Sound) (takes : Takes i o o' input d left) (waits : d.tickets = [⟨client, control⟩])
    (holding : d.run.state = .holding) (fits : Fits budget k n control) (stays : input ≠ .hangUp)
    (conducted : Conducted budget k first log d.run) :
    ∃ k', Conducted budget k' first (log ++ [(o.wall, input)]) (taken d left o.wall input).run ∧
      Watches budget k' o' (taken d left o.wall input) n (.asked control client) := by
  have desk := takes.tickets.symm.trans waits
  cases input with
  | begin =>
    have pending := sound.begun d (List.mem_of_getElem? takes.driver) (takes.begins.mpr rfl)
    cases pending.symm.trans holding
  | news event =>
    cases desk
    have still := Run.taking_news_of_holding event o.wall holding
    refine ⟨k, by rw [Driver.published_run]; exact conducted.news, .waiting ?_ ?_ fits⟩
    · rw [Driver.published_tickets, still]
      rfl
    · rw [Driver.published_run]
      exact still
  | order ticket =>
    cases desk
    have tickets : (taken d [] o.wall (.order ⟨client, control⟩)).tickets = [] := by
      rw [Driver.published_tickets]
      split <;> rfl
    have answered (accepted : (control.apply o.wall d.run).2 = .ok ()) :
        o'.answers.find? (fun a => a.client = client) =
          some ⟨client, .ok (d.run.taking o.wall (.order ⟨client, control⟩))⟩ := by
      rw [takes.answers, Input.answer?]
      simp [Run.farewells, Input.ticket?, accepted, Except.map]
    cases fits with
    | retry once_more =>
      have accepted : (Control.retry.apply o.wall d.run).2 = .ok () := by
        rw [Control.apply, Run.retry_of_holding holding]
        rfl
      refine ⟨k + 1, ?_, .answered tickets once_more (answered accepted)⟩
      rw [Driver.published_run]
      exact conducted.retry holding rfl
    | abort stage same spent =>
      subst spent
      have accepted : ((Control.abort (holdReason stage)).apply o.wall d.run).2 = .ok () := by
        rw [Control.apply, Run.abort_of_live (by rw [holding]; rfl)]
      refine ⟨k, ?_, .answered tickets same (answered accepted)⟩
      rw [Driver.published_run]
      exact (conducted.abort holding rfl).2
  | hangUp => exact absurd rfl stays

/-- At an inner turn one goes on following the run, if all other runs are archived. -/
theorem Attends.inner_turn (h : Attends budget k o d a) (sound : o.Sound) (kept : o.isDropped = false)
    (hd : o.drivers[i]? = some d)
    (others : ∀ j d', o.drivers[j]? = some d' → j ≠ i → d'.run.state.isTerminal = true)
    (conducted : Conducted budget k first log d.run) (inner : turn.isInner = true)
    (stepped : o.step? turn = some o') :
    ∃ k' d', o'.drivers = o.drivers.set i d' ∧ Attends budget k' o' d' a ∧
      Conducted budget k' first
        (log ++ ((o.input? i turn).map fun input => (o.wall, input)).toList) d'.run ∧
      ∀ j, j ≠ i → o.input? j turn = none := by
  obtain ⟨idle, drivers, answers⟩ | ⟨j, input, d₁, left, taken, takes⟩ := sound.inner_desks inner stepped
  · refine ⟨k, d, ?_, ⟨h.run, h.within, h.watches.same answers⟩, ?_, fun j _ => idle j⟩
    · rw [drivers, Engine.set_same hd]
    · rw [idle i]
      simpa using conducted
  -- The run that is followed is the only one that takes inputs in.
  have here : j = i := Decidable.of_not_not fun other => by
    have archived := others j d₁ takes.driver other
    rw [takes.live] at archived
    cases archived
  subst here
  cases takes.driver.symm.trans hd
  have stays : input ≠ .hangUp := by
    rintro rfl
    have dropped := isDropped_of_hangUp stepped taken
    rw [kept] at dropped
    cases dropped
  have id : (Attendant.taken d left o.wall input).run.id = d.run.id := by
    rw [Driver.published_run]
    exact Run.after_id d.run [(o.wall, input.call), (o.wall, .step)]
  have others_idle : ∀ j', j' ≠ j → o.input? j' turn = none := fun j' other => input?_of_ne taken other
  obtain ⟨k', conducted', watches'⟩ : ∃ k',
      Conducted budget k' first (log ++ [(o.wall, input)]) (Attendant.taken d left o.wall input).run ∧
      Watches budget k' o' (Attendant.taken d left o.wall input) a.retries.toNat a.watch := by
    have watches := h.watches
    generalize a.watch = watch at watches ⊢
    cases watches with
    | watching silent same =>
      obtain ⟨tickets, _, conducted'⟩ := silent_take sound takes silent stays conducted
      exact ⟨k, conducted', .watching tickets same⟩
    | waiting waits holding fits => exact waiting_take sound takes waits holding fits stays conducted
    | answered silent same answer =>
      obtain ⟨tickets, answers, conducted'⟩ := silent_take sound takes silent stays conducted
      exact ⟨k, conducted', .answered tickets same (by rw [answers]; exact answer)⟩
    | ended _ _ archived =>
      rw [takes.live] at archived
      cases archived
  rw [taken]
  exact ⟨k', _, takes.drivers, ⟨h.run.trans id.symm, h.within, watches'⟩, conducted', others_idle⟩

-- ---------------------------------------------------------------------------
-- Steps of the attendant
-- ---------------------------------------------------------------------------

theorem archived_of_settled {state : RunState} (settled : state.isSettled = true)
    (other : state ≠ .holding) : state.isTerminal = true := by
  cases state with
  | holding => exact absurd rfl other
  | completed | aborted => rfl
  | pending | running | suspended => cases settled

/-- Whoever waits for a run to settle reads it as it is. -/
theorem awaited?_of_driver (published : o.Published) (hd : o.drivers[i]? = some d) :
    o.awaited? d.run.id (fun r => r.state.isSettled) =
      .ok (if d.run.state.isSettled then some d.run else none) := by
  have member := List.mem_of_getElem? hd
  have closed := published.closed d member
  simp only [awaited?, published.find_run hd, published.current d member, bind, Except.bind, pure,
    Except.pure, closed]
  cases state : d.run.state <;> rfl

/-- An order to a live run is given to its driver. -/
theorem command_of_live (sound : o.Sound) (hd : o.drivers[i]? = some d) (run : a.run = d.run.id)
    (live : d.run.state.isTerminal = false) (control : Control) :
    a.command control o =
      ({ o with
          clients := o.clients + 1
          drivers := o.drivers.set i { d with tickets := d.tickets ++ [⟨o.clients, control⟩] } },
        { a with watch := .asked control o.clients }) := by
  have going : d.isOver = false := (sound.closed d (List.mem_of_getElem? hd)).trans live
  simp only [command, submit, run, sound.find_run hd, going, Bool.false_eq_true, if_false, modifyDriver,
    Engine.modify_eq_set hd]

/-- The order that is given to a run that holds fits. -/
theorem reacts {options : ApplyOptions} (automatic : options.onHold ≠ .wait) (r : Run) (o : Orchestrator)
    (within : a.retries.toNat ≤ options.budget) :
    ∃ control n, a.onHold options r o = { a with retries := n }.command control o ∧
      n.toNat ≤ options.budget ∧ Fits options.budget a.retries.toNat n.toNat control := by
  unfold onHold
  unfold ApplyOptions.budget at within ⊢
  cases onHold : options.onHold with
  | wait => exact absurd onHold automatic
  | abort =>
    rw [onHold] at within
    exact ⟨_, a.retries, rfl, within, .abort _ rfl (Nat.le_zero.mp within)⟩
  | retry =>
    rw [onHold] at within
    dsimp only
    by_cases left : a.retries < options.maxRunRetries
    · have more : (a.retries + 1).toNat = a.retries.toNat + 1 := by
        have := UInt32.lt_iff_toNat_lt.mp left
        have := options.maxRunRetries.toNat_lt
        rw [UInt32.toNat_add, UInt32.toNat_one, Nat.mod_eq_of_lt (by omega)]
      have room := UInt32.lt_iff_toNat_lt.mp left
      rw [if_pos left]
      exact ⟨_, a.retries + 1, rfl, by rw [more]; exact room, .retry more⟩
    · have spent : a.retries.toNat = options.maxRunRetries.toNat := by
        have := mt UInt32.lt_iff_toNat_lt.mpr left
        dsimp only at within
        omega
      rw [if_neg left]
      exact ⟨_, a.retries, rfl, within, .abort _ rfl spent⟩

/-- An attendant that goes on keeps following the run, or has seen its end. -/
theorem Attends.step {options : ApplyOptions} (h : Attends options.budget k o d a)
    (published : o.Published) (booked : o.Booked) (hd : o.drivers[i]? = some d)
    (automatic : options.onHold ≠ .wait) (stepped : a.step? options o = some (o', a')) :
    ∃ d', o'.drivers = o.drivers.set i d' ∧ d'.run = d.run ∧ Attends options.budget k o' d' a' := by
  have sound := published.toSound
  obtain ⟨run, within, watches⟩ := h
  have same : o.drivers = o.drivers.set i d := (Engine.set_same hd).symm
  unfold step? at stepped
  generalize watch : a.watch = w at watches stepped
  cases watches with
  | watching silent count =>
    simp only [run, awaited?_of_driver published hd] at stepped
    cases settled : d.run.state.isSettled with
    | false => simp [settled] at stepped
    | true =>
      simp only [settled, if_true] at stepped
      split at stepped
      next holding =>
        obtain ⟨control, n, reaction, within', fits⟩ := reacts automatic d.run o within
        have live : d.run.state.isTerminal = false := by rw [holding]; rfl
        rw [reaction, command_of_live (a := { a with retries := n }) sound hd run live] at stepped
        cases stepped
        rw [count] at fits
        refine ⟨_, rfl, rfl, run, within', .waiting ?_ holding fits⟩
        rw [silent]
        rfl
      next archived =>
        cases stepped
        exact ⟨d, same, rfl, rfl, within, .ended silent count (archived_of_settled settled archived)⟩
  | @waiting control client waits holding fits =>
    have unanswered : o.answers.find? (fun answer => answer.client = client) = none := by
      have waiting : ⟨client, control⟩ ∈ d.tickets := by
        rw [waits]
        exact List.mem_singleton_self _
      exact List.find?_eq_none.mpr (List.filter_eq_nil_iff.mp (booked.unanswered hd waiting))
    simp [unanswered] at stepped
  | answered silent count answer =>
    simp only [answer, Option.bind_eq_bind, Option.bind_some, pure, Option.some.injEq] at stepped
    cases stepped
    exact ⟨d, same, rfl, run, within, .watching silent count⟩
  | ended => cases stepped

/-- An attendant does not wait for anything once the run is archived. -/
theorem Attends.goes_on (h : Attends budget k o d a) (published : o.Published)
    (hd : o.drivers[i]? = some d) (archived : d.run.state.isTerminal = true)
    (follows : ∀ r, a.watch ≠ .over r) (options : ApplyOptions) : (a.step? options o).isSome = true := by
  obtain ⟨run, _, watches⟩ := h
  unfold step?
  generalize a.watch = watch at watches follows ⊢
  cases watches with
  | watching =>
    have settled : d.run.state.isSettled = true := by
      cases state : d.run.state with
      | holding | completed | aborted => rfl
      | pending | running | suspended =>
        rw [state] at archived
        cases archived
    simp only [run, awaited?_of_driver published hd, settled, if_true]
    split <;> rfl
  | waiting _ holding =>
    rw [holding] at archived
    cases archived
  | answered _ _ answer => simp [answer]
  | ended => exact absurd rfl (follows d.run)

end Attendant

end Rollout
