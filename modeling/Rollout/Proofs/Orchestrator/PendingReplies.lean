-- SUMMARY: Every command that was given to a driver waits or was answered, and exactly once.
import Mathlib.Data.List.Nodup
import Rollout.Proofs.Orchestrator.Logbook

/-!
# Pending replies

Clients are numbered in the order in which their commands are given to drivers. Each number waits at one
desk or belongs to one answer, so no command is taken twice and none is answered twice. No command waits at
the desk of a driver that is over.
-/
namespace Rollout

theorem Run.farewells_client (r : Run) (tickets : List Ticket) :
    (r.farewells tickets).map Answer.client =
      if r.state.isTerminal then (tickets.map Ticket.client).reverse else [] := by
  unfold farewells
  split
  · simp [Function.comp_def, farewell]
  · rfl

theorem Input.answer?_client (input : Input) (now : Timestamp) (before later : Run) :
    (input.answer? now before later).toList.map Answer.client =
      input.ticket?.toList.map Ticket.client := by
  cases input <;> rfl

theorem Driver.published_tickets (d : Driver) (r : Run) :
    (d.published r).tickets = if r.state.isTerminal then [] else d.tickets := by
  unfold published
  split <;> rfl

theorem Driver.published_tickets_subset (d : Driver) (r : Run) :
    (d.published r).tickets ⊆ d.tickets := by
  rw [published_tickets]
  split
  · exact List.nil_subset _
  · exact List.Subset.refl _

/-- The numbers of the clients whose commands were taken. -/
def Logbook.clients (log : Logbook) : List Nat :=
  log.filterMap fun (_, input) => input.ticket?.map Ticket.client

theorem Logbook.clients_cons (now : Timestamp) (input : Input) (log : Logbook) :
    Logbook.clients ((now, input) :: log) =
      input.ticket?.toList.map Ticket.client ++ log.clients := by
  cases input <;> rfl

namespace Orchestrator

/-- The numbers of the clients whose commands wait. -/
def waiting (o : Orchestrator) : List Nat := o.drivers.flatMap fun d => d.tickets.map Ticket.client

/-- The numbers of the clients that were answered. -/
def answered (o : Orchestrator) : List Nat := o.answers.map Answer.client

/-- Each command that was given to a driver waits or was answered, and none waits at a driver that is
over. -/
structure Booked (o : Orchestrator) : Prop where
  once : (o.waiting ++ o.answered).Perm (List.range o.clients)
  served : ∀ d ∈ o.drivers, d.isOver = true → d.tickets = []

variable {o o' o₁ : Orchestrator} {i : Nat} {d d' : Driver} {turn : Turn} {turns : List Turn}

theorem mem_waiting {t : Ticket} (hd : o.drivers[i]? = some d) (ht : t ∈ d.tickets) :
    t.client ∈ o.waiting :=
  List.mem_flatMap.mpr ⟨d, List.mem_of_getElem? hd, List.mem_map_of_mem ht⟩

/-- When one driver changes, the commands that wait at the other desks stay. -/
theorem waiting_set (hd : o.drivers[i]? = some d) (drivers : o'.drivers = o.drivers.set i d') :
    ∃ front back, o.waiting = front ++ d.tickets.map Ticket.client ++ back ∧
      o'.waiting = front ++ d'.tickets.map Ticket.client ++ back := by
  obtain ⟨front, back, before, after⟩ := Engine.set_split hd
  refine ⟨front.flatMap fun d => d.tickets.map Ticket.client,
    back.flatMap fun d => d.tickets.map Ticket.client, ?_, ?_⟩
  · rw [waiting, before, List.flatMap_append, List.flatMap_cons, List.append_assoc]
  · rw [waiting, drivers, after, List.flatMap_append, List.flatMap_cons, List.append_assoc]

namespace Booked

theorem start (settings : EngineSettings) (wall : Timestamp) :
    (Orchestrator.start settings wall).Booked where
  once := .refl _
  served := by simp [Orchestrator.start]

theorem take (h : o.Booked) {input : Input} {left : List Ticket} (t : Takes i o o' input d left) :
    (o'.waiting ++ o'.answered).Perm (List.range o'.clients) := by
  obtain ⟨front, back, before, after⟩ := waiting_set t.driver t.drivers
  have answered : o'.answered = _ := congrArg (List.map Answer.client) t.answers
  rw [List.map_append, List.map_append, Run.farewells_client, Input.answer?_client] at answered
  rw [Driver.published_tickets] at after
  refine (List.perm_iff_count.mpr fun n => ?_).trans (t.clients ▸ h.once)
  rw [before, after, answered, t.tickets]
  -- What left the desk was answered: the command that was taken, and all others when the driver ended.
  split <;> simp [List.count_append, Orchestrator.answered] <;> omega

/-- At every turn a client that waited goes on to wait, or is answered. -/
theorem step (h : o.Booked) (sound : o.Sound) (stepped : o.step? turn = some o') : o'.Booked := by
  cases sound.deskwork stepped with
  | quiet _ drivers answers clients =>
    refine ⟨?_, drivers ▸ h.served⟩
    rw [waiting, answered, drivers, answers, clients]
    exact h.once
  | opened _ drivers answers clients =>
    refine ⟨?_, fun d hd ended => ?_⟩
    · have waiting : o'.waiting = o.waiting := by
        rw [waiting, drivers, List.flatMap_append]
        exact List.append_nil _
      rw [waiting, answered, answers, clients]
      exact h.once
    · rw [drivers] at hd
      obtain hd | hd := List.mem_append.mp hd
      · exact h.served d hd ended
      · rw [List.mem_singleton.mp hd]
  | @given i d control _ driver going drivers answers clients =>
    refine ⟨?_, fun d' hd ended => ?_⟩
    · obtain ⟨front, back, before, after⟩ := waiting_set driver drivers
      rw [clients, List.range_succ]
      refine (List.perm_iff_count.mpr fun n => ?_).trans (h.once.append_right [o.clients])
      rw [before, after, answered, answered, answers]
      simp only [List.map_append, List.map_cons, List.map_nil, List.count_append]
      omega
    · rw [drivers] at hd
      obtain hd | rfl := List.mem_or_eq_of_mem_set hd
      · exact h.served d' hd ended
      · simp [going] at ended
  | @taken i _ d _ _ takes =>
    refine ⟨h.take takes, fun d' hd ended => ?_⟩
    rw [takes.drivers] at hd
    obtain hd | rfl := List.mem_or_eq_of_mem_set hd
    · exact h.served d' hd ended
    · have going : d.isOver = false :=
        (sound.closed d (List.mem_of_getElem? takes.driver)).trans takes.live
      rw [Driver.published_isOver (d := { d with tickets := _, hasBegun := true }) going] at ended
      rw [Driver.published_tickets, if_pos ended]

theorem of_reachable {settings : EngineSettings} (reachable : o.Reachable settings) : o.Booked := by
  have both : o.Sound ∧ o.Booked :=
    reachable.induction (P := fun o => o.Sound ∧ o.Booked)
      (fun wall => ⟨start_sound settings wall, start settings wall⟩)
      fun ⟨sound, booked⟩ stepped => ⟨sound.step stepped, booked.step sound stepped⟩
  exact both.2

-- ---------------------------------------------------------------------------
-- Numbers
-- ---------------------------------------------------------------------------

section Numbers

variable (h : o.Booked) {t : Ticket}
include h

theorem nodup : (o.waiting ++ o.answered).Nodup := h.once.nodup_iff.mpr List.nodup_range

theorem tickets_nodup (hd : o.drivers[i]? = some d) : (d.tickets.map Ticket.client).Nodup :=
  (List.nodup_flatMap.mp (List.nodup_append.mp h.nodup).1).1 d (List.mem_of_getElem? hd)

theorem client_lt (hd : o.drivers[i]? = some d) (ht : t ∈ d.tickets) : t.client < o.clients :=
  List.mem_range.mp (h.once.subset (List.mem_append_left _ (mem_waiting hd ht)))

/-- A command that waits has no answer. -/
theorem unanswered (hd : o.drivers[i]? = some d) (ht : t ∈ d.tickets) :
    o.answers.filter (fun a => a.client = t.client) = [] := by
  refine List.filter_eq_nil_iff.mpr fun a ha => ?_
  have different := (List.nodup_append.mp h.nodup).2.2 _ (mem_waiting hd ht) _ (List.mem_map_of_mem ha)
  simpa using Ne.symm different

/-- A command that has an answer has no other one. -/
theorem answered_once {a : Answer} (ha : a ∈ o.answers) :
    o.answers.filter (fun b => b.client = a.client) = [a] := by
  have nodup : (o.answers.map Answer.client).Nodup := (List.nodup_append.mp h.nodup).2.1
  obtain ⟨front, back, cut⟩ := List.append_of_mem ha
  simp only [cut, List.map_append, List.map_cons, List.nodup_append, List.nodup_cons] at nodup
  obtain ⟨_, ⟨no_later, _⟩, no_earlier⟩ := nodup
  have front_nil : front.filter (fun b => b.client = a.client) = [] := by
    refine List.filter_eq_nil_iff.mpr fun b hb => ?_
    simpa using no_earlier _ (List.mem_map_of_mem hb) _ List.mem_cons_self
  have back_nil : back.filter (fun b => b.client = a.client) = [] := by
    refine List.filter_eq_nil_iff.mpr fun b hb => ?_
    intro same
    exact no_later (of_decide_eq_true same ▸ List.mem_map_of_mem hb)
  rw [cut, List.filter_append, front_nil, List.filter_cons_of_pos (by simp), back_nil]
  rfl

end Numbers

end Booked

-- ---------------------------------------------------------------------------
-- Orders
-- ---------------------------------------------------------------------------

/-- A driver takes no command twice, and what it takes waits already or is given to it later. -/
theorem Reachable.orders {settings : EngineSettings} (reachable : o.Reachable settings)
    (hd : o.drivers[i]? = some d) (played : o.play? turns = some o') :
    (o.logbook i turns).clients.Nodup ∧ ∀ n ∈ (o.logbook i turns).clients,
      n < o'.clients ∧ (n ∈ d.tickets.map Ticket.client ∨ o.clients ≤ n) := by
  induction turns generalizing o d with
  | nil => simp [logbook, Logbook.clients]
  | cons turn turns ih =>
    obtain ⟨o₁, stepped, played⟩ := Option.bind_eq_some_iff.mp played
    have booked := Booked.of_reachable reachable
    have reachable₁ := reachable.step stepped
    have sound := Sound.of_reachable reachable
    obtain ⟨input, left, takes, log⟩ | ⟨log, given, numbers, hd₁⟩ := sound.logbook_turn hd stepped turns
    · obtain ⟨nodup, places⟩ := ih reachable₁ takes.driver_after played
      rw [log, Logbook.clients_cons]
      have once := booked.tickets_nodup hd
      rw [takes.tickets, List.map_append, List.nodup_append] at once
      obtain ⟨once, _, apart⟩ := once
      have later {n : Nat} (hn : n ∈ (o₁.logbook i turns).clients) :
          n < o'.clients ∧ (n ∈ left.map Ticket.client ∨ o.clients ≤ n) := by
        obtain ⟨below, waits⟩ := places n hn
        rw [takes.clients] at waits
        exact ⟨below, waits.imp_left fun waits =>
          List.map_subset _ (Driver.published_tickets_subset _ _) waits⟩
      have first {n : Nat} (hn : n ∈ input.ticket?.toList.map Ticket.client) : n < o.clients := by
        obtain ⟨t, ht, rfl⟩ := List.mem_map.mp hn
        exact booked.client_lt hd (takes.tickets ▸ List.mem_append_left _ ht)
      refine ⟨List.nodup_append.mpr ⟨once, nodup, fun a ha b hb same => ?_⟩, fun n hn => ?_⟩
      · obtain waits | fresh := (later hb).2
        · exact apart a ha b waits same
        · have := first ha
          omega
      · rw [takes.tickets, List.map_append]
        obtain taken | hn := List.mem_append.mp hn
        · have bound := ((Sound.of_reachable reachable₁).desk_grows played).2
          have := takes.clients
          have := first taken
          exact ⟨by omega, .inl (List.mem_append_left _ taken)⟩
        · obtain ⟨below, waits⟩ := later hn
          exact ⟨below, waits.imp_left (List.mem_append_right _)⟩
    · obtain ⟨nodup, places⟩ := ih reachable₁ hd₁ played
      rw [log]
      refine ⟨nodup, fun n hn => ?_⟩
      obtain ⟨below, waits | fresh⟩ := places n hn
      · rw [List.map_append] at waits
        refine ⟨below, (List.mem_append.mp waits).imp_right fun new => ?_⟩
        obtain ⟨t, ht, rfl⟩ := List.mem_map.mp new
        exact Nat.le_of_eq (numbers t ht).symm
      · exact ⟨below, .inr (Nat.le_trans (sound.deskwork stepped).clients fresh)⟩

end Orchestrator

end Rollout
