-- SUMMARY: The program applies an upgrade by acts of an undertaking: its rehearsals take inner turns only.
import Rollout.Proofs.Application.Outcome

/-!
# Rehearsed undertakings

The program applies an upgrade within a rehearsal, which plays the orchestrator in one definite order. Whatever a
rehearsal does by itself are inner turns, for any agents. As nobody waits for the operator, the operator has no
say. So what the program does is one of the ways in which the undertaking may go.
-/
namespace Rollout

/-- The engine and the drivers lead from one orchestrator to another. -/
def Orchestrator.Inside : Orchestrator → Orchestrator → Prop :=
  Relation.ReflTransGen fun o o' => ∃ turn, turn.isInner = true ∧ o.step? turn = some o'

namespace Rehearsal

open Orchestrator (Inside)

variable {r r' : Rehearsal}

theorem turn?_inside {turn : Turn} (inner : turn.isInner = true) (taken : r.turn? turn = some r') :
    Inside r.orchestrator r'.orchestrator := by
  obtain ⟨o, stepped, rfl⟩ := Option.map_eq_some_iff.mp taken
  exact .single ⟨turn, inner, stepped⟩

theorem move_inside (m : Move) (r : Rehearsal) : Inside r.orchestrator (r.move m).orchestrator := by
  unfold move
  cases taken : r.turn? (.engine m) with
  | none => exact .refl
  | some r' => exact turn?_inside rfl taken

theorem schedule_inside (m : Move) (delay : Nat) (r : Rehearsal) :
    Inside r.orchestrator (r.schedule m delay).orchestrator := by
  unfold schedule
  split
  · exact move_inside m r
  · exact .refl

theorem attend_inside (position : Nat) (entry : Entry) (r : Rehearsal) :
    Inside r.orchestrator (r.attend position entry).orchestrator := by
  have scheduled (fleet : Fleet) (m : Move) (delay : Nat) :
      Inside r.orchestrator (({ r with fleet := fleet } : Rehearsal).schedule m delay).orchestrator :=
    schedule_inside m delay { r with fleet := fleet }
  unfold attend
  cases entry.happening with
  | callBegan | pinged =>
    dsimp only
    split
    · exact scheduled _ _ _
    · exact .refl
  | _ => exact .refl

theorem foldl_inside {α : Type} {f : Rehearsal → α → Rehearsal}
    (inside : ∀ r a, Inside r.orchestrator (f r a).orchestrator) (l : List α) (r : Rehearsal) :
    Inside r.orchestrator (l.foldl f r).orchestrator := by
  induction l generalizing r with
  | nil => exact .refl
  | cons a l ih => exact (inside r a).trans (ih (f r a))

theorem attendSince_inside (length : Nat) (r : Rehearsal) :
    Inside r.orchestrator (r.attendSince length).orchestrator :=
  foldl_inside (fun r (entry, position) => r.attend_inside position entry) _ r

/-- A process goes on by inner turns. -/
theorem goOn?_inside {p : Process} (went : r.goOn? p = some r') :
    Inside r.orchestrator r'.orchestrator := by
  obtain ⟨r₁, found, rfl⟩ := Option.map_eq_some_iff.mp went
  obtain ⟨turn, member, taken⟩ := List.exists_of_findSome?_eq_some found
  have inner : turn.isInner = true := by
    cases p with
    | worker | supervisor | inquiry =>
      rw [List.mem_singleton.mp member]
      rfl
    | driver i =>
      simp only [turns, List.mem_cons, List.not_mem_nil, or_false] at member
      obtain rfl | rfl | rfl | rfl := member <;> rfl
  exact (turn?_inside inner taken).trans (attendSince_inside _ r₁)

theorem run_inside (p : Process) (n : Nat) (r : Rehearsal) :
    Inside r.orchestrator (run p n r).orchestrator := by
  induction n generalizing r with
  | zero => exact .refl
  | succ n ih =>
    rw [run]
    split
    next r' went => exact (goOn?_inside went).trans (ih r')
    · exact .refl

theorem settleWithin_inside (n : Nat) (r : Rehearsal) :
    Inside r.orchestrator (settleWithin n r).orchestrator := by
  induction n generalizing r with
  | zero => exact .refl
  | succ n ih =>
    rw [settleWithin]
    split
    · exact .refl
    next p rest _ => exact (run_inside p n { r with ready := rest }).trans (ih _)

theorem settle_inside (r : Rehearsal) : Inside r.orchestrator r.settle.orchestrator :=
  settleWithin_inside limit r

-- ---------------------------------------------------------------------------
-- Time
-- ---------------------------------------------------------------------------

theorem fire_inside (r : Rehearsal) (p : Pending) : Inside r.orchestrator (r.fire p).orchestrator := by
  have forgot (m : Move) (r : Rehearsal) : (r.forget m).orchestrator = r.orchestrator := by
    unfold forget
    split <;> rfl
  unfold fire
  dsimp only
  split
  next r' taken =>
    refine (turn?_inside rfl taken).trans ?_
    rw [← forgot p.move r']
    exact attendSince_inside _ _
  · exact .refl

theorem fireDue_inside (r : Rehearsal) : Inside r.orchestrator r.fireDue.orchestrator := by
  unfold fireDue
  exact (foldl_inside fire_inside _ { r with pending := r.pending.filter fun p => r.now < p.due }).trans
    (foldl_inside fire_inside _ _)

theorem playWithin_inside (target : Nat) (test : Rehearsal → Bool) (n : Nat) (r : Rehearsal) :
    Inside r.orchestrator (playWithin target test n r).orchestrator := by
  induction n generalizing r with
  | zero => exact .refl
  | succ n ih =>
    rw [playWithin]
    refine (settle_inside r).trans ?_
    split
    · exact .refl
    · split
      next time _ =>
        split
        · exact ((move_inside _ _).trans (fireDue_inside _)).trans (ih _)
        · exact move_inside _ _
      · exact move_inside _ _

end Rehearsal

-- ---------------------------------------------------------------------------
-- Applications
-- ---------------------------------------------------------------------------

open Orchestrator (Inside)

/-- Acts lead to a situation with this orchestrator and this application. -/
def Situation.Comes (s : Situation) (o : Orchestrator) (a : Application) : Prop :=
  ∃ acts s', s.play? acts = some s' ∧ s'.orchestrator = o ∧ s'.application = a

namespace Situation

variable {s s' : Situation} {o : Orchestrator} {a : Application}

theorem play?_append (s : Situation) (first second : List Act) :
    s.play? (first ++ second) = (s.play? first).bind fun s => s.play? second := by
  induction first generalizing s with
  | nil => rfl
  | cons act first ih => simp [play?, ih, Option.bind_assoc]

/-- Inner turns are acts. -/
theorem comes_of_inside (inside : Inside s.orchestrator o) : s.Comes o s.application := by
  induction inside with
  | refl => exact ⟨[], s, rfl, rfl, rfl⟩
  | @tail o₁ o₂ _ last ih =>
    obtain ⟨acts, s₁, played, reached, same⟩ := ih
    obtain ⟨turn, inner, stepped⟩ := last
    rw [← reached] at stepped
    refine ⟨acts ++ [.turn turn], { s₁ with turns := s₁.turns ++ [turn], orchestrator := o₂ }, ?_, rfl,
      same⟩
    rw [play?_append, played, Option.bind_some, play?, act?, if_pos inner, stepped]
    rfl

end Situation

namespace Undertaking

variable {u : Undertaking} {s : Situation}

/-- Nobody waits for the operator. -/
theorem Underway.not_held (h : u.Underway s) : s.application.isHeld = false := by
  have progress := h.progress
  unfold Application.isHeld
  generalize s.application.phase = phase at progress ⊢
  cases progress with
  | refused | finished | reversed => rfl
  | @upgrade _ _ attendant _ _ attends | @downgrade _ _ _ _ attendant _ _ _ _ _ attends =>
    obtain ⟨_, _, watch⟩ := attendant
    cases attends.watches <;> rfl

end Undertaking

namespace Program

variable {u : Undertaking} {s : Situation}

/-- However long the program plays, it plays acts of the undertaking. -/
theorem Stage.play_comes (h : u.Underway s) (distinct : u.downgradeId ≠ u.upgradeId)
    (automatic : u.options.onHold ≠ .wait) (interrupted : Bool) (n : Nat) (r : Rehearsal)
    (same : r.orchestrator = s.orchestrator) :
    ∃ acts s', s.play? acts = some s' ∧
      s'.application = (Stage.play interrupted n ⟨r, s.application⟩).application := by
  induction n generalizing s r with
  | zero => exact ⟨[], s, rfl, rfl⟩
  | succ n ih =>
    rw [Stage.play]
    split
    · exact ⟨[], s, rfl, rfl⟩
    -- First the rehearsal goes on by itself, and the application is the same.
    obtain ⟨acts, s₁, played, settled, kept⟩ : s.Comes r.settle.orchestrator s.application :=
      Situation.comes_of_inside (same ▸ Rehearsal.settle_inside r)
    have underway := h.play distinct automatic played
    have followed {acts' : List Situation.Act} {s₂ : Situation} {a : Application} (r' : Rehearsal)
        (played' : s₁.play? acts' = some s₂) (orchestrator : r'.orchestrator = s₂.orchestrator)
        (application : s₂.application = a) : ∃ acts s', s.play? acts = some s' ∧
          s'.application = (Stage.play interrupted n ⟨r', a⟩).application := by
      obtain ⟨later, s', ended, result⟩ := ih (underway.play distinct automatic played') r' orchestrator
      refine ⟨acts ++ (acts' ++ later), s', ?_, application ▸ result⟩
      rw [Situation.play?_append, played, Option.bind_some, Situation.play?_append, played', Option.bind_some,
        ended]
    have not_held : s.application.isHeld = false := h.not_held
    dsimp only
    split
    next stage stepped =>
      simp only [Stage.step?, not_held, Bool.and_false, Bool.false_eq_true, if_false] at stepped
      split at stepped
      next next went =>
        obtain ⟨o, a⟩ := next
        cases stepped
        have acted : s₁.play? [.go] =
            some ⟨s₁.turns ++ (s₁.application.turn? s₁.orchestrator).toList, o, a⟩ := by
          rw [Situation.play?, Situation.act?, settled, kept, went]
          rfl
        exact followed (r.settle.withOrchestrator o) acted rfl rfl
      · cases stepped
    next waits =>
      rw [not_held, if_neg Bool.false_ne_true]
      have waited : s₁.Comes (Stage.wait interrupted ⟨r.settle, s.application⟩).rehearsal.orchestrator
          s₁.application := Situation.comes_of_inside (settled ▸ Rehearsal.playWithin_inside _ _ _ _)
      obtain ⟨acts', s₂, played', orchestrator, application⟩ := waited
      exact followed _ played' orchestrator.symm (application.trans kept)

/-- What the program undertakes. -/
def undertaking (w : World) (c : Config) (options : ApplyOptions) (t : Topology) : Undertaking :=
  ⟨c.engine, w.wall, options, t, w.upgradeId, w.downgradeId⟩

/-- The program applies an upgrade by acts of its undertaking. -/
theorem applied_comes (w : World) (filter : LogFilter) (c : Config) (options : ApplyOptions) (t : Topology)
    (automatic : options.onHold ≠ .wait) (distinct : w.downgradeId ≠ w.upgradeId) :
    ∃ acts s, (undertaking w c options t).begun.play? acts = some s ∧
      s.application = applied w filter c options t := by
  let begun := (undertaking w c options t).begun
  have underway := (undertaking w c options t).begun_underway
  let fleet : Fleet := t.hosts.map fun host => (host, script w c host)
  let r := (Rehearsal.start c.engine w.wall fleet).withOrchestrator begun.orchestrator
  have result : applied w filter c options t = begun.application ∨ applied w filter c options t =
      (Stage.play (isInterrupted w filter) stepLimit ⟨r, begun.application⟩).application := by
    unfold applied
    dsimp only
    split
    · split
      · exact .inr rfl
      · exact .inl rfl
    · exact .inl rfl
  obtain idle | played := result
  · rw [idle]
    exact ⟨[], _, rfl, rfl⟩
  · rw [played]
    exact Stage.play_comes underway distinct automatic _ _ r rfl

/-- What the program does when it applies an upgrade without an operator comes out as the options say. -/
theorem applied_honest (w : World) (filter : LogFilter) (c : Config) (options : ApplyOptions) (t : Topology)
    (automatic : options.onHold ≠ .wait) (distinct : w.downgradeId ≠ w.upgradeId) :
    ∃ s, (undertaking w c options t).Honest s ∧ s.application = applied w filter c options t := by
  obtain ⟨acts, s, played, same⟩ := applied_comes w filter c options t automatic distinct
  exact ⟨s, ((undertaking w c options t).begun_underway.play distinct automatic played).honest, same⟩

end Program

end Rollout
