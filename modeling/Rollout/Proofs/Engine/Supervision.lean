-- SUMMARY: What becomes of supervisors and inquiries: who is answered and how, and that only missed pings mark a host.
import Rollout.Proofs.Engine.CallHistory

/-!
# Supervision

A supervisor answers those who asked it, each with its session at that moment, and marks its host only when
a ping is missed. An inquiry goes through its states accordingly: it waits for the supervisor of its host,
is answered, and follows the answer or asks again.
-/
namespace Rollout

-- ---------------------------------------------------------------------------
-- Supervisors
-- ---------------------------------------------------------------------------

/-- Those who wait for an answer: in the mailbox, or for the end of the ping that is under way. -/
def Supervisor.askers (s : Supervisor) : List Nat :=
  s.waiting ++ match s.activity with
    | .pinging ping => ping.asker.toList
    | _ => []

/-- A supervisor answers only those who asked, with the session that it has then, and marks its host only
when a ping was missed. -/
structure Reaction.Fair (r : Reaction) (s : Supervisor) (missed : Prop) : Prop where
  askers : r.supervisor.askers ⊆ s.askers
  answers : ∀ a ∈ r.answers, a.1 ∈ s.askers ∧
    ∀ session, a.2 = some session → session = r.supervisor.session
  marked : r.supervisor.session.unreachable = true → s.session.unreachable = true ∨ missed

namespace Supervisor

variable {settings : ProbeSettings} {now : Nat} {s : Supervisor} {r : Reaction} {missed : Prop}

/-- Taking a mail counts no missed ping. -/
theorem takeMail?_fair (h : s.takeMail? settings now = some r) : r.Fair s missed := by
  unfold takeMail? at h
  split at h
  next idle =>
    split at h
    · cases h
    next mail rest mailbox =>
      dsimp only at h
      split at h
      · cases h
        refine ⟨?_, ?_, .inl⟩ <;> simp [askers, waiting, mailbox, idle]
      · cases h
        refine ⟨?_, by simp [sendPing], .inl⟩
        simp [askers, waiting, mailbox, sendPing, idle]
      · cases h
        refine ⟨by simp [askers, stop, waiting], fun a ha => ?_, .inl⟩
        obtain ⟨asker, waits, rfl⟩ := List.mem_map.mp ha
        refine ⟨List.mem_append_left _ ?_, by simp⟩
        simpa [waiting, mailbox] using waits
  · cases h

theorem tick?_fair (h : s.tick? settings now = some r) : r.Fair s missed := by
  unfold tick? at h
  split at h
  · cases h
    refine ⟨?_, by simp [sendPing], .inl⟩
    simp [askers, waiting, sendPing]
  · cases h

theorem endPing?_fair {contact : Option Timestamp} (h : s.endPing? settings contact = some r)
    (why : contact = none → missed) : r.Fair s missed := by
  unfold endPing? at h
  split at h
  next ping pinging =>
    cases h
    refine ⟨?_, ?_, fun marked => ?_⟩
    · simp [askers, waiting]
    · simpa [askers, pinging] using fun a asked => .inr asked
    · cases contact with
      | none => exact .inr (why rfl)
      | some contactedAt => simp [Session.record, Session.recordSuccess] at marked
  · cases h

end Supervisor

-- ---------------------------------------------------------------------------
-- Registries
-- ---------------------------------------------------------------------------

namespace Registry

variable {host other : String} {s : Supervisor}

/-- A change of the supervisors of a registry, seen from one host. -/
theorem lookup_map_value (f : String → Supervisor → Supervisor) (l : List (String × Supervisor)) :
    (l.map fun (h, old) => (h, f h old)).lookup other = (l.lookup other).map (f other) := by
  induction l with
  | nil => rfl
  | cons entry l ih =>
    obtain ⟨h, old⟩ := entry
    by_cases here : other = h
    · subst here
      simp
    · have miss : (other == h) = false := by simpa using here
      simp only [List.map_cons, List.lookup_cons, miss, ih]

/-- A registry that replaces a supervisor keeps all others. -/
theorem supervisor?_setSupervisor (r : Registry) :
    (r.setSupervisor host s).supervisor? other =
      if other = host then some s else r.supervisor? other := by
  have others : (fun (h, old) => if h = host then (h, s) else (h, old)) =
      fun (h, old) => (h, (if h = host then s else old : Supervisor)) := by
    funext (h, old)
    by_cases here : h = host <;> simp [here]
  unfold setSupervisor supervisor?
  dsimp only
  split
  next known =>
    obtain ⟨old, known⟩ := Option.isSome_iff_exists.mp known
    rw [others, lookup_map_value fun h old => if h = host then s else old]
    split
    next here => rw [here, known, Option.map_some]
    · simp
  next unknown =>
    have unknown : r.supervisors.lookup host = none := Option.not_isSome_iff_eq_none.mp unknown
    rw [List.lookup_append]
    split
    next here => rw [here, unknown]; simp
    next elsewhere =>
      have miss : (other == host) = false := by simpa using elsewhere
      simp [List.lookup_cons, miss]

/-- Closing a registry leaves its supervisors what they know, and who waits for them. -/
theorem supervisor?_close (r : Registry) (other : String) :
    r.close.supervisor? other = r.supervisor? other ∨
      r.close.supervisor? other = (r.supervisor? other).map fun s => s.post .shutdown := by
  unfold close supervisor?
  split
  · exact .inl rfl
  · exact .inr (lookup_map_value (fun _ s => s.post .shutdown) r.supervisors)

end Registry

namespace Engine

/-- The supervisor of a host in a registry. -/
def supervisor? (e : Engine) (registry : Nat) (host : String) : Option Supervisor :=
  e.registries[registry]?.bind fun r => r.supervisor? host

/-- What is known about a host in a registry. -/
def session? (e : Engine) (registry : Nat) (host : String) : Option Session :=
  (e.supervisor? registry host).map Supervisor.session

/-- The act is that a ping to a host, sent on behalf of a registry, is missed. -/
def Act.Misses (registry : Nat) (host : String) : Act → Prop
  | .move (.pong g h none) => g = registry ∧ h = host
  | .move (.pingTimeout g h) => g = registry ∧ h = host
  | _ => False

variable {e e' : Engine} {g : Nat} {h : String}

-- ---------------------------------------------------------------------------
-- Supervisors at an act
-- ---------------------------------------------------------------------------

/-- What becomes of a supervisor at an act. Those who newly wait for it asked now, and it marks its host
only when a ping was missed. -/
structure Tended (missed : Prop) (asks : Nat → Prop) (before after : Option Supervisor) : Prop where
  askers : ∀ s', after = some s' → ∀ j ∈ s'.askers, asks j ∨ ∃ s, before = some s ∧ j ∈ s.askers
  marked : ∀ s, before = some s → ∃ s', after = some s' ∧
    (s'.session.unreachable = true → s.session.unreachable = true ∨ missed)

namespace Tended

variable {missed : Prop} {asks : Nat → Prop} {before after : Option Supervisor}

theorem refl (before : Option Supervisor) : Tended missed asks before before where
  askers s' hs' _ hj := .inr ⟨s', hs', hj⟩
  marked s hs := ⟨s, hs, .inl⟩

theorem of_eq (same : after = before) : Tended missed asks before after := by
  rw [same]
  exact .refl before

/-- A mail that asks nothing leaves a supervisor as it is. -/
theorem of_shutdown (post : after = before.map fun s => s.post .shutdown) :
    Tended missed asks before after where
  askers s' hs' j hj := by
    rw [post] at hs'
    obtain ⟨s, hs, rfl⟩ := Option.map_eq_some_iff.mp hs'
    refine .inr ⟨s, hs, ?_⟩
    simpa [Supervisor.askers, Supervisor.waiting, Supervisor.post] using hj
  marked s hs := ⟨s.post .shutdown, by rw [post, hs]; rfl, .inl⟩

end Tended

/-- A registry changes the supervisor of one host. -/
theorem supervisor?_set {r : Registry} (hr : e.registries[g]? = some r) (s : Supervisor)
    (g' : Nat) (h' : String) : (e.modifyRegistry g (·.setSupervisor h s)).supervisor? g' h' =
      if g' = g ∧ h' = h then some s else e.supervisor? g' h' := by
  unfold supervisor? modifyRegistry
  rw [List.getElem?_modify]
  by_cases here : g = g'
  · subst here
    simp [hr, Registry.supervisor?_setSupervisor]
  · simp [here, Ne.symm here]

/-! ## Inquiries -/

/-- The inquiry is about a host, with the supervisors of a registry. -/
def Concerns (e : Engine) (g : Nat) (h : String) (j : Nat) : Prop :=
  ∃ q, e.inquiries[j]? = some q ∧ q.registry = g ∧ q.host = h

/-- What may become of an inquiry at an act that leads to the engine `e'`. -/
inductive Advance (e' : Engine) (q : Inquiry) : InquiryState → Prop
  | same : Advance e' q q.state
  /-- The supervisor is asked, for the first time or for a ping, or cannot be asked. -/
  | asks {next : InquiryState}
      (pending : q.state = .opening ∨ ∃ s, q.state = .answered .session s)
      (asked : (∃ question, next = .asked question) ∨ ∃ reason, next = .refused (.fatal reason)) :
      Advance e' q next
  /-- The supervisor answers with the session that it has now. -/
  | answered {question : Question} {s : Session} (asked : q.state = .asked question)
      (session : e'.session? q.registry q.host = some s) : Advance e' q (.answered question s)
  | dropped {question : Question} {reason : String} (asked : q.state = .asked question) :
      Advance e' q (.refused (.fatal reason))
  /-- The answer decides. -/
  | decided {question : Question} {s : Session} {settings : ProbeSettings} {wall : Timestamp}
      {result : InquiryState} (answered : q.state = .answered question s)
      (follow : q.follow settings wall question s = .inr result) : Advance e' q result

/-- Every inquiry is still there, about the same host, and advances. -/
def Advances (e e' : Engine) : Prop :=
  ∀ (j : Nat) q, e.inquiries[j]? = some q →
    ∃ state, e'.inquiries[j]? = some { q with state := state } ∧ Advance e' q state

theorem Advances.of_append {new : List Inquiry} (inquiries : e'.inquiries = e.inquiries ++ new) :
    Advances e e' := by
  intro j q hq
  refine ⟨q.state, ?_, .same⟩
  rw [inquiries, List.getElem?_append_left (List.getElem?_eq_some_iff.mp hq).1, hq]

theorem Advances.concerns (a : Advances e e') {j : Nat} (c : Concerns e g h j) :
    Concerns e' g h j := by
  obtain ⟨q, hq, registry, host⟩ := c
  obtain ⟨state, hq', _⟩ := a j q hq
  exact ⟨_, hq', registry, host⟩

theorem setInquiry_inquiries? (j : Nat) (state : InquiryState) (k : Nat) :
    (e.setInquiry j state).inquiries[k]? =
      (e.inquiries[k]?).map fun q => if k = j then { q with state := state } else q := by
  rw [setInquiry, List.getElem?_modify]
  by_cases here : j = k
  · subst here; simp
  · simp [here, Ne.symm here]

/-- One inquiry advances. -/
theorem Advances.of_set {j : Nat} {q : Inquiry} {state : InquiryState}
    (hq : e.inquiries[j]? = some q)
    (inquiries : ∀ k, e'.inquiries[k]? =
      (e.inquiries[k]?).map fun q => if k = j then { q with state := state } else q)
    (advance : Advance e' q state) : Advances e e' := by
  intro k q' hq'
  rw [inquiries, hq', Option.map_some]
  by_cases here : k = j
  · subst here
    cases hq.symm.trans hq'
    exact ⟨state, by simp, advance⟩
  · exact ⟨q'.state, by simp [here], .same⟩

-- ---------------------------------------------------------------------------
-- Asking
-- ---------------------------------------------------------------------------

theorem askers_post (s : Supervisor) (j : Nat) (question : Question) {k : Nat}
    (hk : k ∈ (s.post (.ask j question)).askers) : k = j ∨ k ∈ s.askers := by
  simp only [Supervisor.askers, Supervisor.waiting, Supervisor.post, List.filterMap_append,
    List.mem_append] at hk ⊢
  obtain (old | new) | pinging := hk
  · exact .inr (.inl old)
  · exact .inl (by simpa using new)
  · exact .inr (.inr pinging)

section Ask

variable {j : Nat} {q : Inquiry} (hq : e.inquiries[j]? = some q) (question : Question)
include hq

/-- Asking a supervisor adds only those that concern its host to the ones it owes an answer, and marks no session. -/
theorem ask_tended (missed : Prop) : Tended missed (Concerns e g h) (e.supervisor? g h)
    ((e.ask j q question).supervisor? g h) := by
  unfold ask
  split
  · exact .refl _
  next r hr =>
    split
    · exact .refl _
    · dsimp only
      split
      · exact .refl _
      · have set := supervisor?_set (h := q.host) hr
          (((r.supervisor? q.host).getD (.start r.settings q.host e.now)).post (.ask j question)) g h
        by_cases here : g = q.registry ∧ h = q.host
        · obtain ⟨rfl, rfl⟩ := here
          rw [if_pos ⟨rfl, rfl⟩] at set
          have known : e.supervisor? q.registry q.host = r.supervisor? q.host := by
            rw [supervisor?, hr, Option.bind_some]
          rw [known]
          refine ⟨fun s' hs' k hk => ?_, fun s hs => ⟨_, set, ?_⟩⟩
          · cases set.symm.trans hs'
            obtain rfl | old := askers_post _ j question hk
            · exact .inl ⟨q, hq, rfl, rfl⟩
            · cases known : r.supervisor? q.host with
              | none => simp [known, Supervisor.start, Supervisor.askers, Supervisor.waiting] at old
              | some s => exact .inr ⟨s, rfl, by simpa [known] using old⟩
          · rw [hs]
            exact .inl
        · rw [if_neg here] at set
          exact .of_eq set

theorem ask_advances (pending : q.state = .opening ∨ ∃ s, q.state = .answered .session s) :
    Advances e (e.ask j q question) := by
  unfold ask
  split
  · exact .of_append (List.append_nil _).symm
  · split
    · exact .of_set hq (setInquiry_inquiries? j _) (.asks pending (.inr ⟨_, rfl⟩))
    · dsimp only
      split
      · exact .of_set hq (setInquiry_inquiries? j _) (.asks pending (.inr ⟨_, rfl⟩))
      · exact .of_set hq (setInquiry_inquiries? j _) (.asks pending (.inl ⟨_, rfl⟩))

end Ask

/-- Only the session as it is leads to another question. -/
theorem follow_inl {q : Inquiry} {settings : ProbeSettings} {wall : Timestamp}
    {question next : Question} {s : Session} (h : q.follow settings wall question s = .inl next) :
    question = .session := by
  unfold Inquiry.follow at h
  split at h
  · rfl
  · cases h
  · cases h

/-! ## Acts -/

/-- What an act does to supervisors and inquiries. -/
structure Attended (e e' : Engine) (a : Act) : Prop where
  tended : ∀ g h, Tended (a.Misses g h) (Concerns e g h) (e.supervisor? g h) (e'.supervisor? g h)
  advances : Advances e e'

/-- Whoever waits for a supervisor asked about its host. -/
def Linked (e : Engine) : Prop :=
  ∀ g h s, e.supervisor? g h = some s → ∀ j ∈ s.askers, Concerns e g h j

variable {a : Act}

theorem Attended.linked (att : Attended e e' a) (linked : e.Linked) : e'.Linked := by
  intro g h s' hs' j hj
  refine att.advances.concerns ?_
  obtain asked | ⟨s, hs, old⟩ := (att.tended g h).askers s' hs' j hj
  · exact asked
  · exact linked g h s hs j old

/-- Nothing happens to supervisors, and inquiries are added at most. -/
theorem Attended.of_same (new : List Inquiry) (registries : e'.registries = e.registries)
    (inquiries : e'.inquiries = e.inquiries ++ new) : Attended e e' a where
  tended g h := .of_eq (by rw [supervisor?, registries]; rfl)
  advances := .of_append inquiries

/-- An inquiry that goes on attends to itself alone. -/
theorem inquire?_attended {j : Nat} (inquired : e.inquire? j = some e') : Attended e e' a := by
  simp only [inquire?, Option.bind_eq_bind, Option.bind_eq_some_iff] at inquired
  obtain ⟨q, hq, inquired⟩ := inquired
  split at inquired
  next opening =>
    cases inquired
    exact ⟨fun _ _ => ask_tended hq _ _, ask_advances hq _ (.inl opening)⟩
  next question s answered =>
    obtain ⟨r, _, inquired⟩ := Option.bind_eq_some_iff.mp inquired
    split at inquired
    next next again =>
      cases inquired
      cases follow_inl again
      exact ⟨fun _ _ => ask_tended hq _ _, ask_advances hq _ (.inr ⟨s, answered⟩)⟩
    next result decided =>
      cases inquired
      refine ⟨fun _ _ => .refl _, .of_set hq (setInquiry_inquiries? j result) ?_⟩
      exact .decided answered decided
  all_goals exact absurd inquired (by simp)

/-! ## Answers -/

/-- An inquiry receives the answer to its question. -/
inductive Delivered (answers : List (Nat × Option Session)) (s : Session) (j : Nat) (q : Inquiry) :
    InquiryState → Prop
  | same : Delivered answers s j q q.state
  | answered {question : Question} (asked : q.state = .asked question)
      (mine : ∃ a ∈ answers, a.1 = j) : Delivered answers s j q (.answered question s)
  | dropped {question : Question} {reason : String} (asked : q.state = .asked question) :
      Delivered answers s j q (.refused (.fatal reason))

/-- An answer changes the inquiry that asked and no other one. -/
theorem deliver_inquiries? (answer : Nat × Option Session) (s : Session)
    (same : ∀ session, answer.2 = some session → session = s) {j : Nat} {q : Inquiry}
    (hq : e.inquiries[j]? = some q) :
    ∃ state, (e.deliver answer).inquiries[j]? = some { q with state := state } ∧
      Delivered [answer] s j q state := by
  obtain ⟨k, session⟩ := answer
  -- Only the inquiry that asked is changed.
  have set {state : InquiryState} (mine : k = j → Delivered [(k, session)] s j q state) :
      ∃ state', (e.setInquiry k state).inquiries[j]? = some { q with state := state' } ∧
        Delivered [(k, session)] s j q state' := by
    rw [setInquiry_inquiries?, hq, Option.map_some]
    by_cases here : j = k
    · exact ⟨state, by rw [if_pos here], mine here.symm⟩
    · exact ⟨q.state, by rw [if_neg here], .same⟩
  unfold deliver
  dsimp only
  split
  next registry host purpose question found =>
    have asked (here : k = j) : q.state = .asked question := by
      subst here
      cases found.symm.trans hq
      rfl
    cases session with
    | some session =>
      cases same session rfl
      exact set fun here => .answered (asked here) ⟨_, List.mem_singleton.mpr rfl, here⟩
    | none => exact set fun here => .dropped (asked here)
  · exact ⟨q.state, hq, .same⟩

/-- So do several answers, one after the other. -/
theorem foldl_deliver_inquiries? (answers : List (Nat × Option Session)) (s : Session)
    (same : ∀ a ∈ answers, ∀ session, a.2 = some session → session = s) {j : Nat} {q : Inquiry}
    (hq : e.inquiries[j]? = some q) :
    ∃ state, (answers.foldl (fun e answer => e.deliver answer) e).inquiries[j]? =
        some { q with state := state } ∧ Delivered answers s j q state := by
  induction answers generalizing e q with
  | nil => exact ⟨q.state, hq, .same⟩
  | cons answer answers ih =>
    obtain ⟨state₁, hq₁, first⟩ := deliver_inquiries? answer s (same answer List.mem_cons_self) hq
    obtain ⟨state, hq', rest⟩ := ih (fun a ha => same a (List.mem_cons_of_mem _ ha)) hq₁
    refine ⟨state, hq', ?_⟩
    -- Whoever got an answer waits no longer.
    cases first with
    | same =>
      cases rest with
      | same => exact .same
      | answered asked mine =>
        obtain ⟨a, ha, here⟩ := mine
        exact .answered asked ⟨a, List.mem_cons_of_mem _ ha, here⟩
      | dropped asked => exact .dropped asked
    | answered asked mine =>
      obtain ⟨a, ha, here⟩ := mine
      cases rest with
      | same =>
        rw [List.mem_singleton.mp ha] at here
        exact .answered asked ⟨answer, List.mem_cons_self, here⟩
      | answered again => cases again
      | dropped again => cases again
    | dropped asked =>
      cases rest with
      | same => exact .dropped asked
      | answered again => cases again
      | dropped again => cases again

theorem foldl_deliver_registries (answers : List (Nat × Option Session)) (e : Engine) :
    (answers.foldl (fun e answer => e.deliver answer) e).registries = e.registries := by
  induction answers generalizing e with
  | nil => rfl
  | cons answer answers ih =>
    have first : (e.deliver answer).registries = e.registries := by
      unfold deliver
      split
      split
      · split <;> rfl
      · rfl
    exact (ih (e.deliver answer)).trans first

/-- A supervisor that does something attends to its session and to those that asked. -/
theorem react_attended {act : ProbeSettings → Supervisor → Option Reaction}
    (reacted : e.react g h act = some e') (linked : e.Linked)
    (fair : ∀ settings s r, act settings s = some r → r.Fair s (a.Misses g h)) :
    Attended e e' a := by
  simp only [react, Option.bind_eq_bind, Option.bind_eq_some_iff] at reacted
  obtain ⟨r, hr, s, hs, reaction, acts, reacted⟩ := reacted
  have known : e.supervisor? g h = some s := by rw [supervisor?, hr, Option.bind_some, hs]
  have fair := fair r.settings s reaction acts
  have same : ∀ answer ∈ reaction.answers, ∀ session, answer.2 = some session →
      session = reaction.supervisor.session := fun answer ha => (fair.answers answer ha).2
  -- A ping that is sent is recorded, which changes nothing else.
  have attended {e' : Engine}
      (registries : e'.registries =
        (e.modifyRegistry g (·.setSupervisor h reaction.supervisor)).registries)
      (inquiries : e'.inquiries = (reaction.answers.foldl (fun e answer => e.deliver answer)
        (e.modifyRegistry g (·.setSupervisor h reaction.supervisor))).inquiries) :
      Attended e e' a := by
    have after (g' : Nat) (h' : String) : e'.supervisor? g' h' =
        if g' = g ∧ h' = h then some reaction.supervisor else e.supervisor? g' h' := by
      rw [← supervisor?_set hr, supervisor?, registries, supervisor?]
    refine ⟨fun g' h' => ?_, fun j q hq => ?_⟩
    · by_cases here : g' = g ∧ h' = h
      · obtain ⟨rfl, rfl⟩ := here
        rw [after, if_pos ⟨rfl, rfl⟩, known]
        refine ⟨fun s' hs' j hj => ?_, fun s₀ hs₀ => ?_⟩
        · cases hs'
          exact .inr ⟨s, rfl, fair.askers hj⟩
        · cases hs₀
          exact ⟨_, rfl, fair.marked⟩
      · exact .of_eq (by rw [after, if_neg here])
    · obtain ⟨state, hq', delivered⟩ := foldl_deliver_inquiries?
        (e := e.modifyRegistry g (·.setSupervisor h reaction.supervisor)) _ _ same hq
      refine ⟨state, inquiries ▸ hq', ?_⟩
      cases delivered with
      | same => exact .same
      | answered asked mine =>
        obtain ⟨answer, ha, rfl⟩ := mine
        obtain ⟨q', hq', registry, host⟩ := linked g h s known _ (fair.answers answer ha).1
        cases hq.symm.trans hq'
        refine .answered asked ?_
        rw [session?, after, if_pos ⟨registry, host⟩]
        rfl
      | dropped asked => exact .dropped asked
  split at reacted
  · cases reacted
    exact attended (foldl_deliver_registries ..) rfl
  · cases reacted
    exact attended (foldl_deliver_registries ..) rfl

-- ---------------------------------------------------------------------------
-- All acts
-- ---------------------------------------------------------------------------

/-- Every move attends to supervisors and inquiries. -/
theorem move_attended {m : Move} (moved : e.step? m = some e') (linked : e.Linked) :
    Attended e e' (.move m) := by
  have same (registries : e'.registries = e.registries) (inquiries : e'.inquiries = e.inquiries) :
      Attended e e' (.move m) := .of_same [] registries (by rw [inquiries, List.append_nil])
  cases m with
  | work i =>
    have done := moved
    simp only [step?, work?, Option.bind_eq_bind, Option.bind_eq_some_iff] at moved
    obtain ⟨w, hw, x, hx, _⟩ := moved
    obtain ⟨q, inquired⟩ | ⟨f, _, rfl⟩ := work?_deed hw hx done
    · exact inquire?_attended inquired
    · exact .of_same f.inquiries rfl rfl
  | inquire => exact inquire?_attended moved
  | supervise registry host =>
    rw [step?, supervise?] at moved
    exact react_attended moved linked fun _ _ _ took => Supervisor.takeMail?_fair took
  | tick registry host =>
    rw [step?, tick?] at moved
    exact react_attended moved linked fun _ _ _ ticked => Supervisor.tick?_fair ticked
  | pong registry host contact =>
    rw [step?, pong?] at moved
    refine react_attended moved linked fun _ _ _ ended => Supervisor.endPing?_fair ended ?_
    rintro rfl
    exact ⟨rfl, rfl⟩
  | pingTimeout registry host =>
    rw [step?, pingTimeout?] at moved
    refine react_attended moved linked fun _ _ _ ended => ?_
    split at ended
    · split at ended
      · exact Supervisor.endPing?_fair ended fun _ => ⟨rfl, rfl⟩
      · cases ended
    · cases ended
  | answer i call fault =>
    simp only [step?, answer?, Option.bind_eq_bind, Option.bind_eq_some_iff] at moved
    obtain ⟨w, _, moved⟩ := moved
    split at moved
    · split at moved
      · cases moved
      · obtain ⟨c, _, moved⟩ := Option.bind_eq_some_iff.mp moved
        cases moved
        exact same rfl rfl
    · cases moved
  | expire i =>
    simp only [step?, expire?, Option.bind_eq_bind, Option.bind_eq_some_iff] at moved
    obtain ⟨w, _, x, _, moved⟩ := moved
    split at moved
    · split at moved
      · obtain ⟨c, _, moved⟩ := Option.bind_eq_some_iff.mp moved
        cases moved
        exact same rfl rfl
      · cases moved
    · cases moved
  | pass | setWall =>
    cases moved
    exact same rfl rfl

/-- Every request of a client does so. -/
theorem serve_attended (request : Request) : Attended e (e.serve request) a := by
  cases request with
  | openRegistry settings =>
    refine ⟨fun g h => .of_eq ?_, .of_append (List.append_nil _).symm⟩
    rw [supervisor?, supervisor?, serve, List.getElem?_append]
    split
    · rfl
    next outside =>
      have none_before : e.registries[g]? = none := List.getElem?_eq_none (Nat.le_of_not_lt outside)
      rw [none_before, Option.bind_none]
      refine Option.bind_eq_none_iff.mpr fun r fresh => ?_
      rw [List.mem_singleton.mp (List.mem_of_getElem? fresh)]
      rfl
  | closeRegistry k =>
    refine ⟨fun g h => ?_, .of_append (List.append_nil _).symm⟩
    have after : (e.serve (.closeRegistry k)).supervisor? g h =
        e.registries[g]?.bind fun r => (if k = g then r.close else r).supervisor? h := by
      rw [supervisor?, serve, modifyRegistry, List.getElem?_modify]
      cases e.registries[g]? with
      | none => rfl
      | some r => split <;> rfl
    rw [after, supervisor?]
    cases e.registries[g]? with
    | none => exact .refl _
    | some r =>
      simp only [Option.bind_some]
      split
      · obtain same | posted := r.supervisor?_close h
        · exact .of_eq same
        · exact .of_shutdown posted
      · exact .refl _
  | ask registry host purpose => exact .of_same [⟨registry, host, purpose, .opening⟩] rfl rfl
  | openExecutor | dispatch | cancel | shutdown | closeChannel =>
    exact .of_same [] rfl (List.append_nil _).symm

/-- What every act does to supervisors and inquiries. -/
theorem act?_attended (done : e.act? a = some e') (linked : e.Linked) : Attended e e' a := by
  cases a with
  | move m => exact move_attended done linked
  | serve request =>
    cases done
    exact serve_attended request
  | receive k =>
    obtain ⟨⟨event, e'⟩, received, rfl⟩ := Option.map_eq_some_iff.mp done
    obtain ⟨x, _, received⟩ := Option.bind_eq_some_iff.mp received
    split at received
    · cases received
    · cases received
      exact .of_same [] rfl (List.append_nil _).symm

theorem empty_linked (wall : Timestamp) : (empty wall).Linked := by
  simp [Linked, supervisor?, empty]

theorem linked_of_reachable (reachable : e.Reachable) : e.Linked :=
  reachable.induction empty_linked fun linked done => (act?_attended done linked).linked linked

/-- A supervisor stays, and a host that is not marked stays so, unless a ping is missed. -/
theorem play?_session {e₀ : Engine} {g : Nat} {h : String} {s : Session} {acts : List Act}
    (linked : e₀.Linked) (session : e₀.session? g h = some s) (played : e₀.play? acts = some e) :
    ∃ s', e.session? g h = some s' ∧
      (s'.unreachable = true → s.unreachable = true ∨ ∃ a ∈ acts, a.Misses g h) := by
  induction acts generalizing e₀ s with
  | nil =>
    cases played
    exact ⟨s, session, .inl⟩
  | cons a acts ih =>
    obtain ⟨e₁, done, rest⟩ := Option.bind_eq_some_iff.mp played
    have att := act?_attended done linked
    obtain ⟨before, hbefore, rfl⟩ := Option.map_eq_some_iff.mp session
    obtain ⟨after, hafter, first⟩ := (att.tended g h).marked before hbefore
    have session₁ : e₁.session? g h = some after.session := by rw [session?, hafter]; rfl
    obtain ⟨s', hs', later⟩ := ih (att.linked linked) session₁ rest
    refine ⟨s', hs', fun marked => ?_⟩
    obtain marked | ⟨b, hb, missed⟩ := later marked
    · exact (first marked).imp_right fun missed => ⟨a, List.mem_cons_self, missed⟩
    · exact .inr ⟨b, List.mem_cons_of_mem a hb, missed⟩

end Engine

end Rollout
