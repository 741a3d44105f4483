-- SUMMARY: What an act does to registries, supervisors and inquiries, in full: which mail is taken, which ping ends, and who hears of it.
import Rollout.Proofs.Engine.Acts
import Rollout.Proofs.Engine.Supervision

/-!
# Turns

A supervisor takes turns: it takes a mail, begins a ping of the background, or a ping of its ends. `Supervisor.Turn`
lists its turns with all that comes of them, and `Engine.Stirs` lists what an act may do to the registries and the
inquiries of an engine. An act that is no turn of a supervisor ends no ping, and records none.
-/
namespace Rollout

-- ---------------------------------------------------------------------------
-- Supervisors
-- ---------------------------------------------------------------------------

/-- The one who asks with a mail. -/
def Mail.asker? : Mail → Option Nat
  | .ask asker _ => some asker
  | .shutdown => none

namespace Supervisor

/-- The one whose mail is next. -/
def nextAsker? (s : Supervisor) : Option Nat := s.mailbox.head?.bind Mail.asker?

/-- The turns of a supervisor: the one whose mail it takes, the contact of the ping that ends, and its reaction. -/
inductive Turn (settings : ProbeSettings) (now : Nat) (s : Supervisor) :
    Option Nat → Option (Option Timestamp) → Reaction → Prop
  /-- It tells somebody its session. -/
  | tells {asker : Nat} {rest : List Mail} (idle : s.activity = .idle)
      (mailbox : s.mailbox = .ask asker .session :: rest) :
      Turn settings now s (some asker) none
        ⟨{ s with mailbox := rest }, [(asker, some s.session)], none⟩
  /-- It sends the ping that somebody asks for. -/
  | probes {asker : Nat} {rest : List Mail} (idle : s.activity = .idle)
      (mailbox : s.mailbox = .ask asker .probe :: rest) :
      Turn settings now s (some asker) none
        (sendPing settings now (some asker) { s with mailbox := rest })
  | stops {rest : List Mail} (idle : s.activity = .idle) (mailbox : s.mailbox = .shutdown :: rest) :
      Turn settings now s none none (stop { s with mailbox := rest })
  | ticks (idle : s.activity = .idle) :
      Turn settings now s none none
        (sendPing settings now none { s with nextTick := tickAfter settings s.nextTick now })
  /-- Its ping ends, and the one who waits for that is told. -/
  | ends {ping : Ping} {session : Session} (contact : Option Timestamp)
      (pinging : s.activity = .pinging ping)
      (after : session =
        { s.session with outstandingPing := false }.record settings.failureThreshold contact) :
      Turn settings now s none (some contact)
        ⟨{ s with session := session, activity := .idle },
          ping.asker.toList.map fun asker => (asker, some session), none⟩

variable {settings : ProbeSettings} {now : Nat} {s : Supervisor} {r : Reaction}

/-- Taking a mail is a turn of the supervisor for the one that asked. -/
theorem takeMail?_turn (h : s.takeMail? settings now = some r) :
    s.Turn settings now s.nextAsker? none r := by
  unfold takeMail? at h
  split at h
  next idle =>
    split at h
    · cases h
    next mail rest mailbox =>
      dsimp only at h
      split at h
      all_goals
        cases h
        simp only [nextAsker?, mailbox, List.head?_cons, Option.bind_some, Mail.asker?]
      · exact .tells idle mailbox
      · exact .probes idle mailbox
      · exact .stops idle mailbox
  · cases h

theorem tick?_turn (h : s.tick? settings now = some r) : s.Turn settings now none none r := by
  unfold tick? at h
  split at h
  next due =>
    cases h
    exact .ticks due.1
  · cases h

theorem endPing?_turn {contact : Option Timestamp} (h : s.endPing? settings contact = some r) :
    s.Turn settings now none (some contact) r := by
  unfold endPing? at h
  split at h
  next ping pinging =>
    cases h
    exact .ends contact pinging rfl
  · cases h

end Supervisor

theorem Registry.isOpen_close (r : Registry) : r.close.isOpen = false := by
  unfold close
  split
  next closed => simpa using closed
  · rfl

namespace Engine

variable {e e' : Engine} {a : Act} {g : Nat} {h : String}

theorem supervisor?_of_registry {r : Registry} (hr : e.registries[g]? = some r) :
    e.supervisor? g h = r.supervisor? h := by
  rw [supervisor?, hr, Option.bind_some]

-- ---------------------------------------------------------------------------
-- Inquiries
-- ---------------------------------------------------------------------------

/-- The question that comes next: the first one, or a ping when the session is not enough. -/
inductive Pends (settings : ProbeSettings) (wall : Timestamp) (q : Inquiry) : Question → Prop
  | first (opening : q.state = .opening) : Pends settings wall q q.firstQuestion
  | again {s : Session} (answered : q.state = .answered .session s) (pass : q.purpose = .pass)
      (needs : Inquiry.needsProbe settings wall s = true) : Pends settings wall q .probe

/-- What comes of an inquiry that goes on. -/
inductive Goes (e e' : Engine) (j : Nat) (q : Inquiry) : Prop
  /-- There is nobody to ask. -/
  | stays (unknown : e.registries[q.registry]? = none) (after : e' = e)
  | asks {r : Registry} {s : Supervisor} {question : Question}
      (pends : Pends r.settings e.wall q question) (registry : e.registries[q.registry]? = some r)
      (hopen : r.isOpen = true)
      (supervisor : s = (r.supervisor? q.host).getD (.start r.settings q.host e.now))
      (going : s.activity ≠ .stopped)
      (registries : e'.registries = (e.modifyRegistry q.registry
        (·.setSupervisor q.host (s.post (.ask j question)))).registries)
      (inquiries : e'.inquiries = (e.setInquiry j (.asked question)).inquiries)
  /-- Nobody takes questions any more. -/
  | fails {r : Registry} {reason : String} (registry : e.registries[q.registry]? = some r)
      (why : r.isOpen = false ∨ ∃ s, r.supervisor? q.host = some s ∧ s.activity = .stopped)
      (after : e' = e.setInquiry j (.refused (.fatal reason)))
  | decides {r : Registry} {question : Question} {s : Session} {result : InquiryState}
      (answered : q.state = .answered question s) (registry : e.registries[q.registry]? = some r)
      (follow : q.follow r.settings e.wall question s = .inr result)
      (after : e' = e.setInquiry j result)

/-- Only a session that is not enough leads to another question, for a ping. -/
theorem follow_again {q : Inquiry} {settings : ProbeSettings} {wall : Timestamp}
    {question next : Question} {s : Session}
    (h : q.follow settings wall question s = .inl next) :
    q.purpose = .pass ∧ Inquiry.needsProbe settings wall s = true ∧ next = .probe := by
  unfold Inquiry.follow at h
  split at h
  next purpose =>
    split at h
    next needs =>
      cases h
      exact ⟨purpose, needs, rfl⟩
    · cases h
  all_goals cases h

/-- An inquiry that is to ask puts its question into the mailbox of its host, or finds nobody who takes it. -/
theorem Goes.of_ask {j : Nat} {q : Inquiry} {question : Question}
    (pends : ∀ r, e.registries[q.registry]? = some r → Pends r.settings e.wall q question) :
    Goes e (e.ask j q question) j q := by
  unfold ask
  split
  next unknown => exact .stays unknown rfl
  next r hr =>
    split
    next closed => exact .fails hr (.inl (by simpa using closed)) rfl
    next hopen =>
      dsimp only
      split
      next stopped =>
        refine .fails hr (.inr ?_) rfl
        cases known : r.supervisor? q.host with
        | none => simp [known, Supervisor.start] at stopped
        | some s => exact ⟨s, rfl, by simpa [known] using stopped⟩
      next going => exact .asks (pends r hr) hr (by simpa using hopen) rfl going rfl rfl

/-- An inquiry that goes on asks, or decides. -/
theorem Goes.of_inquire? {j : Nat} (inquired : e.inquire? j = some e') :
    ∃ q, e.inquiries[j]? = some q ∧ Goes e e' j q := by
  simp only [inquire?, Option.bind_eq_bind, Option.bind_eq_some_iff] at inquired
  obtain ⟨q, hq, inquired⟩ := inquired
  refine ⟨q, hq, ?_⟩
  split at inquired
  next opening =>
    cases inquired
    exact .of_ask fun _ _ => .first opening
  next question s answered =>
    obtain ⟨r, hr, inquired⟩ := Option.bind_eq_some_iff.mp inquired
    split at inquired
    next next again =>
      cases inquired
      refine .of_ask fun r' hr' => ?_
      cases hr.symm.trans hr'
      obtain ⟨pass, needs, rfl⟩ := follow_again again
      cases follow_inl again
      exact .again answered pass needs
    next result follow =>
      cases inquired
      exact .decides answered hr follow rfl
  all_goals cases inquired

-- ---------------------------------------------------------------------------
-- Acts
-- ---------------------------------------------------------------------------

/-- The one whose mail a supervisor takes at an act. -/
def Act.asker? (e : Engine) : Act → Option Nat
  | .move (.supervise g h) => (e.supervisor? g h).bind Supervisor.nextAsker?
  | _ => none

/-- The ping to a host that ends at an act, with its contact. -/
def Act.contact? (g : Nat) (h : String) : Act → Option (Option Timestamp)
  | .move (.pong g' h' contact) => if g' = g ∧ h' = h then some contact else none
  | .move (.pingTimeout g' h') => if g' = g ∧ h' = h then some none else none
  | _ => none

/-- At the act no supervisor takes a mail, and no ping ends. -/
structure Act.Calm (e : Engine) (a : Act) : Prop where
  asker : a.asker? e = none
  contact : ∀ g h, a.contact? g h = none

/-- What an act does to the registries and the inquiries. -/
inductive Stirs (e e' : Engine) (a : Act) : Prop
  /-- Inquiries are added at most. -/
  | still (calm : a.Calm e) (new : List Inquiry) (fresh : ∀ q ∈ new, q.state = .opening)
      (registries : e'.registries = e.registries) (inquiries : e'.inquiries = e.inquiries ++ new)
  /-- An inquiry goes on. -/
  | inquires (calm : a.Calm e) {j : Nat} {q : Inquiry} (inquiry : e.inquiries[j]? = some q)
      (goes : Goes e e' j q)
  | opens (calm : a.Calm e) (settings : ProbeSettings)
      (registries : e'.registries = e.registries ++ [.fresh settings])
      (inquiries : e'.inquiries = e.inquiries)
  | closes (calm : a.Calm e) (k : Nat)
      (registries : e'.registries = e.registries.modify k Registry.close)
      (inquiries : e'.inquiries = e.inquiries)
  /-- A supervisor takes a turn, and the others notice. -/
  | turns {g : Nat} {h : String} {r : Registry} {s : Supervisor} {asker : Option Nat}
      {contact : Option (Option Timestamp)} {reaction : Reaction}
      (registry : e.registries[g]? = some r) (supervisor : r.supervisor? h = some s)
      (turn : s.Turn r.settings e.now asker contact reaction)
      (registries : e'.registries =
        (e.modifyRegistry g (·.setSupervisor h reaction.supervisor)).registries)
      (inquiries : e'.inquiries = (reaction.answers.foldl (fun e answer => e.deliver answer)
        (e.modifyRegistry g (·.setSupervisor h reaction.supervisor))).inquiries)
      (history : e'.history =
        (reaction.request.toList.map fun request => ⟨e.now, h, .pinged g request⟩) ++ e.history)
      (asks : a.asker? e = asker)
      (ends : ∀ g' h', a.contact? g' h' = if g' = g ∧ h' = h then contact else none)

/-- Whoever is answered, only the inquiries change. -/
theorem foldl_deliver_frame (answers : List (Nat × Option Session)) (e : Engine) :
    ∃ inquiries, answers.foldl (fun e answer => e.deliver answer) e =
      { e with inquiries := inquiries } := by
  induction answers generalizing e with
  | nil => exact ⟨e.inquiries, rfl⟩
  | cons answer answers ih =>
    have first : ∃ inquiries, e.deliver answer = { e with inquiries := inquiries } := by
      unfold deliver
      split
      split
      · split <;> exact ⟨_, rfl⟩
      · exact ⟨e.inquiries, rfl⟩
    obtain ⟨before, first⟩ := first
    obtain ⟨inquiries, later⟩ := ih (e.deliver answer)
    exact ⟨inquiries, by rw [List.foldl_cons, later, first]⟩

namespace Stirs

theorem of_same (calm : a.Calm e) (registries : e'.registries = e.registries)
    (inquiries : e'.inquiries = e.inquiries) : Stirs e e' a :=
  .still calm [] (by simp) registries (by rw [inquiries, List.append_nil])

theorem of_deed {i : Nat} {w : Worker} {x : Executor} {f : Effect} (calm : a.Calm e)
    (deed : Deed e i w x f) : Stirs e (e.put i w f) a := by
  refine .still calm f.inquiries ?_ rfl rfl
  cases deed <;> simp

theorem of_inquire? {j : Nat} (calm : a.Calm e) (inquired : e.inquire? j = some e') :
    Stirs e e' a := by
  obtain ⟨q, hq, goes⟩ := Goes.of_inquire? inquired
  exact .inquires calm hq goes

/-- A turn of a supervisor stirs its own host only. -/
theorem of_react {act : ProbeSettings → Supervisor → Option Reaction}
    (contact : Option (Option Timestamp)) (reacted : e.react g h act = some e')
    (turn : ∀ settings s r, e.supervisor? g h = some s → act settings s = some r →
      s.Turn settings e.now (a.asker? e) contact r)
    (ends : ∀ g' h', a.contact? g' h' = if g' = g ∧ h' = h then contact else none) :
    Stirs e e' a := by
  simp only [react, Option.bind_eq_bind, Option.bind_eq_some_iff] at reacted
  obtain ⟨r, hr, s, hs, reaction, acts, reacted⟩ := reacted
  have turn := turn r.settings s reaction ((supervisor?_of_registry hr).trans hs) acts
  obtain ⟨inquiries, answered⟩ := foldl_deliver_frame reaction.answers
    (e.modifyRegistry g (·.setSupervisor h reaction.supervisor))
  rw [answered] at reacted
  have noticed := congrArg Engine.inquiries answered.symm
  split at reacted
  next request sent =>
    cases reacted
    exact .turns hr hs turn rfl noticed (by rw [sent]; rfl) rfl ends
  next silent =>
    cases reacted
    exact .turns hr hs turn rfl noticed (by rw [silent]; rfl) rfl ends

/-- Every move stirs at most one supervisor or one inquiry, and this says which. -/
theorem of_move? {m : Move} (housed : e.Housed) (moved : e.step? m = some e') :
    Stirs e e' (.move m) := by
  cases m with
  | work i =>
    have done := moved
    simp only [step?, work?, Option.bind_eq_bind, Option.bind_eq_some_iff] at moved
    obtain ⟨w, hw, x, hx, _⟩ := moved
    obtain ⟨q, inquired⟩ | ⟨f, deed, rfl⟩ := work?_deed hw hx done
    · exact .of_inquire? ⟨rfl, fun _ _ => rfl⟩ inquired
    · exact .of_deed ⟨rfl, fun _ _ => rfl⟩ deed
  | inquire j => exact .of_inquire? ⟨rfl, fun _ _ => rfl⟩ moved
  | supervise g h =>
    rw [step?, supervise?] at moved
    refine .of_react none moved (fun settings s r known took => ?_) fun _ _ => (ite_self _).symm
    rw [Act.asker?, known, Option.bind_some]
    exact Supervisor.takeMail?_turn took
  | tick g h =>
    rw [step?, tick?] at moved
    exact .of_react none moved (fun _ _ _ _ ticked => Supervisor.tick?_turn ticked)
      fun _ _ => (ite_self _).symm
  | pong g h contact =>
    rw [step?, pong?] at moved
    refine .of_react (some contact) moved (fun _ _ _ _ ended => Supervisor.endPing?_turn ended) fun g' h' => ?_
    simp only [Act.contact?, eq_comm]
  | pingTimeout g h =>
    rw [step?, pingTimeout?] at moved
    refine .of_react (some none) moved (fun _ _ _ _ late => ?_) fun g' h' => ?_
    · split at late
      case h_2 => cases late
      split at late
      case isFalse => cases late
      exact Supervisor.endPing?_turn late
    · simp only [Act.contact?, eq_comm]
  | answer i call fault =>
    have done := moved
    simp only [step?, answer?, Option.bind_eq_bind, Option.bind_eq_some_iff] at moved
    obtain ⟨w, hw, moved⟩ := moved
    have active : w.phase ≠ .spawned := fun spawned => by simp [spawned] at moved
    obtain ⟨x, hx⟩ := housed.executor hw active
    obtain ⟨f, deed, rfl⟩ := answer?_deed done hw hx
    exact .of_deed ⟨rfl, fun _ _ => rfl⟩ deed
  | expire i =>
    have done := moved
    simp only [step?, expire?, Option.bind_eq_bind, Option.bind_eq_some_iff] at moved
    obtain ⟨w, hw, x, hx, _⟩ := moved
    obtain ⟨f, deed, rfl⟩ := expire?_deed done hw hx
    exact .of_deed ⟨rfl, fun _ _ => rfl⟩ deed
  | pass | setWall =>
    cases moved
    exact .of_same ⟨rfl, fun _ _ => rfl⟩ rfl rfl

/-- Whatever may happen, this is what it does to the registries and the inquiries. -/
theorem of_act? (housed : e.Housed) (done : e.act? a = some e') : Stirs e e' a := by
  cases a with
  | move m => exact .of_move? housed done
  | serve request =>
    cases done
    cases request with
    | openRegistry settings => exact .opens ⟨rfl, fun _ _ => rfl⟩ settings rfl rfl
    | closeRegistry k => exact .closes ⟨rfl, fun _ _ => rfl⟩ k rfl rfl
    | ask registry host purpose =>
      exact .still ⟨rfl, fun _ _ => rfl⟩ [⟨registry, host, purpose, .opening⟩] (by simp) rfl rfl
    | openExecutor | dispatch | cancel | shutdown | closeChannel =>
      exact .of_same ⟨rfl, fun _ _ => rfl⟩ rfl rfl
  | receive k =>
    obtain ⟨⟨event, e'⟩, received, rfl⟩ := Option.map_eq_some_iff.mp done
    obtain ⟨x, _, received⟩ := Option.bind_eq_some_iff.mp received
    split at received
    · cases received
    · cases received
      exact .of_same ⟨rfl, fun _ _ => rfl⟩ rfl rfl

/-- A registry stays with its settings, and once it is closed it remains so. -/
theorem registry (stirs : Stirs e e' a) {r : Registry} (hr : e.registries[g]? = some r) :
    ∃ r', e'.registries[g]? = some r' ∧ r'.settings = r.settings ∧
      (r'.isOpen = true → r.isOpen = true) := by
  have modified (k : Nat) {f : Registry → Registry} (settings : ∀ r, (f r).settings = r.settings)
      (closed : ∀ r, (f r).isOpen = true → r.isOpen = true) :
      ∃ r', (e.registries.modify k f)[g]? = some r' ∧ r'.settings = r.settings ∧
        (r'.isOpen = true → r.isOpen = true) := by
    rw [List.getElem?_modify, hr]
    refine ⟨if k = g then f r else r, rfl, ?_⟩
    split
    · exact ⟨settings r, closed r⟩
    · exact ⟨rfl, id⟩
  cases stirs with
  | still _ _ _ registries => exact ⟨r, by rw [registries, hr], rfl, id⟩
  | inquires _ _ goes =>
    cases goes with
    | stays _ after | fails _ _ after | decides _ _ _ after =>
      exact ⟨r, by rw [after]; exact hr, rfl, id⟩
    | asks _ _ _ _ _ registries =>
      rw [registries]
      exact modified _ (fun _ => rfl) fun _ => id
  | opens _ _ registries =>
    refine ⟨r, ?_, rfl, id⟩
    rw [registries, List.getElem?_append_left (List.getElem?_eq_some_iff.mp hr).1, hr]
  | closes _ k registries =>
    rw [registries]
    refine modified k (fun r => ?_) fun r => ?_ <;>
    · unfold Registry.close
      split <;> simp
  | turns _ _ _ registries =>
    rw [registries]
    exact modified _ (fun _ => rfl) fun _ => id

end Stirs

/-- One supervisor is replaced, or is new. -/
theorem supervisor?_sets {r : Registry} {s : Supervisor} (hr : e.registries[g]? = some r)
    (registries : e'.registries = (e.modifyRegistry g (·.setSupervisor h s)).registries) (g' : Nat)
    (h' : String) :
    e'.supervisor? g' h' = if g' = g ∧ h' = h then some s else e.supervisor? g' h' := by
  rw [supervisor?, registries, ← supervisor?, supervisor?_set hr]

/-- A new registry has no supervisors. -/
theorem supervisor?_opens {settings : ProbeSettings}
    (registries : e'.registries = e.registries ++ [.fresh settings]) (g : Nat) (h : String) :
    e'.supervisor? g h = e.supervisor? g h := by
  rw [supervisor?, supervisor?, registries, List.getElem?_append]
  split
  · rfl
  next outside =>
    rw [List.getElem?_eq_none (Nat.le_of_not_lt outside), Option.bind_none]
    refine Option.bind_eq_none_iff.mpr fun r fresh => ?_
    rw [List.mem_singleton.mp (List.mem_of_getElem? fresh)]
    rfl

/-- The supervisors of a registry that is closed find one more mail at most. -/
theorem supervisor?_closes {k : Nat} (registries : e'.registries = e.registries.modify k Registry.close)
    (g : Nat) (h : String) : e'.supervisor? g h = e.supervisor? g h ∨
      (∀ r, e'.registries[g]? = some r → r.isOpen = false) ∧
        e'.supervisor? g h = (e.supervisor? g h).map fun s => s.post .shutdown := by
  rw [supervisor?, supervisor?, registries, List.getElem?_modify]
  cases e.registries[g]? with
  | none => exact .inl rfl
  | some r =>
    simp only [Option.bind_some]
    split
    · refine (r.supervisor?_close h).imp_right fun posted => ⟨fun r' hr' => ?_, posted⟩
      cases hr'
      exact r.isOpen_close
    · exact .inl rfl

end Engine

end Rollout
