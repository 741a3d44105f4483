-- SUMMARY: What an engine comes to when nothing is left to happen: every question is answered and every worker gone.
import Rollout.Proofs.Engine.Queues
import Rollout.Proofs.Engine.GatedAttempts

/-!
# Engines at rest

An engine is at rest when no worker, no inquiry and no supervisor goes on by itself, and no agent is waited
for. Then every worker is gone. A worker at its gate waits for an inquiry, and the inquiry for a supervisor,
which has the question still; a worker in a queue waits for others, and in the end for one that is free.
-/
namespace Rollout

-- ---------------------------------------------------------------------------
-- Supervisors
-- ---------------------------------------------------------------------------

/-- The supervisor has not stopped, and somebody waits for its answer. -/
def Supervisor.Owes (s : Supervisor) (j : Nat) : Prop := j ∈ s.askers ∧ s.activity ≠ .stopped

/-- Whoever waits for a supervisor goes on waiting or is answered. -/
def Reaction.Complete (r : Reaction) (s : Supervisor) : Prop :=
  ∀ j, s.Owes j → r.supervisor.Owes j ∨ j ∈ r.answers.map Prod.fst

/-- The command may pass, or it is refused. -/
def InquiryState.isOver : InquiryState → Bool
  | .passed _ | .refused _ => true
  | .opening | .asked _ | .answered .. => false

namespace Supervisor

variable {settings : ProbeSettings} {now : Nat} {s : Supervisor} {r : Reaction}

/-- Whoever waits when a mail is taken goes on waiting or is answered. -/
theorem takeMail?_complete (h : s.takeMail? settings now = some r) : r.Complete s := by
  unfold takeMail? at h
  split at h
  next idle =>
    split at h
    · cases h
    next mail rest mailbox =>
      rintro j ⟨asked, _⟩
      replace asked : j ∈ s.waiting := by simpa [askers, idle] using asked
      dsimp only at h
      split at h
      next asker =>
        cases h
        obtain rfl | later : j = asker ∨ j ∈ waiting { s with mailbox := rest } := by
          simpa [waiting, mailbox] using asked
        · exact .inr (by simp)
        · exact .inl ⟨List.mem_append_left _ later, by simp [idle]⟩
      next asker =>
        cases h
        refine .inl ⟨?_, by simp [sendPing]⟩
        obtain rfl | later : j = asker ∨ j ∈ waiting { s with mailbox := rest } := by
          simpa [waiting, mailbox] using asked
        · exact List.mem_append_right _ (by simp [sendPing])
        · exact List.mem_append_left _ later
      next =>
        cases h
        refine .inr ?_
        simpa [stop, waiting, mailbox] using asked
  · cases h

theorem tick?_complete (h : s.tick? settings now = some r) : r.Complete s := by
  unfold tick? at h
  split at h
  next due =>
    cases h
    rintro j ⟨asked, _⟩
    replace asked : j ∈ s.waiting := by simpa [askers, due.1] using asked
    exact .inl ⟨List.mem_append_left _ asked, by simp [sendPing]⟩
  · cases h

theorem endPing?_complete {contact : Option Timestamp} (h : s.endPing? settings contact = some r) :
    r.Complete s := by
  unfold endPing? at h
  split at h
  next ping pinging =>
    cases h
    rintro j ⟨asked, _⟩
    obtain waits | asker := List.mem_append.mp asked
    · exact .inl ⟨List.mem_append_left _ waits, by simp⟩
    · exact .inr (by simpa [pinging] using asker)
  · cases h

theorem Owes.post {j : Nat} (owes : s.Owes j) (mail : Mail) : (s.post mail).Owes j := by
  refine ⟨?_, owes.2⟩
  obtain waits | asker := List.mem_append.mp owes.1
  · refine List.mem_append_left _ ?_
    rw [waiting, Supervisor.post, List.filterMap_append]
    exact List.mem_append_left _ waits
  · exact List.mem_append_right _ asker

theorem owes_ask (going : s.activity ≠ .stopped) (j : Nat) (question : Question) :
    (s.post (.ask j question)).Owes j :=
  ⟨List.mem_append_left _ (by simp [waiting, post]), going⟩

end Supervisor

namespace Engine

variable {e e' : Engine} {g i j : Nat} {h : String} {q : Inquiry} {w : Worker} {x : Executor}
  {f : Effect}

-- ---------------------------------------------------------------------------
-- Inquiries that wait
-- ---------------------------------------------------------------------------

/-- Whoever asked a supervisor can be answered, and whoever was answered can go on. -/
def Heeded (e : Engine) (j : Nat) (q : Inquiry) : Prop :=
  match q.state with
  | .asked _ => ∃ s, e.supervisor? q.registry q.host = some s ∧ s.Owes j
  | .answered .. => q.registry < e.registries.length
  | .opening | .passed _ | .refused _ => True

/-- All inquiries are heeded. -/
def Attentive (e : Engine) : Prop := ∀ (j : Nat) q, e.inquiries[j]? = some q → e.Heeded j q

/-- Supervisors that owe an answer owe it still. -/
structure Keeps (e e' : Engine) : Prop where
  registries : e.registries.length ≤ e'.registries.length
  owes : ∀ {g : Nat} {h : String} {s : Supervisor} {j : Nat}, e.supervisor? g h = some s → s.Owes j →
    ∃ s', e'.supervisor? g h = some s' ∧ s'.Owes j

theorem Keeps.of_same (registries : e'.registries = e.registries) : Keeps e e' where
  registries := by rw [registries]
  owes hs owes := ⟨_, by rw [supervisor?, registries, ← supervisor?, hs], owes⟩

theorem Heeded.keeps (heeded : e.Heeded j q) (keeps : Keeps e e') : e'.Heeded j q := by
  unfold Heeded at heeded ⊢
  split at heeded
  · obtain ⟨s, hs, owes⟩ := heeded
    exact keeps.owes hs owes
  · exact Nat.lt_of_lt_of_le heeded keeps.registries
  · exact trivial
  · exact trivial
  · exact trivial

theorem registry_lt {s : Supervisor} (hs : e.supervisor? g h = some s) : g < e.registries.length := by
  obtain ⟨r, hr, _⟩ := Option.bind_eq_some_iff.mp hs
  exact (List.getElem?_eq_some_iff.mp hr).1

namespace Attentive

/-- Inquiries are added at most, and none of them waits yet. -/
theorem of_append (attentive : e.Attentive) (new : List Inquiry) (keeps : Keeps e e')
    (inquiries : e'.inquiries = e.inquiries ++ new) (fresh : ∀ q ∈ new, q.state = .opening) :
    e'.Attentive := by
  intro j q hq
  rw [inquiries, List.getElem?_append] at hq
  split at hq
  · exact (attentive j q hq).keeps keeps
  · simp only [Heeded, fresh q (List.mem_of_getElem? hq)]

theorem of_same (attentive : e.Attentive) (registries : e'.registries = e.registries)
    (inquiries : e'.inquiries = e.inquiries) : e'.Attentive :=
  attentive.of_append [] (.of_same registries) (by rw [inquiries, List.append_nil]) (by simp)

/-- One inquiry is put into a state in which it is heeded. -/
theorem of_set (attentive : e.Attentive) (keeps : Keeps e e') (hq : e.inquiries[j]? = some q)
    {state : InquiryState} (inquiries : e'.inquiries = (e.setInquiry j state).inquiries)
    (heeded : e'.Heeded j { q with state := state }) : e'.Attentive := by
  intro k q' hq'
  rw [inquiries, setInquiry_inquiries?] at hq'
  obtain ⟨q₀, hq₀, rfl⟩ := Option.map_eq_some_iff.mp hq'
  split
  next here =>
    subst here
    cases hq.symm.trans hq₀
    exact heeded
  · exact (attentive k q₀ hq₀).keeps keeps

end Attentive

/-! ## Asking -/

/-- A supervisor is asked when the registry is open and the supervisor has not stopped. -/
theorem ask_cases (j : Nat) (q : Inquiry) (question : Question) :
    e.ask j q question = e ∨ (∃ fault, e.ask j q question = e.setInquiry j (.refused fault)) ∨
      ∃ r s, e.registries[q.registry]? = some r ∧ s.activity ≠ .stopped ∧
        (∀ s', r.supervisor? q.host = some s' → s' = s) ∧
        e.ask j q question = (e.modifyRegistry q.registry
          (·.setSupervisor q.host (s.post (.ask j question)))).setInquiry j (.asked question) := by
  unfold ask
  split
  · exact .inl rfl
  next r hr =>
    split
    · exact .inr (.inl ⟨_, rfl⟩)
    · dsimp only
      split
      · exact .inr (.inl ⟨_, rfl⟩)
      next going =>
        refine .inr (.inr ⟨r, _, hr, going, fun s' hs' => ?_, rfl⟩)
        rw [hs', Option.getD_some]

theorem Attentive.ask (attentive : e.Attentive) (hq : e.inquiries[j]? = some q)
    (question : Question) : (e.ask j q question).Attentive := by
  obtain same | ⟨fault, refused⟩ | ⟨r, s, hr, going, known, asked⟩ := ask_cases (e := e) j q question
  · rwa [same]
  · rw [refused]
    exact attentive.of_set (.of_same rfl) hq rfl trivial
  rw [asked]
  have set (g' : Nat) (h' : String) := supervisor?_set (h := q.host) hr (s.post (.ask j question)) g' h'
  refine attentive.of_set ⟨by simp [setInquiry, modifyRegistry], fun {g h s' k} hs' owes => ?_⟩ hq rfl
    ⟨_, (set _ _).trans (if_pos ⟨rfl, rfl⟩), Supervisor.owes_ask going j question⟩
  by_cases here : g = q.registry ∧ h = q.host
  · obtain ⟨rfl, rfl⟩ := here
    rw [supervisor?, hr, Option.bind_some] at hs'
    cases known s' hs'
    exact ⟨_, (set _ _).trans (if_pos ⟨rfl, rfl⟩), owes.post (.ask j question)⟩
  · exact ⟨s', ((set g h).trans (if_neg here)).trans hs', owes⟩

/-- The answer to an inquiry leads to another question, or it is the end. -/
theorem follow_ends {settings : ProbeSettings} {wall : Timestamp} {question : Question} {s : Session}
    {result : InquiryState} (follow : q.follow settings wall question s = .inr result) :
    (∃ s, result = .passed s) ∨ ∃ fault, result = .refused fault := by
  have verdict (host : String) : (∃ s', Inquiry.verdict host s = .passed s') ∨
      ∃ fault, Inquiry.verdict host s = .refused fault := by
    unfold Inquiry.verdict
    split
    · exact .inr ⟨_, rfl⟩
    · exact .inl ⟨_, rfl⟩
  unfold Inquiry.follow at follow
  split at follow
  · split at follow
    · cases follow
    · cases follow
      exact verdict q.host
  · cases follow
    exact verdict q.host
  · cases follow
    exact .inl ⟨_, rfl⟩

theorem Attentive.inquire? (attentive : e.Attentive) (inquired : e.inquire? j = some e') :
    e'.Attentive := by
  simp only [Engine.inquire?, Option.bind_eq_bind, Option.bind_eq_some_iff] at inquired
  obtain ⟨q, hq, inquired⟩ := inquired
  split at inquired
  · cases inquired
    exact attentive.ask hq _
  · obtain ⟨r, _, inquired⟩ := Option.bind_eq_some_iff.mp inquired
    split at inquired
    · cases inquired
      exact attentive.ask hq _
    next result follow =>
      cases inquired
      refine attentive.of_set (.of_same rfl) hq rfl ?_
      obtain ⟨_, rfl⟩ | ⟨_, rfl⟩ := follow_ends follow <;> exact trivial
  all_goals cases inquired

/-! ## Answers -/

/-- The inquiry does not wait for a supervisor. -/
def Unasked (e : Engine) (j : Nat) : Prop :=
  ∀ q question, e.inquiries[j]? = some q → q.state ≠ .asked question

theorem deliver_length (answer : Nat × Option Session) :
    (e.deliver answer).inquiries.length = e.inquiries.length := by
  unfold deliver
  split
  split
  · split <;> simp [setInquiry]
  · rfl

theorem foldl_deliver_length (answers : List (Nat × Option Session)) :
    (answers.foldl (fun e answer => e.deliver answer) e).inquiries.length = e.inquiries.length := by
  induction answers generalizing e with
  | nil => rfl
  | cons answer answers ih => exact ih.trans (deliver_length answer)

/-- An answer ends the wait of the one that it is for, and nobody starts to wait. -/
theorem deliver_unasked {answer : Nat × Option Session} (why : e.Unasked j ∨ answer.1 = j) :
    (e.deliver answer).Unasked j := by
  intro q' question hq' asked
  obtain ⟨k, session⟩ := answer
  have set {state : InquiryState} (unasked : ∀ question, state ≠ .asked question)
      (hq' : (e.setInquiry k state).inquiries[j]? = some q') : e.Unasked j ∧ j ≠ k := by
    rw [setInquiry_inquiries?] at hq'
    obtain ⟨q, hq, rfl⟩ := Option.map_eq_some_iff.mp hq'
    split at asked
    · exact absurd asked (unasked question)
    next other => exact ⟨why.resolve_right (Ne.symm other), other⟩
  unfold deliver at hq'
  dsimp only at hq'
  split at hq'
  next found =>
    -- The state that an answer leads to is no question.
    split at hq'
    all_goals
      obtain ⟨unasked, other⟩ := set (by simp) hq'
      rw [setInquiry_inquiries?, Option.map_congr fun q _ => if_neg other] at hq'
      exact unasked q' question (by simpa using hq') asked
  next none_asked =>
    obtain unasked | rfl := why
    · exact unasked q' question hq' asked
    · obtain ⟨registry, host, purpose, state⟩ := q'
      cases asked
      exact none_asked _ _ _ _ hq'

theorem foldl_deliver_unasked {answers : List (Nat × Option Session)}
    (why : e.Unasked j ∨ j ∈ answers.map Prod.fst) :
    (answers.foldl (fun e answer => e.deliver answer) e).Unasked j := by
  induction answers generalizing e with
  | nil => exact why.resolve_right (by simp)
  | cons answer answers ih =>
    refine ih ?_
    obtain unasked | mine := why
    · exact .inl (deliver_unasked (.inl unasked))
    · obtain here | later := List.mem_cons.mp mine
      · exact .inl (deliver_unasked (.inr here.symm))
      · exact .inr later

/-- A supervisor that does something leaves no inquiry unheeded. -/
theorem Attentive.react {act : ProbeSettings → Supervisor → Option Reaction}
    (attentive : e.Attentive) (reacted : e.react g h act = some e')
    (complete : ∀ settings s r, act settings s = some r → r.Complete s)
    (fair : ∀ settings s r, act settings s = some r → r.Fair s True) : e'.Attentive := by
  simp only [Engine.react, Option.bind_eq_bind, Option.bind_eq_some_iff] at reacted
  obtain ⟨r, hr, s, hs, reaction, acts, reacted⟩ := reacted
  have known : e.supervisor? g h = some s := by rw [supervisor?, hr, Option.bind_some, hs]
  have complete := complete r.settings s reaction acts
  have fair := fair r.settings s reaction acts
  let e₁ := e.modifyRegistry g (·.setSupervisor h reaction.supervisor)
  let e₂ := reaction.answers.foldl (fun e answer => e.deliver answer) e₁
  have registries : e₂.registries = e₁.registries := foldl_deliver_registries ..
  have after (g' : Nat) (h' : String) : e₂.supervisor? g' h' =
      if g' = g ∧ h' = h then some reaction.supervisor else e.supervisor? g' h' := by
    rw [← supervisor?_set hr, supervisor?, registries, supervisor?]
  have as_many : e₂.registries.length = e.registries.length := by
    rw [registries]
    simp [e₁, modifyRegistry]
  -- A ping that is sent is recorded, which changes nothing else.
  suffices all : e₂.Attentive by
    split at reacted
    · cases reacted
      exact all.of_same rfl rfl
    · cases reacted
      exact all
  intro j q' hq'
  have inside : j < e.inquiries.length := by
    have := (List.getElem?_eq_some_iff.mp hq').1
    rwa [foldl_deliver_length] at this
  obtain ⟨q, hq⟩ : ∃ q, e.inquiries[j]? = some q := ⟨_, List.getElem?_eq_getElem inside⟩
  have heeded := attentive j q hq
  obtain ⟨state, hq₂, delivered⟩ := foldl_deliver_inquiries? (e := e₁) _ reaction.supervisor.session
    (fun answer ha => (fair.answers answer ha).2) hq
  cases hq'.symm.trans hq₂
  cases delivered with
  | same =>
    obtain ⟨registry, host, purpose, state⟩ := q
    cases state with
    | asked question =>
      obtain ⟨s', hs', owes⟩ := heeded
      simp only [Heeded, after]
      split
      next here =>
        obtain ⟨rfl, rfl⟩ := here
        cases hs'.symm.trans known
        obtain still | answered := complete j owes
        · exact ⟨_, rfl, still⟩
        · exact absurd rfl (foldl_deliver_unasked (.inr answered) _ question hq₂)
      · exact ⟨s', hs', owes⟩
    | answered =>
      simp only [Heeded] at heeded ⊢
      rwa [as_many]
    | opening | passed | refused => exact trivial
  | answered asked =>
    simp only [Heeded, asked] at heeded ⊢
    obtain ⟨_, hs', _⟩ := heeded
    exact as_many ▸ registry_lt hs'
  | dropped => exact trivial

-- ---------------------------------------------------------------------------
-- All acts
-- ---------------------------------------------------------------------------

theorem Deed.inquiries_opening (deed : Deed e i w x f) : ∀ q ∈ f.inquiries, q.state = .opening := by
  cases deed <;> simp

theorem Attentive.put (attentive : e.Attentive) (deed : Deed e i w x f) :
    (e.put i w f).Attentive :=
  attentive.of_append _ (.of_same rfl) rfl deed.inquiries_opening

/-- No move of an engine leaves an inquiry unheeded. -/
theorem Attentive.move (attentive : e.Attentive) (housed : e.Housed) {m : Move}
    (moved : e.step? m = some e') : e'.Attentive := by
  cases m with
  | work i =>
    have done := moved
    simp only [step?, work?, Option.bind_eq_bind, Option.bind_eq_some_iff] at moved
    obtain ⟨w, hw, x, hx, _⟩ := moved
    obtain ⟨q, inquired⟩ | ⟨f, deed, rfl⟩ := work?_deed hw hx done
    · exact attentive.inquire? inquired
    · exact attentive.put deed
  | inquire => exact attentive.inquire? moved
  | supervise registry host =>
    rw [step?, supervise?] at moved
    exact attentive.react moved (fun _ _ _ took => Supervisor.takeMail?_complete took)
      fun _ _ _ took => Supervisor.takeMail?_fair took
  | tick registry host =>
    rw [step?, tick?] at moved
    exact attentive.react moved (fun _ _ _ ticked => Supervisor.tick?_complete ticked)
      fun _ _ _ ticked => Supervisor.tick?_fair ticked
  | pong registry host contact =>
    rw [step?, pong?] at moved
    exact attentive.react moved (fun _ _ _ ended => Supervisor.endPing?_complete ended)
      fun _ _ _ ended => Supervisor.endPing?_fair ended fun _ => trivial
  | pingTimeout registry host =>
    rw [step?, pingTimeout?] at moved
    refine attentive.react moved (fun _ _ _ late => ?_) fun _ _ _ late => ?_
    all_goals
      split at late
      case h_2 => cases late
      split at late
      case isFalse => cases late
    · exact Supervisor.endPing?_complete late
    · exact Supervisor.endPing?_fair late fun _ => trivial
  | answer i call fault =>
    have done := moved
    simp only [step?, answer?, Option.bind_eq_bind, Option.bind_eq_some_iff] at moved
    obtain ⟨w, hw, moved⟩ := moved
    have active : w.phase ≠ .spawned := fun spawned => by simp [spawned] at moved
    obtain ⟨x, hx⟩ := housed.executor hw active
    obtain ⟨f, deed, rfl⟩ := answer?_deed done hw hx
    exact attentive.put deed
  | expire i =>
    have done := moved
    simp only [step?, expire?, Option.bind_eq_bind, Option.bind_eq_some_iff] at moved
    obtain ⟨w, hw, x, hx, _⟩ := moved
    obtain ⟨f, deed, rfl⟩ := expire?_deed done hw hx
    exact attentive.put deed
  | pass | setWall =>
    cases moved
    exact attentive.of_same rfl rfl

/-- Nor does any request of a client. A registry that is closed keeps its supervisors until they come to the mail. -/
theorem Attentive.serve (attentive : e.Attentive) (request : Request) :
    (e.serve request).Attentive := by
  cases request with
  | openRegistry settings =>
    refine attentive.of_append [] ⟨by simp [Engine.serve], fun {g h s j} hs owes => ?_⟩
      (List.append_nil _).symm (by simp)
    refine ⟨s, ?_, owes⟩
    rw [supervisor?, Engine.serve, List.getElem?_append_left (registry_lt hs), ← supervisor?, hs]
  | closeRegistry k =>
    refine attentive.of_append []
      ⟨by simp [Engine.serve, modifyRegistry], fun {g h s j} hs owes => ?_⟩
      (List.append_nil _).symm (by simp)
    obtain ⟨r, hr, known⟩ := Option.bind_eq_some_iff.mp hs
    have after : (e.serve (.closeRegistry k)).supervisor? g h =
        (if k = g then r.close else r).supervisor? h := by
      rw [supervisor?, Engine.serve, modifyRegistry, List.getElem?_modify, hr]
      split <;> rfl
    rw [after]
    split
    · obtain same | posted := r.supervisor?_close h
      · exact ⟨s, same.trans known, owes⟩
      · exact ⟨_, by rw [posted, known]; rfl, owes.post .shutdown⟩
    · exact ⟨s, known, owes⟩
  | ask registry host purpose =>
    exact attentive.of_append _ (.of_same rfl) rfl (by simp)
  | openExecutor | dispatch | cancel | shutdown | closeChannel =>
    exact attentive.of_same rfl rfl

theorem Attentive.act (attentive : e.Attentive) (housed : e.Housed) {a : Act}
    (done : e.act? a = some e') : e'.Attentive := by
  cases a with
  | move m => exact attentive.move housed done
  | serve request =>
    cases done
    exact attentive.serve request
  | receive k =>
    obtain ⟨⟨event, e'⟩, received, rfl⟩ := Option.map_eq_some_iff.mp done
    obtain ⟨x, _, received⟩ := Option.bind_eq_some_iff.mp received
    split at received
    · cases received
    · cases received
      exact attentive.of_same rfl rfl

theorem attentive_of_reachable (reachable : e.Reachable) : e.Attentive := by
  obtain ⟨wall, acts, played⟩ := reachable
  exact play?_induction (P := fun _ e => e.Attentive) (by simp [Attentive, empty])
    (fun played attentive done => attentive.act (housed_of_play? played) done) played

/-! ## Workers with a command -/

/-- The worker has a command in hand. -/
def Worker.IsBusy (w : Worker) : Prop :=
  match w.phase with
  | .atGate _ | .sending _ | .announced _ | .calling .. | .called .. | .reporting _ =>
    w.commands ≠ []
  | .spawned | .awaitingLock | .awaitingSlot | .choosing | .gone => True

theorem Deed.isBusy (deed : Deed e i w x f) (busy : Worker.IsBusy w) : Worker.IsBusy f.worker := by
  cases deed with
  | arrive | leave | lock | settle | report => exact trivial
  | knock _ some_left => exact some_left
  | pass phase | turnBack phase | giveUp phase | announce phase | call phase | answer _ phase
  | expire phase =>
    simpa only [Worker.IsBusy, phase] using busy
  | @conclude retries fault phase =>
    simp only [Worker.IsBusy, phase] at busy
    obtain ⟨_, next⟩ | ⟨_, _, next⟩ := afterCall_cases x retries fault <;>
      simpa only [Worker.IsBusy, next] using busy

theorem isBusy_of_reachable (reachable : e.Reachable) : ∀ w ∈ e.workers, Worker.IsBusy w := by
  obtain ⟨wall, acts, played⟩ := reachable
  refine play?_induction (P := fun _ e => ∀ w ∈ e.workers, Worker.IsBusy w) (by simp [empty])
    (fun {acts e e' a} played busy done => ?_) played
  cases Course.of_act? (housed_of_play? played) done with
  | deed worker _ deed after =>
    subst after
    exact forall_put busy (deed.isBusy (busy _ (List.mem_of_getElem? worker)))
  | grows new spawned workers =>
    intro w hw
    rw [workers] at hw
    obtain hw | hw := List.mem_append.mp hw
    · exact busy w hw
    · simp only [Worker.IsBusy, spawned w hw]

-- ---------------------------------------------------------------------------
-- Rest
-- ---------------------------------------------------------------------------

/-- Nothing goes on by itself, and nobody waits for an agent. Pings of the background may begin later. -/
structure AtRest (e : Engine) : Prop where
  work : ∀ i, e.work? i = none
  inquire : ∀ j, e.inquire? j = none
  supervise : ∀ g h, e.supervise? g h = none
  calls : e.callsUnderWay = []
  pings : ∀ g h s, e.supervisor? g h = some s → ∀ ping, s.activity ≠ .pinging ping

/-- The engine is at rest when all workers are gone, all inquiries are over and all supervisors idle. -/
theorem AtRest.of_idle (workers : ∀ w ∈ e.workers, w.phase = .gone)
    (inquiries : ∀ q ∈ e.inquiries, q.state.isOver = true)
    (supervisors : ∀ r ∈ e.registries, ∀ entry ∈ r.supervisors,
      entry.2.activity = .idle ∧ entry.2.mailbox = []) : e.AtRest := by
  have idle {g : Nat} {h : String} {r : Registry} {s : Supervisor} (hr : e.registries[g]? = some r)
      (hs : r.supervisor? h = some s) : s.activity = .idle ∧ s.mailbox = [] := by
    obtain ⟨front, back, split, _⟩ := List.lookup_eq_some_iff.mp hs
    exact supervisors r (List.mem_of_getElem? hr) (h, s) (by simp [split])
  refine ⟨fun i => ?work, fun j => ?inquire, fun g h => ?supervise, ?calls, fun g h s hs ping => ?pings⟩
  case work =>
    cases hw : e.workers[i]? with
    | none => simp [work?, hw]
    | some w => simp [work?, hw, workers w (List.mem_of_getElem? hw)]
  case inquire =>
    cases hq : e.inquiries[j]? with
    | none => simp [inquire?, hq]
    | some q =>
      have settled := inquiries q (List.mem_of_getElem? hq)
      simp only [inquire?, hq, Option.bind_eq_bind, Option.bind_some]
      split
      next opening => simp [opening, InquiryState.isOver] at settled
      next answered => simp [answered, InquiryState.isOver] at settled
      all_goals rfl
  case supervise =>
    rw [supervise?, react]
    cases hr : e.registries[g]? with
    | none => rfl
    | some r =>
      cases hs : r.supervisor? h with
      | none => simp [hs]
      | some s =>
        obtain ⟨activity, mailbox⟩ := idle hr hs
        simp [hs, Supervisor.takeMail?, activity, mailbox]
  case calls =>
    refine List.filter_eq_nil_iff.mpr fun p hp => ?_
    obtain ⟨⟨w, i⟩, hw, rfl⟩ := List.mem_map.mp hp
    simp [workers w (List.fst_mem_of_mem_zipIdx hw)]
  case pings =>
    obtain ⟨r, hr, hs⟩ := Option.bind_eq_some_iff.mp hs
    simp [(idle hr hs).1]

/-- At rest no inquiry waits. -/
theorem AtRest.answered (rest : e.AtRest) (attentive : e.Attentive) (hq : e.inquiries[j]? = some q) :
    (∃ s, q.state = .passed s) ∨ ∃ fault, q.state = .refused fault := by
  have still := rest.inquire j
  have heeded := attentive j q hq
  obtain ⟨registry, host, purpose, state⟩ := q
  cases state with
  | opening => simp [inquire?, hq] at still
  | asked question =>
    obtain ⟨s, hs, asked, going⟩ := heeded
    obtain ⟨r, hr, known⟩ := Option.bind_eq_some_iff.mp hs
    dsimp only at hr known
    cases activity : s.activity with
    | stopped => exact absurd activity going
    | pinging ping => exact absurd activity (rest.pings _ _ s hs ping)
    | idle =>
      -- The question is in the mailbox, so the supervisor goes on.
      have mailed : s.mailbox ≠ [] := by
        rintro mailbox
        simp [Supervisor.askers, Supervisor.waiting, mailbox, activity] at asked
      obtain ⟨mail, later, mailbox⟩ := List.exists_cons_of_ne_nil mailed
      have silent := rest.supervise registry host
      simp only [supervise?, react, hr, known, Supervisor.takeMail?, activity, mailbox,
        Option.bind_eq_bind, Option.bind_some, if_pos] at silent
      cases mail with
      | ask asker question => cases question <;> simp [Supervisor.sendPing] at silent
      | shutdown => simp [Supervisor.stop] at silent
  | answered question s =>
    have known : e.registries[registry]? = some _ := List.getElem?_eq_getElem heeded
    simp only [inquire?, hq, known, Option.bind_eq_bind, Option.bind_some] at still
    split at still <;> cases still
  | passed s => exact .inl ⟨s, rfl⟩
  | refused fault => exact .inr ⟨fault, rfl⟩

theorem Comes.moves {phase : Phase} (comes : e.Comes i w phase) (hw : e.workers[i]? = some w)
    (other : w.phase ≠ phase) : e.work? i ≠ none := by
  obtain ⟨n, e', played, here⟩ := comes
  cases n with
  | zero =>
    cases played
    have same := congrArg Worker.phase (Option.some.inj (hw.symm.trans here))
    exact absurd same other
  | succ n =>
    obtain ⟨e₁, moved, _⟩ := Option.bind_eq_some_iff.mp played
    rw [show e.work? i = some e₁ from moved]
    exact nofun

/-- A worker with lock and slot goes on, or it waits for an agent. -/
theorem AtRest.not_atWork (rest : e.AtRest) (reachable : e.Reachable) (hw : e.workers[i]? = some w)
    (hx : e.executors[w.executor]? = some x) (slotted : w.phase.hasSlot = true) : False := by
  have still := rest.work i
  have busy := isBusy_of_reachable reachable w (List.mem_of_getElem? hw)
  simp only [work?, hw, hx, Option.bind_eq_bind, Option.bind_some] at still
  cases phase : w.phase with
  | spawned | awaitingLock | awaitingSlot | gone => simp [phase, Phase.hasSlot] at slotted
  | choosing =>
    simp only [phase] at still
    split at still <;> cases still
  | atGate q =>
    obtain ⟨wall, acts, played⟩ := reachable
    have vetted := watched_of_play? played i w x hw hx
    simp only [Vetted, phase] at vetted
    obtain ⟨state, hq, _⟩ := vetted
    simp only [phase, hq, Option.bind_some] at still
    obtain ⟨s, ended⟩ | ⟨fault, ended⟩ :=
      rest.answered (attentive_of_reachable ⟨wall, acts, played⟩) hq <;>
    · cases ended
      cases still
  | sending | announced =>
    simp only [Worker.IsBusy, phase] at busy
    obtain ⟨c, later, commands⟩ := List.exists_cons_of_ne_nil busy
    simp [phase, commands] at still
  | reporting =>
    simp only [Worker.IsBusy, phase] at busy
    obtain ⟨c, later, commands⟩ := List.exists_cons_of_ne_nil busy
    simp only [phase, commands, List.head?_cons, Option.bind_some] at still
    split at still <;> cases still
  | calling =>
    have under_way : (i, w) ∈ e.callsUnderWay := by
      refine List.mem_filter.mpr ⟨List.mem_map.mpr ⟨(w, i), ?_, rfl⟩, by simp [phase]⟩
      exact List.mk_mem_zipIdx_iff_getElem?.mpr hw
    rw [rest.calls] at under_way
    cases under_way
  | called =>
    simp only [phase] at still
    cases still

/-- At rest every worker is gone. -/
theorem AtRest.gone (rest : e.AtRest) (reachable : e.Reachable) (hw : e.workers[i]? = some w)
    (hx : e.executors[w.executor]? = some x) : w.phase = .gone := by
  by_contra unfinished
  obtain ⟨j, _, free⟩ :=
    (Lined.of_reachable reachable).leads (Guarded.of_reachable reachable) hw hx unfinished
  cases free with
  | atWork worker executor slotted => exact rest.not_atWork reachable worker executor slotted
  | takesLock worker phase _ takes =>
    exact takes.moves worker (by rintro same; simp [same] at phase) (rest.work j)
  | takesSlot worker _ phase _ takes =>
    exact takes.moves worker (by simp [phase]) (rest.work j)
  | leaves worker _ phase _ _ leaves => exact leaves.moves worker phase (rest.work j)

end Engine

end Rollout
