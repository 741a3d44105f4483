-- SUMMARY: What an act means for an inquiry: where its question is, what it is told, and which ping is sent for it.
import Rollout.Proofs.Engine.Logs
import Rollout.Proofs.Engine.Turns

/-!
# Errands

An inquiry runs an errand at the supervisor of its host: its question is in the mailbox, or the ping that it asked
for is under way. As long as the registry is open its supervisors go on, and an act does one of few things to the
errand. `Engine.Touch` lists them.
-/
namespace Rollout

-- ---------------------------------------------------------------------------
-- Supervisors
-- ---------------------------------------------------------------------------

/-- What a supervisor has to do for somebody who asks: questions to answer, and a ping that is under way. -/
@[ext] structure Errand where
  mailed : List Question
  pinging : Bool
  deriving DecidableEq, Repr

/-- The question that somebody asks with a mail. -/
def Mail.questionOf? (j : Nat) : Mail → Option Question
  | .ask asker question => if asker = j then some question else none
  | .shutdown => none

namespace Supervisor

/-- What a supervisor has to do for somebody who asks. -/
def errand (j : Nat) (s : Supervisor) : Errand where
  mailed := s.mailbox.filterMap (Mail.questionOf? j)
  pinging := match s.activity with
    | .pinging ping => ping.asker = some j
    | _ => false

/-- The supervisor has not stopped, and will not. -/
structure IsGoing (s : Supervisor) : Prop where
  activity : s.activity ≠ .stopped
  mailbox : .shutdown ∉ s.mailbox

variable {settings : ProbeSettings} {now j : Nat} {s : Supervisor} {r : Reaction}

theorem errand_post_ask (question : Question) : (s.post (.ask j question)).errand j =
    ⟨(s.errand j).mailed ++ [question], (s.errand j).pinging⟩ := by
  simp [errand, post, Mail.questionOf?]

theorem errand_post {mail : Mail} (other : mail.questionOf? j = none) :
    (s.post mail).errand j = s.errand j := by
  simp [errand, post, other]

/-- Nothing is to be done for somebody who does not wait. -/
theorem errand_eq_of_not_mem (waits : j ∉ s.askers) : s.errand j = ⟨[], false⟩ := by
  simp only [askers, List.mem_append, not_or, waiting, List.mem_filterMap, not_exists, not_and] at waits
  simp only [errand, Errand.mk.injEq, List.filterMap_eq_nil_iff]
  refine ⟨fun mail posted => ?_, ?_⟩
  · cases mail with
    | ask asker question =>
      have other := waits.1 _ posted
      simpa [Mail.questionOf?] using other
    | shutdown => rfl
  · cases activity : s.activity with
    | pinging ping => simpa [activity] using waits.2
    | idle | stopped => rfl

theorem start_isGoing (host : String) : (start settings host now).IsGoing :=
  ⟨by simp [start], by simp [start]⟩

theorem IsGoing.post_ask (going : s.IsGoing) (asker : Nat) (question : Question) :
    (s.post (.ask asker question)).IsGoing :=
  ⟨going.activity, by simpa [post] using going.mailbox⟩

theorem IsGoing.turn {asker : Option Nat} {contact : Option (Option Timestamp)} (going : s.IsGoing)
    (turn : s.Turn settings now asker contact r) : r.supervisor.IsGoing := by
  have mailbox := going.mailbox
  cases turn with
  | tells idle mail =>
    rw [mail] at mailbox
    exact ⟨going.activity, fun later => mailbox (List.mem_cons_of_mem _ later)⟩
  | probes idle mail =>
    rw [mail] at mailbox
    exact ⟨by simp [sendPing], fun later => mailbox (List.mem_cons_of_mem _ later)⟩
  | stops _ mail => exact absurd (mail ▸ List.mem_cons_self) mailbox
  | ticks => exact ⟨by simp [sendPing], mailbox⟩
  | ends => exact ⟨by simp, mailbox⟩

/-- Only those who wait are answered, or have their mail taken. -/
theorem Turn.waits {asker : Option Nat} {contact : Option (Option Timestamp)}
    (turn : s.Turn settings now asker contact r) :
    (asker = some j → j ∈ s.askers) ∧ ∀ answer ∈ r.answers, answer.1 ∈ s.askers := by
  cases turn with
  | tells _ mail => simp +contextual [askers, waiting, mail]
  | probes _ mail => simp +contextual [askers, waiting, mail, sendPing]
  | stops _ mail =>
    refine ⟨by simp, fun answer answered => ?_⟩
    obtain ⟨asker, waits, rfl⟩ := List.mem_map.mp answered
    refine List.mem_append_left _ ?_
    simpa [waiting, mail] using waits
  | ticks => simp [sendPing]
  | ends contact pinging => simp +contextual [askers, pinging]

end Supervisor

def Inquiry.ping (settings : ProbeSettings) (q : Inquiry) : Happening :=
  .pinged q.registry ⟨settings.username, settings.instanceName, true⟩

namespace Engine

variable {e e' : Engine} {a : Act} {g j : Nat} {h : String} {q : Inquiry}

-- ---------------------------------------------------------------------------
-- Open registries
-- ---------------------------------------------------------------------------

/-- A registry, once it is there, is open and has these settings. -/
def Serves (e : Engine) (g : Nat) (settings : ProbeSettings) : Prop :=
  ∀ r, e.registries[g]? = some r → r.isOpen = true ∧ r.settings = settings

theorem Stirs.serves {settings : ProbeSettings} (stirs : Stirs e e' a) (serves : e'.Serves g settings) :
    e.Serves g settings := by
  intro r hr
  obtain ⟨r', hr', same, stays⟩ := stirs.registry hr
  obtain ⟨hopen, known⟩ := serves r' hr'
  exact ⟨stays hopen, same.symm.trans known⟩

/-- The supervisors of open registries go on. -/
def Running (e : Engine) : Prop :=
  ∀ g h settings s, e.Serves g settings → e.supervisor? g h = some s → s.IsGoing

/-- The supervisor that is asked goes on, also when it is started for that. -/
theorem Running.asked (running : e.Running) {r : Registry} {now : Nat}
    (hr : e.registries[g]? = some r) (hopen : r.isOpen = true) :
    ((r.supervisor? h).getD (.start r.settings h now)).IsGoing := by
  cases hs : r.supervisor? h with
  | none => exact Supervisor.start_isGoing h
  | some s =>
    refine running g h r.settings s (fun r' hr' => ?_) ((supervisor?_of_registry hr).trans hs)
    cases hr.symm.trans hr'
    exact ⟨hopen, rfl⟩

/-- Supervisors of open registries go on at every act. -/
theorem Running.act (running : e.Running) (stirs : Stirs e e' a) : e'.Running := by
  intro g h settings s' serves' hs'
  have serves := stirs.serves serves'
  have stays (same : e'.supervisor? g h = e.supervisor? g h) : s'.IsGoing :=
    running g h settings s' serves (same ▸ hs')
  -- One supervisor is replaced by another one that goes on.
  have sets {g₀ : Nat} {h₀ : String} {r : Registry} {s : Supervisor}
      (registry : e.registries[g₀]? = some r)
      (registries : e'.registries = (e.modifyRegistry g₀ (·.setSupervisor h₀ s)).registries)
      (going : g = g₀ → h = h₀ → s.IsGoing) : s'.IsGoing := by
    have set := supervisor?_sets registry registries g h
    split at set
    next here =>
      cases set.symm.trans hs'
      exact going here.1 here.2
    · exact stays set
  cases stirs with
  | still _ _ _ registries => exact stays (by rw [supervisor?, registries, supervisor?])
  | inquires _ _ goes =>
    cases goes with
    | stays _ after | fails _ _ after | decides _ _ _ after =>
      subst after
      exact stays rfl
    | asks _ registry hopen supervisor _ registries =>
      refine sets registry registries fun _ _ => .post_ask ?_ _ _
      rw [supervisor]
      exact running.asked registry hopen
  | opens _ _ registries => exact stays (supervisor?_opens registries g h)
  | closes _ _ registries =>
    obtain same | ⟨closed, posted⟩ := supervisor?_closes registries g h
    · exact stays same
    · obtain ⟨r, hr, _⟩ := Option.bind_eq_some_iff.mp hs'
      exact absurd (serves' r hr).1 (by simp [closed r hr])
  | turns registry supervisor turn registries =>
    refine sets registry registries ?_
    rintro rfl rfl
    have going := running g h settings _ serves ((supervisor?_of_registry registry).trans supervisor)
    exact going.turn turn

theorem running_of_play? {wall : Timestamp} {acts : List Act}
    (played : (empty wall).play? acts = some e) : e.Running :=
  play?_induction (P := fun _ e => e.Running) (by simp [Running, supervisor?, empty])
    (fun played running done => running.act (.of_act? (housed_of_play? played) done)) played

-- ---------------------------------------------------------------------------
-- Errands at an act
-- ---------------------------------------------------------------------------

/-- What the supervisor of its host has to do for an inquiry. -/
def errandOf (e : Engine) (j : Nat) (q : Inquiry) : Errand :=
  ((e.supervisor? q.registry q.host).map (Supervisor.errand j)).getD ⟨[], false⟩

/-- What is sent for an inquiry at an act: a supervisor takes its mail then. -/
def sentFor (j : Nat) (e e' : Engine) (a : Act) : List Happening :=
  if a.asker? e = some j then e.since e' else []

/-- What an act means for an inquiry with an open registry. -/
inductive Touch (e e' : Engine) (a : Act) (j : Nat) (q : Inquiry) : Prop
  | stays (inquiry : e'.inquiries[j]? = some q) (errand : e'.errandOf j q = e.errandOf j q)
      (silent : sentFor j e e' a = [])
  /-- A question goes into the mailbox. -/
  | asks {r : Registry} {question : Question} (pends : Pends r.settings e.wall q question)
      (registry : e.registries[q.registry]? = some r)
      (inquiry : e'.inquiries[j]? = some { q with state := .asked question })
      (errand : e'.errandOf j q = ⟨(e.errandOf j q).mailed ++ [question], (e.errandOf j q).pinging⟩)
      (silent : sentFor j e e' a = [])
  /-- The answer decides. -/
  | decides {r : Registry} {question : Question} {s : Session} {result : InquiryState}
      (answered : q.state = .answered question s) (registry : e.registries[q.registry]? = some r)
      (follow : q.follow r.settings e.wall question s = .inr result)
      (inquiry : e'.inquiries[j]? = some { q with state := result })
      (errand : e'.errandOf j q = e.errandOf j q) (silent : sentFor j e e' a = [])
  /-- The supervisor comes to the question and tells its session. -/
  | told {s : Session} (mailed : (e.errandOf j q).mailed = .session :: (e'.errandOf j q).mailed)
      (idle : (e'.errandOf j q).pinging = false)
      (inquiry : ∀ question, q.state = .asked question →
        e'.inquiries[j]? = some { q with state := .answered question s })
      (session : e'.session? q.registry q.host = some s) (silent : sentFor j e e' a = [])
  /-- The supervisor comes to the question and sends a ping. -/
  | pings {r : Registry} (registry : e.registries[q.registry]? = some r)
      (mailed : (e.errandOf j q).mailed = .probe :: (e'.errandOf j q).mailed)
      (pinging : (e'.errandOf j q).pinging = true) (inquiry : e'.inquiries[j]? = some q)
      (sent : sentFor j e e' a = [q.ping r.settings])
  /-- The ping is over, and the supervisor tells its session. -/
  | ends {s : Session} (pinging : (e.errandOf j q).pinging = true)
      (errand : e'.errandOf j q = ⟨(e.errandOf j q).mailed, false⟩)
      (inquiry : ∀ question, q.state = .asked question →
        e'.inquiries[j]? = some { q with state := .answered question s })
      (session : e'.session? q.registry q.host = some s) (silent : sentFor j e e' a = [])

/-! ## Answers -/

/-- An answer to somebody else does not change an inquiry. -/
theorem foldl_deliver_other {answers : List (Nat × Option Session)}
    (others : ∀ answer ∈ answers, answer.1 ≠ j) :
    (answers.foldl (fun e answer => e.deliver answer) e).inquiries[j]? = e.inquiries[j]? := by
  induction answers generalizing e with
  | nil => rfl
  | cons answer answers ih =>
    refine (ih fun answer later => others answer (List.mem_cons_of_mem _ later)).trans ?_
    have other : j ≠ answer.1 := (others answer List.mem_cons_self).symm
    dsimp only [deliver]
    split
    · split <;> simp [setInquiry_inquiries?, other]
    · rfl

/-- Whoever waits for an answer gets it. -/
theorem deliver_answer {question : Question} (hq : e.inquiries[j]? = some q)
    (asked : q.state = .asked question) (s : Session) :
    (e.deliver (j, some s)).inquiries[j]? = some { q with state := .answered question s } := by
  obtain ⟨registry, host, purpose, state⟩ := q
  cases asked
  simp [deliver, hq, setInquiry_inquiries?]

/-! ## Turns of supervisors -/

section Turn

variable {r : Registry} {s : Supervisor} {asker : Option Nat} {contact : Option (Option Timestamp)}
  {reaction : Reaction}

theorem errandOf_eq (hs : e.supervisor? q.registry q.host = some s) : e.errandOf j q = s.errand j := by
  rw [errandOf, hs]
  rfl

theorem errandOf_congr (same : e'.supervisor? q.registry q.host = e.supervisor? q.registry q.host) :
    e'.errandOf j q = e.errandOf j q := by
  rw [errandOf, same, errandOf]

theorem sentFor_eq_nil (other : a.asker? e ≠ some j) : sentFor j e e' a = [] := if_neg other

/-- Nothing is sent when no supervisor takes a mail. -/
theorem Act.Calm.sends_nothing (calm : a.Calm e) : sentFor j e e' a = [] :=
  sentFor_eq_nil (by simp [calm.asker])

/-- The answers go to an engine `e₀` that has the inquiry as it is. -/
theorem Touch.of_turn {e₀ : Engine} (hq : e₀.inquiries[j]? = some q)
    (supervisor : e.supervisor? q.registry q.host = some s) (going : s.IsGoing)
    (registry : e.registries[q.registry]? = some r)
    (turn : s.Turn r.settings e.now asker contact reaction)
    (after : e'.supervisor? q.registry q.host = some reaction.supervisor)
    (inquiries : e'.inquiries[j]? =
      (reaction.answers.foldl (fun e answer => e.deliver answer) e₀).inquiries[j]?)
    (history : e'.history =
      (reaction.request.toList.map fun request => ⟨e.now, q.host, .pinged q.registry request⟩) ++
        e.history)
    (asks : a.asker? e = asker) : Touch e e' a j q := by
  have before := errandOf_eq (j := j) supervisor
  have errand := errandOf_eq (j := j) after
  have session : e'.session? q.registry q.host = some reaction.supervisor.session := by
    rw [session?, after]
    rfl
  -- What changes nothing for the inquiry.
  have stays (others : ∀ answer ∈ reaction.answers, answer.1 ≠ j)
      (same : reaction.supervisor.errand j = s.errand j) (other : a.asker? e ≠ some j) :
      Touch e e' a j q :=
    .stays (inquiries.trans ((foldl_deliver_other others).trans hq))
      (by rw [before, errand, same]) (sentFor_eq_nil other)
  cases turn with
  | @tells asker rest idle mail =>
    by_cases mine : asker = j
    · subst mine
      refine .told (s := s.session) ?_ ?_ (fun question asked => ?_) session ?_
      · rw [before, errand]
        simp [Supervisor.errand, mail, Mail.questionOf?]
      · rw [errand]
        simp [Supervisor.errand, idle]
      · exact inquiries.trans (deliver_answer hq asked s.session)
      · rw [sentFor, if_pos asks, since_self history]
    · exact stays (by simpa using mine)
        (by simp [Supervisor.errand, mail, Mail.questionOf?, mine]) (by simpa [asks] using mine)
  | @probes asker rest idle mail =>
    by_cases mine : asker = j
    · subst mine
      refine .pings registry ?_ ?_ (inquiries.trans hq) ?_
      · rw [before, errand]
        simp [Supervisor.errand, mail, Mail.questionOf?, Supervisor.sendPing]
      · rw [errand]
        simp [Supervisor.errand, Supervisor.sendPing]
      · rw [sentFor, if_pos asks, since_eq _ history]
        rfl
    · refine stays (by simp [Supervisor.sendPing]) ?_ (by simpa [asks] using mine)
      simp [Supervisor.errand, mail, Mail.questionOf?, Supervisor.sendPing, mine, idle]
  | stops _ mail => exact absurd (mail ▸ List.mem_cons_self) going.mailbox
  | ticks idle =>
    refine stays (by simp [Supervisor.sendPing]) ?_ (by simp [asks])
    simp [Supervisor.errand, Supervisor.sendPing, idle]
  | @ends ping session' contact pinging _ =>
    by_cases mine : ping.asker = some j
    · refine .ends (s := session') ?_ ?_ (fun question asked => ?_) session
        (sentFor_eq_nil (by simp [asks]))
      · rw [before]
        simp [Supervisor.errand, pinging, mine]
      · rw [before, errand]
        simp [Supervisor.errand]
      · rw [mine] at inquiries
        exact inquiries.trans (deliver_answer hq asked session')
    · refine stays ?_ ?_ (by simp [asks])
      · rintro answer answered rfl
        obtain ⟨asker, waits, rfl⟩ := List.mem_map.mp answered
        exact mine (by simpa using waits)
      · simp [Supervisor.errand, pinging, mine]

end Turn

/-! ## Acts -/

/-- When some inquiry goes on, this is what it means for an inquiry with an open registry. -/
theorem Touch.of_goes {k : Nat} {p : Inquiry} {settings : ProbeSettings} (calm : a.Calm e)
    (running : e.Running) (serves : e.Serves q.registry settings) (hq : e.inquiries[j]? = some q)
    (hp : e.inquiries[k]? = some p) (goes : Goes e e' k p) : Touch e e' a j q := by
  have silent : sentFor j e e' a = [] := calm.sends_nothing
  have put {state : InquiryState} (inquiries : e'.inquiries = (e.setInquiry k state).inquiries) :
      e'.inquiries[j]? = some (if j = k then { q with state := state } else q) := by
    rw [inquiries, setInquiry_inquiries?, hq, Option.map_some]
  by_cases here : j = k
  · subst here
    cases hp.symm.trans hq
    simp only [if_true] at put
    cases goes with
    | stays _ after => exact .stays (by rw [after, hq]) (by rw [after]) silent
    | @asks r s question pends registry hopen supervisor _ registries inquiries =>
      refine .asks pends registry (put inquiries) ?_ silent
      have set := supervisor?_sets registry registries q.registry q.host
      rw [if_pos ⟨rfl, rfl⟩] at set
      rw [errandOf_eq set, Supervisor.errand_post_ask, errandOf, supervisor?_of_registry registry,
        supervisor]
      cases r.supervisor? q.host <;> rfl
    | fails registry why =>
      -- An open registry takes questions, and its supervisors go on.
      obtain closed | ⟨s, supervisor, stopped⟩ := why
      · exact absurd (serves _ registry).1 (by simp [closed])
      · have known := (supervisor?_of_registry registry).trans supervisor
        exact absurd stopped (running _ q.host settings s serves known).activity
    | decides answered registry follow after =>
      exact .decides answered registry follow (put (congrArg Engine.inquiries after))
        (by subst after; rfl) silent
  · simp only [here, if_false] at put
    cases goes with
    | stays _ after => exact .stays (by rw [after, hq]) (by rw [after]) silent
    | @asks r s question _ registry _ supervisor _ registries inquiries =>
      refine .stays (put inquiries) ?_ silent
      have set := supervisor?_sets registry registries q.registry q.host
      split at set
      next there =>
        obtain ⟨site, host⟩ := there
        rw [errandOf_eq set, Supervisor.errand_post (by simp [Mail.questionOf?, Ne.symm here]),
          errandOf, site, supervisor?_of_registry registry, supervisor, host]
        cases r.supervisor? p.host <;> rfl
      · exact errandOf_congr set
    | fails _ _ after | decides _ _ _ after =>
      exact .stays (put (congrArg Engine.inquiries after)) (by subst after; rfl) silent

/-- What an act means for an inquiry whose registry is open after it. -/
theorem Touch.of_stirs {settings : ProbeSettings} (stirs : Stirs e e' a) (linked : e.Linked)
    (running : e.Running) (serves : e'.Serves q.registry settings)
    (hq : e.inquiries[j]? = some q) : Touch e e' a j q := by
  have served := stirs.serves serves
  cases stirs with
  | still calm new _ registries inquiries =>
    refine .stays ?_ (errandOf_congr (by rw [supervisor?, registries, supervisor?])) calm.sends_nothing
    rw [inquiries, List.getElem?_append_left (List.getElem?_eq_some_iff.mp hq).1, hq]
  | inquires calm inquiry goes => exact .of_goes calm running served hq inquiry goes
  | opens calm _ registries inquiries =>
    exact .stays (by rw [inquiries, hq]) (errandOf_congr (supervisor?_opens registries _ _))
      calm.sends_nothing
  | closes calm _ registries inquiries =>
    refine .stays (by rw [inquiries, hq]) ?_ calm.sends_nothing
    obtain same | ⟨_, posted⟩ := supervisor?_closes registries q.registry q.host
    · exact errandOf_congr same
    · rw [errandOf, posted, errandOf]
      cases e.supervisor? q.registry q.host with
      | none => rfl
      | some s => exact Supervisor.errand_post rfl
  | @turns g₀ h₀ r s _ _ reaction registry supervisor turn registries inquiries history asks =>
    have there : e.supervisor? g₀ h₀ = some s :=
      (supervisor?_of_registry registry).trans supervisor
    have set := supervisor?_sets registry registries q.registry q.host
    let e₀ := e.modifyRegistry g₀ (·.setSupervisor h₀ reaction.supervisor)
    have untouched : e₀.inquiries[j]? = some q := hq
    have asked : e'.inquiries[j]? =
        (reaction.answers.foldl (fun e answer => e.deliver answer) e₀).inquiries[j]? := by
      rw [inquiries]
    by_cases here : q.registry = g₀ ∧ q.host = h₀
    · obtain ⟨rfl, rfl⟩ := here
      rw [if_pos ⟨rfl, rfl⟩] at set
      exact .of_turn untouched there (running _ _ settings s served there) registry turn set asked
        history asks
    · -- Nobody waits for the supervisor of another host.
      rw [if_neg here] at set
      have apart : j ∉ s.askers := by
        intro waits
        obtain ⟨p, hp, site⟩ := linked _ _ s there j waits
        cases hp.symm.trans hq
        exact here site
      obtain ⟨mail, answers⟩ := turn.waits (j := j)
      refine .stays ?_ (errandOf_congr set)
        (sentFor_eq_nil fun mine => apart (mail (asks.symm.trans mine)))
      rw [asked, foldl_deliver_other, untouched]
      rintro answer answered rfl
      exact apart (answers answer answered)

/-- An inquiry that is new has no errand yet, and nothing is sent for one that is not there. -/
theorem Stirs.born (stirs : Stirs e e' a) (linked : e.Linked) (absent : e.inquiries[j]? = none) :
    sentFor j e e' a = [] ∧
      ∀ q, e'.inquiries[j]? = some q → q.state = .opening ∧ e'.errandOf j q = ⟨[], false⟩ := by
  have nobody {g : Nat} {h : String} {s : Supervisor} (hs : e.supervisor? g h = some s) :
      j ∉ s.askers := by
    intro waits
    obtain ⟨q, hq, _⟩ := linked g h s hs j waits
    cases absent.symm.trans hq
  have none_new (silent : sentFor j e e' a = []) (same : e'.inquiries[j]? = none) :
      sentFor j e e' a = [] ∧
        ∀ q, e'.inquiries[j]? = some q → q.state = .opening ∧ e'.errandOf j q = ⟨[], false⟩ :=
    ⟨silent, by simp [same]⟩
  have unset (k : Nat) (state : InquiryState) : (e.setInquiry k state).inquiries[j]? = none := by
    rw [setInquiry_inquiries?, absent, Option.map_none]
  cases stirs with
  | still calm new fresh registries inquiries =>
    refine ⟨calm.sends_nothing, fun q hq' => ⟨fresh q ?_, ?_⟩⟩
    · rw [inquiries, List.getElem?_append_right (List.getElem?_eq_none_iff.mp absent)] at hq'
      exact List.mem_of_getElem? hq'
    · rw [errandOf, supervisor?, registries, ← supervisor?]
      cases hs : e.supervisor? q.registry q.host with
      | none => rfl
      | some s => exact Supervisor.errand_eq_of_not_mem (nobody hs)
  | inquires calm _ goes =>
    refine none_new calm.sends_nothing ?_
    cases goes with
    | stays _ after => rw [after, absent]
    | asks _ _ _ _ _ _ inquiries => exact inquiries ▸ unset _ _
    | fails _ _ after | decides _ _ _ after => exact after ▸ unset _ _
  | opens calm _ _ inquiries | closes calm _ _ inquiries =>
    exact none_new calm.sends_nothing (by rw [inquiries, absent])
  | @turns g₀ h₀ r s _ _ reaction registry supervisor turn _ inquiries _ asks =>
    have apart : j ∉ s.askers := nobody ((supervisor?_of_registry registry).trans supervisor)
    obtain ⟨mail, answers⟩ := turn.waits (j := j)
    refine none_new (sentFor_eq_nil fun mine => apart (mail (asks.symm.trans mine))) ?_
    rw [inquiries, foldl_deliver_other]
    · exact absent
    · rintro answer answered rfl
      exact apart (answers answer answered)

end Engine

end Rollout
