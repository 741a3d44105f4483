-- SUMMARY: What the gate comes to: when it asks for a ping, which session decides, and what that tells of the pings so far.
import Rollout.Proofs.Engine.Errands
import Rollout.Proofs.Engine.Pings
import Rollout.Proofs.Engine.Rest

/-!
# Probing

An inquiry that is to let a command pass reads the session of its host. If the session is marked or its contact is
stale, it asks for a ping and reads the session after that. The session that it reads last decides, and that session
tells of all pings to the host that ended until then, whoever asked for them.
-/
namespace Rollout.Engine

variable {e e' e₁ : Engine} {a : Act} {acts : List Act} {wall : Timestamp} {j : Nat} {q : Inquiry}

-- ---------------------------------------------------------------------------
-- Runs
-- ---------------------------------------------------------------------------

/-- What is sent for an inquiry in a run of acts, the earliest first. -/
def pingsFor (j : Nat) (e : Engine) : List Act → List Happening
  | [] => []
  | a :: acts => match e.act? a with
    | none => []
    | some e' => sentFor j e e' a ++ pingsFor j e' acts

theorem pingsFor_concat (played : e.play? acts = some e₁) (done : e₁.act? a = some e') :
    e.pingsFor j (acts ++ [a]) = e.pingsFor j acts ++ sentFor j e₁ e' a := by
  induction acts generalizing e with
  | nil =>
    cases played
    simp [pingsFor, done]
  | cons b acts ih =>
    obtain ⟨e₂, first, rest⟩ := Option.bind_eq_some_iff.mp played
    simp only [List.cons_append, pingsFor, first, ih rest, List.append_assoc]

/-- In the run of the acts an inquiry of the gate comes from one state to another, at the act `a` after the acts
`before`. -/
structure Changes (wall : Timestamp) (acts : List Act) (j g : Nat) (h : String) (old new : InquiryState)
    (before : List Act) (a : Act) (e e' : Engine) : Prop where
  within : before ++ [a] <+: acts
  played : (empty wall).play? before = some e
  done : e.act? a = some e'
  state : e.inquiries[j]? = some ⟨g, h, .pass, old⟩
  state' : e'.inquiries[j]? = some ⟨g, h, .pass, new⟩

/-- In the run of the acts the supervisor answers a question of an inquiry with its session at that moment, and until
then these are the pings to the host. -/
def Told (wall : Timestamp) (acts : List Act) (j g : Nat) (h : String) (question : Question) (s : Session)
    (pings : List (Option Timestamp)) : Prop :=
  ∃ before a e e', Changes wall acts j g h (.asked question) (.answered question s) before a e e' ∧
    e'.session? g h = some s ∧ pings = pingsOver g h (before ++ [a])

/-- In the run of the acts an inquiry goes on with the session that it reads first, and this is the time of the
calendar then. -/
def Looks (wall : Timestamp) (acts : List Act) (j g : Nat) (h : String) (first : Session) (now : Timestamp) :
    Prop :=
  ∃ new before a e e', Changes wall acts j g h (.answered .session first) new before a e e' ∧
    new ≠ .answered .session first ∧ e.wall = now

section Concat

variable {g : Nat} {h : String}

theorem Changes.concat {old new : InquiryState} {before : List Act} {b : Act}
    (changes : Changes wall acts j g h old new before b e e') (a : Act) :
    Changes wall (acts ++ [a]) j g h old new before b e e' :=
  { changes with within := changes.within.trans (List.prefix_append acts [a]) }

theorem Told.concat {question : Question} {s : Session} {pings : List (Option Timestamp)}
    (told : Told wall acts j g h question s pings) (a : Act) :
    Told wall (acts ++ [a]) j g h question s pings := by
  obtain ⟨before, b, e, e', changes, session⟩ := told
  exact ⟨before, b, e, e', changes.concat a, session⟩

theorem Looks.concat {first : Session} {now : Timestamp} (looks : Looks wall acts j g h first now)
    (a : Act) : Looks wall (acts ++ [a]) j g h first now := by
  obtain ⟨new, before, b, e, e', changes, goes⟩ := looks
  exact ⟨new, before, b, e, e', changes.concat a, goes⟩

end Concat

-- ---------------------------------------------------------------------------
-- Stages
-- ---------------------------------------------------------------------------

/-- The inquiry read a session first that is not enough. -/
structure Doubts (settings : ProbeSettings) (wall : Timestamp) (acts : List Act) (j g : Nat) (h : String)
    (first : Session) (now : Timestamp) : Prop where
  reads : ∃ pings, Told wall acts j g h .session first pings
  looks : Looks wall acts j g h first now
  needs : Inquiry.needsProbe settings now first = true

/-- How the gate decides: which session the inquiry reads first, when it goes on with that, what is sent for it, and
which session it reads last, after which pings. -/
structure Decision (settings : ProbeSettings) (wall : Timestamp) (acts : List Act) (j : Nat) (q : Inquiry)
    (sent : List Happening) (first : Session) (now : Timestamp) (last : Session)
    (pings : List (Option Timestamp)) : Prop where
  reads : ∃ pings, Told wall acts j q.registry q.host .session first pings
  looks : Looks wall acts j q.registry q.host first now
  asks : sent = if Inquiry.needsProbe settings now first then [q.ping settings] else []
  probed : Inquiry.needsProbe settings now first = true →
    Told wall acts j q.registry q.host .probe last pings
  enough : Inquiry.needsProbe settings now first = false →
    last = first ∧ Told wall acts j q.registry q.host .session last pings
  state : q.state = Inquiry.verdict q.host last

/-- How far an inquiry of the gate is: where its errand is, and what was sent for it. -/
def Stage (settings : ProbeSettings) (wall : Timestamp) (acts : List Act) (j : Nat) (q : Inquiry)
    (errand : Errand) (sent : List Happening) : Prop :=
  match q.state with
  | .opening => errand = ⟨[], false⟩ ∧ sent = []
  | .asked .session => errand = ⟨[.session], false⟩ ∧ sent = []
  | .answered .session first => errand = ⟨[], false⟩ ∧ sent = [] ∧
      ∃ pings, Told wall acts j q.registry q.host .session first pings
  | .asked .probe => (∃ first now, Doubts settings wall acts j q.registry q.host first now) ∧
      (errand = ⟨[.probe], false⟩ ∧ sent = [] ∨ errand = ⟨[], true⟩ ∧ sent = [q.ping settings])
  | .answered .probe last => errand = ⟨[], false⟩ ∧ sent = [q.ping settings] ∧
      (∃ first now, Doubts settings wall acts j q.registry q.host first now) ∧
      ∃ pings, Told wall acts j q.registry q.host .probe last pings
  | .passed _ | .refused _ => errand = ⟨[], false⟩ ∧
      ∃ first now last pings, Decision settings wall acts j q sent first now last pings

section Act

variable {settings : ProbeSettings} {q' : Inquiry} {sent : List Happening} {errand : Errand}

theorem Doubts.concat {g : Nat} {h : String} {first : Session} {now : Timestamp}
    (doubts : Doubts settings wall acts j g h first now) (a : Act) :
    Doubts settings wall (acts ++ [a]) j g h first now := by
  obtain ⟨⟨pings, told⟩, looks, needs⟩ := doubts
  exact ⟨⟨pings, told.concat a⟩, looks.concat a, needs⟩

theorem Decision.concat {first last : Session} {now : Timestamp} {pings : List (Option Timestamp)}
    (decision : Decision settings wall acts j q sent first now last pings) (a : Act) :
    Decision settings wall (acts ++ [a]) j q sent first now last pings := by
  obtain ⟨⟨before, told⟩, looks, asks, probed, enough, state⟩ := decision
  refine ⟨⟨before, told.concat a⟩, looks.concat a, asks, fun needs => (probed needs).concat a,
    fun plenty => ?_, state⟩
  obtain ⟨same, told⟩ := enough plenty
  exact ⟨same, told.concat a⟩

theorem verdict_isOver (host : String) (s : Session) : (Inquiry.verdict host s).isOver = true := by
  unfold Inquiry.verdict
  split <;> rfl

/-- At the end the inquiry has no errand any more. -/
theorem Stage.of_decision {first last : Session} {now : Timestamp} {pings : List (Option Timestamp)}
    (decision : Decision settings wall acts j q sent first now last pings) :
    Stage settings wall acts j q ⟨[], false⟩ sent := by
  have ended : q.state.isOver = true := by
    rw [decision.state]
    exact verdict_isOver q.host last
  unfold Stage
  cases state : q.state with
  | passed | refused => exact ⟨rfl, first, now, last, pings, decision⟩
  | opening | asked | answered => simp [state, InquiryState.isOver] at ended

/-! The errand tells how far the inquiry is. -/

theorem Stage.mailed_session {rest : List Question} (stage : Stage settings wall acts j q errand sent)
    (mailed : errand.mailed = .session :: rest) :
    q.state = .asked .session ∧ errand = ⟨[.session], false⟩ ∧ sent = [] := by
  unfold Stage at stage
  split at stage
  next => simp [stage.1] at mailed
  next asked => exact ⟨asked, stage⟩
  next => simp [stage.1] at mailed
  next => obtain ⟨_, ⟨rfl, _⟩ | ⟨rfl, _⟩⟩ := stage <;> cases mailed
  all_goals simp [stage.1] at mailed

theorem Stage.mailed_probe {rest : List Question} (stage : Stage settings wall acts j q errand sent)
    (mailed : errand.mailed = .probe :: rest) :
    q.state = .asked .probe ∧ errand = ⟨[.probe], false⟩ ∧ sent = [] ∧
      ∃ first now, Doubts settings wall acts j q.registry q.host first now := by
  unfold Stage at stage
  split at stage
  next => simp [stage.1] at mailed
  next => simp [stage.1] at mailed
  next => simp [stage.1] at mailed
  next asked =>
    obtain ⟨doubts, waits | ⟨rfl, _⟩⟩ := stage
    · exact ⟨asked, waits.1, waits.2, doubts⟩
    · cases mailed
  all_goals simp [stage.1] at mailed

theorem Stage.pinging (stage : Stage settings wall acts j q errand sent)
    (pinging : errand.pinging = true) :
    q.state = .asked .probe ∧ errand = ⟨[], true⟩ ∧ sent = [q.ping settings] ∧
      ∃ first now, Doubts settings wall acts j q.registry q.host first now := by
  unfold Stage at stage
  split at stage
  next => simp [stage.1] at pinging
  next => simp [stage.1] at pinging
  next => simp [stage.1] at pinging
  next asked =>
    obtain ⟨doubts, ⟨rfl, _⟩ | waits⟩ := stage
    · cases pinging
    · exact ⟨asked, waits.1, waits.2, doubts⟩
  all_goals simp [stage.1] at pinging

/-- Nothing is sent, or one ping for a session that is not enough. -/
theorem Stage.sends (stage : Stage settings wall acts j q errand sent) :
    sent = [] ∨ sent = [q.ping settings] ∧
      ∃ first now, Doubts settings wall acts j q.registry q.host first now := by
  unfold Stage at stage
  split at stage
  next => exact .inl stage.2
  next => exact .inl stage.2
  next => exact .inl stage.2.1
  next =>
    obtain ⟨doubts, ⟨_, unsent⟩ | ⟨_, sent⟩⟩ := stage
    · exact .inl unsent
    · exact .inr ⟨sent, doubts⟩
  next => exact .inr ⟨stage.2.1, stage.2.2.1⟩
  all_goals
    obtain ⟨_, first, now, last, pings, decision⟩ := stage
    cases needs : Inquiry.needsProbe settings now first with
    | true =>
      refine .inr ⟨by simpa [needs] using decision.asks, first, now, ?_⟩
      exact ⟨decision.reads, decision.looks, needs⟩
    | false => exact .inl (by simpa [needs] using decision.asks)

theorem Stage.decided (stage : Stage settings wall acts j q errand sent)
    (ended : q.state.isOver = true) : ∃ first now last pings,
      Decision settings wall acts j q sent first now last pings := by
  cases state : q.state with
  | passed | refused =>
    rw [Stage, state] at stage
    exact stage.2
  | opening | asked | answered => simp [state, InquiryState.isOver] at ended

/-- A session that decides at once is enough. -/
theorem follow_enough {s : Session} {result : InquiryState} {now : Timestamp} (pass : q.purpose = .pass)
    (follow : q.follow settings now .session s = .inr result) :
    Inquiry.needsProbe settings now s = false := by
  simp only [Inquiry.follow, pass] at follow
  split at follow
  · cases follow
  next enough => simpa using enough

/-- Nothing happens to the inquiry. -/
theorem Stage.stays (stage : Stage settings wall acts j q errand sent) (a : Act) :
    Stage settings wall (acts ++ [a]) j q errand sent := by
  unfold Stage at stage ⊢
  split at stage
  · exact stage
  · exact stage
  · obtain ⟨home, silent, pings, told⟩ := stage
    exact ⟨home, silent, pings, told.concat a⟩
  · obtain ⟨⟨first, now, doubts⟩, where_⟩ := stage
    exact ⟨⟨first, now, doubts.concat a⟩, where_⟩
  · obtain ⟨home, sent, ⟨first, now, doubts⟩, pings, told⟩ := stage
    exact ⟨home, sent, ⟨first, now, doubts.concat a⟩, pings, told.concat a⟩
  all_goals
    obtain ⟨home, first, now, last, pings, decision⟩ := stage
    exact ⟨home, first, now, last, pings, decision.concat a⟩

/-- An act that gives an inquiry of the gate a new state is the last change in the run up to it. -/
theorem Changes.of_act (played : (empty wall).play? acts = some e) (done : e.act? a = some e')
    (pass : q.purpose = .pass) (hq : e.inquiries[j]? = some q) {old new : InquiryState} (state : q.state = old)
    (inquiry : e'.inquiries[j]? = some { q with state := new }) :
    Changes wall (acts ++ [a]) j q.registry q.host old new acts a e e' := by
  refine ⟨List.prefix_refl _, played, done, ?_, ?_⟩
  · rw [← state, ← pass]
    exact hq
  · rw [← pass]
    exact inquiry

section Steps

variable {question : Question} {s : Session} {result : InquiryState}

/-- A question is asked: the first one, or a ping after a session that is not enough. -/
theorem Stage.asks (stage : Stage settings wall acts j q errand sent) (pass : q.purpose = .pass)
    (pends : Pends settings e.wall q question)
    (changes : ∀ old, q.state = old →
      Changes wall (acts ++ [a]) j q.registry q.host old (.asked question) acts a e e') :
    Stage settings wall (acts ++ [a]) j { q with state := .asked question }
      ⟨errand.mailed ++ [question], errand.pinging⟩ sent := by
  cases pends with
  | first opening =>
    simp only [Stage, opening] at stage
    obtain ⟨rfl, unsent⟩ := stage
    rw [Inquiry.firstQuestion, pass]
    exact ⟨rfl, unsent⟩
  | @again first answered _ needs =>
    simp only [Stage, answered] at stage
    obtain ⟨rfl, unsent, pings, told⟩ := stage
    have looks : Looks wall (acts ++ [a]) j q.registry q.host first e.wall :=
      ⟨_, _, _, _, _, changes _ answered, by simp, rfl⟩
    exact ⟨⟨first, e.wall, ⟨pings, told.concat a⟩, looks, needs⟩, .inl ⟨rfl, unsent⟩⟩

/-- The session that the inquiry reads first is enough, and decides. -/
theorem Stage.decides_at_once (stage : Stage settings wall acts j q errand sent)
    (answered : q.state = .answered .session s) (enough : Inquiry.needsProbe settings e.wall s = false)
    (changes : Changes wall (acts ++ [a]) j q.registry q.host (.answered .session s)
      (Inquiry.verdict q.host s) acts a e e') :
    Stage settings wall (acts ++ [a]) j { q with state := Inquiry.verdict q.host s } errand sent := by
  simp only [Stage, answered] at stage
  obtain ⟨rfl, rfl, pings, told⟩ := stage
  have goes_on : Inquiry.verdict q.host s ≠ .answered .session s := fun same => by
    simpa [same, InquiryState.isOver] using verdict_isOver q.host s
  have decision : Decision settings wall (acts ++ [a]) j { q with state := Inquiry.verdict q.host s } []
      s e.wall s pings :=
    { reads := ⟨pings, told.concat a⟩
      looks := ⟨_, _, _, _, _, changes, goes_on, rfl⟩
      asks := by simp [enough]
      probed := by simp [enough]
      enough := fun _ => ⟨rfl, told.concat a⟩
      state := rfl }
  exact .of_decision decision

/-- The session after the ping decides. -/
theorem Stage.decides_after_ping (stage : Stage settings wall acts j q errand sent)
    (answered : q.state = .answered .probe s) (a : Act) :
    Stage settings wall (acts ++ [a]) j { q with state := Inquiry.verdict q.host s } errand sent := by
  simp only [Stage, answered] at stage
  obtain ⟨rfl, rfl, ⟨first, now, doubts⟩, pings, told⟩ := stage
  obtain ⟨⟨before, reads⟩, looks, needs⟩ := doubts.concat a
  have decision : Decision settings wall (acts ++ [a]) j { q with state := Inquiry.verdict q.host s }
      [q.ping settings] first now s pings :=
    { reads := ⟨before, reads⟩
      looks := looks
      asks := (if_pos needs).symm
      probed := fun _ => told.concat a
      enough := by simp [needs]
      state := rfl }
  exact .of_decision decision

/-- The answer decides: the first session, if it is enough, or the one after the ping. -/
theorem Stage.decides (stage : Stage settings wall acts j q errand sent) (pass : q.purpose = .pass)
    (answered : q.state = .answered question s) (follow : q.follow settings e.wall question s = .inr result)
    (changes : ∀ old, q.state = old →
      Changes wall (acts ++ [a]) j q.registry q.host old result acts a e e') :
    Stage settings wall (acts ++ [a]) j { q with state := result } errand sent := by
  cases follow_inr pass follow
  cases question with
  | session => exact stage.decides_at_once answered (follow_enough pass follow) (changes _ answered)
  | probe => exact stage.decides_after_ping answered a

/-- The supervisor tells its session at the question for it. -/
theorem Stage.tells (stage : Stage settings wall acts j q errand sent) {rest : List Question}
    (mailed : errand.mailed = .session :: rest)
    (told : ∀ old, q.state = old → Changes wall (acts ++ [a]) j q.registry q.host old
      (.answered .session s) acts a e e')
    (session : e'.session? q.registry q.host = some s) :
    rest = [] ∧ Stage settings wall (acts ++ [a]) j { q with state := .answered .session s }
      ⟨[], false⟩ sent := by
  obtain ⟨asked, rfl, rfl⟩ := stage.mailed_session mailed
  exact ⟨(List.cons.inj mailed).2.symm, rfl, rfl, _, acts, a, e, e', told _ asked, session, rfl⟩

/-- The supervisor sends a ping at the question for one. -/
theorem Stage.sends_ping (stage : Stage settings wall acts j q errand sent) {rest : List Question}
    (mailed : errand.mailed = .probe :: rest) (a : Act) :
    rest = [] ∧ sent = [] ∧ Stage settings wall (acts ++ [a]) j q ⟨[], true⟩ [q.ping settings] := by
  obtain ⟨asked, rfl, rfl, first, now, doubts⟩ := stage.mailed_probe mailed
  rw [Stage, asked]
  exact ⟨(List.cons.inj mailed).2.symm, rfl, ⟨first, now, doubts.concat a⟩, .inr ⟨rfl, rfl⟩⟩

/-- The supervisor tells its session when the ping is over. -/
theorem Stage.tells_after_ping (stage : Stage settings wall acts j q errand sent)
    (pinging : errand.pinging = true)
    (told : ∀ old, q.state = old → Changes wall (acts ++ [a]) j q.registry q.host old
      (.answered .probe s) acts a e e')
    (session : e'.session? q.registry q.host = some s) :
    errand.mailed = [] ∧ Stage settings wall (acts ++ [a]) j { q with state := .answered .probe s }
      ⟨[], false⟩ sent := by
  obtain ⟨asked, rfl, rfl, first, now, doubts⟩ := stage.pinging pinging
  exact ⟨rfl, rfl, rfl, ⟨first, now, doubts.concat a⟩, _, acts, a, e, e', told _ asked, session, rfl⟩

end Steps

/-- What an act makes of an inquiry of the gate, and what is sent for it then. -/
theorem Stage.act (played : (empty wall).play? acts = some e) (done : e.act? a = some e')
    (pass : q.purpose = .pass) (serves : e.Serves q.registry settings)
    (hq : e.inquiries[j]? = some q) (hq' : e'.inquiries[j]? = some q')
    (touch : Touch e e' a j q) (stage : Stage settings wall acts j q (e.errandOf j q) sent) :
    Stage settings wall (acts ++ [a]) j q' (e'.errandOf j q') (sent ++ sentFor j e e' a) := by
  have changes {new : InquiryState} (inquiry : e'.inquiries[j]? = some { q with state := new }) (old)
      (state : q.state = old) : Changes wall (acts ++ [a]) j q.registry q.host old new acts a e e' :=
    .of_act played done pass hq state inquiry
  cases touch with
  | stays inquiry errand silent =>
    cases inquiry.symm.trans hq'
    rw [errand, silent, List.append_nil]
    exact stage.stays a
  | asks pends registry inquiry errand silent =>
    cases inquiry.symm.trans hq'
    obtain ⟨_, rfl⟩ := serves _ registry
    have next := stage.asks pass pends (changes inquiry)
    rwa [← errand, ← List.append_nil sent, ← silent] at next
  | decides answered registry follow inquiry errand silent =>
    cases inquiry.symm.trans hq'
    obtain ⟨_, rfl⟩ := serves _ registry
    have next := stage.decides pass answered follow (changes inquiry)
    rwa [← errand, ← List.append_nil sent, ← silent] at next
  | told mailed idle inquiry session silent =>
    have asked := (stage.mailed_session mailed).1
    cases (inquiry .session asked).symm.trans hq'
    obtain ⟨emptied, next⟩ := stage.tells mailed (changes (inquiry .session asked)) session
    have home : e'.errandOf j q = ⟨[], false⟩ := Errand.ext emptied idle
    rwa [← home, ← List.append_nil sent, ← silent] at next
  | pings registry mailed pinging inquiry sends =>
    cases inquiry.symm.trans hq'
    obtain ⟨_, rfl⟩ := serves _ registry
    obtain ⟨emptied, rfl, next⟩ := stage.sends_ping mailed a
    have under_way : e'.errandOf j q = ⟨[], true⟩ := Errand.ext emptied pinging
    rwa [← under_way, ← List.nil_append [q.ping _], ← sends] at next
  | ends pinging errand inquiry session silent =>
    have asked := (stage.pinging pinging).1
    cases (inquiry .probe asked).symm.trans hq'
    obtain ⟨emptied, next⟩ := stage.tells_after_ping pinging (changes (inquiry .probe asked)) session
    rw [emptied] at errand
    rwa [← errand, ← List.append_nil sent, ← silent] at next

/-- How far an inquiry of the gate is after a run, as long as its registry is open. -/
theorem play?_stage (played : (empty wall).play? acts = some e) (hq : e.inquiries[j]? = some q)
    (pass : q.purpose = .pass) (serves : e.Serves q.registry settings) :
    Stage settings wall acts j q (e.errandOf j q) ((empty wall).pingsFor j acts) := by
  suffices both : (e.inquiries[j]? = none → (empty wall).pingsFor j acts = []) ∧
      ∀ q settings, e.inquiries[j]? = some q → q.purpose = .pass → e.Serves q.registry settings →
        Stage settings wall acts j q (e.errandOf j q) ((empty wall).pingsFor j acts) from
    both.2 q settings hq pass serves
  refine play?_induction (P := fun acts e =>
    (e.inquiries[j]? = none → (empty wall).pingsFor j acts = []) ∧
      ∀ q settings, e.inquiries[j]? = some q → q.purpose = .pass → e.Serves q.registry settings →
        Stage settings wall acts j q (e.errandOf j q) ((empty wall).pingsFor j acts))
    ⟨fun _ => rfl, by simp [empty]⟩ ?_ played
  rintro acts e e' a played ⟨unsent, staged⟩ done
  have linked : e.Linked := linked_of_reachable ⟨wall, acts, played⟩
  have stirs : Stirs e e' a := .of_act? (housed_of_play? played) done
  rw [pingsFor_concat played done]
  cases hq : e.inquiries[j]? with
  | none =>
    obtain ⟨silent, fresh⟩ := stirs.born linked hq
    rw [unsent hq, silent]
    refine ⟨fun _ => rfl, fun q' settings hq' _ _ => ?_⟩
    obtain ⟨opening, home⟩ := fresh q' hq'
    rw [home, Stage, opening]
    exact ⟨rfl, rfl⟩
  | some q =>
    obtain ⟨state, hq', _⟩ := (act?_attended done linked).advances j q hq
    refine ⟨by simp [hq'], fun q' settings hq'' pass serves => ?_⟩
    cases hq'.symm.trans hq''
    have pass : q.purpose = .pass := pass
    have serves : e'.Serves q.registry settings := serves
    have touch : Touch e e' a j q := .of_stirs stirs linked (running_of_play? played) serves hq
    have before := staged q settings hq pass (stirs.serves serves)
    exact before.act played done pass (stirs.serves serves) hq hq' touch

end Act

-- ---------------------------------------------------------------------------
-- The gate
-- ---------------------------------------------------------------------------

/-- A registry stays with its settings throughout a run. -/
theorem play?_settings {g : Nat} {r : Registry} {rest : List Act} (reachable : e.Reachable)
    (played : e.play? rest = some e') (hr : e.registries[g]? = some r) :
    ∃ r', e'.registries[g]? = some r' ∧ r'.settings = r.settings := by
  refine play?_induction
    (P := fun _ e' => ∃ r', e'.registries[g]? = some r' ∧ r'.settings = r.settings) ⟨r, hr, rfl⟩ ?_ played
  rintro rest e₁ e₂ a played ⟨r₁, hr₁, same⟩ done
  obtain ⟨r₂, hr₂, kept, _⟩ := (Stirs.of_act? (reachable.play? played).housed done).registry hr₁
  exact ⟨r₂, hr₂, kept.trans same⟩

/-- The session that is told tells of the pings until then. -/
theorem Told.reflects {g : Nat} {h : String} {r : Registry} {question : Question} {s : Session}
    {pings : List (Option Timestamp)} (told : Told wall acts j g h question s pings)
    (played : (empty wall).play? acts = some e) (hr : e.registries[g]? = some r) :
    s.Reflects r.settings.failureThreshold pings := by
  obtain ⟨before, a, e₁, e₂, changes, session, rfl⟩ := told
  obtain ⟨rest, rfl⟩ := changes.within
  have until_then : (empty wall).play? (before ++ [a]) = some e₂ :=
    play?_concat changes.played changes.done
  rw [play?_append, until_then, Option.bind_some] at played
  obtain ⟨supervisor, there, _⟩ := Option.map_eq_some_iff.mp session
  obtain ⟨r₂, hr₂, _⟩ := Option.bind_eq_some_iff.mp there
  obtain ⟨_, hr', same⟩ := play?_settings ⟨wall, _, until_then⟩ played hr₂
  cases hr.symm.trans hr'
  rw [same]
  exact play?_reflects until_then hr₂ session

theorem Decision.told {settings : ProbeSettings} {sent : List Happening} {first last : Session}
    {now : Timestamp} {pings : List (Option Timestamp)}
    (decision : Decision settings wall acts j q sent first now last pings) :
    ∃ question, Told wall acts j q.registry q.host question last pings := by
  cases needs : Inquiry.needsProbe settings now first with
  | true => exact ⟨.probe, decision.probed needs⟩
  | false => exact ⟨.session, (decision.enough needs).2⟩

/-- A session is not enough when its host is marked, when there was no contact yet, or when the latest contact is
longer ago than the interval between two pings. -/
theorem needsProbe_iff {settings : ProbeSettings} {now : Timestamp} {s : Session} :
    Inquiry.needsProbe settings now s = true ↔ s.unreachable = true ∨ s.lastContact = none ∨
      ∃ contact, s.lastContact = some contact ∧
        settings.intervalMs * 1000000 < Timestamp.nanosBetween contact now := by
  rw [Inquiry.needsProbe, Bool.or_eq_true, Session.isStale]
  cases s.lastContact with
  | none => simp
  | some contact => simp

/-- A ping is sent for an inquiry that is decided just when the session that it read first was not enough. -/
theorem Decision.pinged_iff {settings : ProbeSettings} {sent : List Happening} {first last : Session}
    {now : Timestamp} {pings : List (Option Timestamp)}
    (decision : Decision settings wall acts j q sent first now last pings) :
    sent = [q.ping settings] ↔ Inquiry.needsProbe settings now first = true := by
  rw [decision.asks]
  split
  next needs => simp [needs]
  next enough => simp [enough]

theorem verdict_eq_refused_iff {host : String} {s : Session} {fault : Fault} :
    Inquiry.verdict host s = .refused fault ↔
      s.unreachable = true ∧ fault = .hostUnreachable host s.consecutiveFailures := by
  unfold Inquiry.verdict
  split
  next marked => simp [marked, eq_comm]
  next unmarked => simp [unmarked]

/-- Whatever agents, other inquiries and pings of the background do, as long as the registry is open: an inquiry of
the gate asks for one ping when the session that it reads first is marked, knows of no contact, or of none within the
interval between two pings, and for none otherwise. It comes to an end, and its command is refused exactly when the session that it reads last is marked, with the number of pings
that were missed in a row until then, which are as many as the threshold, and at least one. So the command passes
when the latest ping was answered, and when fewer pings in a row were missed. The number that it is told has 32 bits,
so it is exact unless there were more pings than that. -/
theorem gate_decides_by_the_last_session {r : Registry} (played : (empty wall).play? acts = some e)
    (hq : e.inquiries[j]? = some q) (pass : q.purpose = .pass)
    (hr : e.registries[q.registry]? = some r) (hopen : r.isOpen = true) :
    ((empty wall).pingsFor j acts = [] ∨ (empty wall).pingsFor j acts = [q.ping r.settings] ∧
      ∃ first now, Doubts r.settings wall acts j q.registry q.host first now) ∧
    (q.state.isOver = true → ∃ first now last pings,
      Decision r.settings wall acts j q ((empty wall).pingsFor j acts) first now last pings ∧
      ((empty wall).pingsFor j acts = [q.ping r.settings] ↔
        first.unreachable = true ∨ first.lastContact = none ∨ ∃ contact, first.lastContact = some contact ∧
          r.settings.intervalMs * 1000000 < Timestamp.nanosBetween contact now) ∧
      (∀ fault, q.state = .refused fault ↔
        last.unreachable = true ∧ fault = .hostUnreachable q.host last.consecutiveFailures) ∧
      (last.unreachable = true ↔ max 1 r.settings.failureThreshold.toNat ≤ missedInARow pings) ∧
      last.consecutiveFailures = UInt32.ofNat (missedInARow pings) ∧
      (pings.length < UInt32.size → last.consecutiveFailures.toNat = missedInARow pings) ∧
      (missedInARow pings < max 1 r.settings.failureThreshold.toNat → q.state = .passed last) ∧
      ∀ contact, pings.getLast? = some (some contact) → q.state = .passed last) ∧
    (e.AtRest → q.state.isOver = true) := by
  have serves : e.Serves q.registry r.settings := by
    intro r' hr'
    cases hr.symm.trans hr'
    exact ⟨hopen, rfl⟩
  have stage := play?_stage played hq pass serves
  refine ⟨stage.sends, fun ended => ?_, fun rest => ?_⟩
  · obtain ⟨first, now, last, pings, decision⟩ := stage.decided ended
    obtain ⟨question, told⟩ := decision.told
    have reflects := told.reflects played hr
    have passes (few : missedInARow pings < max 1 r.settings.failureThreshold.toNat) :
        q.state = .passed last := by
      have unmarked : ¬ last.unreachable = true := fun marked =>
        Nat.not_le.mpr few (reflects.marked.mp marked)
      rw [decision.state, Inquiry.verdict, if_neg unmarked]
    refine ⟨first, now, last, pings, decision, decision.pinged_iff.trans needsProbe_iff, fun fault => ?_,
      reflects.marked, reflects.failures,
      fun few => reflects.failures_toNat (missedInARow_le.trans_lt few), passes, fun contact latest => ?_⟩
    · rw [decision.state, verdict_eq_refused_iff]
    · obtain ⟨earlier, rfl⟩ := List.getLast?_eq_some_iff.mp latest
      exact passes (by simp)
  · obtain ⟨_, ended⟩ | ⟨_, ended⟩ := rest.answered (attentive_of_reachable ⟨wall, acts, played⟩) hq <;>
    · rw [ended]
      rfl

/-! ## Two missed pings -/

/-- Two commands are to pass to alpha, one after the other, and two missed pings in a row mark a host. A ping is sent
for each of them, since there was no contact yet, and both are missed. -/
def twiceMissed : List Act :=
  let gate (j : Nat) : List Act :=
    [.serve (.ask 0 "alpha" .pass), .move (.inquire j), .move (.supervise 0 "alpha"), .move (.inquire j),
      .move (.supervise 0 "alpha"), .move (.pong 0 "alpha" none), .move (.inquire j)]
  .serve (.openRegistry twice) :: gate 0 ++ gate 1

/-- The first command passes, with one missed ping, and the second one is refused. -/
theorem gate_decides_by_the_last_session_twiceMissed : ∃ e q q' r,
    (empty .epoch).play? twiceMissed = some e ∧ e.inquiries[0]? = some q ∧ e.inquiries[1]? = some q' ∧
    q.purpose = .pass ∧ q'.purpose = .pass ∧ e.registries[0]? = some r ∧ r.isOpen = true ∧
    (∃ last, q.state = .passed last ∧ last.consecutiveFailures = 1) ∧
    q'.state = .refused (.hostUnreachable "alpha" 2) ∧
    (empty .epoch).pingsFor 1 twiceMissed = [q'.ping r.settings] ∧ ∃ first now last pings,
      Decision r.settings .epoch twiceMissed 1 q' [q'.ping r.settings] first now last pings ∧
      last.unreachable = true ∧ 2 ≤ missedInARow pings := by
  let e := ((empty .epoch).play? twiceMissed).getD (empty .epoch)
  have played : (empty .epoch).play? twiceMissed = some e := by decide +kernel
  have inquiry : e.inquiries[0]? = some ⟨0, "alpha", .pass, .passed ⟨"alpha", none, false, 1, false⟩⟩ := by
    decide +kernel
  have inquiry' : e.inquiries[1]? = some ⟨0, "alpha", .pass, .refused (.hostUnreachable "alpha" 2)⟩ := by
    decide +kernel
  have registry : (e.registries[0]?).map (fun r => (r.settings, r.isOpen)) = some (twice, true) := by
    decide +kernel
  obtain ⟨r, hr, same⟩ := Option.map_eq_some_iff.mp registry
  obtain ⟨settings, hopen⟩ := Prod.mk.inj same
  obtain ⟨_, decides, _⟩ := gate_decides_by_the_last_session played inquiry' rfl hr hopen
  obtain ⟨first, now, last, contacts, decision, _, refused, marked, _⟩ := decides rfl
  have sent : (empty .epoch).pingsFor 1 twiceMissed =
      [Inquiry.ping r.settings ⟨0, "alpha", .pass, .refused (.hostUnreachable "alpha" 2)⟩] := by
    rw [settings]
    decide +kernel
  have unreachable : last.unreachable = true := ((refused _).mp rfl).1
  refine ⟨e, _, _, r, played, inquiry, inquiry', rfl, rfl, hr, hopen, ⟨_, rfl, rfl⟩, rfl, sent, first, now, last,
    contacts, sent ▸ decision, unreachable, ?_⟩
  have many := marked.mp unreachable
  rw [settings] at many
  exact many

end Rollout.Engine
