-- SUMMARY: Which attempts pass the gate: what the session of the host was, and what a refused command comes to.
import Rollout.Proofs.Engine.Acts
import Rollout.Proofs.Engine.Supervision

/-!
# Attempts that pass the gate

Before its first attempt a command passes the gate: the supervisor answers, and the session that it
answers with is not marked. Later attempts do not ask again, so what is known at an attempt is what was
answered at the gate and which pings were missed since. A command whose host is still marked after the
ping that the gate asked for is never sent.
-/
namespace Rollout.Engine

-- ---------------------------------------------------------------------------
-- At the gate
-- ---------------------------------------------------------------------------

variable {e e' : Engine} {a : Act}

/-- In the run of the acts, which leads to `e`, the worker was at the gate with the commands that it has
now, and the session of its host was `s` then. Since then the acts `since` happened. -/
def Heard (wall : Timestamp) (acts since : List Act) (e : Engine) (i : Nat) (w : Worker)
    (registry : Nat) (s : Session) : Prop :=
  ∃ before e₁ q, acts = before ++ since ∧ (empty wall).play? before = some e₁ ∧
    e₁.play? since = some e ∧ e₁.workers[i]? = some { w with phase := .atGate q } ∧
    e₁.session? registry w.host = some s

/-- What an inquiry tells about the session. -/
def Tells (P : Session → Prop) : InquiryState → Prop
  | .answered _ s => P s
  | .passed s => s.unreachable = false ∧ P s
  | .opening | .asked _ | .refused _ => True

/-- What a worker of the executor `x` was told at the gate before its current command. -/
def Vetted (P : Session → Prop) (e : Engine) (x : Executor) (w : Worker) : Prop :=
  match w.phase with
  | .atGate q => ∃ state, e.inquiries[q]? = some ⟨x.registry, w.host, .pass, state⟩ ∧ Tells P state
  | .sending _ | .announced _ | .calling .. | .called .. => ∃ s, s.unreachable = false ∧ P s
  | .spawned | .awaitingLock | .awaitingSlot | .choosing | .reporting _ | .gone => True

theorem Heard.act {wall : Timestamp} {acts since : List Act} {i registry : Nat} {w : Worker}
    {s : Session} (heard : Heard wall acts since e i w registry s) (done : e.act? a = some e') :
    Heard wall (acts ++ [a]) (since ++ [a]) e' i w registry s := by
  obtain ⟨before, e₁, q, rfl, played, rest, there⟩ := heard
  exact ⟨before, e₁, q, List.append_assoc .., played, play?_concat rest done, there⟩

/-- The gate lets a command pass or refuses it, as the session says. -/
theorem follow_inr {q : Inquiry} {settings : ProbeSettings} {wall : Timestamp} {question : Question}
    {s : Session} {result : InquiryState} (purpose : q.purpose = .pass)
    (h : q.follow settings wall question s = .inr result) : result = Inquiry.verdict q.host s := by
  cases question with
  | probe =>
    simp only [Inquiry.follow, purpose] at h
    cases h
    rfl
  | session =>
    simp only [Inquiry.follow, purpose] at h
    split at h
    · cases h
    · cases h
      rfl

section Vetting

variable {P P' : Session → Prop} {x : Executor} {w : Worker}

/-- What an inquiry tells about the session stays true while it advances. -/
theorem Advance.tells {q : Inquiry} {state : InquiryState} (advance : Advance e' q state)
    (purpose : q.purpose = .pass) (told : Tells P q.state) (keeps : ∀ s, P s → P' s)
    (hears : ∀ s, e'.session? q.registry q.host = some s → P' s) : Tells P' state := by
  cases advance with
  | same =>
    generalize q.state = state at told ⊢
    cases state with
    | answered _ s => exact keeps s told
    | passed s => exact ⟨told.1, keeps s told.2⟩
    | opening | asked | refused => exact trivial
  | asks _ asked =>
    obtain ⟨_, rfl⟩ | ⟨_, rfl⟩ := asked <;> exact trivial
  | answered _ session => exact hears _ session
  | dropped => exact trivial
  | @decided _ s _ _ _ answered follow =>
    rw [answered] at told
    rw [follow_inr purpose follow, Inquiry.verdict]
    split
    · exact trivial
    next unmarked => exact ⟨by simpa using unmarked, keeps s told⟩

/-- A worker that does nothing remembers what it was told, and hears more at the gate. -/
theorem Vetted.advance {x' : Executor} (vetted : Vetted P e x w) (advances : Advances e e')
    (registry : x'.registry = x.registry) (keeps : ∀ s, P s → P' s)
    (hears : ∀ q s, w.phase = .atGate q → e'.session? x'.registry w.host = some s → P' s) :
    Vetted P' e' x' w := by
  cases phase : w.phase with
  | atGate q =>
    simp only [Vetted, phase] at vetted ⊢
    obtain ⟨state, asked, told⟩ := vetted
    obtain ⟨state', asked', advance⟩ := advances q _ asked
    rw [registry] at hears ⊢
    exact ⟨state', asked', advance.tells rfl told keeps fun s => hears q s phase⟩
  | sending | announced | calling | called =>
    simp only [Vetted, phase] at vetted ⊢
    exact vetted.imp fun s ⟨unmarked, told⟩ => ⟨unmarked, keeps s told⟩
  | spawned | awaitingLock | awaitingSlot | choosing | reporting | gone => simp only [Vetted, phase]

/-- A worker passes the gate with a session that is not marked, and forgets it when its command is over. -/
theorem Vetted.deed {i : Nat} {f : Effect} (vetted : Vetted P e x w) (deed : Deed e i w x f)
    (keeps : f.worker.commands = w.commands → ∀ s, P s → P' s) :
    Vetted P' (e.put i w f) f.executor f.worker := by
  have kept (same : f.worker.commands = w.commands) (vetted : ∃ s, s.unreachable = false ∧ P s) :
      ∃ s, s.unreachable = false ∧ P' s :=
    vetted.imp fun s ⟨unmarked, told⟩ => ⟨unmarked, keeps same s told⟩
  cases deed with
  | arrive | leave | lock | settle | turnBack | giveUp | report => exact trivial
  | knock => exact ⟨.opening, by simp [put], trivial⟩
  | @pass q _ _ _ s phase passed =>
    simp only [Vetted, phase] at vetted
    obtain ⟨state, asked, told⟩ := vetted
    cases asked.symm.trans passed
    exact kept rfl ⟨s, told⟩
  | announce phase | call phase | answer _ phase | expire phase =>
    simp only [Vetted, phase] at vetted
    exact kept rfl vetted
  | @conclude retries fault phase =>
    simp only [Vetted, phase] at vetted
    obtain ⟨_, again⟩ | ⟨_, _, ended⟩ := afterCall_cases x retries fault
    · simpa only [Vetted, again] using kept rfl vetted
    · simp only [Vetted, ended]

end Vetting

/-- Every worker remembers what it was told at the gate. -/
def Watched (wall : Timestamp) (acts : List Act) (e : Engine) : Prop :=
  ∀ (i : Nat) w x, e.workers[i]? = some w → e.executors[w.executor]? = some x →
    Vetted (fun s => ∃ since, Heard wall acts since e i w x.registry s) e x w

/-- At every act each worker goes on to remember what it was told at the gate. -/
theorem Watched.act {wall : Timestamp} {acts : List Act} (played : (empty wall).play? acts = some e)
    (watched : Watched wall acts e) (done : e.act? a = some e') : Watched wall (acts ++ [a]) e' := by
  intro i w' x' hw' hx'
  have housed := housed_of_play? played
  have att := act?_attended done (linked_of_reachable ⟨wall, acts, played⟩)
  have course := Course.of_act? housed done
  obtain spawned | ⟨w, hw⟩ := course.known hw'
  · simp only [Vetted, spawned]
  obtain same | ⟨x, f, hx, deed, rfl⟩ := course.worker hw
  · cases hw'.symm.trans same
    by_cases active : w'.phase = .spawned
    · simp only [Vetted, active]
    obtain ⟨x, hx⟩ := housed.executor hw active
    have registry := course.registry hx hx'
    refine (watched i w' x hw hx).advance att.advances registry ?_ ?_
    · rintro s ⟨since, heard⟩
      exact ⟨_, registry ▸ heard.act done⟩
    -- The answer is the session that the supervisor has now.
    · intro q s phase session
      have here : w' = { w' with phase := .atGate q } := by rw [← phase]
      exact ⟨[], _, e', q, (List.append_nil _).symm, play?_concat played done, rfl,
        here ▸ same, session⟩
  · rw [put_worker? hw, if_pos rfl] at hw'
    cases hw'
    rw [put_executor? hx, if_pos deed.executor_eq] at hx'
    cases hx'
    refine (watched i w x hw hx).deed deed fun commands => ?_
    rintro s ⟨since, heard⟩
    have mine : Heard wall acts since e i f.worker f.executor.registry s := by
      simpa only [Heard, deed.registry_eq, deed.host_eq, deed.executor_eq, commands] using heard
    exact ⟨_, mine.act done⟩

theorem watched_of_play? {wall : Timestamp} {acts : List Act}
    (played : (empty wall).play? acts = some e) : Watched wall acts e :=
  play?_induction (fun _ _ _ hw => by simp [empty] at hw)
    (fun played watched done => watched.act played done) played

-- ---------------------------------------------------------------------------
-- Refusals
-- ---------------------------------------------------------------------------

/-- The fault of a command that is refused since its host is marked. -/
def markedFault (w : Worker) (s : Session) : Fault := .hostUnreachable w.host s.consecutiveFailures

/-- What is reported of a command that is refused since its host is marked. -/
def refusal (w : Worker) (c : TaskCommand) (s : Session) : Happening :=
  .reported w.executor (.finished c.taskId (.failed (markedFault w s) 0))

/-- How far the refusal of the first command of the worker `w` at position `i` is. -/
inductive Refusing (e : Engine) (i : Nat) (w : Worker) (s : Session) : Prop
  | told {q registry : Nat} (worker : e.workers[i]? = some { w with phase := .atGate q })
      (inquiry : e.inquiries[q]? = some ⟨registry, w.host, .pass, .answered .probe s⟩)
  | refused {q registry : Nat} (worker : e.workers[i]? = some { w with phase := .atGate q })
      (inquiry : e.inquiries[q]? = some ⟨registry, w.host, .pass, .refused (markedFault w s)⟩)
  | reporting
      (worker : e.workers[i]? = some { w with phase := .reporting (.failed (markedFault w s) 0) })
  /-- Nobody hears the worker. -/
  | gone (worker : e.workers[i]? = some { w with phase := .gone })

section Refusals

variable {i : Nat} {w : Worker} {x : Executor} {f : Effect} {s : Session} {c : TaskCommand}

theorem verdict_of_marked (host : String) (marked : s.unreachable = true) :
    Inquiry.verdict host s = .refused (.hostUnreachable host s.consecutiveFailures) := by
  rw [Inquiry.verdict, if_pos marked]

/-- At the gate a worker waits for the end of its inquiry. -/
theorem Deed.atGate {q : Nat} (deed : Deed e i w x f) (phase : w.phase = .atGate q) :
    (∃ registry host purpose s, e.inquiries[q]? = some ⟨registry, host, purpose, .passed s⟩) ∨
      ∃ registry host purpose fault,
        e.inquiries[q]? = some ⟨registry, host, purpose, .refused fault⟩ ∧
        f.worker = { w with phase := .reporting (.failed fault 0) } := by
  cases deed with
  | pass here passed =>
    cases phase.symm.trans here
    exact .inl ⟨_, _, _, _, passed⟩
  | turnBack here refused =>
    cases phase.symm.trans here
    exact .inr ⟨_, _, _, _, refused, rfl⟩
  | leave why =>
    cases why with
    | noSlots here | noSlot here | done here | unheard here => cases phase.symm.trans here
  | arrive here | lock here | settle here | knock here | giveUp here | announce here | call here
  | answer _ here | expire here | conclude here | report here => cases phase.symm.trans here

theorem Deed.reporting {outcome : TaskOutcome} (deed : Deed e i w x f)
    (phase : w.phase = .reporting outcome) (command : w.commands.head? = some c) :
    f.worker = { w with phase := .gone } ∨
      f.happenings = [.reported w.executor (.finished c.taskId outcome)] := by
  cases deed with
  | leave => exact .inl rfl
  | report here first =>
    cases phase.symm.trans here
    cases command.symm.trans first
    exact .inr rfl
  | arrive here | lock here | settle here | knock here | pass here | turnBack here | giveUp here
  | announce here | call here | answer _ here | expire here | conclude here => cases phase.symm.trans here

theorem Deed.not_gone (deed : Deed e i w x f) : w.phase ≠ .gone := by
  intro phase
  cases deed with
  | leave why =>
    cases why with
    | noSlots here | noSlot here | done here | unheard here => cases phase.symm.trans here
  | arrive here | lock here | settle here | knock here | pass here | turnBack here | giveUp here
  | announce here | call here | answer _ here | expire here | conclude here | report here =>
    cases phase.symm.trans here

namespace Refusing

/-- A refusal goes on until it is reported. -/
theorem act (r : Refusing e i w s) (marked : s.unreachable = true)
    (command : w.commands.head? = some c) (course : Course e e') (advances : Advances e e') :
    Refusing e' i w s ∨ e'.history = ⟨e.now, w.host, refusal w c s⟩ :: e.history := by
  cases r with
  | told worker inquiry =>
    refine .inl ?_
    obtain same | ⟨x, f, _, deed, _⟩ := course.worker worker
    · obtain ⟨state, after, advance⟩ := advances _ _ inquiry
      cases advance with
      | same => exact .told same after
      | asks pending => simp at pending
      | answered asked | dropped asked => cases asked
      | decided answered follow =>
        cases answered
        rw [follow_inr rfl follow, verdict_of_marked w.host marked] at after
        exact .refused same after
    · obtain ⟨_, _, _, _, passed⟩ | ⟨_, _, _, _, refused, _⟩ := deed.atGate rfl
      · cases inquiry.symm.trans passed
      · cases inquiry.symm.trans refused
  | refused worker inquiry =>
    refine .inl ?_
    obtain same | ⟨x, f, _, deed, rfl⟩ := course.worker worker
    · obtain ⟨state, after, advance⟩ := advances _ _ inquiry
      cases advance with
      | same => exact .refused same after
      | asks pending => simp at pending
      | answered other | dropped other | decided other => cases other
    · obtain ⟨_, _, _, _, passed⟩ | ⟨_, _, _, _, refused, reports⟩ := deed.atGate rfl
      · cases inquiry.symm.trans passed
      · cases inquiry.symm.trans refused
        exact .reporting (by rw [put_worker? worker, if_pos rfl, reports])
  | reporting worker =>
    obtain same | ⟨x, f, _, deed, rfl⟩ := course.worker worker
    · exact .inl (.reporting same)
    · obtain gone | reported := deed.reporting rfl command
      · exact .inl (.gone (by rw [put_worker? worker, if_pos rfl, gone]))
      · exact .inr (by rw [put, reported]; rfl)
  | gone worker =>
    obtain same | ⟨x, f, _, deed, rfl⟩ := course.worker worker
    · exact .inl (.gone same)
    · exact absurd rfl deed.not_gone

/-- A worker whose command is refused sends nothing. -/
theorem silent {v : Worker} (r : Refusing e i w s) : ¬ Sends e i v x c := by
  rintro ⟨worker, _, phase, _⟩
  cases r with
  | told here | refused here | reporting here | gone here =>
    cases here.symm.trans worker
    cases phase

end Refusing

/-- It is reported that the command of the worker was refused. -/
def Refused (w : Worker) (c : TaskCommand) (s : Session) (past : List Entry) : Prop :=
  ∃ report ∈ past, report.host = w.host ∧ report.happening = refusal w c s

/-- Before the worker sends anything it reports that its command was refused. -/
def Barred (i : Nat) (w : Worker) (c : TaskCommand) (s : Session) (later : List Entry) : Prop :=
  ∀ entry past c', entry :: past <:+ later → entry.happening = .callBegan i c' → Refused w c s past

/-- Once the session after the ping is marked, the worker sends nothing until its first command is refused. -/
theorem Refusing.barred {wall : Timestamp} {acts rest : List Act} {e₀ : Engine}
    (played : (empty wall).play? acts = some e₀) (r : Refusing e₀ i w s)
    (marked : s.unreachable = true) (command : w.commands.head? = some c)
    (rests : e₀.play? rest = some e) :
    ∃ later, e.history = later ++ e₀.history ∧ Barred i w c s later ∧
      (Refusing e i w s ∨ Refused w c s later) := by
  -- As long as the refusal is not reported the worker cannot send, and afterwards it is barred no more.
  refine play?_induction (P := fun _ e => ∃ later, e.history = later ++ e₀.history ∧
    Barred i w c s later ∧ (Refusing e i w s ∨ Refused w c s later)) ?_ ?_ rests
  · exact ⟨[], rfl, by simp [Barred], .inl r⟩
  rintro acts' e e' a played' ⟨later, history, barred, stage⟩ done
  have reached : (empty wall).play? (acts ++ acts') = some e := by
    rw [play?_append, played, Option.bind_some, played']
  have housed := housed_of_play? reached
  have att := act?_attended done (linked_of_reachable ⟨wall, _, reached⟩)
  obtain ⟨new, grown, calls⟩ := (Growth.of_act? housed done).append
  refine ⟨new ++ later, by rw [grown, history, List.append_assoc], ?_, ?_⟩
  · intro entry past c' told call
    obtain old | ⟨fresh, longer⟩ := told_or_new told
    · exact barred entry past c' old call
    · obtain refusing | ⟨report, reported, same⟩ := stage
      · obtain ⟨v, x, sends⟩ := calls entry fresh i c' call
        exact absurd sends refusing.silent
      · exact ⟨report, longer.subset reported, same⟩
  · obtain refusing | ⟨report, reported, same⟩ := stage
    · refine (refusing.act marked command (.of_act? housed done) att.advances).imp_right ?_
      intro reports
      have last : new = [⟨e.now, w.host, refusal w c s⟩] :=
        List.append_cancel_right (grown.symm.trans reports)
      exact ⟨_, by rw [last]; exact List.mem_cons_self, rfl, rfl⟩
    · exact .inr ⟨report, List.mem_append_right _ reported, same⟩

/-! ## Moves of a worker that is refused -/

section Work

variable (hw : e.workers[i]? = some w) (hx : e.executors[w.executor]? = some x)
include hw hx

/-- The worker learns that the ping which it asked for left the host marked. -/
theorem work?_told {q registry : Nat} {r : Registry} (phase : w.phase = .atGate q)
    (hr : e.registries[registry]? = some r)
    (inquiry : e.inquiries[q]? = some ⟨registry, w.host, .pass, .answered .probe s⟩)
    (marked : s.unreachable = true) :
    e.work? i = some (e.setInquiry q (.refused (markedFault w s))) := by
  simp [work?, inquire?, hw, hx, hr, phase, inquiry, Inquiry.follow, markedFault,
    verdict_of_marked w.host marked]

theorem work?_refused {q registry : Nat} {host : String} {purpose : Purpose} {fault : Fault}
    (phase : w.phase = .atGate q)
    (inquiry : e.inquiries[q]? = some ⟨registry, host, purpose, .refused fault⟩) :
    e.work? i = some (e.enter i (.reporting (.failed fault 0))) := by
  simp [work?, hw, hx, phase, inquiry]

theorem work?_reporting {outcome : TaskOutcome} (phase : w.phase = .reporting outcome)
    (command : w.commands.head? = some c) (heard : x.isReceived = true) :
    ∃ e', e.work? i = some e' ∧ e'.history =
      ⟨e.now, w.host, .reported w.executor (.finished c.taskId outcome)⟩ :: e.history := by
  rw [work?, hw, Option.bind_eq_bind, Option.bind_some, hx, Option.bind_eq_bind, Option.bind_some]
  simp only [phase, heard, command]
  exact ⟨_, rfl, rfl⟩

/-- When the host is marked and the worker is heard, three moves of the worker report that its command is
refused, and nothing else happens. -/
theorem refusal_reported {q registry : Nat} {r : Registry} (phase : w.phase = .atGate q)
    (hr : e.registries[registry]? = some r)
    (inquiry : e.inquiries[q]? = some ⟨registry, w.host, .pass, .answered .probe s⟩)
    (marked : s.unreachable = true) (command : w.commands.head? = some c)
    (heard : x.isReceived = true) :
    ∃ e', e.play? (List.replicate 3 (.move (.work i))) = some e' ∧
      e'.history = ⟨e.now, w.host, refusal w c s⟩ :: e.history := by
  let e₁ := e.setInquiry q (.refused (markedFault w s))
  let e₂ := e₁.enter i (.reporting (.failed (markedFault w s) 0))
  have first : e.work? i = some e₁ := work?_told hw hx phase hr inquiry marked
  have refused : e₁.inquiries[q]? =
      some ⟨registry, w.host, .pass, .refused (markedFault w s)⟩ := by
    rw [setInquiry_inquiries?, inquiry]
    simp
  have second : e₁.work? i = some e₂ := work?_refused (e := e₁) hw hx phase refused
  have worker : e₂.workers[i]? =
      some { w with phase := .reporting (.failed (markedFault w s) 0) } := by
    have here : e₁.workers[i]? = some w := hw
    simp [e₂, enter, modifyWorker, here]
  obtain ⟨e₃, third, history⟩ := work?_reporting (e := e₂) worker hx rfl command heard
  refine ⟨e₃, ?_, history⟩
  simp only [List.replicate, play?, act?, step?, first, second, third, Option.bind_eq_bind,
    Option.bind_some]

end Work

end Refusals

-- ---------------------------------------------------------------------------
-- Attempts
-- ---------------------------------------------------------------------------

/-- A worker that sends a command was told at the gate that its host is not marked, and it is still not
marked unless a ping was missed since. -/
theorem Sends.heard {wall : Timestamp} {acts : List Act} {i : Nat} {w : Worker} {x : Executor}
    {c : TaskCommand} (sends : Sends e i w x c) (played : (empty wall).play? acts = some e) :
    ∃ since s, Heard wall acts since e i w x.registry s ∧ s.unreachable = false ∧
      ((∀ a ∈ since, ¬ a.Misses x.registry w.host) →
        ∃ s', e.session? x.registry w.host = some s' ∧ s'.unreachable = false) := by
  obtain ⟨hw, hx, phase, _⟩ := sends
  have vetted := watched_of_play? played i w x hw hx
  simp only [Vetted, phase] at vetted
  obtain ⟨s, unmarked, since, heard⟩ := vetted
  refine ⟨since, s, heard, unmarked, fun answered => ?_⟩
  obtain ⟨before, e₁, q, rfl, reached, rest, _, session⟩ := heard
  obtain ⟨s', hs', marked⟩ :=
    play?_session (linked_of_reachable ⟨wall, before, reached⟩) session rest
  refine ⟨s', hs', by_contra fun now_marked => ?_⟩
  obtain old | ⟨a, ha, missed⟩ := marked (by simpa using now_marked)
  · exact absurd old (by simp [unmarked])
  · exact answered a ha missed

/-- Whatever executors, agents and pings do: a call, for the first attempt or a later one, is begun for a
command that passed the gate with a session that was not marked, and the session is still not marked
unless a ping was missed since. If the ping that the gate asks for leaves the host marked, the worker
calls nobody before it reports that the host is unreachable, and if it is heard it can report so at once. -/
theorem attempts_pass_the_gate {wall : Timestamp} {acts : List Act}
    (played : (empty wall).play? acts = some e) :
    (∀ a e', e.act? a = some e' → ∃ later, e'.history = later ++ e.history ∧
      ∀ entry ∈ later, ∀ i c, entry.happening = .callBegan i c →
        ∃ w x since s, Sends e i w x c ∧ Heard wall acts since e i w x.registry s ∧
          s.unreachable = false ∧
          ((∀ b ∈ since, ¬ b.Misses x.registry w.host) →
            ∃ s', e.session? x.registry w.host = some s' ∧ s'.unreachable = false)) ∧
    ∀ i w x c q s, e.workers[i]? = some w → e.executors[w.executor]? = some x →
      w.commands.head? = some c → w.phase = .atGate q →
      (e.inquiries[q]?).map Inquiry.state = some (.answered .probe s) → s.unreachable = true →
      (∀ rest e', e.play? rest = some e' →
        ∃ later, e'.history = later ++ e.history ∧ Barred i w c s later) ∧
      (x.isReceived = true → ∃ e', e.play? (List.replicate 3 (.move (.work i))) = some e' ∧
        e'.history = ⟨e.now, w.host, refusal w c s⟩ :: e.history) := by
  refine ⟨fun a e' done => ?_, fun i w x c q s hw hx command phase answered marked => ?_⟩
  · obtain ⟨later, history, calls⟩ := (Growth.of_act? (housed_of_play? played) done).append
    refine ⟨later, history, fun entry hentry i c call => ?_⟩
    obtain ⟨w, x, sends⟩ := calls entry hentry i c call
    obtain ⟨since, s, heard⟩ := sends.heard played
    exact ⟨w, x, since, s, sends, heard⟩
  · have vetted := watched_of_play? played i w x hw hx
    simp only [Vetted, phase] at vetted
    obtain ⟨state, inquiry, told⟩ := vetted
    rw [inquiry] at answered
    cases answered
    obtain ⟨since, before, e₁, _, rfl, reached, rest, _, session⟩ := told
    have here : w = { w with phase := .atGate q } := by rw [← phase]
    refine ⟨fun rest e' rests => ?_, fun heard => ?_⟩
    · obtain ⟨later, history, barred, _⟩ :=
        (Refusing.told (here ▸ hw) inquiry).barred played marked command rests
      exact ⟨later, history, barred⟩
    · obtain ⟨s', hs', _⟩ := play?_session (linked_of_reachable ⟨wall, before, reached⟩) session rest
      obtain ⟨_, supervisor, _⟩ := Option.map_eq_some_iff.mp hs'
      obtain ⟨r, hr, _⟩ := Option.bind_eq_some_iff.mp supervisor
      exact refusal_reported hw hx phase hr inquiry marked command heard

/-! ## Two attempts -/

/-- The command of a task for a host. -/
def errand (task : Nat) (host : String) : TaskCommand :=
  ⟨.ofNat 0, task, host, "db", "server", .stop, "1.0", .upgrade, 1⟩

/-- One missed ping marks a host, and a command that fails is sent again once. The first attempt at alpha
is under way. -/
def firstAttempt : List Act :=
  [.serve (.openRegistry { ProbeSettings.default with failureThreshold := 1 }),
    .serve (.openExecutor { DispatchSettings.default with maxTaskRetries := 1 } 0),
    .serve (.dispatch 0 [errand 0 "alpha", errand 1 "beta"])] ++
  List.replicate 5 (.move (.work 0)) ++
  [.move (.supervise 0 "alpha"), .move (.work 0), .move (.supervise 0 "alpha"),
    .move (.pong 0 "alpha" (some .epoch))] ++
  List.replicate 4 (.move (.work 0))

/-- The first attempt at alpha fails, and the worker announces another one. -/
def failure : List Act :=
  [.move (.answer 0 2 (some (.commandRejected "alpha" "busy"))), .move (.work 0), .move (.work 0)]

/-- The ping that the gate of beta asks for is missed. -/
def missedAtGate : List Act :=
  List.replicate 5 (.move (.work 1)) ++
  [.move (.supervise 0 "beta"), .move (.work 1), .move (.supervise 0 "beta"),
    .move (.pong 0 "beta" none)]

/-- A ping of the background to alpha is missed. -/
def missedMeanwhile : List Act :=
  [.move (.pass 30000), .move (.tick 0 "alpha"), .move (.pong 0 "alpha" none)]

/-- The second attempt at alpha comes next, and beta is marked at its gate. -/
def twoHosts : Engine :=
  ((empty .epoch).play? (firstAttempt ++ failure ++ missedAtGate)).getD (empty .epoch)

/-- The second attempt at alpha has begun. -/
def secondAttempt : Engine := (twoHosts.step? (.work 0)).getD (empty .epoch)

theorem attempts_pass_the_gate_twoHosts :
    secondAttempt.history.head? = some
        ⟨0, "alpha", .callBegan 0 { errand 0 "alpha" with attempt := 2 }⟩ ∧
      (∃ s, twoHosts.session? 0 "alpha" = some s ∧ s.unreachable = false) ∧
      ∃ v s, twoHosts.workers[1]? = some v ∧ v.phase = .atGate 1 ∧ s.unreachable = true ∧
        (∀ rest e', twoHosts.play? rest = some e' →
          ∃ later, e'.history = later ++ twoHosts.history ∧ Barred 1 v (errand 1 "beta") s later) ∧
        ∃ e', twoHosts.play? (List.replicate 3 (.move (.work 1))) = some e' ∧
          e'.history = ⟨twoHosts.now, "beta", refusal v (errand 1 "beta") s⟩ :: twoHosts.history := by
  have played : (empty .epoch).play? (firstAttempt ++ failure ++ missedAtGate) = some twoHosts := by
    decide +kernel
  have done : twoHosts.act? (.move (.work 0)) = some secondAttempt := by decide +kernel
  have history : secondAttempt.history =
      [⟨0, "alpha", .callBegan 0 { errand 0 "alpha" with attempt := 2 }⟩] ++ twoHosts.history := by
    decide +kernel
  have alpha : twoHosts.workers[0]? = some ⟨0, "alpha", [errand 0 "alpha"], .announced 1⟩ := by
    decide +kernel
  have beta : twoHosts.workers[1]? = some ⟨0, "beta", [errand 1 "beta"], .atGate 1⟩ := by
    decide +kernel
  have executor : (twoHosts.executors[0]?).map (fun x => (x.registry, x.isReceived)) =
      some (0, true) := by
    decide +kernel
  have inquiry : (twoHosts.inquiries[1]?).map Inquiry.state =
      some (.answered .probe ⟨"beta", none, false, 1, true⟩) := by
    decide +kernel
  obtain ⟨x, hx, same⟩ := Option.map_eq_some_iff.mp executor
  obtain ⟨registry, heard⟩ := Prod.mk.inj same
  obtain ⟨passes, refused⟩ := attempts_pass_the_gate played
  obtain ⟨later, grown, calls⟩ := passes _ _ done
  rw [List.append_cancel_right (grown.symm.trans history)] at calls
  obtain ⟨w, y, since, s, sends, ⟨before, _, _, split, _⟩, _, calm⟩ :=
    calls _ List.mem_cons_self _ _ rfl
  cases alpha.symm.trans sends.worker?
  cases hx.symm.trans sends.executor?
  -- The only ping that was missed went to the other host.
  have answered : ∀ a ∈ firstAttempt ++ failure ++ missedAtGate, ¬ a.Misses x.registry "alpha" := by
    simp [firstAttempt, failure, missedAtGate, List.replicate, Act.Misses]
  have unmarked := calm fun a ha => answered a (split ▸ List.mem_append_right before ha)
  obtain ⟨barred, reports⟩ := refused 1 _ x (errand 1 "beta") 1 _ beta hx rfl rfl inquiry rfl
  exact ⟨by rw [history]; rfl, registry ▸ unmarked, _, _, beta, rfl, rfl, barred, reports heard⟩

/-- A later attempt does not ask again: after a missed ping the command goes to a host that is marked. -/
theorem attempt_at_marked_host :
    ∃ e e', (empty .epoch).play? (firstAttempt ++ missedMeanwhile ++ failure) = some e ∧
      (e.session? 0 "alpha").map Session.unreachable = some true ∧
      e.step? (.work 0) = some e' ∧
      (e'.session? 0 "alpha").map Session.unreachable = some true ∧
      e'.history.head?.map Entry.happening =
        some (.callBegan 0 { errand 0 "alpha" with attempt := 2 }) := by
  let before := ((empty .epoch).play? (firstAttempt ++ missedMeanwhile ++ failure)).getD (empty .epoch)
  let after := (before.step? (.work 0)).getD (empty .epoch)
  exact ⟨before, after, by decide +kernel, by decide +kernel, by decide +kernel, by decide +kernel,
    by decide +kernel⟩

end Rollout.Engine
