-- SUMMARY: The account between a run and its executor: what is owed, what is reported, and what workers still hold.
import Rollout.Proofs.Engine.Crew
import Rollout.Proofs.Run.Owed

/-!
# Accounts

A run knows what it owes, its workers know what they still hold, and the difference is on its way: the
events in the channel, taken in order, settle what is owed down to what is held. An account says so for
each host. It is kept by the deeds of the workers, by the events that the run takes, and by its steps.
-/
namespace Rollout

/-- Events about owed commands, in order: each is about the first one, and the news that it is over
drops it. What is left is held by workers. -/
inductive Settles : List TaskCommand → List TaskEvent → List TaskCommand → Prop
  | nil (left : List TaskCommand) : Settles left [] left
  | began {c : TaskCommand} {rest left : List TaskCommand} {attempt : UInt32}
      {events : List TaskEvent} (later : Settles (c :: rest) events left) :
      Settles (c :: rest) (.started c.taskId attempt :: events) left
  | ended {c : TaskCommand} {rest left : List TaskCommand} {outcome : TaskOutcome}
      {events : List TaskEvent} (final : outcome.status.isTerminal = true)
      (later : Settles rest events left) :
      Settles (c :: rest) (.finished c.taskId outcome :: events) left

namespace Settles

variable {owed left : List TaskCommand} {events : List TaskEvent} {c : TaskCommand}

theorem began_last (h : Settles owed events (c :: left)) (attempt : UInt32) :
    Settles owed (events ++ [.started c.taskId attempt]) (c :: left) := by
  generalize same : c :: left = all at h
  induction h with
  | nil =>
    subst same
    exact .began (.nil _)
  | began _ ih => exact .began (ih same)
  | ended final _ ih => exact .ended final (ih same)

theorem ended_last (h : Settles owed events (c :: left)) {outcome : TaskOutcome}
    (final : outcome.status.isTerminal = true) :
    Settles owed (events ++ [.finished c.taskId outcome]) left := by
  generalize same : c :: left = all at h
  induction h with
  | nil =>
    subst same
    exact .ended final (.nil _)
  | began _ ih => exact .began (ih same)
  | ended final _ ih => exact .ended final (ih same)

theorem suffix (h : Settles owed events left) : left <:+ owed := by
  induction h with
  | nil => exact List.suffix_refl _
  | began _ ih => exact ih
  | ended _ _ ih => exact ih.trans (List.suffix_cons _ _)

theorem of_nil (h : Settles [] events left) : events = [] ∧ left = [] := by
  cases h
  exact ⟨rfl, rfl⟩

/-- What is owed is held, or the news of its end are among the events. -/
theorem left_or_told (h : Settles owed events left) (hc : c ∈ owed) :
    c ∈ left ∨ ∃ outcome, .finished c.taskId outcome ∈ events := by
  induction h with
  | nil => exact .inl hc
  | began _ ih =>
    exact (ih hc).imp_right fun ⟨outcome, told⟩ => ⟨outcome, List.mem_cons_of_mem _ told⟩
  | @ended first _ _ outcome _ _ _ ih =>
    obtain rfl | later := List.mem_cons.mp hc
    · exact .inr ⟨outcome, List.mem_cons_self⟩
    · exact (ih later).imp_right fun ⟨outcome, told⟩ => ⟨outcome, List.mem_cons_of_mem _ told⟩

end Settles

/-- The news of a channel for a host: the events about its tasks. -/
def Run.news (r : Run) (channel : List TaskEvent) (host : String) : List TaskEvent :=
  channel.filter fun event => (r.task? event.task).map Task.host = some host

/-- A run, its executor and the crew of the executor agree. -/
structure Run.Account (r : Run) (x : Executor) (crew : List Worker) : Prop where
  serving : x.IsServing
  known : ∀ event ∈ x.channel, ∃ t, r.task? event.task = some t
  settles : ∀ host, Settles (r.owed host) (r.news x.channel host) (Engine.backlog crew host)
  sole : Engine.Sole crew
  done : ∀ w ∈ crew, w.phase = .gone → w.commands = []

namespace Run

variable {r r' : Run} {x : Executor} {crew : List Worker}

theorem task?_host (same : r'.charter = r.charter) (id : Nat) :
    (r'.task? id).map Task.host = (r.task? id).map Task.host := by
  have host : Task.host = (fun o => o.1.2.2.host) ∘ Task.origin := rfl
  rw [host, ← Option.map_map, task?_origin same, Option.map_map]

theorem news_congr (same : r'.charter = r.charter) (channel : List TaskEvent) (host : String) :
    r'.news channel host = r.news channel host := by
  simp only [news, task?_host same]

theorem news_append (channel : List TaskEvent) {event : TaskEvent} {t : Task}
    (task : r.task? event.task = some t) (host : String) :
    r.news (channel ++ [event]) host =
      r.news channel host ++ if t.host = host then [event] else [] := by
  simp only [news, List.filter_append, List.filter_cons, task, Option.map_some, List.filter_nil,
    Option.some.injEq, decide_eq_true_eq]

theorem news_cons (channel : List TaskEvent) {event : TaskEvent} {t : Task}
    (task : r.task? event.task = some t) (host : String) :
    r.news (event :: channel) host =
      if t.host = host then event :: r.news channel host else r.news channel host := by
  simp only [news, List.filter_cons, task, Option.map_some, Option.some.injEq, decide_eq_true_eq]

namespace Account

/-- A new run owes nothing. -/
theorem create (id : RunId) (plan : Plan) (policy : Policy) (now : Timestamp)
    (settings : DispatchSettings) (registry : Nat) :
    (Run.create id plan policy now).Account (.fresh settings registry) [] where
  serving := ⟨rfl, rfl, rfl⟩
  known := by simp [Executor.fresh]
  settles host := by
    have orderly := create_orderly id plan policy now
    have idle : (Run.create id plan policy now).Idle := orderly.fresh rfl
    rw [idle_iff.mp idle host]
    exact .nil []
  sole := .nil
  done := by simp

/-- A run that owes the same has the same account. -/
theorem congr (h : r.Account x crew) (charter : r'.charter = r.charter)
    (owed : ∀ host, r'.owed host = r.owed host) : r'.Account x crew where
  serving := h.serving
  known event he := by
    obtain ⟨t, task⟩ := h.known event he
    exact task?_of_charter charter task
  settles host := by
    rw [owed, news_congr charter]
    exact h.settles host
  sole := h.sole
  done := h.done

/-- A command of a client keeps the account, unless it archives the run. -/
theorem orders (h : r.Account x crew) {now : Timestamp} (o : Relation.ReflGen (Order now) r r')
    (live : r'.state.isTerminal = false) : r'.Account x crew := by
  cases o with
  | refl => exact h
  | single o => exact h.congr o.charter (o.owed live)

/-- What workers hold is owed. -/
theorem owed_of_held (h : r.Account x crew) {w : Worker} (hw : w ∈ crew) {c : TaskCommand}
    (hc : c ∈ w.commands) : c ∈ r.owed w.host := by
  refine (h.settles w.host).suffix.subset (List.mem_flatMap.mpr ⟨w, ?_, hc⟩)
  exact List.mem_filter.mpr ⟨hw, decide_eq_true rfl⟩

/-- Of a task that is outstanding a worker that goes on holds the command, or the news of its end are on
their way. -/
theorem at_work (h : r.Account x crew) {t : Task} (ht : t ∈ r.tasks) (out : t.isOutstanding = true) :
    (∃ w ∈ crew, w.phase ≠ .gone ∧ r.command t ∈ w.commands) ∨
      ∃ outcome, .finished t.id outcome ∈ x.channel := by
  have owed : r.command t ∈ r.owed t.host := mem_owed.mpr ⟨t, ht, out, rfl, rfl⟩
  obtain held | ⟨outcome, told⟩ := (h.settles t.host).left_or_told owed
  · obtain ⟨w, hw, holds⟩ := List.mem_flatMap.mp held
    have member := (List.mem_filter.mp hw).1
    refine .inl ⟨w, member, fun gone => ?_, holds⟩
    rw [h.done w member gone] at holds
    cases holds
  · exact .inr ⟨outcome, (List.mem_filter.mp told).1⟩

/-- A step adds what it hands out to what is owed and to what workers hold. -/
theorem step (h : r.Account x crew) (orderly : r.Orderly) (now : Timestamp) (k : Nat) :
    ∃ commands, r.step now = ((r.step now).1, .ok commands) ∧ (r.step now).1.Orderly ∧
      (∀ c ∈ commands, c.runId = r.id) ∧
      (r.step now).1.Account x (crew ++ Engine.starters k commands) := by
  obtain ⟨commands, done, orderly', owed⟩ := orderly.step now
  have charter := step_charter r now
  have id : (r.step now).1.id = r.id := (charter_eq_iff.mp charter).1
  refine ⟨commands, done, orderly', ?_, ?_⟩
  · intro c hc
    obtain ⟨rfl, _⟩ | ⟨_, owed⟩ := owed
    · cases hc
    · have : c ∈ (r.step now).1.owed c.host := by
        rw [owed]
        exact List.mem_filter.mpr ⟨hc, decide_eq_true rfl⟩
      obtain ⟨t, _, _, _, rfl⟩ := mem_owed.mp this
      exact id
  · obtain ⟨rfl, owed⟩ | ⟨idle, owed⟩ := owed
    · rw [Engine.starters_nil, List.append_nil]
      exact h.congr charter owed
    · have settled (host : String) :
          r.news x.channel host = [] ∧ Engine.backlog crew host = [] := by
        have := h.settles host
        rw [idle_iff.mp idle host] at this
        exact this.of_nil
      have free {w : Worker} (hw : w ∈ crew) : w.commands = [] := by
        refine List.eq_nil_iff_forall_not_mem.mpr fun c hc => ?_
        have := h.owed_of_held hw hc
        rw [idle_iff.mp idle w.host] at this
        cases this
      refine ⟨h.serving, ?_, ?_, ?_, ?_⟩
      · intro event he
        obtain ⟨t, task⟩ := h.known event he
        exact task?_of_charter charter task
      · intro host
        obtain ⟨news, backlog⟩ := settled host
        rw [news_congr charter, news, Engine.backlog_append, backlog, Engine.backlog_starters, owed]
        exact .nil _
      · refine List.pairwise_append.mpr ⟨h.sole, Engine.starters_sole k commands, ?_⟩
        exact fun a ha _ _ _ => .inl (free ha)
      · intro w hw gone
        obtain hw | hw := List.mem_append.mp hw
        · exact free hw
        · simp [(Engine.mem_starters hw).2.1] at gone

/-- An event about the first command of a worker goes into the channel. -/
theorem report {front back : List Worker} {w : Worker} (h : r.Account x (front ++ w :: back))
    (orderly : r.Orderly) {c : TaskCommand} (command : w.commands.head? = some c)
    {event : TaskEvent} (about : event.task = c.taskId) {x' : Executor} {w' : Worker}
    (serving : x'.IsServing) (channel : x'.channel = x.channel ++ [event])
    (host : w'.host = w.host) (stays : w'.phase ≠ .gone)
    (held : w.commands = [] → w'.commands = [])
    (settles : ∀ {owed events}, Settles owed events w.commands →
      Settles owed (events ++ [event]) w'.commands) : r.Account x' (front ++ w' :: back) := by
  have busy : w.commands ≠ [] := fun none => by simp [none] at command
  have hc : c ∈ w.commands := List.mem_of_head? command
  obtain ⟨t, _, task, _, at_host, _⟩ :=
    orderly.mirrors.task_of_owed (h.owed_of_held (by simp : w ∈ front ++ w :: back) hc)
  rw [← about] at task
  refine ⟨serving, ?_, fun other => ?_, h.sole.replace host held, ?_⟩
  · intro ev hev
    rw [channel] at hev
    obtain hev | hev := List.mem_append.mp hev
    · exact h.known ev hev
    · rw [List.mem_singleton.mp hev]
      exact ⟨t, task⟩
  · rw [channel, news_append _ task]
    split
    next here =>
      have here : other = w.host := here.symm.trans at_host
      subst here
      rw [h.sole.backlog busy host]
      have before := h.settles w.host
      rw [h.sole.backlog busy rfl] at before
      exact settles before
    next elsewhere =>
      rw [List.append_nil, Engine.backlog_replace host]
      · exact h.settles other
      · exact fun here => absurd (at_host.trans here.symm) elsewhere
  · intro v hv gone
    obtain old | rfl := Engine.mem_replace (w := w) hv
    · exact h.done v old gone
    · exact absurd gone stays

/-- A deed of a worker keeps the account. -/
theorem deed {front back : List Worker} {w : Worker} (h : r.Account x (front ++ w :: back))
    (orderly : r.Orderly) (final : ∀ outcome, w.phase = .reporting outcome →
      outcome.status.isTerminal = true)
    {e : Engine} {i : Nat} {f : Engine.Effect} (deed : Engine.Deed e i w x f) :
    r.Account f.executor (front ++ f.worker :: back) := by
  have serving := deed.serving h.serving
  cases deed.labour h.serving with
  | silent commands channel done =>
    refine ⟨serving, by rw [channel]; exact h.known, fun host => ?_,
      h.sole.replace deed.host_eq fun none => by rw [commands, none], ?_⟩
    · rw [channel, Engine.backlog_replace deed.host_eq fun _ => commands]
      exact h.settles host
    · intro v hv gone
      obtain old | rfl := Engine.mem_replace (w := w) hv
      · exact h.done v old gone
      · rw [commands]
        exact done gone
  | @began c attempt command commands channel stays =>
    refine h.report orderly command rfl serving channel deed.host_eq stays
      (fun none => by rw [commands, none]) fun before => ?_
    obtain ⟨rest, held⟩ := List.head?_eq_some_iff.mp command
    rw [commands, held]
    rw [held] at before
    exact before.began_last attempt
  | @ended c outcome phase command commands channel stays =>
    refine h.report orderly command rfl serving channel deed.host_eq stays
      (fun none => by rw [commands, none]; rfl) fun before => ?_
    obtain ⟨rest, held⟩ := List.head?_eq_some_iff.mp command
    rw [commands, held]
    rw [held] at before
    exact before.ended_last (final outcome phase)

/-- The run takes the next event of the channel. -/
theorem take (h : r.Account x crew) (orderly : r.Orderly) (live : r.state.isTerminal = false)
    {event : TaskEvent} {rest : List TaskEvent} (channel : x.channel = event :: rest)
    (now : Timestamp) :
    ∃ r', r.apply now event = (r', .ok ()) ∧ r'.Orderly ∧ r'.state = r.state ∧
      r'.charter = r.charter ∧ r'.Account { x with channel := rest } crew := by
  obtain ⟨t, task⟩ := h.known event (by simp [channel])
  have settles := h.settles t.host
  have news := r.news_cons rest task t.host
  rw [if_pos rfl, ← channel] at news
  rw [news] at settles
  have elsewhere {host : String} (other : host ≠ t.host) :
      r.news rest host = r.news x.channel host := by
    rw [channel, news_cons rest task, if_neg (Ne.symm other)]
  -- The account is kept when the run owes what is left after the event.
  have account {r' : Run} (charter : r'.charter = r.charter)
      (mine : Settles (r'.owed t.host) (r.news rest t.host) (Engine.backlog crew t.host))
      (others : ∀ host ≠ t.host, r'.owed host = r.owed host) :
      r'.Account { x with channel := rest } crew := by
    refine ⟨⟨h.serving.isOpen, h.serving.going, h.serving.heard⟩, ?_, fun host => ?_, h.sole, h.done⟩
    · intro ev hev
      obtain ⟨_, task⟩ := h.known ev (by rw [channel]; exact List.mem_cons_of_mem _ hev)
      exact task?_of_charter charter task
    · rw [news_congr charter]
      by_cases here : host = t.host
      · rw [here]
        exact mine
      · rw [others host here, elsewhere here]
        exact h.settles host
  generalize owed : r.owed t.host = commands at settles
  cases settles with
  | began later =>
    obtain ⟨r', applied, orderly', state, charter, same⟩ := orderly.begins live owed now _
    refine ⟨r', applied, orderly', state, charter, account charter ?_ fun host _ => same host⟩
    rw [same, owed]
    exact later
  | ended final later =>
    obtain ⟨r', applied, orderly', state, charter, left⟩ := orderly.ends live owed now final
    refine ⟨r', applied, orderly', state, charter, account charter ?_ fun host other => ?_⟩
    · rw [left, if_pos rfl]
      exact later
    · rw [left, if_neg other]

end Account

end Run

end Rollout
