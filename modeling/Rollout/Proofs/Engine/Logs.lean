-- SUMMARY: What each worker does in a run, as far as others can observe it, and how executors age meanwhile.
import Rollout.Proofs.Engine.Crew
import Rollout.Proofs.Engine.GatedAttempts

/-!
# Logs

The history of an engine mixes what all workers do. The log of a worker lists what it does itself in a run
of acts, in order. Each deed of the worker adds to it, and nothing else does; and whatever happens besides
pings is in the log of some worker. Meanwhile the settings of an executor stay as they are, and once it is
cancelled, shut down or no longer received it remains so.
-/
namespace Rollout

/-- An executor later on. -/
structure Executor.Ages (x x' : Executor) : Prop where
  settings : x'.settings = x.settings
  registry : x'.registry = x.registry
  isOpen : x'.isOpen = true → x.isOpen = true
  cancelled : x.isCancelled = true → x'.isCancelled = true
  heard : x'.isReceived = true → x.isReceived = true

namespace Executor.Ages

variable {x x' x'' : Executor}

theorem refl (x : Executor) : x.Ages x := ⟨rfl, rfl, id, id, id⟩

theorem trans (h : x.Ages x') (h' : x'.Ages x'') : x.Ages x'' where
  settings := h'.settings.trans h.settings
  registry := h'.registry.trans h.registry
  isOpen := h.isOpen ∘ h'.isOpen
  cancelled := h'.cancelled ∘ h.cancelled
  heard := h.heard ∘ h'.heard

theorem serving (h : x.Ages x') (serving : x'.IsServing) : x.IsServing where
  isOpen := h.isOpen serving.isOpen
  going := by
    cases cancelled : x.isCancelled with
    | false => rfl
    | true => exact absurd (h.cancelled cancelled) (by simp [serving.going])
  heard := h.heard serving.heard

end Executor.Ages

/-- The happening is something that a worker of an executor does. -/
def Happening.IsBy (executor worker : Nat) : Happening → Prop
  | .reported k _ => k = executor
  | .callBegan i _ | .callEnded i _ _ | .callExpired i _ => i = worker
  | .pinged .. => False

/-- The event that an entry of the history reports for an executor and a host. -/
def Entry.event? (k : Nat) (host : String) (entry : Entry) : Option TaskEvent :=
  match entry.happening with
  | .reported k' event => if k' = k ∧ entry.host = host then some event else none
  | _ => none

/-- The event that somebody reports. -/
def Happening.event? : Happening → Option TaskEvent
  | .reported _ event => some event
  | _ => none

namespace Engine

variable {e e₁ e' : Engine} {a : Act} {i k : Nat} {w : Worker} {x : Executor} {f : Effect}

theorem Reachable.play? (reachable : e.Reachable) {acts : List Act}
    (played : e.play? acts = some e') : e'.Reachable := by
  obtain ⟨wall, before, reached⟩ := reachable
  exact ⟨wall, before ++ acts, by rw [play?_append, reached, Option.bind_some, played]⟩

theorem Reachable.housed (reachable : e.Reachable) : e.Housed :=
  (Guarded.of_reachable reachable).housed

-- ---------------------------------------------------------------------------
-- Executors
-- ---------------------------------------------------------------------------

theorem Deed.ages (deed : Deed e i w x f) : x.Ages f.executor := by
  cases deed <;> exact ⟨rfl, rfl, id, id, id⟩

theorem modifyExecutor_ages (k' : Nat) {g : Executor → Executor} (ages : ∀ x : Executor, x.Ages (g x))
    (hx : e.executors[k]? = some x) :
    ∃ x', (e.modifyExecutor k' g).executors[k]? = some x' ∧ x.Ages x' := by
  rw [modifyExecutor, List.getElem?_modify, hx]
  refine ⟨if k' = k then g x else x, rfl, ?_⟩
  split
  · exact ages x
  · exact .refl x

/-- An executor stays, and ages. -/
theorem act?_ages (housed : e.Housed) (done : e.act? a = some e') (hx : e.executors[k]? = some x) :
    ∃ x', e'.executors[k]? = some x' ∧ x.Ages x' := by
  cases a with
  | move m =>
    obtain quiet | ⟨i, w, y, f, _, hy, deed, rfl⟩ := step?_deed housed done
    · exact ⟨x, by rw [quiet.executors, hx], .refl x⟩
    · rw [put_executor? hy]
      split
      next here =>
        cases hy.symm.trans (here ▸ hx)
        exact ⟨_, rfl, deed.ages⟩
      · exact ⟨x, hx, .refl x⟩
  | serve request =>
    cases done
    cases request with
    | openExecutor settings registry =>
      refine ⟨x, ?_, .refl x⟩
      rw [serve, List.getElem?_append_left (List.getElem?_eq_some_iff.mp hx).1, hx]
    | cancel k' =>
      exact modifyExecutor_ages k' (fun _ => ⟨rfl, rfl, id, fun _ => rfl, id⟩) hx
    | shutdown k' =>
      exact modifyExecutor_ages k' (fun _ => ⟨rfl, rfl, by rintro ⟨⟩, id, id⟩) hx
    | closeChannel k' =>
      exact modifyExecutor_ages k' (fun _ => ⟨rfl, rfl, id, id, by rintro ⟨⟩⟩) hx
    | openRegistry | dispatch | closeRegistry | ask => exact ⟨x, hx, .refl x⟩
  | receive k' =>
    obtain ⟨⟨event, e'⟩, received, rfl⟩ := Option.map_eq_some_iff.mp done
    obtain ⟨y, _, received⟩ := Option.bind_eq_some_iff.mp received
    split at received
    · cases received
    · cases received
      exact modifyExecutor_ages k' (fun _ => ⟨rfl, rfl, id, id, id⟩) hx

theorem play?_ages (reachable : e.Reachable) {acts : List Act} (played : e.play? acts = some e')
    (hx : e.executors[k]? = some x) : ∃ x', e'.executors[k]? = some x' ∧ x.Ages x' := by
  refine play?_induction (P := fun _ e' => ∃ x', e'.executors[k]? = some x' ∧ x.Ages x')
    ⟨x, hx, .refl x⟩ ?_ played
  rintro acts' e₁ e' a played ⟨x₁, hx₁, ages⟩ done
  obtain ⟨x', hx', ages'⟩ := act?_ages (reachable.play? played).housed done hx₁
  exact ⟨x', hx', ages.trans ages'⟩

-- ---------------------------------------------------------------------------
-- What acts record
-- ---------------------------------------------------------------------------

/-- The worker that an act is a deed of. -/
def Act.worker? : Act → Option Nat
  | .move (.work i) | .move (.answer i _ _) | .move (.expire i) => some i
  | _ => none

/-- What happened between two engines, the earliest first. -/
def since (e e' : Engine) : List Happening :=
  ((e'.history.take (e'.history.length - e.history.length)).map Entry.happening).reverse

/-- What a worker does in a run of acts, as far as others can observe it, the earliest first. -/
def logOf (i : Nat) (e : Engine) : List Act → List Happening
  | [] => []
  | a :: acts => match e.act? a with
    | none => []
    | some e' => (if a.worker? = some i then e.since e' else []) ++ logOf i e' acts

theorem since_eq (later : List Entry) (history : e'.history = later ++ e.history) :
    e.since e' = (later.map Entry.happening).reverse := by
  simp [since, history]

theorem since_self (history : e'.history = e.history) : e.since e' = [] :=
  since_eq [] history

theorem since_put (f : Effect) : e.since (e.put i w f) = f.happenings.reverse := by
  rw [since_eq (f.happenings.map fun h => ⟨e.now, w.host, h⟩) rfl]
  simp [Function.comp_def]

/-- An act that records nothing adds nothing to a log. -/
theorem since_silent (silent : a.worker? = some i → e'.history = e.history) :
    (if a.worker? = some i then e.since e' else []) = [] := by
  split
  next mine => exact since_self (silent mine)
  · rfl

theorem logOf_append {first : List Act} (second : List Act) (played : e.play? first = some e₁) :
    e.logOf i (first ++ second) = e.logOf i first ++ e₁.logOf i second := by
  induction first generalizing e with
  | nil =>
    cases played
    rfl
  | cons a first ih =>
    obtain ⟨e₂, done, rest⟩ := Option.bind_eq_some_iff.mp played
    simp only [List.cons_append, logOf, done, ih rest, List.append_assoc]

theorem logOf_concat {acts : List Act} (played : e.play? acts = some e₁)
    (done : e₁.act? a = some e') : e.logOf i (acts ++ [a]) =
      e.logOf i acts ++ if a.worker? = some i then e₁.since e' else [] := by
  rw [logOf_append [a] played]
  simp [logOf, done]

/-! ## Workers at an act -/

theorem ask_history (j : Nat) (q : Inquiry) (question : Question) (e : Engine) :
    (e.ask j q question).history = e.history := by
  unfold ask
  split
  · rfl
  · split
    · rfl
    · dsimp only
      split <;> rfl

theorem inquire?_history {j : Nat} (h : e.inquire? j = some e') : e'.history = e.history := by
  simp only [inquire?, Option.bind_eq_bind, Option.bind_eq_some_iff] at h
  obtain ⟨q, _, h⟩ := h
  split at h
  · cases h
    exact ask_history ..
  · obtain ⟨r, _, h⟩ := Option.bind_eq_some_iff.mp h
    split at h
    · cases h
      exact ask_history ..
    · cases h
      rfl
  all_goals cases h

/-- What an act does to workers and their logs. -/
inductive Doing (e e' : Engine) (a : Act) : Prop
  /-- A dispatch may add workers, and others can observe pings at most, which no worker sends. -/
  | quiet (new : List Worker) (workers : e'.workers = e.workers ++ new)
      (hired : ∀ w ∈ new, ∃ commands, a = .serve (.dispatch w.executor commands))
      (pings : ∃ pings, e'.history = pings ++ e.history ∧
        ∀ p ∈ pings, ∃ registry request, p.happening = .pinged registry request)
      (silent : a.worker? ≠ none → e'.history = e.history)
  | deed {i : Nat} {w : Worker} {x : Executor} {f : Effect} (mine : a.worker? = some i)
      (worker : e.workers[i]? = some w) (executor : e.executors[w.executor]? = some x)
      (deed : Deed e i w x f) (after : e' = e.put i w f)

theorem Doing.of_quiet (q : Quiet e e') (silent : a.worker? ≠ none → e'.history = e.history) :
    Doing e e' a :=
  .quiet [] (by rw [q.workers, List.append_nil]) (by simp) q.history silent

theorem Doing.of_same (workers : e'.workers = e.workers) (history : e'.history = e.history) :
    Doing e e' a :=
  .quiet [] (by rw [workers, List.append_nil]) (by simp) ⟨[], history, by simp⟩ fun _ => history

/-- At every act workers are added at most, or one worker does a deed. -/
theorem Doing.of_act? (housed : e.Housed) (done : e.act? a = some e') : Doing e e' a := by
  cases a with
  | move m =>
    cases m with
    | work j =>
      have moved := done
      simp only [act?, step?, work?, Option.bind_eq_bind, Option.bind_eq_some_iff] at moved
      obtain ⟨v, hv, x, hx, _⟩ := moved
      obtain ⟨q, inquired⟩ | ⟨f, deed, rfl⟩ := work?_deed hv hx done
      · exact .of_quiet (inquire?_quiet inquired) fun _ => inquire?_history inquired
      · exact .deed rfl hv hx deed rfl
    | answer j call fault =>
      have moved := done
      simp only [act?, step?, answer?, Option.bind_eq_bind, Option.bind_eq_some_iff] at moved
      obtain ⟨v, hv, moved⟩ := moved
      have active : v.phase ≠ .spawned := fun spawned => by simp [spawned] at moved
      obtain ⟨x, hx⟩ := housed.executor hv active
      obtain ⟨f, deed, rfl⟩ := answer?_deed done hv hx
      exact .deed rfl hv hx deed rfl
    | expire j =>
      have moved := done
      simp only [act?, step?, expire?, Option.bind_eq_bind, Option.bind_eq_some_iff] at moved
      obtain ⟨v, hv, x, hx, _⟩ := moved
      obtain ⟨f, deed, rfl⟩ := expire?_deed done hv hx
      exact .deed rfl hv hx deed rfl
    | inquire => exact .of_quiet (inquire?_quiet done) (absurd rfl)
    | supervise g h =>
      rw [act?, step?, supervise?] at done
      exact .of_quiet (react_quiet done) (absurd rfl)
    | tick g h =>
      rw [act?, step?, tick?] at done
      exact .of_quiet (react_quiet done) (absurd rfl)
    | pong g h =>
      rw [act?, step?, pong?] at done
      exact .of_quiet (react_quiet done) (absurd rfl)
    | pingTimeout g h =>
      rw [act?, step?, pingTimeout?] at done
      exact .of_quiet (react_quiet done) (absurd rfl)
    | pass | setWall =>
      cases done
      exact .of_same rfl rfl
  | serve request =>
    cases done
    cases request with
    | dispatch k commands =>
      refine .quiet (starters k commands) rfl (fun w hw => ⟨commands, ?_⟩) ⟨[], rfl, by simp⟩
        fun _ => rfl
      rw [(mem_starters hw).1]
    | openRegistry | openExecutor | cancel | shutdown | closeChannel | closeRegistry | ask =>
      exact .of_same rfl rfl
  | receive k =>
    obtain ⟨⟨event, e'⟩, received, rfl⟩ := Option.map_eq_some_iff.mp done
    obtain ⟨y, _, received⟩ := Option.bind_eq_some_iff.mp received
    split at received
    · cases received
    · cases received
      exact .of_same rfl rfl

/-- What an act means for a worker. Either it stays as it is, and its log too, or it does a deed. -/
inductive Part (e e' : Engine) (a : Act) (i : Nat) (w : Worker) : Prop
  | stays (worker : e'.workers[i]? = some w)
      (silent : a.worker? = some i → e'.history = e.history)
  | acts {x : Executor} {f : Effect} (mine : a.worker? = some i)
      (executor : e.executors[w.executor]? = some x) (deed : Deed e i w x f)
      (after : e' = e.put i w f)

theorem Doing.part (doing : Doing e e' a) (hw : e.workers[i]? = some w) : Part e e' a i w := by
  cases doing with
  | quiet new workers _ _ silent =>
    refine .stays ?_ fun mine => silent (by simp [mine])
    rw [workers, List.getElem?_append_left (List.getElem?_eq_some_iff.mp hw).1, hw]
  | @deed j v x f mine worker executor deed after =>
    by_cases here : i = j
    · subst here
      cases worker.symm.trans hw
      exact .acts mine executor deed after
    · refine .stays (by rw [after, put_worker? worker, if_neg here, hw]) fun mine' => ?_
      exact absurd (Option.some.inj (mine'.symm.trans mine)) here

/-- A worker stays on its host and with its executor. -/
theorem Part.worker (part : Part e e' a i w) (hw : e.workers[i]? = some w) :
    ∃ w', e'.workers[i]? = some w' ∧ w'.executor = w.executor ∧ w'.host = w.host := by
  cases part with
  | stays worker => exact ⟨w, worker, rfl, rfl⟩
  | acts _ _ deed after =>
    exact ⟨_, by rw [after, put_worker? hw, if_pos rfl], deed.executor_eq, deed.host_eq⟩

/-- Only a worker that is there does deeds. -/
theorem act?_of_absent (done : e.act? a = some e') (absent : e.workers[i]? = none) :
    a.worker? ≠ some i := by
  intro mine
  cases a with
  | move m =>
    cases m with
    | work | answer | expire =>
      cases mine
      simp [act?, step?, work?, answer?, expire?, absent] at done
    | inquire | supervise | tick | pong | pingTimeout | pass | setWall => cases mine
  | serve | receive => cases mine

-- ---------------------------------------------------------------------------
-- Runs
-- ---------------------------------------------------------------------------

/-- A worker stays. -/
theorem play?_worker {e₀ : Engine} (reachable : e₀.Reachable) (hw : e₀.workers[i]? = some w)
    {rest : List Act} (played : e₀.play? rest = some e) : ∃ w', e.workers[i]? = some w' := by
  refine play?_induction (P := fun _ e => ∃ w', e.workers[i]? = some w') ⟨w, hw⟩ ?_ played
  rintro rest e e' a played ⟨v, hv⟩ done
  obtain ⟨w', hw', _⟩ := ((Doing.of_act? (reachable.play? played).housed done).part hv).worker hv
  exact ⟨w', hw'⟩

/-- A worker is followed through a run with its log. What holds of it at the start of the run, or when it is
new, and what all acts keep holds at the end. -/
theorem logOf_induction {e₀ : Engine} {P : List Happening → Engine → Worker → Prop}
    (reachable : e₀.Reachable) (start : ∀ w, e₀.workers[i]? = some w → P [] e₀ w)
    (born : ∀ {acts e w}, e₀.play? acts = some e → e₀.workers[i]? = none → e.workers[i]? = some w →
      w.phase = .spawned → P [] e w)
    (stays : ∀ {acts log e e' a w}, e₀.play? acts = some e → e.act? a = some e' →
      e.workers[i]? = some w → e'.workers[i]? = some w → P log e w → P log e' w)
    (acts : ∀ {acts log e w x f}, e₀.play? acts = some e → e.workers[i]? = some w →
      e.executors[w.executor]? = some x → Deed e i w x f → P log e w →
      P (log ++ f.happenings.reverse) (e.put i w f) f.worker)
    {rest : List Act} (played : e₀.play? rest = some e) :
    ∀ w, e.workers[i]? = some w → P (e₀.logOf i rest) e w := by
  -- A worker that is not there yet has no log.
  suffices both : (e.workers[i]? = none → e₀.workers[i]? = none ∧ e₀.logOf i rest = []) ∧
      ∀ w, e.workers[i]? = some w → P (e₀.logOf i rest) e w from both.2
  refine play?_induction (P := fun rest e =>
    (e.workers[i]? = none → e₀.workers[i]? = none ∧ e₀.logOf i rest = []) ∧
      ∀ w, e.workers[i]? = some w → P (e₀.logOf i rest) e w) ⟨fun absent => ⟨absent, rfl⟩, start⟩ ?_
    played
  rintro rest e e' a played ⟨unborn, holds⟩ done
  have housed := (reachable.play? played).housed
  rw [logOf_concat played done]
  cases hw : e.workers[i]? with
  | none =>
    obtain ⟨absent, no_log⟩ := unborn hw
    rw [if_neg (act?_of_absent done hw), no_log]
    refine ⟨fun _ => ⟨absent, rfl⟩, fun w hw' => ?_⟩
    obtain spawned | ⟨v, hv⟩ := (Course.of_act? housed done).known hw'
    · exact born (play?_concat played done) absent hw' spawned
    · cases hw.symm.trans hv
  | some w =>
    cases (Doing.of_act? housed done).part hw with
    | stays worker silent =>
      rw [since_silent silent, List.append_nil, worker]
      refine ⟨nofun, fun v hv => ?_⟩
      cases hv
      exact stays played done hw worker (holds w hw)
    | @acts x f mine hx deed after =>
      subst after
      rw [if_pos mine, since_put, put_worker? hw, if_pos rfl]
      refine ⟨nofun, fun v hv => ?_⟩
      cases hv
      exact acts played hw hx deed (holds w hw)

theorem Deed.isBy (deed : Deed e i w x f) : ∀ h ∈ f.happenings, h.IsBy w.executor i := by
  cases deed <;> simp [Happening.IsBy]

/-- Whatever happens, besides pings, is something that a worker does on its host, and in its log. -/
theorem play?_history {e₀ : Engine} (reachable : e₀.Reachable) {rest : List Act}
    (played : e₀.play? rest = some e) : ∃ later, e.history = later ++ e₀.history ∧
      ∀ entry ∈ later, (∃ registry request, entry.happening = .pinged registry request) ∨
        ∃ (i : Nat) (w : Worker), e.workers[i]? = some w ∧ entry.host = w.host ∧
          entry.happening.IsBy w.executor i ∧ entry.happening ∈ e₀.logOf i rest := by
  refine play?_induction (P := fun rest e => ∃ later, e.history = later ++ e₀.history ∧
    ∀ entry ∈ later, (∃ registry request, entry.happening = .pinged registry request) ∨
      ∃ (i : Nat) (w : Worker), e.workers[i]? = some w ∧ entry.host = w.host ∧
        entry.happening.IsBy w.executor i ∧ entry.happening ∈ e₀.logOf i rest)
    ⟨[], rfl, by simp⟩ ?_ played
  rintro rest e e' a played ⟨later, history, accounted⟩ done
  have housed := (reachable.play? played).housed
  -- What was accounted for before still is.
  have still {i : Nat} {w : Worker} {h : Happening} (hw : e.workers[i]? = some w)
      (doer : h.IsBy w.executor i) (told : h ∈ e₀.logOf i rest) : ∃ w', e'.workers[i]? = some w' ∧
        w'.host = w.host ∧ h.IsBy w'.executor i ∧ h ∈ e₀.logOf i (rest ++ [a]) := by
    obtain ⟨w', hw', same, host⟩ := ((Doing.of_act? housed done).part hw).worker hw
    rw [logOf_concat played done]
    exact ⟨w', hw', host, same ▸ doer, List.mem_append_left _ told⟩
  have old : ∀ entry ∈ later, (∃ registry request, entry.happening = .pinged registry request) ∨
      ∃ (i : Nat) (w : Worker), e'.workers[i]? = some w ∧ entry.host = w.host ∧
        entry.happening.IsBy w.executor i ∧ entry.happening ∈ e₀.logOf i (rest ++ [a]) := by
    intro entry told
    refine (accounted entry told).imp_right ?_
    rintro ⟨i, w, hw, here, doer, logged⟩
    obtain ⟨w', hw', host, doer', logged'⟩ := still hw doer logged
    exact ⟨i, w', hw', here.trans host.symm, doer', logged'⟩
  cases Doing.of_act? housed done with
  | quiet _ _ _ pings _ =>
    obtain ⟨pings, grown, all⟩ := pings
    refine ⟨pings ++ later, by rw [grown, history, List.append_assoc], fun entry told => ?_⟩
    obtain ping | told := List.mem_append.mp told
    · exact .inl (all entry ping)
    · exact old entry told
  | @deed i w x f mine hw _ deed after =>
    subst after
    refine ⟨f.happenings.map (fun h => ⟨e.now, w.host, h⟩) ++ later,
      by rw [put, history, List.append_assoc], fun entry told => ?_⟩
    obtain new | told := List.mem_append.mp told
    · obtain ⟨h, hh, rfl⟩ := List.mem_map.mp new
      refine .inr ⟨i, f.worker, by rw [put_worker? hw, if_pos rfl], deed.host_eq.symm,
        by rw [deed.executor_eq]; exact deed.isBy h hh, ?_⟩
      rw [logOf_concat played done, if_pos mine, since_put]
      exact List.mem_append_right _ (List.mem_reverse.mpr hh)
    · exact old entry told

/-! ## Events -/

/-- The events that an executor reports for a host, the earliest first. -/
def eventsOn (e : Engine) (k : Nat) (host : String) : List TaskEvent :=
  e.history.reverse.filterMap (Entry.event? k host)

/-- No other worker reports events of the executor for the host. -/
def Alone (e : Engine) (i k : Nat) (host : String) : Prop :=
  ∀ (j : Nat) v, e.workers[j]? = some v → v.executor = k → v.host = host → j = i ∨ v.phase = .gone

theorem eventsOn_eq (later : List Entry) (history : e'.history = later ++ e.history) (k : Nat)
    (host : String) : e'.eventsOn k host =
      e.eventsOn k host ++ later.reverse.filterMap (Entry.event? k host) := by
  rw [eventsOn, history, List.reverse_append, List.filterMap_append, eventsOn]

theorem Deed.events (deed : Deed e i w x f) (k : Nat) (host : String) :
    (e.put i w f).eventsOn k host = e.eventsOn k host ++
      if w.executor = k ∧ w.host = host then f.happenings.reverse.filterMap Happening.event? else [] := by
  have each : ∀ h ∈ f.happenings.reverse, Entry.event? k host ⟨e.now, w.host, h⟩ =
      if w.executor = k ∧ w.host = host then h.event? else none := by
    intro h hh
    cases h with
    | reported k' event =>
      rw [show k' = w.executor from deed.isBy _ (List.mem_reverse.mp hh)]
      rfl
    | pinged | callBegan | callEnded | callExpired => simp [Entry.event?, Happening.event?]
  rw [eventsOn_eq (f.happenings.map fun h => ⟨e.now, w.host, h⟩) rfl, ← List.map_reverse,
    List.filterMap_map, Function.comp_def, List.filterMap_congr each]
  split
  · rfl
  · simp

/-- A worker stays alone when no other worker is hired. -/
theorem Alone.act {host : String} (alone : e.Alone i k host) (doing : Doing e e' a)
    (none_hired : ∀ commands, a ≠ .serve (.dispatch k commands)) : e'.Alone i k host := by
  intro j v hv mine here
  cases doing with
  | quiet new workers hired =>
    rw [workers, List.getElem?_append] at hv
    split at hv
    · exact alone j v hv mine here
    · obtain ⟨commands, dispatched⟩ := hired v (List.mem_of_getElem? hv)
      exact absurd (mine ▸ dispatched) (none_hired commands)
  | @deed i' w x f _ worker _ deed after =>
    rw [after, put_worker? worker] at hv
    split at hv
    next same =>
      cases hv
      rw [deed.executor_eq] at mine
      rw [deed.host_eq] at here
      exact .inl (same.trans ((alone i' w worker mine here).resolve_right deed.not_gone))
    · exact alone j v hv mine here

/-- A worker that is alone reports all the events of its executor for its host. -/
theorem Alone.events {host : String} (alone : e.Alone i k host) (doing : Doing e e' a)
    (hw : e.workers[i]? = some w) (mine : w.executor = k) (here : w.host = host) :
    e'.eventsOn k host = e.eventsOn k host ++
      (if a.worker? = some i then e.since e' else []).filterMap Happening.event? := by
  cases doing with
  | quiet _ _ _ pings silent =>
    obtain ⟨pings, history, all⟩ := pings
    rw [eventsOn_eq _ history, since_silent fun doer => silent (by simp [doer])]
    congr 1
    refine List.filterMap_eq_nil_iff.mpr fun p hp => ?_
    obtain ⟨_, _, ping⟩ := all p (List.mem_reverse.mp hp)
    rw [Entry.event?, ping]
  | @deed j v x f doer worker _ deed after =>
    rw [after, deed.events, doer, since_put]
    congr 1
    by_cases same : j = i
    · subst same
      cases worker.symm.trans hw
      rw [if_pos ⟨mine, here⟩, if_pos rfl]
    · -- Whoever else reports for the host is gone, so the deed is about something else.
      have other : ¬(v.executor = k ∧ v.host = host) := fun both =>
        same ((alone j v worker both.1 both.2).resolve_right deed.not_gone)
      rw [if_neg other, if_neg fun both => same (Option.some.inj both)]
      rfl

/-- If no other worker reports events of the executor for the host, these are the events in the log of the
worker. -/
theorem eventsOn_of_logOf {e₀ : Engine} {host : String} (reachable : e₀.Reachable)
    (hw : e₀.workers[i]? = some w) (mine : w.executor = k) (here : w.host = host)
    (alone : e₀.Alone i k host) {rest : List Act}
    (none_hired : ∀ commands, .serve (.dispatch k commands) ∉ rest) (played : e₀.play? rest = some e) :
    e.eventsOn k host =
      e₀.eventsOn k host ++ (e₀.logOf i rest).filterMap Happening.event? := by
  suffices all : (∀ commands, .serve (.dispatch k commands) ∉ rest) → e.Alone i k host ∧
      (∃ w, e.workers[i]? = some w ∧ w.executor = k ∧ w.host = host) ∧ e.eventsOn k host =
        e₀.eventsOn k host ++ (e₀.logOf i rest).filterMap Happening.event? from (all none_hired).2.2
  clear none_hired
  refine play?_induction (P := fun rest e => (∀ commands, .serve (.dispatch k commands) ∉ rest) →
    e.Alone i k host ∧ (∃ w, e.workers[i]? = some w ∧ w.executor = k ∧ w.host = host) ∧
      e.eventsOn k host = e₀.eventsOn k host ++ (e₀.logOf i rest).filterMap Happening.event?)
    (fun _ => ⟨alone, ⟨w, hw, mine, here⟩, by simp [logOf]⟩) ?_ played
  rintro rest e e' a played ih done none_hired
  obtain ⟨alone, ⟨w, hw, mine, here⟩, events⟩ :=
    ih fun commands hired => none_hired commands (List.mem_append_left _ hired)
  have doing := Doing.of_act? (reachable.play? played).housed done
  have not_hired (commands : List TaskCommand) : a ≠ .serve (.dispatch k commands) := fun hired =>
    none_hired commands (List.mem_append_right _ (List.mem_singleton.mpr hired.symm))
  obtain ⟨w', hw', same, host_eq⟩ := (doing.part hw).worker hw
  rw [logOf_concat played done, List.filterMap_append, ← List.append_assoc, ← events]
  exact ⟨alone.act doing not_hired, ⟨w', hw', same.trans mine, host_eq.trans here⟩,
    alone.events doing hw mine here⟩

/-! ## Calls and how they end -/

/-- How a call ends: the agent answers, with a fault or without one, or not in time. -/
inductive Ending where
  | answered (fault : Option Fault)
  | expired
  deriving DecidableEq, Repr

/-- What others observe of the end of a call. -/
def Ending.happening (worker task : Nat) : Ending → Happening
  | answered fault => .callEnded worker task fault
  | expired => .callExpired worker task

/-- The fault with which a call to a host ends, if any. -/
def Ending.fault? (host : String) (s : DispatchSettings) : Ending → Option Fault
  | answered fault => fault
  | expired => some (.taskTimeout host (s.taskTimeoutMs / 1000))

/-- What a worker reports when it is done with a command after some retries. -/
def outcomeOf (retries : UInt32) : Option Fault → TaskOutcome
  | none => .completed retries
  | some fault => .failed fault retries

/-- What a worker does when it sends a command for the first time or again. -/
def begun (executor worker : Nat) (c : TaskCommand) (retries : UInt32) : List Happening :=
  [.reported executor (.started c.taskId (c.attempt + retries)),
    .callBegan worker { c with attempt := c.attempt + retries }]

end Engine

end Rollout
