-- SUMMARY: The order in which hosts answer does not matter: news of different hosts commute.
import Rollout.Proofs.Run.News
import Rollout.Proofs.Run.Serial

/-!
# The order of hosts

Events of tasks on different hosts do not see each other: each changes its own task, and whether an event
fits depends on the tasks of its host alone. So the news of a stage may arrive in any order that keeps the
order of each host.
-/
namespace Rollout.Run

instance (r : Run) (event : TaskEvent) : Decidable (r.Concerns event) :=
  inferInstanceAs (Decidable (∃ t ∈ r.stageTasks, t.id = event.task))

def hostOf? (r : Run) (event : TaskEvent) : Option String := (r.task? event.task).map Task.host

def newsOf (r : Run) (host : String) (events : List (Timestamp × TaskEvent)) : List TaskEvent :=
  (events.map Prod.snd).filter fun event => r.hostOf? event = some host

/-- Nothing speaks against an event: its task is open in the current stage, its host has the time for a start,
and an end is one. -/
def Fits (r : Run) (event : TaskEvent) : Prop :=
  ∃ t, r.task? event.task = some t ∧ t.isAt r.cursor = true ∧ t.status.isTerminal = false ∧
    match event with
    | .started .. => r.isBusy event.task t.host = false
    | .finished _ outcome => outcome.status.isTerminal = true

/-- The run after an event that fits. -/
def record (r : Run) (now : Timestamp) (event : TaskEvent) : Run :=
  (r.modifyTask event.task (event.effect now)).touch now

variable {r : Run} {now : Timestamp} {event other : TaskEvent}

theorem apply_of_fits (live : r.state.isTerminal = false) (fits : r.Fits event) :
    r.apply now event = (r.record now event, .ok ()) := by
  obtain ⟨t, task, here, unfinished, fine⟩ := fits
  cases event with
  | started => exact apply_started live task here unfinished fine
  | finished => exact apply_finished live task here unfinished fine

/-- A live run accepts an event just when it fits. -/
theorem apply_eq_ok_iff (live : r.state.isTerminal = false) :
    (r.apply now event).2 = .ok () ↔ r.Fits event := by
  constructor
  · intro recorded
    have applied := apply_applied r now event
    generalize r.apply now event = reply at applied recorded
    cases applied with
    | dropped archived => rw [live] at archived; cases archived
    | refused => cases recorded
    | begun _ task here unfinished free => exact ⟨_, task, here, unfinished, free⟩
    | ended _ task here unfinished final => exact ⟨_, task, here, unfinished, final⟩
  · intro fits
    rw [apply_of_fits live fits]

-- ---------------------------------------------------------------------------
-- Recorded events
-- ---------------------------------------------------------------------------

theorem record_charter : (r.record now event).charter = r.charter := by
  have same : (r.modifyTask event.task (event.effect now)).charter = r.charter :=
    modifyTask_charter (event.effect_origin now)
  exact same

theorem record_task?_ne (apart : event.task ≠ other.task) :
    (r.record now event).task? other.task = r.task? other.task := by
  simp [record, touch, modifyTask, task?, apart]

theorem record_hostOf? (r : Run) (now : Timestamp) (event other : TaskEvent) :
    (r.record now event).hostOf? other = r.hostOf? other := by
  unfold hostOf?
  by_cases same : event.task = other.task
  · rw [same.symm]
    have host (t : Task) : (event.effect now t).host = t.host := by cases event <;> rfl
    cases found : r.task? event.task <;>
      simp_all [record, touch, modifyTask, task?]
  · rw [record_task?_ne same]

/-- An event of one host does not keep another host busy. -/
theorem record_isBusy (mirrors : r.MirrorsPlan) {t : Task} (task : r.task? event.task = some t)
    {host : String} (apart : t.host ≠ host) (id : Nat) :
    (r.record now event).isBusy id host = r.isBusy id host := by
  have tasks : (r.record now event).tasks =
      r.tasks.map fun u => if u.id = event.task then event.effect now u else u :=
    mirrors.modifyTask_tasks event.task (event.effect now)
  rw [isBusy, isBusy, tasks, List.any_map, Bool.eq_iff_iff, List.any_eq_true, List.any_eq_true]
  refine exists_congr fun u => and_congr_right fun hu => ?_
  simp only [Function.comp_apply]
  split
  next same =>
    cases Option.some.inj ((mirrors.task?_id hu).symm.trans (same ▸ task))
    have moved : (event.effect now t).host ≠ host := by
      cases event <;> exact apart
    simp [apart, moved]
  · rfl

theorem record_comm (apart : event.task ≠ other.task) :
    (r.record now event).record now other = (r.record now other).record now event := by
  have tasks : ((r.tasks.modify event.task (event.effect now)).modify other.task (other.effect now)) =
      ((r.tasks.modify other.task (other.effect now)).modify event.task (event.effect now)) := by
    refine List.ext_getElem? fun i => ?_
    simp only [List.getElem?_modify]
    cases r.tasks[i]? with
    | none => rfl
    | some t =>
      by_cases first : event.task = i <;> by_cases second : other.task = i <;>
        simp [first, second]
      exact absurd (first.trans second.symm) apart
  exact congrArg (fun tasks => { r with tasks := tasks, updatedAt := now }) tasks

/-- Whether an event fits does not depend on what another host has told. -/
theorem fits_record_iff (mirrors : r.MirrorsPlan) (apart : r.hostOf? event ≠ r.hostOf? other)
    (known : (r.task? event.task).isSome) : (r.record now event).Fits other ↔ r.Fits other := by
  have tasks_apart : event.task ≠ other.task := fun same => apart (by rw [hostOf?, hostOf?, same])
  obtain ⟨t, task⟩ := Option.isSome_iff_exists.mp known
  unfold Fits
  rw [record_task?_ne tasks_apart]
  refine exists_congr fun u => and_congr_right fun task' => ?_
  have hosts : t.host ≠ u.host := fun same => apart (by simp [hostOf?, task, task', same])
  have busy : (r.record now event).isBusy other.task u.host = r.isBusy other.task u.host :=
    record_isBusy mirrors task hosts _
  cases other with
  | started => simp only [busy]; rfl
  | finished => rfl

theorem record_mirrors (mirrors : r.MirrorsPlan) (now : Timestamp) (event : TaskEvent) :
    (r.record now event).MirrorsPlan := mirrors.of_charter record_charter

-- ---------------------------------------------------------------------------
-- News
-- ---------------------------------------------------------------------------

variable {news front back : List TaskEvent}

theorem accepts_told_cons (live : r.state.isTerminal = false) :
    r.Accepts (told now (event :: news)) ↔
      r.Fits event ∧ (r.record now event).Accepts (told now news) := by
  rw [told, List.map_cons, Accepts, apply_eq_ok_iff live]
  exact and_congr_right fun fits => by rw [apply_of_fits live fits]; rfl

theorem hear_told_cons (live : r.state.isTerminal = false) (fits : r.Fits event) :
    r.hear (told now (event :: news)) = (r.record now event).hear (told now news) := by
  rw [told, List.map_cons, hear, apply_of_fits live fits]
  rfl

/-- An event may be told before the news from other hosts. -/
theorem tell_first (mirrors : r.MirrorsPlan) (live : r.state.isTerminal = false)
    (apart : ∀ other ∈ front, r.hostOf? other ≠ r.hostOf? event)
    (accepts : r.Accepts (told now (front ++ event :: back))) :
    r.Accepts (told now (event :: (front ++ back))) ∧
      r.hear (told now (event :: (front ++ back))) = r.hear (told now (front ++ event :: back)) := by
  induction front generalizing r with
  | nil => exact ⟨accepts, rfl⟩
  | cons other front ih =>
    obtain ⟨fits, accepts⟩ := (accepts_told_cons live).mp accepts
    have known : (r.task? other.task).isSome := by
      obtain ⟨t, task, _⟩ := fits
      rw [task]
      rfl
    have apart_first : r.hostOf? other ≠ r.hostOf? event := apart other List.mem_cons_self
    have tasks_apart : other.task ≠ event.task := fun same =>
      apart_first (by rw [hostOf?, hostOf?, same])
    obtain ⟨accepts, heard⟩ := ih (record_mirrors mirrors now other) live
      (fun e he => by
        rw [record_hostOf?, record_hostOf?]
        exact apart e (List.mem_cons_of_mem _ he)) accepts
    obtain ⟨fits', accepts⟩ := (accepts_told_cons (r := r.record now other) live).mp accepts
    -- Both fit in either order, and together they do the same.
    have first : r.Fits event := (fits_record_iff mirrors apart_first known).mp fits'
    have second : (r.record now event).Fits other := by
      obtain ⟨t, task, _⟩ := first
      exact (fits_record_iff mirrors apart_first.symm (by rw [task]; rfl)).mpr fits
    rw [record_comm tasks_apart] at accepts
    have told_next : (r.record now event).Accepts (told now (other :: (front ++ back))) :=
      (accepts_told_cons (r := r.record now event) live).mpr ⟨second, accepts⟩
    refine ⟨(accepts_told_cons live).mpr ⟨first, told_next⟩, ?_⟩
    calc r.hear (told now (event :: other :: (front ++ back)))
        = ((r.record now event).record now other).hear (told now (front ++ back)) := by
          rw [hear_told_cons live first, hear_told_cons (r := r.record now event) live second]
      _ = (r.record now other).hear (told now (event :: (front ++ back))) := by
          rw [← record_comm tasks_apart, hear_told_cons (r := r.record now other) live fits']
      _ = r.hear (told now (other :: front ++ event :: back)) := by
          rw [heard, List.cons_append, hear_told_cons live fits]

/-- News that are the same for each host are accepted in either order, and do the same. -/
theorem tell_in_any_order {news' : List TaskEvent} (mirrors : r.MirrorsPlan)
    (live : r.state.isTerminal = false)
    (same : ∀ host, news'.filter (fun e => r.hostOf? e = host) = news.filter fun e => r.hostOf? e = host)
    (accepts : r.Accepts (told now news)) :
    r.Accepts (told now news') ∧ r.hear (told now news') = r.hear (told now news) ∧
      news'.length = news.length := by
  induction news' generalizing r news with
  | nil =>
    have none_left : news = [] := by
      cases news with
      | nil => rfl
      | cons event news => simpa using same (r.hostOf? event)
    rw [none_left]
    exact ⟨trivial, rfl, rfl⟩
  | cons event rest ih =>
    have found := same (r.hostOf? event)
    rw [List.filter_cons_of_pos (by simp)] at found
    obtain ⟨front, back, rfl, apart, _, behind⟩ := List.filter_eq_cons_iff.mp found.symm
    obtain ⟨accepts', heard⟩ := tell_first mirrors live (by simpa using apart) accepts
    obtain ⟨fits, accepts'⟩ := (accepts_told_cons live).mp accepts'
    have others (host : Option String) : rest.filter (fun e => r.hostOf? e = host) =
        (front ++ back).filter fun e => r.hostOf? e = host := by
      by_cases here : r.hostOf? event = host
      · have none_before : front.filter (fun e => r.hostOf? e = host) = [] := by
          rw [List.filter_eq_nil_iff, ← here]
          exact apart
        rw [List.filter_append, none_before, List.nil_append, ← here, behind]
      · have whole := same host
        rw [List.filter_cons_of_neg (by simpa using here), List.filter_append,
          List.filter_cons_of_neg (by simpa using here)] at whole
        rw [whole, List.filter_append]
    obtain ⟨accepts_rest, heard_rest, length⟩ := ih (r := r.record now event)
      (record_mirrors mirrors now event) live (by simpa only [record_hostOf?] using others) accepts'
    refine ⟨(accepts_told_cons live).mpr ⟨fits, accepts_rest⟩, ?_, ?_⟩
    · rw [hear_told_cons live fits, heard_rest, ← heard, hear_told_cons live fits]
    · simp only [List.length_cons, length, List.length_append]
      omega

-- ---------------------------------------------------------------------------
-- Stages
-- ---------------------------------------------------------------------------

theorem timeless_hostOf? (event : TaskEvent) : r.timeless.hostOf? event = r.hostOf? event := by
  rw [hostOf?, timeless_task?, Option.map_map]
  rfl

theorem Concerns.hostOf? (h : r.Concerns event) (mirrors : r.MirrorsPlan) :
    ∃ host, r.hostOf? event = some host := by
  obtain ⟨t, ht, id⟩ := h
  refine ⟨t.host, ?_⟩
  rw [Run.hostOf?, ← id, mirrors.task?_id (mem_stageTasks.mp ht).1]
  rfl

/-- News of the current stage that are the same for each of its hosts are the same for each host at all. -/
theorem same_news {events events' : List (Timestamp × TaskEvent)} (mirrors : r.MirrorsPlan)
    (about : ∀ e ∈ events, r.Concerns e.2) (about' : ∀ e ∈ events', r.Concerns e.2)
    (same : ∀ host, r.newsOf host events' = r.newsOf host events) (host : Option String) :
    (events'.map Prod.snd).filter (fun e => r.hostOf? e = host) =
      (events.map Prod.snd).filter fun e => r.hostOf? e = host := by
  cases host with
  | some host => exact same host
  | none =>
    have nowhere {events : List (Timestamp × TaskEvent)} (about : ∀ e ∈ events, r.Concerns e.2) :
        (events.map Prod.snd).filter (fun e => r.hostOf? e = none) = [] := by
      refine List.filter_eq_nil_iff.mpr fun event he => ?_
      obtain ⟨e, told, rfl⟩ := List.mem_map.mp he
      obtain ⟨host, known⟩ := (about e told).hostOf? mirrors
      simp [known]
    rw [nowhere about, nowhere about']

/-- A driver that gets through the news of a stage gets through them in every order that keeps the order of
each host. -/
theorem Working.drive?_interleaved (h : r.Working) {events events' : List (Timestamp × TaskEvent)}
    (about : ∀ e ∈ events, r.Concerns e.2) (about' : ∀ e ∈ events', r.Concerns e.2)
    (same : ∀ host, r.newsOf host events' = r.newsOf host events) {last : Run}
    {batches : List (List TaskCommand)} (driven : r.drive? events = some (last, batches)) :
    ∃ last', r.drive? events' = some (last', batches) ∧ last'.timeless = last.timeless := by
  have reordered (accepts : r.Accepts events) : r.Accepts events' ∧
      (r.hear events').timeless = (r.hear events).timeless ∧ events'.length = events.length := by
    rw [← accepts_timeless, hear_timeless, hear_timeless]
    have ordered := tell_in_any_order (r := r.timeless) h.mirrors.timeless h.live
      (by simpa only [timeless_hostOf?] using same_news h.mirrors about about' same)
      ((accepts_timeless r events).mpr accepts)
    rwa [List.length_map, List.length_map] at ordered
  rcases List.eq_nil_or_concat events with rfl | ⟨front, ⟨now, event⟩, rfl⟩
  · obtain ⟨_, _, none_told⟩ := reordered trivial
    cases List.length_eq_zero_iff.mp none_told
    exact ⟨last, driven, rfl⟩
  rw [List.concat_eq_append] at *
  obtain ⟨accepts, commands, steps, handed_out⟩ :=
    (h.drive?_eq_some_iff (fun e he => about e (List.mem_append_left _ he))
      (about (now, event) (by simp))).mp driven
  obtain ⟨accepts', heard, length⟩ := reordered accepts
  rcases List.eq_nil_or_concat events' with rfl | ⟨front', ⟨now', event'⟩, rfl⟩
  · simp at length
  rw [List.concat_eq_append] at *
  -- Both have heard the same, and so their last steps do the same.
  have last_steps := step_timeless (r.hear (front' ++ [(now', event')])) now'
  rw [heard, step_timeless _ now, steps] at last_steps
  obtain ⟨ended, answered⟩ := Prod.mk.inj last_steps
  simp only [List.length_append, List.length_singleton, Nat.add_right_cancel_iff] at length
  refine ⟨_, (h.drive?_eq_some_iff (fun e he => about' e (List.mem_append_left _ he))
    (about' (now', event') (by simp))).mpr ⟨accepts', commands, Prod.ext rfl answered.symm, ?_⟩,
    ended.symm⟩
  rw [length]
  exact handed_out

/-- The order of hosts does not matter. For every history that leads to a run whose stage was handed out, and any
two lists of news of this stage that tell the same of each host in the same order: if the first is accepted
event by event with a step after each, so is the second. The runs are the same but for times, and the steps hand
out the same. -/
theorem hosts_answer_in_any_order (id : RunId) (plan : Plan) (policy : Policy) (created : Timestamp)
    (history : List (Timestamp × Call)) {r : Run}
    (reached : (create id plan policy created).after history = r) (running : r.state = .running)
    (dispatched : r.stageDispatched = true) {events events' : List (Timestamp × TaskEvent)}
    (about : ∀ e ∈ events, r.Concerns e.2) (about' : ∀ e ∈ events', r.Concerns e.2)
    (same : ∀ host, r.newsOf host events' = r.newsOf host events) {last : Run}
    {batches : List (List TaskCommand)} (driven : r.drive? events = some (last, batches)) :
    ∃ last', r.drive? events' = some (last', batches) ∧ last'.timeless = last.timeless := by
  have mirrors : r.MirrorsPlan := by
    rw [← reached]
    exact (create_mirrorsPlan ..).of_charter (after_charter ..)
  have working : r.Working := ⟨running, dispatched, mirrors⟩
  exact working.drive?_interleaved about about' same driven

/-- One stage with a task on each of two hosts. -/
def pairPlan : Plan :=
  ⟨"pair", "1.0", "1.1", [⟨"db", false,
    [⟨"restart db (1.1)", .restart, [⟨"alpha", "db", "server", .restart, "1.1"⟩,
      ⟨"beta", "db", "server", .restart, "1.1"⟩]⟩]⟩]⟩

/-- The task of the first host fails. -/
def lost : TaskEvent := .finished 0 (.failed (.hostUnreachable "alpha" 3) 0)

theorem hosts_answer_in_any_order_pair :
    let r := (create (.ofNat 0) pairPlan .upgrade .epoch).after [(.epoch, .start), (.epoch, .step)]
    ∃ last last' batches,
      r.drive? (told .epoch [.started 0 1, .started 1 1, lost, .finished 1 (.completed 0)]) =
        some (last, batches) ∧ last.state = .holding ∧
      r.drive? (told .epoch [.started 1 1, .finished 1 (.completed 0), .started 0 1, lost]) =
        some (last', batches) ∧ last'.timeless = last.timeless := by
  intro r
  have drives : (r.drive? (told .epoch
      [.started 0 1, .started 1 1, lost, .finished 1 (.completed 0)])).map (fun out => out.1.state) =
        some .holding := by decide +kernel
  obtain ⟨⟨last, batches⟩, driven, holding⟩ := Option.map_eq_some_iff.mp drives
  have hosts : [TaskEvent.started 0 1, lost, .started 1 1, .finished 1 (.completed 0)].map r.hostOf? =
      [some "alpha", some "alpha", some "beta", some "beta"] := by decide +kernel
  have same (host : String) :
      r.newsOf host (told .epoch [.started 1 1, .finished 1 (.completed 0), .started 0 1, lost]) =
        r.newsOf host (told .epoch [.started 0 1, .started 1 1, lost, .finished 1 (.completed 0)]) := by
    simp only [List.map_cons, List.map_nil, List.cons.injEq, and_true] at hosts
    obtain ⟨begins_alpha, ends_alpha, begins_beta, ends_beta⟩ := hosts
    by_cases alpha : host = "alpha"
    · simp [newsOf, told, begins_alpha, ends_alpha, begins_beta, ends_beta, alpha]
    · by_cases beta : host = "beta" <;>
        simp [newsOf, told, begins_alpha, ends_alpha, begins_beta, ends_beta, eq_comm, alpha, beta]
  obtain ⟨last', driven', unchanged⟩ := hosts_answer_in_any_order (.ofNat 0) pairPlan .upgrade .epoch _
    (r := r) rfl (by decide +kernel) (by decide +kernel) (by decide +kernel) (by decide +kernel) same
    driven
  exact ⟨last, last', batches, driven, holding, driven', unchanged⟩

end Rollout.Run
