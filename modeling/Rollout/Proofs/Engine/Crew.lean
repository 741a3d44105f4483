-- SUMMARY: The workers of an executor, the commands they still hold, and what a deed does to them.
import Rollout.Proofs.Engine.WorkerSteps

/-!
# Crews

The crew of an executor are its workers. What they still hold for a host is their backlog. A dispatch
adds one worker for each host, so what it adds to the backlog of a host are the commands for it. A
deed of a worker whose executor serves is silent, or reports that the first command was sent, or
reports that it is over and drops it.
-/
namespace Rollout

namespace Topology

theorem mem_insertHost {host other : String} {hosts : List String} :
    other ∈ insertHost host hosts ↔ other = host ∨ other ∈ hosts := by
  induction hosts with
  | nil => simp [insertHost]
  | cons h hs ih =>
    unfold insertHost
    split
    · simp
    · split
      next same => simp [same]
      · rw [List.mem_cons, ih, List.mem_cons]
        exact or_left_comm

/-- Inserting a host keeps the hosts in order. -/
theorem insertHost_sorted {host : String} {hosts : List String}
    (sorted : hosts.Pairwise (· < ·)) : (insertHost host hosts).Pairwise (· < ·) := by
  induction hosts with
  | nil => simp [insertHost]
  | cons h hs ih =>
    obtain ⟨first, rest⟩ := List.pairwise_cons.mp sorted
    unfold insertHost
    split
    next before =>
      refine List.pairwise_cons.mpr ⟨fun other hother => ?_, sorted⟩
      obtain rfl | later := List.mem_cons.mp hother
      · exact before
      · exact String.lt_trans before (first other later)
    next not_before =>
      split
      · exact sorted
      next other =>
        have after : h < host := String.not_le.mp fun le =>
          other (String.le_antisymm le (String.not_lt.mp not_before))
        refine List.pairwise_cons.mpr ⟨fun next hnext => ?_, ih rest⟩
        obtain rfl | later := mem_insertHost.mp hnext
        · exact after
        · exact first next later

theorem mem_foldr_insertHost {host : String} {hosts : List String} :
    host ∈ hosts.foldr insertHost [] ↔ host ∈ hosts := by
  induction hosts with
  | nil => simp
  | cons h hs ih => rw [List.foldr_cons, mem_insertHost, ih, List.mem_cons]

theorem foldr_insertHost_nodup (hosts : List String) : (hosts.foldr insertHost []).Nodup := by
  have sorted : (hosts.foldr insertHost []).Pairwise (· < ·) := by
    induction hosts with
    | nil => exact .nil
    | cons h hs ih => exact insertHost_sorted ih
  exact sorted.imp String.ne_of_lt

end Topology

/-- The executor carries commands out and its events are received. -/
structure Executor.IsServing (x : Executor) : Prop where
  isOpen : x.isOpen = true
  going : x.isCancelled = false
  heard : x.isReceived = true

namespace Engine

def crew (e : Engine) (k : Nat) : List Worker := e.workers.filter fun w => w.executor = k

/-- The commands that workers still hold for a host. -/
def backlog (crew : List Worker) (host : String) : List TaskCommand :=
  (crew.filter fun w => w.host = host).flatMap Worker.commands

/-- Of the workers for one host at most one holds commands. -/
def Sole (crew : List Worker) : Prop :=
  crew.Pairwise fun a b => a.host = b.host → a.commands = [] ∨ b.commands = []

def starters (k : Nat) (commands : List TaskCommand) : List Worker :=
  (byHost commands).map fun (host, commands) => ⟨k, host, commands, .spawned⟩

theorem mem_crew {e : Engine} {i k : Nat} {w : Worker} (hw : e.workers[i]? = some w)
    (mine : w.executor = k) : w ∈ e.crew k :=
  List.mem_filter.mpr ⟨List.mem_of_getElem? hw, decide_eq_true mine⟩

-- ---------------------------------------------------------------------------
-- Dispatch
-- ---------------------------------------------------------------------------

theorem starters_nil (k : Nat) : starters k [] = [] := rfl

theorem mem_starters {k : Nat} {commands : List TaskCommand} {w : Worker}
    (hw : w ∈ starters k commands) : w.executor = k ∧ w.phase = .spawned ∧
      w.commands = commands.filter fun c => c.host = w.host := by
  simp only [starters, byHost, List.map_map, List.mem_map] at hw
  obtain ⟨host, _, rfl⟩ := hw
  exact ⟨rfl, rfl, rfl⟩

theorem backlog_append (front back : List Worker) (host : String) :
    backlog (front ++ back) host = backlog front host ++ backlog back host := by
  simp [backlog]

theorem filter_eq_of_nodup {hosts : List String} (nodup : hosts.Nodup) (host : String) :
    hosts.filter (fun h => h = host) = if host ∈ hosts then [host] else [] := by
  induction hosts with
  | nil => rfl
  | cons h hs ih =>
    obtain ⟨fresh, nodup⟩ := List.nodup_cons.mp nodup
    by_cases same : h = host
    · subst same
      simp [ih nodup, fresh]
    · simp [same, ih nodup, Ne.symm same]

/-- A dispatch adds to the backlog of a host the commands for it. -/
theorem backlog_starters (k : Nat) (commands : List TaskCommand) (host : String) :
    backlog (starters k commands) host = commands.filter fun c => c.host = host := by
  have nodup := Topology.foldr_insertHost_nodup (commands.map TaskCommand.host)
  simp only [backlog, starters, byHost, List.map_map, List.filter_map, Function.comp_def,
    filter_eq_of_nodup nodup, Topology.mem_foldr_insertHost]
  split
  · simp
  next absent =>
    refine (List.filter_eq_nil_iff.mpr fun c hc => ?_).symm
    simpa using fun here => absent (List.mem_map.mpr ⟨c, hc, here⟩)

/-- Some worker of a dispatch starts with each of the commands. -/
theorem exists_starter (k : Nat) {commands : List TaskCommand} {c : TaskCommand} (hc : c ∈ commands) :
    ∃ w ∈ starters k commands, c ∈ w.commands := by
  have waiting : c ∈ commands.filter fun b => b.host = c.host :=
    List.mem_filter.mpr ⟨hc, decide_eq_true rfl⟩
  rw [← backlog_starters k] at waiting
  obtain ⟨w, hw, holds⟩ := List.mem_flatMap.mp waiting
  exact ⟨w, (List.mem_filter.mp hw).1, holds⟩

theorem starters_sole (k : Nat) (commands : List TaskCommand) : Sole (starters k commands) := by
  have nodup := Topology.foldr_insertHost_nodup (commands.map TaskCommand.host)
  simp only [Sole, starters, byHost, List.map_map, List.pairwise_map, Function.comp_apply]
  exact nodup.imp fun other same => absurd same other

-- ---------------------------------------------------------------------------
-- Deeds
-- ---------------------------------------------------------------------------

theorem set_split {α : Type} {l : List α} {i : Nat} {a : α} (h : l[i]? = some a) :
    ∃ front back, l = front ++ a :: back ∧ ∀ b, l.set i b = front ++ b :: back := by
  obtain ⟨inside, rfl⟩ := List.getElem?_eq_some_iff.mp h
  refine ⟨l.take i, l.drop (i + 1), ?_, fun b => List.set_eq_take_append_cons_drop.trans ?_⟩
  · simp
  · rw [if_pos inside]

section Deeds

variable {e : Engine} {i : Nat} {w : Worker} {x : Executor} {f : Effect}

/-- A deed replaces a worker in the crew of its executor. -/
theorem crew_put (hw : e.workers[i]? = some w) (deed : Deed e i w x f) :
    ∃ front back, e.crew w.executor = front ++ w :: back ∧
      (e.put i w f).crew w.executor = front ++ f.worker :: back := by
  obtain ⟨front, back, before, after⟩ := set_split hw
  refine ⟨front.filter fun v => v.executor = w.executor,
    back.filter fun v => v.executor = w.executor, ?_, ?_⟩
  · rw [crew, before]
    simp
  · rw [crew, put, after]
    simp [deed.executor_eq]

/-- A deed leaves the other crews alone. -/
theorem crew_put_of_ne (hw : e.workers[i]? = some w) (deed : Deed e i w x f) {k : Nat}
    (other : k ≠ w.executor) : (e.put i w f).crew k = e.crew k := by
  obtain ⟨front, back, before, after⟩ := set_split hw
  rw [crew, crew, put, after, before]
  simp [deed.executor_eq, Ne.symm other]

theorem Deed.serving (deed : Deed e i w x f) (serving : x.IsServing) : f.executor.IsServing := by
  cases deed <;> exact ⟨serving.isOpen, serving.going, serving.heard⟩

/-- What a deed does to the commands of the worker and to the channel of its executor. -/
inductive Labour (w : Worker) (x : Executor) (f : Effect) : Prop
  | silent (commands : f.worker.commands = w.commands)
      (channel : f.executor.channel = x.channel) (done : f.worker.phase = .gone → w.commands = [])
  | began {c : TaskCommand} {attempt : UInt32} (command : w.commands.head? = some c)
      (commands : f.worker.commands = w.commands)
      (channel : f.executor.channel = x.channel ++ [.started c.taskId attempt])
      (stays : f.worker.phase ≠ .gone)
  | ended {c : TaskCommand} {outcome : TaskOutcome} (phase : w.phase = .reporting outcome)
      (command : w.commands.head? = some c) (commands : f.worker.commands = w.commands.tail)
      (channel : f.executor.channel = x.channel ++ [.finished c.taskId outcome])
      (stays : f.worker.phase ≠ .gone)

/-- As long as the executor serves, no worker leaves with a command. -/
theorem Deed.labour (deed : Deed e i w x f) (serving : x.IsServing) : Labour w x f := by
  cases deed with
  | leave why =>
    refine .silent rfl rfl fun _ => ?_
    cases why with
    | noSlots _ _ closed | noSlot _ _ closed => simp [serving.isOpen] at closed
    | done _ why => exact why.resolve_right (by simp [serving.going])
    | unheard _ silent => simp [serving.heard] at silent
  | announce _ command => exact .began command rfl rfl (by simp)
  | report phase command => exact .ended phase command rfl rfl (by simp)
  | @conclude retries fault =>
    refine .silent rfl rfl fun gone => ?_
    obtain ⟨_, again⟩ | ⟨_, _, ended⟩ := afterCall_cases x retries fault
    · simp [again] at gone
    · simp [ended] at gone
  | arrive | lock | settle | knock | pass | turnBack | giveUp | call | answer | expire =>
    exact .silent rfl rfl (by simp)

/-- What workers report is that a command is over. -/
theorem Deed.final (deed : Deed e i w x f) {outcome : TaskOutcome}
    (reports : f.worker.phase = .reporting outcome) : outcome.status.isTerminal = true := by
  cases deed with
  | turnBack | giveUp =>
    cases reports
    exact failed_isTerminal ..
  | @conclude retries fault =>
    obtain ⟨_, again⟩ | ⟨_, final, ended⟩ := afterCall_cases x retries fault
    · simp [again] at reports
    · rw [ended] at reports
      cases reports
      exact final
  | arrive | leave | lock | settle | knock | pass | announce | call | answer | expire | report =>
    cases reports

theorem Deed.commands_subset (deed : Deed e i w x f) : f.worker.commands ⊆ w.commands := by
  cases deed with
  | report => exact fun _ hc => List.mem_of_mem_tail hc
  | arrive | leave | lock | settle | knock | pass | turnBack | giveUp | announce | call | answer
  | expire | conclude => exact List.Subset.refl _

end Deeds

/-! ## Who holds commands -/

theorem mem_replace {front back : List Worker} {w w' v : Worker} (hv : v ∈ front ++ w' :: back) :
    v ∈ front ++ w :: back ∨ v = w' := by
  obtain hv | hv := List.mem_append.mp hv
  · exact .inl (List.mem_append_left _ hv)
  · obtain rfl | hv := List.mem_cons.mp hv
    · exact .inr rfl
    · exact .inl (List.mem_append_right _ (List.mem_cons_of_mem _ hv))

theorem Sole.replace {front back : List Worker} {w w' : Worker} (sole : Sole (front ++ w :: back))
    (host : w'.host = w.host) (commands : w.commands = [] → w'.commands = []) :
    Sole (front ++ w' :: back) := by
  simp only [Sole, List.pairwise_append, List.pairwise_cons, List.mem_cons] at sole ⊢
  obtain ⟨fronts, ⟨behind, backs⟩, across⟩ := sole
  refine ⟨fronts, ⟨fun b hb same => ?_, backs⟩, fun a ha b hb same => ?_⟩
  · exact (behind b hb (host ▸ same)).imp_left commands
  · obtain rfl | hb := hb
    · exact (across a ha w (.inl rfl) (host ▸ same)).imp_right commands
    · exact across a ha b (.inr hb) same

/-- A worker that holds commands holds the whole backlog of its host. -/
theorem Sole.backlog {front back : List Worker} {w w' : Worker} (sole : Sole (front ++ w :: back))
    (busy : w.commands ≠ []) (host : w'.host = w.host) :
    Engine.backlog (front ++ w' :: back) w.host = w'.commands := by
  simp only [Sole, List.pairwise_append, List.pairwise_cons, List.mem_cons] at sole
  obtain ⟨_, ⟨behind, _⟩, across⟩ := sole
  have none_before : Engine.backlog front w.host = [] := by
    refine List.flatMap_eq_nil_iff.mpr fun a ha => ?_
    obtain ⟨ha, same⟩ := List.mem_filter.mp ha
    exact (across a ha w (.inl rfl) (by simpa using same)).resolve_right busy
  have none_behind : Engine.backlog back w.host = [] := by
    refine List.flatMap_eq_nil_iff.mpr fun b hb => ?_
    obtain ⟨hb, same⟩ := List.mem_filter.mp hb
    exact (behind b hb (by simpa using Eq.symm (of_decide_eq_true same))).resolve_left busy
  have mine : Engine.backlog (w' :: back) w.host = w'.commands ++ Engine.backlog back w.host := by
    simp [Engine.backlog, host]
  rw [backlog_append, none_before, mine, none_behind]
  simp

/-- The backlog of another host does not depend on a worker. -/
theorem backlog_replace {front back : List Worker} {w w' : Worker} (host : w'.host = w.host)
    {other : String} (same : other = w.host → w'.commands = w.commands) :
    backlog (front ++ w' :: back) other = backlog (front ++ w :: back) other := by
  rw [backlog_append, backlog_append]
  congr 1
  by_cases here : w.host = other
  · simp [backlog, host, here, same here.symm]
  · simp [backlog, host, here]

end Engine

end Rollout
