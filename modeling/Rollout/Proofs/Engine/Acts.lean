-- SUMMARY: Runs of acts, and what an act does to the workers and executors of an engine.
import Mathlib.Data.List.Induction
import Rollout.Proofs.Engine.CallHistory

/-!
# Acts

A run is a sequence of acts. At every act one worker does a deed, or workers are added at most, and an
executor stays with the registry that its workers ask. So a worker is followed through a run from deed to
deed.
-/
namespace Rollout.Engine

-- ---------------------------------------------------------------------------
-- Runs
-- ---------------------------------------------------------------------------

theorem play?_append (e : Engine) (first second : List Act) :
    e.play? (first ++ second) = (e.play? first).bind fun e₁ => e₁.play? second := by
  induction first generalizing e with
  | nil => rfl
  | cons a first ih =>
    simp only [List.cons_append, play?, Option.bind_eq_bind, Option.bind_assoc]
    exact Option.bind_congr fun e₁ _ => ih e₁

theorem play?_concat {e e₁ e' : Engine} {acts : List Act} {a : Act}
    (played : e.play? acts = some e₁) (done : e₁.act? a = some e') :
    e.play? (acts ++ [a]) = some e' := by
  rw [play?_append, played, Option.bind_some, play?, done]
  rfl

/-- What holds at the start of a run and what every act keeps holds at its end. The acts so far count. -/
theorem play?_induction {e₀ : Engine} {P : List Act → Engine → Prop} (start : P [] e₀)
    (act : ∀ {acts e e' a}, e₀.play? acts = some e → P acts e → e.act? a = some e' →
      P (acts ++ [a]) e') {acts : List Act} {e : Engine} (played : e₀.play? acts = some e) :
    P acts e := by
  induction acts using List.reverseRecOn generalizing e with
  | nil =>
    cases played
    exact start
  | append_singleton acts a ih =>
    rw [play?_append] at played
    obtain ⟨e₁, first, last⟩ := Option.bind_eq_some_iff.mp played
    obtain ⟨e₂, done, same⟩ := Option.bind_eq_some_iff.mp last
    cases same
    exact act first (ih first) done

variable {e e' : Engine} {a : Act}

theorem housed_of_play? {wall : Timestamp} {acts : List Act}
    (played : (empty wall).play? acts = some e) : e.Housed :=
  (Guarded.of_reachable ⟨wall, acts, played⟩).housed

-- ---------------------------------------------------------------------------
-- Workers at an act
-- ---------------------------------------------------------------------------

/-- What an act does to workers: one does a deed, or some are added. Executors keep their registries. -/
inductive Course (e e' : Engine) : Prop
  | deed {i : Nat} {w : Worker} {x : Executor} {f : Effect} (worker : e.workers[i]? = some w)
      (executor : e.executors[w.executor]? = some x) (deed : Deed e i w x f)
      (after : e' = e.put i w f)
  | grows (new : List Worker) (spawned : ∀ w ∈ new, w.phase = .spawned)
      (workers : e'.workers = e.workers ++ new)
      (executors : ∀ {k : Nat} {x : Executor}, e.executors[k]? = some x →
        ∃ x', e'.executors[k]? = some x' ∧ x'.registry = x.registry)

theorem Deed.registry_eq {i : Nat} {w : Worker} {x : Executor} {f : Effect}
    (deed : Deed e i w x f) : f.executor.registry = x.registry := by
  cases deed <;> rfl

theorem modifyExecutor_registry {k : Nat} {f : Executor → Executor}
    (same : ∀ x, (f x).registry = x.registry) {k' : Nat} {x : Executor}
    (hx : e.executors[k']? = some x) :
    ∃ x', (e.modifyExecutor k f).executors[k']? = some x' ∧ x'.registry = x.registry := by
  rw [modifyExecutor, List.getElem?_modify, hx]
  refine ⟨if k = k' then f x else x, rfl, ?_⟩
  split
  · exact same x
  · rfl

namespace Course

theorem of_same (workers : e'.workers = e.workers) (executors : e'.executors = e.executors) :
    Course e e' :=
  .grows [] (by simp) (by simp [workers]) fun hx => ⟨_, by rw [executors, hx], rfl⟩

theorem of_modifyExecutor (k : Nat) {f : Executor → Executor}
    (same : ∀ x, (f x).registry = x.registry) : Course e (e.modifyExecutor k f) :=
  .grows [] (by simp) (by simp [modifyExecutor]) (modifyExecutor_registry same)

theorem of_serve (request : Request) : Course e (e.serve request) := by
  cases request with
  | openRegistry | closeRegistry | ask => exact .of_same rfl rfl
  | openExecutor settings registry =>
    refine .grows [] (by simp) (by simp [serve]) fun {k x} hx => ⟨x, ?_, rfl⟩
    rw [serve, List.getElem?_append_left (List.getElem?_eq_some_iff.mp hx).1, hx]
  | dispatch k commands =>
    refine .grows _ (fun w hw => ?_) rfl fun hx => ⟨_, hx, rfl⟩
    obtain ⟨_, _, rfl⟩ := List.mem_map.mp hw
    rfl
  | cancel k | shutdown k | closeChannel k => exact .of_modifyExecutor k fun _ => rfl

theorem of_act? (housed : e.Housed) (done : e.act? a = some e') : Course e e' := by
  cases a with
  | move m =>
    obtain quiet | ⟨i, w, x, f, hw, hx, deed, after⟩ := step?_deed housed done
    · exact .of_same quiet.workers quiet.executors
    · exact .deed hw hx deed after
  | serve request =>
    cases done
    exact .of_serve request
  | receive k =>
    obtain ⟨⟨event, e'⟩, received, rfl⟩ := Option.map_eq_some_iff.mp done
    obtain ⟨x, _, received⟩ := Option.bind_eq_some_iff.mp received
    split at received
    · cases received
    · cases received
      exact .of_modifyExecutor k fun _ => rfl

variable {i : Nat} {w w' : Worker} {x x' : Executor}

/-- An executor stays with its registry. -/
theorem registry (course : Course e e') {k : Nat} (hx : e.executors[k]? = some x)
    (hx' : e'.executors[k]? = some x') : x'.registry = x.registry := by
  cases course with
  | @deed _ v y f _ executor deed after =>
    rw [after, put_executor? executor] at hx'
    split at hx'
    next here =>
      subst here
      cases executor.symm.trans hx
      cases hx'
      exact deed.registry_eq
    · cases hx.symm.trans hx'
      rfl
  | grows _ _ _ executors =>
    obtain ⟨_, known, same⟩ := executors hx
    cases known.symm.trans hx'
    exact same

/-- A worker stays as it is or does a deed. -/
theorem worker (course : Course e e') (hw : e.workers[i]? = some w) :
    e'.workers[i]? = some w ∨ ∃ x f, e.executors[w.executor]? = some x ∧ Deed e i w x f ∧
      e' = e.put i w f := by
  cases course with
  | @deed j _ x f worker executor deed after =>
    by_cases here : i = j
    · subst here
      cases worker.symm.trans hw
      exact .inr ⟨x, f, executor, deed, after⟩
    · exact .inl (by rw [after, put_worker? worker, if_neg here, hw])
  | grows _ _ workers =>
    exact .inl (by rw [workers, List.getElem?_append_left (List.getElem?_eq_some_iff.mp hw).1, hw])

/-- A worker was there before, or it is new. -/
theorem known (course : Course e e') (hw' : e'.workers[i]? = some w') :
    w'.phase = .spawned ∨ ∃ w, e.workers[i]? = some w := by
  cases course with
  | @deed j v _ _ worker _ _ after =>
    rw [after, put_worker? worker] at hw'
    split at hw'
    next here => exact .inr ⟨v, by rw [here, worker]⟩
    · exact .inr ⟨w', hw'⟩
  | grows _ spawned workers =>
    rw [workers, List.getElem?_append] at hw'
    split at hw'
    · exact .inr ⟨w', hw'⟩
    · exact .inl (spawned w' (List.mem_of_getElem? hw'))

end Course

theorem Growth.of_act? (housed : e.Housed) (done : e.act? a = some e') : Growth e e' := by
  cases a with
  | move m => exact .of_step? housed done
  | serve request =>
    cases done
    refine .of_same ?_
    cases request <;> rfl
  | receive k =>
    obtain ⟨⟨event, e'⟩, received, rfl⟩ := Option.map_eq_some_iff.mp done
    obtain ⟨x, _, received⟩ := Option.bind_eq_some_iff.mp received
    split at received
    · cases received
    · cases received
      exact .of_same rfl

end Rollout.Engine
