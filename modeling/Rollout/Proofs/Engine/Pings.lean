-- SUMMARY: What an engine knows about a host is a function of the pings to it, whoever asked for them.
import Rollout.Proofs.Agent.Streak
import Rollout.Proofs.Engine.Logs
import Rollout.Proofs.Engine.Turns

/-!
# Pings

What happens to an engine is a sequence of acts. Some of them end a ping to a host, and these alone decide what is
known about the host: not who asked for the pings, nor what happens between them.
-/
namespace Rollout

/-- What a session tells, whether or not a ping is under way. -/
def Session.settled (s : Session) : Session := { s with outstandingPing := false }

namespace Session

variable {s : Session} {threshold : UInt32} {contacts : List (Option Timestamp)}

/-- A ping counts the same when others are under way. -/
theorem settled_record (contact : Option Timestamp) :
    ({ s with outstandingPing := false }.record threshold contact).settled =
      s.settled.record threshold contact := by
  cases contact <;> rfl

theorem Reflects.of_settled (h : s.settled.Reflects threshold contacts) :
    s.Reflects threshold contacts := ⟨h.failures, h.marked, h.contact⟩

end Session

/-- A supervisor that takes a turn knows of one more ping when its ping ends, and of no more otherwise. -/
theorem Supervisor.Turn.settled {settings : ProbeSettings} {now : Nat} {s : Supervisor}
    {asker : Option Nat} {contact : Option (Option Timestamp)} {r : Reaction}
    (turn : s.Turn settings now asker contact r) : r.supervisor.session.settled =
      s.session.settled.afterPings settings.failureThreshold contact.toList := by
  cases turn with
  | tells | probes | stops | ticks => rfl
  | ends contact _ after =>
    subst after
    exact Session.settled_record contact

namespace Engine

variable {e e' : Engine} {a : Act} {g : Nat} {h : String}

/-- The pings to a host that end in a run of acts, by their contacts, the earliest first. -/
def pingsOver (g : Nat) (h : String) (acts : List Act) : List (Option Timestamp) :=
  acts.filterMap (Act.contact? g h)

theorem pingsOver_concat (acts : List Act) (a : Act) :
    pingsOver g h (acts ++ [a]) = pingsOver g h acts ++ (a.contact? g h).toList := by
  rw [pingsOver, List.filterMap_append, ← pingsOver]
  cases contact : a.contact? g h <;> simp [contact]

/-- What is known about a host. Nothing is known of one without a supervisor. -/
def known (e : Engine) (g : Nat) (h : String) : Session :=
  ((e.supervisor? g h).map fun s => s.session.settled).getD (.fresh h)

theorem known_of_supervisor? {s : Supervisor} (hs : e.supervisor? g h = some s) :
    e.known g h = s.session.settled := by rw [known, hs]; rfl

theorem known_congr (same : e'.supervisor? g h = e.supervisor? g h) : e'.known g h = e.known g h := by
  rw [known, same, known]

/-- A mail tells a supervisor nothing about its host. -/
theorem known_of_post {mail : Mail}
    (posted : e'.supervisor? g h = (e.supervisor? g h).map fun s => s.post mail) :
    e'.known g h = e.known g h := by
  rw [known, posted, known]
  cases e.supervisor? g h <;> rfl

-- ---------------------------------------------------------------------------
-- One act
-- ---------------------------------------------------------------------------

theorem Goes.known {j : Nat} {q : Inquiry} (goes : Goes e e' j q) : e'.known g h = e.known g h := by
  cases goes with
  | stays _ after | fails _ _ after | decides _ _ _ after =>
    subst after
    rfl
  | @asks r s _ _ registry _ supervisor _ registries =>
    have set := supervisor?_sets registry registries g h
    by_cases here : g = q.registry ∧ h = q.host
    · obtain ⟨rfl, rfl⟩ := here
      rw [if_pos ⟨rfl, rfl⟩] at set
      rw [known_of_supervisor? set, Engine.known, supervisor?_of_registry registry, supervisor]
      cases r.supervisor? q.host <;> rfl
    · exact known_congr (set.trans (if_neg here))

/-- What is known about a host changes with the pings that end. -/
theorem Stirs.known {r : Registry} (stirs : Stirs e e' a) (hr : e'.registries[g]? = some r) :
    e'.known g h =
      (e.known g h).afterPings r.settings.failureThreshold (a.contact? g h).toList := by
  have calmly (calm : a.Calm e) (same : e'.known g h = e.known g h) : e'.known g h =
      (e.known g h).afterPings r.settings.failureThreshold (a.contact? g h).toList := by
    rw [same, calm.contact]
    rfl
  have stays {r₀ : Registry} (hr₀ : e.registries[g]? = some r₀) : r.settings = r₀.settings := by
    obtain ⟨_, hr', same, _⟩ := stirs.registry hr₀
    cases hr.symm.trans hr'
    exact same
  cases stirs with
  | still calm _ _ registries =>
    exact calmly calm (known_congr (by rw [supervisor?, registries, supervisor?]))
  | inquires calm _ goes => exact calmly calm goes.known
  | opens calm _ registries => exact calmly calm (known_congr (supervisor?_opens registries g h))
  | closes calm _ registries =>
    obtain same | ⟨_, posted⟩ := supervisor?_closes registries g h
    · exact calmly calm (known_congr same)
    · exact calmly calm (known_of_post posted)
  | @turns g₀ h₀ r₀ s _ contact reaction registry supervisor turn registries _ _ _ ends =>
    have set := supervisor?_sets registry registries g h
    rw [ends]
    by_cases here : g = g₀ ∧ h = h₀
    · obtain ⟨rfl, rfl⟩ := here
      rw [if_pos ⟨rfl, rfl⟩] at set ⊢
      have before : e.supervisor? g h = some s :=
        (supervisor?_of_registry registry).trans supervisor
      rw [known_of_supervisor? set, known_of_supervisor? before, stays registry]
      exact turn.settled
    · rw [if_neg here] at set ⊢
      exact known_congr set

/-- No ping of a registry ends before the registry is there. -/
theorem Stirs.contact_eq_none (stirs : Stirs e e' a) (unknown : e'.registries[g]? = none) :
    a.contact? g h = none := by
  cases stirs with
  | still calm | inquires calm | opens calm | closes calm => exact calm.contact g h
  | turns registry _ _ registries _ _ _ ends =>
    rw [ends]
    refine if_neg fun here => ?_
    obtain ⟨rfl, rfl⟩ := here
    simp [registries, modifyRegistry, registry] at unknown

-- ---------------------------------------------------------------------------
-- Runs
-- ---------------------------------------------------------------------------

/-- What is known about a host is what the pings to it in the run tell. -/
theorem play?_known {wall : Timestamp} {acts : List Act} {r : Registry}
    (played : (empty wall).play? acts = some e) (hr : e.registries[g]? = some r) :
    e.known g h =
      (Session.fresh h).afterPings r.settings.failureThreshold (pingsOver g h acts) := by
  -- Before a registry is there no pings of it end.
  suffices both : (e.registries[g]? = none → pingsOver g h acts = []) ∧
      ∀ r, e.registries[g]? = some r → e.known g h =
        (Session.fresh h).afterPings r.settings.failureThreshold (pingsOver g h acts) from
    both.2 r hr
  refine play?_induction (P := fun acts e => (e.registries[g]? = none → pingsOver g h acts = []) ∧
    ∀ r, e.registries[g]? = some r → e.known g h =
      (Session.fresh h).afterPings r.settings.failureThreshold (pingsOver g h acts))
    ⟨fun _ => rfl, by simp [empty]⟩ ?_ played
  rintro acts e e' a played ⟨unknown, so_far⟩ done
  have stirs := Stirs.of_act? (housed_of_play? played) done
  rw [pingsOver_concat]
  refine ⟨fun unknown' => ?_, fun r' hr' => ?_⟩
  · have before : e.registries[g]? = none := by
      by_contra known
      obtain ⟨r, hr⟩ := Option.ne_none_iff_exists'.mp known
      obtain ⟨_, hr', _⟩ := stirs.registry hr
      cases unknown'.symm.trans hr'
    rw [unknown before, stirs.contact_eq_none unknown']
    rfl
  · rw [stirs.known hr', Session.afterPings_append]
    congr 1
    cases hr : e.registries[g]? with
    | none =>
      rw [unknown hr, known, supervisor?, hr]
      rfl
    | some r =>
      obtain ⟨_, hr'', same, _⟩ := stirs.registry hr
      cases hr'.symm.trans hr''
      rw [so_far r hr, same]

/-- What a supervisor knows tells of the pings to its host so far. -/
theorem play?_reflects {wall : Timestamp} {acts : List Act} {r : Registry} {s : Session}
    (played : (empty wall).play? acts = some e) (hr : e.registries[g]? = some r)
    (hs : e.session? g h = some s) :
    s.Reflects r.settings.failureThreshold (pingsOver g h acts) := by
  obtain ⟨supervisor, known, rfl⟩ := Option.map_eq_some_iff.mp hs
  refine .of_settled ?_
  rw [← known_of_supervisor? known, play?_known played hr]
  exact Session.afterPings_reflects h _

/-- Whoever asks for pings, whenever, and however they end: the session of a host is a function of the pings to it.
It counts the pings that were missed in a row, the host is marked when these are as many as the threshold, and at
least one, and the last contact is that of the latest ping that was answered. -/
theorem session_tells_of_the_pings {wall : Timestamp} {acts : List Act} {r : Registry} {s : Session}
    (played : (empty wall).play? acts = some e) (hr : e.registries[g]? = some r)
    (hs : e.session? g h = some s) (few : (pingsOver g h acts).length < UInt32.size) :
    s.settled = (Session.fresh h).afterPings r.settings.failureThreshold (pingsOver g h acts) ∧
      s.consecutiveFailures.toNat = missedInARow (pingsOver g h acts) ∧
      (∀ n, n ≤ s.consecutiveFailures.toNat ↔ List.replicate n none <:+ pingsOver g h acts) ∧
      (s.unreachable = true ↔
        max 1 r.settings.failureThreshold.toNat ≤ missedInARow (pingsOver g h acts)) ∧
      s.lastContact = latestContact (pingsOver g h acts) := by
  have reflects := play?_reflects played hr hs
  have counted : s.consecutiveFailures.toNat = missedInARow (pingsOver g h acts) :=
    reflects.failures_toNat (missedInARow_le.trans_lt few)
  refine ⟨?_, counted, fun n => ?_, reflects.marked, reflects.contact⟩
  · obtain ⟨supervisor, there, rfl⟩ := Option.map_eq_some_iff.mp hs
    rw [← known_of_supervisor? there, play?_known played hr]
  · rw [counted]
    exact le_missedInARow_iff

/-! ## Three pings -/

/-- Two missed pings in a row mark a host. -/
def twice : ProbeSettings := { ProbeSettings.default with failureThreshold := 2 }

/-- Alpha answers a ping that was asked for. A ping of the background fails, and the next one that is asked for is
not answered in time. -/
def threePings : List Act :=
  [.serve (.openRegistry twice), .serve (.ask 0 "alpha" .probe), .move (.inquire 0),
    .move (.supervise 0 "alpha"), .move (.pong 0 "alpha" (some .epoch)), .move (.pass 30000),
    .move (.tick 0 "alpha"), .move (.pong 0 "alpha" none), .serve (.ask 0 "alpha" .probe),
    .move (.inquire 1), .move (.supervise 0 "alpha"), .move (.pass 5000),
    .move (.pingTimeout 0 "alpha")]

theorem session_tells_of_the_pings_threePings : ∃ e s, (empty .epoch).play? threePings = some e ∧
    e.session? 0 "alpha" = some s ∧ (pingsOver 0 "alpha" threePings).length < UInt32.size ∧
    s.consecutiveFailures.toNat = 2 ∧ s.unreachable = true ∧ s.lastContact = some .epoch := by
  let e := ((empty .epoch).play? threePings).getD (empty .epoch)
  have played : (empty .epoch).play? threePings = some e := by decide +kernel
  have registry : (e.registries[0]?).map Registry.settings = some twice := by decide +kernel
  have session : (e.session? 0 "alpha").isSome = true := by decide +kernel
  obtain ⟨r, hr, settings⟩ := Option.map_eq_some_iff.mp registry
  obtain ⟨s, hs⟩ := Option.isSome_iff_exists.mp session
  have pings : pingsOver 0 "alpha" threePings = [some .epoch, none, none] := by decide
  have few : (pingsOver 0 "alpha" threePings).length < UInt32.size := by
    rw [pings]
    decide
  obtain ⟨_, count, _, marked, contact⟩ := session_tells_of_the_pings played hr hs few
  rw [pings] at count marked contact
  refine ⟨e, s, played, hs, few, count, marked.mpr ?_, contact⟩
  rw [settings]
  decide

end Engine

end Rollout
