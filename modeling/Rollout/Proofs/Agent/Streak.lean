-- SUMMARY: What a session tells of the pings so far: how many were missed in a row, and when the host was last in contact.
import Mathlib.Data.List.Induction
import Mathlib.Data.List.ReduceOption
import Rollout.Agent.Session

/-!
# Streaks of missed pings

A session keeps a counter, a mark and a time, and changes them ping by ping. What they come to can be said of all
pings at once: the counter is the number of the latest pings that were missed in a row, in 32 bits, the host is
marked when these are enough, and the time is that of the latest contact. The mark is set when the counter comes to
the threshold and stays set until the next contact, so it does not matter whether the counter overflows.
-/
namespace Rollout

/-- How many of the latest pings were missed in a row. The pings are listed by their contacts, the earliest first. -/
def missedInARow (contacts : List (Option Timestamp)) : Nat :=
  (contacts.reverse.takeWhile Option.isNone).length

/-- The latest contact, if there was one. -/
def latestContact (contacts : List (Option Timestamp)) : Option Timestamp :=
  contacts.reduceOption.getLast?

section Streak

variable {contacts : List (Option Timestamp)}

@[simp] theorem missedInARow_nil : missedInARow [] = 0 := rfl

@[simp] theorem missedInARow_missed : missedInARow (contacts ++ [none]) = missedInARow contacts + 1 := by
  simp [missedInARow]

@[simp] theorem missedInARow_answered (contact : Timestamp) :
    missedInARow (contacts ++ [some contact]) = 0 := by
  simp [missedInARow]

theorem missedInARow_le : missedInARow contacts ≤ contacts.length := by
  have within := (List.takeWhile_prefix (l := contacts.reverse) Option.isNone).length_le
  rwa [List.length_reverse] at within

/-- The pings that were missed in a row are the longest end of the list with missed pings only. -/
theorem le_missedInARow_iff {n : Nat} :
    n ≤ missedInARow contacts ↔ List.replicate n none <:+ contacts := by
  rw [← List.reverse_prefix, List.reverse_replicate, missedInARow]
  generalize contacts.reverse = latest
  induction latest generalizing n with
  | nil => cases n <;> simp
  | cons contact latest ih =>
    cases n with
    | zero => simp
    | succ n =>
      cases contact with
      | none => simp [List.replicate_succ, ih]
      | some contact => simp [List.replicate_succ]

@[simp] theorem latestContact_missed : latestContact (contacts ++ [none]) = latestContact contacts := by
  simp [latestContact, List.reduceOption_append]

@[simp] theorem latestContact_answered (contact : Timestamp) :
    latestContact (contacts ++ [some contact]) = some contact := by
  simp [latestContact, List.reduceOption_append]

end Streak

namespace Session

/-- What the session tells of the pings so far. The counter has 32 bits; the mark and the contact are exact. -/
structure Reflects (threshold : UInt32) (contacts : List (Option Timestamp)) (s : Session) : Prop where
  failures : s.consecutiveFailures = UInt32.ofNat (missedInARow contacts)
  marked : s.unreachable = true ↔ max 1 threshold.toNat ≤ missedInARow contacts
  contact : s.lastContact = latestContact contacts

variable {threshold : UInt32} {contacts : List (Option Timestamp)} {s : Session}

theorem fresh_reflects (host : String) : (fresh host).Reflects threshold [] where
  failures := rfl
  marked := by simp [fresh]
  contact := rfl

/-- As long as the host is not marked the counter is exact. -/
theorem threshold_le_iff {n : Nat} (below : n < max 1 threshold.toNat) :
    threshold ≤ UInt32.ofNat n + 1 ↔ max 1 threshold.toNat ≤ n + 1 := by
  have bits := threshold.toNat_lt
  have exact_count : (UInt32.ofNat n + 1).toNat = (n + 1) % 2 ^ 32 := by
    rw [← UInt32.toNat_ofNat', UInt32.ofNat_add]
    rfl
  rw [UInt32.le_iff_toNat_le, exact_count]
  omega

/-- One more ping keeps what a session reflects. -/
theorem Reflects.record (h : s.Reflects threshold contacts) (contact : Option Timestamp) :
    (s.record threshold contact).Reflects threshold (contacts ++ [contact]) := by
  cases contact with
  | some contact =>
    exact ⟨by simp [Session.record, recordSuccess], by simp [Session.record, recordSuccess],
      by simp [Session.record, recordSuccess]⟩
  | none =>
    refine ⟨?_, ?_, ?_⟩
    · simp [Session.record, recordFailure, h.failures, UInt32.ofNat_add]
    · -- The mark stays, and it is set when the counter comes to the threshold.
      simp only [Session.record, recordFailure, missedInARow_missed, Bool.or_eq_true, h.marked,
        decide_eq_true_eq, h.failures]
      by_cases reached : max 1 threshold.toNat ≤ missedInARow contacts
      · simp only [reached, true_or, true_iff]
        omega
      · rw [threshold_le_iff (by omega)]
        omega
    · simp [Session.record, recordFailure, h.contact]

theorem afterPings_append (first second : List (Option Timestamp)) :
    s.afterPings threshold (first ++ second) =
      (s.afterPings threshold first).afterPings threshold second :=
  List.foldl_append

/-- The session is a function of the pings so far. -/
theorem afterPings_reflects (host : String) (contacts : List (Option Timestamp)) :
    ((fresh host).afterPings threshold contacts).Reflects threshold contacts := by
  induction contacts using List.reverseRecOn with
  | nil => exact fresh_reflects host
  | append_singleton contacts contact ih =>
    rw [afterPings_append]
    exact ih.record contact

/-- With fewer pings than the counter has values the counter is exact. -/
theorem Reflects.failures_toNat (h : s.Reflects threshold contacts)
    (few : missedInARow contacts < UInt32.size) : s.consecutiveFailures.toNat = missedInARow contacts := by
  rw [h.failures, UInt32.toNat_ofNat', Nat.mod_eq_of_lt few]

end Session

end Rollout
