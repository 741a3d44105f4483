-- SUMMARY: The supervisor of a host: it pings in the background and answers questions about the session.
import Rollout.Agent
import Rollout.Agent.Session
import Rollout.Settings

/-!
# Supervisors

A supervisor owns the session of one host. It does one thing at a time: it waits, or it waits for
the end of a ping. While it waits for nothing it takes the next mail, or begins a ping of the
background when that is due. Questions that come during a ping stay in the mailbox.
-/
namespace Rollout

/-- What may be asked about a host: the session as it is, or the session after another ping. -/
inductive Question where
  | session
  | probe
  deriving DecidableEq, Repr

/-- What a supervisor finds in its mailbox. Those who ask are told apart by numbers. -/
inductive Mail where
  | ask (asker : Nat) (question : Question)
  | shutdown
  deriving DecidableEq, Repr

/-- A ping that is under way. An immediate one was asked for. -/
structure Ping where
  asker : Option Nat
  deadline : Nat
  deriving DecidableEq, Repr

/-- A ping is immediate when somebody waits for it. -/
def Ping.isImmediate (p : Ping) : Bool := p.asker.isSome

/-- What a supervisor is doing. -/
inductive Activity where
  | idle
  | pinging (ping : Ping)
  | stopped
  deriving DecidableEq, Repr

structure Supervisor where
  session : Session
  /-- When the next ping of the background is due. -/
  nextTick : Nat
  mailbox : List Mail
  activity : Activity
  deriving DecidableEq, Repr

/-- A supervisor after it did something, with what others notice of it. -/
structure Reaction where
  supervisor : Supervisor
  /-- The answers to those who asked; nothing for those whose question is dropped. -/
  answers : List (Nat × Option Session)
  /-- A ping that is sent. -/
  request : Option PingRequest
  deriving DecidableEq, Repr

namespace Supervisor

def start (settings : ProbeSettings) (host : String) (now : Nat) : Supervisor where
  session := .fresh host
  nextTick := now + settings.intervalMs
  mailbox := []
  activity := .idle

def post (mail : Mail) (s : Supervisor) : Supervisor := { s with mailbox := s.mailbox ++ [mail] }

def sendPing (settings : ProbeSettings) (now : Nat) (asker : Option Nat) (s : Supervisor) :
    Reaction :=
  let ping : Ping := ⟨asker, now + settings.timeoutMs⟩
  { supervisor := { s with
      session := { s.session with outstandingPing := true }
      activity := .pinging ping }
    answers := []
    request := some ⟨settings.username, settings.instanceName, ping.isImmediate⟩ }

/-- A ping of the background that is late by at most this much does not move the later ones. -/
def tolerance : Nat := 5

/-- When the next ping of the background is due after one that was due at `due` and begins now. -/
def tickAfter (settings : ProbeSettings) (due now : Nat) : Nat :=
  (if now > due + tolerance then now else due) + settings.intervalMs

/-- Begin a ping of the background that is due. -/
def tick? (settings : ProbeSettings) (now : Nat) (s : Supervisor) : Option Reaction :=
  if s.activity = .idle ∧ s.nextTick ≤ now then
    some (sendPing settings now none { s with nextTick := tickAfter settings s.nextTick now })
  else none

/-- The askers whose questions are still in the mailbox. -/
def waiting (s : Supervisor) : List Nat :=
  s.mailbox.filterMap fun
    | .ask asker _ => some asker
    | .shutdown => none

/-- Stop. The questions in the mailbox are dropped. -/
def stop (s : Supervisor) : Reaction where
  supervisor := { s with mailbox := [], activity := .stopped }
  answers := s.waiting.map fun asker => (asker, none)
  request := none

def takeMail? (settings : ProbeSettings) (now : Nat) (s : Supervisor) : Option Reaction :=
  if s.activity = .idle then
    match s.mailbox with
    | [] => none
    | mail :: rest =>
      let s := { s with mailbox := rest }
      match mail with
      | .ask asker .session => some ⟨s, [(asker, some s.session)], none⟩
      | .ask asker .probe => some (s.sendPing settings now (some asker))
      | .shutdown => some s.stop
  else none

/-- The ping that is under way ends, with a contact or without one. -/
def endPing? (settings : ProbeSettings) (contact : Option Timestamp) (s : Supervisor) :
    Option Reaction :=
  match s.activity with
  | .pinging ping =>
    let session :=
      { s.session with outstandingPing := false }.record settings.failureThreshold contact
    let s := { s with session := session, activity := .idle }
    some ⟨s, ping.asker.toList.map fun asker => (asker, some session), none⟩
  | _ => none

end Supervisor

end Rollout
