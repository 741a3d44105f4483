-- SUMMARY: How inquiries and supervisors take turns: questions, answers and pings.
import Rollout.Engine.Basic

/-!
# The gate before a command

A command passes when the supervisor of its host does not mark the host unreachable. The session is
asked for first; if it is marked, or its last contact is stale, another ping is asked for, and the
session after that ping decides.
-/
namespace Rollout

namespace Inquiry

def firstQuestion (q : Inquiry) : Question :=
  match q.purpose with
  | .pass | .look => .session
  | .probe => .probe

/-- The session is not enough to let a command pass: it is marked, or its contact is stale. -/
def needsProbe (settings : ProbeSettings) (wall : Timestamp) (s : Session) : Bool :=
  s.unreachable || s.isStale wall settings.intervalMs

/-- A command passes when the host is not marked. -/
def verdict (host : String) (s : Session) : InquiryState :=
  if s.unreachable then .refused (.hostUnreachable host s.consecutiveFailures) else .passed s

/-- What follows an answer: another question, or the result. -/
def follow (q : Inquiry) (settings : ProbeSettings) (wall : Timestamp) (question : Question)
    (s : Session) : Question ⊕ InquiryState :=
  match q.purpose, question with
  | .pass, .session => if needsProbe settings wall s then .inl .probe else .inr (verdict q.host s)
  | .pass, .probe => .inr (verdict q.host s)
  | _, _ => .inr (.passed s)

end Inquiry

namespace Engine

/-- Ask the supervisor of a host, which is started if there is none. -/
def ask (i : Nat) (q : Inquiry) (question : Question) (e : Engine) : Engine :=
  match e.registries[q.registry]? with
  | none => e
  | some registry =>
    if !registry.isOpen then
      e.setInquiry i (.refused (.fatal "agent supervisors are shut down"))
    else
      let s := (registry.supervisor? q.host).getD (.start registry.settings q.host e.now)
      if s.activity = .stopped then
        e.setInquiry i (.refused (.fatal s!"supervisor for {q.host} is gone"))
      else
        let s := s.post (.ask i question)
        (e.modifyRegistry q.registry (·.setSupervisor q.host s)).setInquiry i (.asked question)

/-- An inquiry goes on by itself, unless it waits for an answer or is over. -/
def inquire? (i : Nat) (e : Engine) : Option Engine := do
  let q ← e.inquiries[i]?
  match q.state with
  | .opening => return e.ask i q q.firstQuestion
  | .answered question session =>
    let registry ← e.registries[q.registry]?
    match q.follow registry.settings e.wall question session with
    | .inl question => return e.ask i q question
    | .inr result => return e.setInquiry i result
  | .asked _ | .passed _ | .refused _ => none

/-- An inquiry gets its answer, or loses its question. -/
def deliver (answer : Nat × Option Session) (e : Engine) : Engine :=
  let (i, session) := answer
  match e.inquiries[i]? with
  | some ⟨_, host, _, .asked question⟩ => match session with
    | some session => e.setInquiry i (.answered question session)
    | none => e.setInquiry i (.refused (.fatal s!"supervisor for {host} dropped a reply"))
  | _ => e

/-- A supervisor does something, and the others notice. -/
def react (registry : Nat) (host : String) (act : ProbeSettings → Supervisor → Option Reaction)
    (e : Engine) : Option Engine := do
  let r ← e.registries[registry]?
  let s ← r.supervisor? host
  let reaction ← act r.settings s
  let e := e.modifyRegistry registry (·.setSupervisor host reaction.supervisor)
  let e := reaction.answers.foldl (fun e answer => e.deliver answer) e
  match reaction.request with
  | some request => return e.record host (.pinged registry request)
  | none => return e

def supervise? (registry : Nat) (host : String) (e : Engine) : Option Engine :=
  e.react registry host fun settings s => s.takeMail? settings e.now

/-- A supervisor begins a ping of the background that is due. -/
def tick? (registry : Nat) (host : String) (e : Engine) : Option Engine :=
  e.react registry host fun settings s => s.tick? settings e.now

/-- The ping of a supervisor is answered, with a contact or with a fault. -/
def pong? (registry : Nat) (host : String) (contact : Option Timestamp) (e : Engine) :
    Option Engine :=
  e.react registry host fun settings s => s.endPing? settings contact

/-- The ping of a supervisor is not answered in time. -/
def pingTimeout? (registry : Nat) (host : String) (e : Engine) : Option Engine :=
  e.react registry host fun settings s => match s.activity with
    | .pinging ping => if ping.deadline ≤ e.now then s.endPing? settings none else none
    | _ => none

end Engine

end Rollout
