-- SUMMARY: How agents are spoken to: the requests for pings and commands, and what their answers mean.
import Rollout.Agent
import Rollout.Http.Message
import Rollout.Text.Bytes
import Rollout.Wire.Run

/-!
# Speaking to agents

The agent on a host takes pings and commands as requests. An answer without success, and one that
cannot be read, count as faults: a command is then rejected or lost in transport, a ping is lost.
-/
namespace Rollout

/-- Where agents listen. -/
structure AgentEndpoint where
  scheme : String
  port : Nat
  deriving DecidableEq, Repr

namespace AgentEndpoint

def pingPath : String := "/v1/ping"

def commandPath : String := "/v1/commands"

/-- The text of the address of a path on a host. -/
def addressText (e : AgentEndpoint) (host path : String) : String :=
  s!"{e.scheme}://{host}:{e.port}{path}"

/-- A request to the agent on a host, if there is an address for it. -/
def request (e : AgentEndpoint) (host path : String) (body : Json) :
    Except Http.Failure Http.Request := do
  return ⟨← Http.address (e.addressText host path), body⟩

def pingRequest (e : AgentEndpoint) (host : String) (p : PingRequest) :
    Except Http.Failure Http.Request := e.request host pingPath (toJson p)

def commandRequest (e : AgentEndpoint) (host : String) (c : TaskCommand) :
    Except Http.Failure Http.Request := e.request host commandPath (toJson c)

end AgentEndpoint

namespace Http

/-- A failure of the client as a fault of the transport to a host. -/
def Failure.fault (host : String) (f : Failure) : Fault := .inTransport host f.message

/-- The value in the body of a response. -/
def Response.decode {α : Type} [Wire α] (r : Response) : Except Failure α :=
  match (String.fromUTF8? r.body).bind fun s => (Wire.parse? s : Option α) with
  | some a => .ok a
  | none => .error .notDecoded

/-- The body as text. Bytes that encode none are replaced. -/
def Response.text (r : Response) : String := Text.ofBytes r.body

def Response.pingReply (host : String) (r : Response) : Except Fault PingReply :=
  if r.isSuccess then (r.decode : Except Failure PingReply).mapError (Failure.fault host)
  else .error (.transport host s!"ping returned HTTP {statusText r.status}")

/-- What the answer to a command means. -/
def Response.commandResult (host : String) (r : Response) : Except Fault Unit :=
  if !r.isSuccess then
    .error (.commandRejected host s!"HTTP {statusText r.status}: {Text.trim r.text}")
  else match (r.decode : Except Failure CommandReply) with
    | .error f => .error (f.fault host)
    | .ok reply =>
      if reply.accepted then .ok ()
      else .error (.commandRejected host (reply.message.getD "rejected without message"))

end Http

namespace AgentEndpoint

/-- The answer to a request for a path on a host, or the fault of one that has none. -/
def answer (e : AgentEndpoint) (host path : String) (exchange : Http.Exchange) :
    Except Fault Http.Response :=
  ((Http.address (e.addressText host path)).bind exchange.response).mapError
    (Http.Failure.fault host)

def ping (e : AgentEndpoint) (host : String) (exchange : Http.Exchange) :
    Except Fault PingReply := do
  (← e.answer host pingPath exchange).pingReply host

def execute (e : AgentEndpoint) (host : String) (exchange : Http.Exchange) : Except Fault Unit := do
  (← e.answer host commandPath exchange).commandResult host

end AgentEndpoint

end Rollout
