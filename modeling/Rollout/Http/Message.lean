-- SUMMARY: Requests and responses of the web, and the words for status codes.
import Rollout.Http.Url
import Rollout.Json.Basic

/-!
# Requests and responses

A request posts a JSON document to an address. It is answered with a status code and a body, or the
connection fails before it is answered.
-/
namespace Rollout.Http

/-- A document posted to an address. -/
structure Request where
  url : Url
  body : Json
  deriving Repr

structure Response where
  status : Nat
  body : ByteArray

/-- What becomes of a request. -/
inductive Exchange where
  /-- No connection reaches the host. -/
  | unsent
  /-- The connection ends without an answer. -/
  | unanswered
  | answered (response : Response)

def Exchange.arrives : Exchange → Bool
  | unsent => false
  | unanswered | answered _ => true

/-- Why there is no answer to a request. -/
inductive Failure where
  /-- The text of the address spells none. -/
  | noAddress
  /-- Requests are not sent to such addresses. -/
  | noWebAddress (url : Url)
  /-- The connection fails. -/
  | notSent (url : Url)
  /-- The body of the answer is not what is expected. -/
  | notDecoded
  deriving DecidableEq, Repr

namespace Failure

def message : Failure → String
  | noAddress => "builder error"
  | noWebAddress url => s!"builder error for url ({url.render})"
  | notSent url => s!"error sending request for url ({url.render})"
  | notDecoded => "error decoding response body"

end Failure

/-- The address of a request. -/
def address (text : String) : Except Failure Url :=
  match Url.parse? text with
  | none => .error .noAddress
  | some url => if url.isWeb then .ok url else .error (.noWebAddress url)

/-- The requests that reach the host. A request without an address reaches none. -/
def Exchange.arrivals (exchange : Exchange) (request : Except Failure Request) : List Request :=
  match request with
  | .ok r => if exchange.arrives then [r] else []
  | .error _ => []

/-- The answer to a request for an address. -/
def Exchange.response (exchange : Exchange) (url : Url) : Except Failure Response :=
  match exchange with
  | unsent | unanswered => .error (.notSent url)
  | answered response => .ok response

/-! ## Requests as text -/

def Request.line (r : Request) : String :=
  let path := (r.url.rest.splitOn "#").head?.getD ""
  s!"POST {path} HTTP/1.1"

def Request.contentType : String := "application/json"

/-! ## Status codes -/

/-- The words for the status codes that have any. -/
def reasons : List (Nat × String) :=
  [(100, "Continue"), (101, "Switching Protocols"), (102, "Processing"),
   (200, "OK"), (201, "Created"), (202, "Accepted"), (203, "Non Authoritative Information"),
   (204, "No Content"), (205, "Reset Content"), (206, "Partial Content"), (207, "Multi-Status"),
   (208, "Already Reported"), (226, "IM Used"),
   (300, "Multiple Choices"), (301, "Moved Permanently"), (302, "Found"), (303, "See Other"),
   (304, "Not Modified"), (305, "Use Proxy"), (307, "Temporary Redirect"),
   (308, "Permanent Redirect"),
   (400, "Bad Request"), (401, "Unauthorized"), (402, "Payment Required"), (403, "Forbidden"),
   (404, "Not Found"), (405, "Method Not Allowed"), (406, "Not Acceptable"),
   (407, "Proxy Authentication Required"), (408, "Request Timeout"), (409, "Conflict"),
   (410, "Gone"), (411, "Length Required"), (412, "Precondition Failed"),
   (413, "Payload Too Large"), (414, "URI Too Long"), (415, "Unsupported Media Type"),
   (416, "Range Not Satisfiable"), (417, "Expectation Failed"), (418, "I'm a teapot"),
   (421, "Misdirected Request"), (422, "Unprocessable Entity"), (423, "Locked"),
   (424, "Failed Dependency"), (425, "Too Early"), (426, "Upgrade Required"),
   (428, "Precondition Required"), (429, "Too Many Requests"),
   (431, "Request Header Fields Too Large"), (451, "Unavailable For Legal Reasons"),
   (500, "Internal Server Error"), (501, "Not Implemented"), (502, "Bad Gateway"),
   (503, "Service Unavailable"), (504, "Gateway Timeout"), (505, "HTTP Version Not Supported"),
   (506, "Variant Also Negotiates"), (507, "Insufficient Storage"), (508, "Loop Detected"),
   (510, "Not Extended"), (511, "Network Authentication Required")]

/-- A status code with its words. -/
def statusText (status : Nat) : String :=
  let words := (reasons.lookup status).getD "<unknown status code>"
  s!"{status} {words}"

def Response.isSuccess (r : Response) : Bool := 200 ≤ r.status && r.status < 300

end Rollout.Http
