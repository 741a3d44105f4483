-- SUMMARY: Addresses of web resources: how a text is read as one, and its normal form.
import Rollout.Http.Host

/-!
# Addresses of web resources

An address has a scheme, a host, a port and the part behind. Reading is forgiving: blanks around the
text, line breaks and tabs in it, the case of scheme and host, and backslashes for slashes do not
matter. A user in front of the host is dropped. A port that the scheme implies is not written, and
files have no port.
-/
namespace Rollout.Http

/-- An address. Only addresses without a host have none. -/
structure Url where
  scheme : String
  host : Option Host
  port : Option Nat
  /-- The path, the query and the fragment. -/
  rest : String
  deriving DecidableEq, Repr

namespace Url

/-- The port that a scheme implies. -/
def impliedPort? : String → Option Nat
  | "http" | "ws" => some 80
  | "https" | "wss" => some 443
  | "ftp" => some 21
  | _ => none

/-- The schemes whose addresses always have a host. -/
def isSpecial (scheme : String) : Bool := (impliedPort? scheme).isSome

/-- The address is one of those that requests are sent to. -/
def isWeb (u : Url) : Bool := u.host.isSome && (u.scheme = "http" || u.scheme = "https")

/-! ## The part behind the host -/

/-- A character as the escapes of its bytes. -/
def escape (c : Char) : List Char :=
  let digit (n : Nat) : Char := (Nat.digitChar n).toUpper
  (String.singleton c).toUTF8.toList.flatMap fun b =>
    ['%', digit (b.toNat / 16), digit (b.toNat % 16)]

/-- Escape control characters, characters beyond ASCII and those in a list. -/
def escapeAll (reserved : List Char) (cs : List Char) : List Char :=
  cs.flatMap fun c => if c.toNat < 32 || 126 < c.toNat || reserved.contains c then escape c else [c]

/-- A segment of a path that stands for the segment itself or for the one above it. -/
def dots (segment : List Char) : Nat :=
  match Text.asciiLower (String.ofList segment) with
  | "." | "%2e" => 1
  | ".." | ".%2e" | "%2e." | "%2e%2e" => 2
  | _ => 0

/-- Resolve the dots in a path. -/
def resolveDots (segments : List (List Char)) : List (List Char) :=
  let step (out : List (List Char)) (segment : List Char) : List (List Char) :=
    match dots segment with
    | 0 => out ++ [segment]
    | 1 => out
    | _ => out.dropLast
  let out := segments.foldl step []
  match segments.getLast? with
  | some last => if dots last = 0 then out else out ++ [[]]
  | none => out

/-- The normal form of a path that begins with a slash, or is empty. -/
def normalizePath (cs : List Char) : List Char :=
  let segments := match cs with
    | '/' :: rest => (String.ofList rest).splitOn "/" |>.map String.toList
    | _ => [[]]
  let reserved := [' ', '"', '#', '<', '>', '?', '`', '\x7b', '\x7d']
  (resolveDots segments).flatMap fun segment => '/' :: escapeAll reserved segment

/-- The normal form of the part behind the host. -/
def normalizeRest (isSpecial : Bool) (cs : List Char) : String :=
  let (front, fragment) := cs.span (· ≠ '#')
  let (path, query) := front.span (· ≠ '?')
  let path := if isSpecial then path.map fun c => if c = '\\' then '/' else c else path
  let path := if path.isEmpty && !isSpecial then [] else normalizePath path
  let reserved := [' ', '"', '<', '>']
  String.ofList <| path ++ escapeAll (if isSpecial then '\'' :: reserved else reserved) query
    ++ escapeAll ('`' :: reserved) fragment

/-! ## Reading -/

/-- Split into the host and what follows it. A colon between brackets belongs to the host. -/
def splitHost : Bool → List Char → List Char × List Char
  | _, [] => ([], [])
  | inBrackets, c :: cs =>
    if c = ':' && !inBrackets then ([], c :: cs)
    else
      let inBrackets := if c = '[' then true else if c = ']' then false else inBrackets
      let (host, rest) := splitHost inBrackets cs
      (c :: host, rest)

/-- The port behind a host: nothing, a colon alone, or a colon and a number of 16 bits. -/
def port? : List Char → Option (Option Nat)
  | [] | [':'] => some none
  | ':' :: digits => do
    if !digits.all Char.isDigit then none
    let n ← Host.numeral? 10 digits
    if n < 65536 then some (some n) else none
  | _ => none

/-- Drop everything up to the last sign that ends a user. -/
def dropUser (cs : List Char) : List Char :=
  if cs.contains '@' then (cs.reverse.takeWhile (· ≠ '@')).reverse else cs

/-- Whether a character ends the host. -/
def endsHost (isSpecial : Bool) (c : Char) : Bool :=
  c = '/' || c = '?' || c = '#' || (isSpecial && c = '\\')

/-- The address behind its scheme and slashes. -/
def ofAuthority? (scheme : String) (cs : List Char) : Option Url := do
  let special := isSpecial scheme
  let (authority, rest) := cs.span fun c => !endsHost special c
  let (name, behind) := splitHost false (dropUser authority)
  if name.isEmpty && (special || !behind.isEmpty) || scheme = "file" && !behind.isEmpty then none
  let host ← if special then Host.parse? name else Host.ofOpaque? name
  let port ← port? behind
  return {
    scheme := scheme
    host := some host
    port := if port = impliedPort? scheme then none else port
    rest := normalizeRest special rest }

/-- Blanks around a text, and tabs and line breaks in it, do not belong to the address. -/
def clean (s : String) : List Char :=
  let isOuter (c : Char) : Bool := c.toNat ≤ 32
  let inner := ((s.toList.dropWhile isOuter).reverse.dropWhile isOuter).reverse
  inner.filter fun c => c ≠ '\t' && c ≠ '\n' && c ≠ '\r'

/-- The address that a text spells. -/
def parse? (s : String) : Option Url := do
  let (scheme, behind) := (clean s).span (· ≠ ':')
  let isPart (c : Char) : Bool := c.isAlphanum || c = '+' || c = '-' || c = '.'
  if !(scheme.head?.any Char.isAlpha && scheme.all isPart) || behind.isEmpty then none
  let scheme := Text.asciiLower (String.ofList scheme)
  let cs := behind.drop 1
  if isSpecial scheme then
    ofAuthority? scheme (cs.dropWhile fun c => c = '/' || c = '\\')
  else match cs with
    | '/' :: '/' :: cs => ofAuthority? scheme cs
    | '/' :: _ => return ⟨scheme, none, none, normalizeRest false cs⟩
    | _ => return ⟨scheme, none, none, String.ofList (escapeAll [] cs)⟩

/-- The written address. -/
def render (u : Url) : String :=
  match u.host with
  | none => s!"{u.scheme}:{u.rest}"
  | some host =>
    let port := match u.port with
      | none => ""
      | some n => s!":{n}"
    s!"{u.scheme}://{host.render}{port}{u.rest}"

end Url

end Rollout.Http
