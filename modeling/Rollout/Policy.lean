-- SUMMARY: The direction of a run, its execution policy, and the request directives that set it.
import Rollout.Fault
import Rollout.RunId

/-!
# Policies and directives

A run goes forward, or it reverses a forward run that it names. The policy of a run is its
direction and whether the service checks are left out; it is fixed when the run is created, from
the directives of the request.
-/
namespace Rollout

/-- Where a run goes. A downgrade names the forward run that it reverses. -/
inductive Direction where
  | upgrade
  | downgrade (reverses : RunId)
  deriving DecidableEq, Repr

namespace Direction

def name : Direction → String
  | upgrade => "UPGRADE"
  | downgrade _ => "DOWNGRADE"

/-- Whether a forward run is reversed. -/
def isDowngrade : Direction → Bool
  | upgrade => false
  | downgrade _ => true

/-- The forward run that is reversed. -/
def reverses? : Direction → Option RunId
  | upgrade => none
  | downgrade id => some id

end Direction

structure Policy where
  direction : Direction
  skipServiceChecks : Bool
  deriving DecidableEq, Repr

namespace Policy

/-- A forward run with all checks. -/
def upgrade : Policy := ⟨.upgrade, false⟩

/-- Whether the run reverses a forward run. -/
def isDowngrade (p : Policy) : Bool := p.direction.isDowngrade

end Policy

/-- The directives of a request: values by key. -/
abbrev Directives := List (String × String)

namespace Directives

/-- Reverse a forward run. -/
def downgradeKey : String := "downgrade"

/-- Leave out every service check. -/
def skipServiceChecksKey : String := "skip_service_checks"

/-- The keys that a request for a run may use. -/
def accepted : List String := [downgradeKey, skipServiceChecksKey]

/-- The first key, in order of code points, that no request may use. -/
def unsupported? (ds : Directives) : Option String :=
  ((ds.map Prod.fst).filter (!accepted.contains ·)).foldl
    (fun least key => match least with
      | none => some key
      | some k => if key < k then some key else some k) none

/-- The truth value of a directive, false when it is not given. -/
def flag (ds : Directives) (key : String) : Except Fault Bool :=
  match ds.lookup key with
  | none => .ok false
  | some value =>
    let value := Text.asciiLower (Text.trim value)
    if value = "true" then .ok true
    else if value = "false" then .ok false
    else .error (.invalidDirective key s!"expected true or false, got '{value}'")

/-- The policy that the directives of a request ask for. `reference` is the forward run that the
request names; whether that run exists is not asked here. -/
def policy (ds : Directives) (reference : Option RunId) : Except Fault Policy := do
  if let some key := ds.unsupported? then
    throw (.unsupportedDirective key)
  let downgrade ← ds.flag downgradeKey
  let skip ← ds.flag skipServiceChecksKey
  match downgrade, reference with
  | true, some id => return ⟨.downgrade id, skip⟩
  | true, none =>
    throw (.incompatibleDirective "downgrade requires the id of an existing forward run")
  | false, some id =>
    throw (.incompatibleDirective
      s!"a fresh upgrade cannot reference run {id.render}; set {downgradeKey}=true")
  | false, none => return ⟨.upgrade, skip⟩

end Directives

end Rollout
