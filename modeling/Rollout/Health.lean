-- SUMMARY: The health endpoints: which status a request for them gets.

/-!
# Health

The program answers requests about its health: it is alive as long as it answers, and it is ready
while it takes runs.
-/
namespace Rollout.Health

/-- The status of a request. A query does not matter; other methods than reading ones are refused. -/
def status (isReady : Bool) (method target : String) : Nat :=
  let path := (target.splitOn "?").head?.getD ""
  let found : Option Nat := match path with
    | "/healthz" => some 200
    | "/readyz" => some (if isReady then 200 else 503)
    | _ => none
  match found with
  | none => 404
  | some status => if method = "GET" || method = "HEAD" then status else 405

end Rollout.Health
