-- SUMMARY: Wire forms of runs, commands, agent messages and resources.
import Rollout.Wire.Plan
import Rollout.Agent
import Rollout.Resource

/-!
# Wire forms of runs and resources

Runs and tasks write what they lack as nothing; resources leave it out.
-/
namespace Rollout

open Wire

instance : Wire RunState where
  toJson s := Json.text s.name
  ofJson? := enum? RunState.all RunState.name

instance : Wire TaskStatus where
  toJson s := Json.text s.name
  ofJson? := enum? TaskStatus.all TaskStatus.name

instance : Wire ResourceType where
  toJson t := Json.text t.name
  ofJson? := enum? ResourceType.all ResourceType.name

instance : Wire HistoryFilter where
  toJson f := Json.text f.name
  ofJson? := enum? HistoryFilter.values HistoryFilter.name

/-! ## Runs -/

instance : Wire Cursor where
  toJson c := Json.record [("group", toJson c.group), ("stage", toJson c.stage)]
  ofJson? j := do
    let fs ← fields? ["group", "stage"] j
    return ⟨← fs.get? "group", ← fs.get? "stage"⟩

instance : Wire Task where
  toJson t := Json.record
    [("id", toJson t.id), ("group", toJson t.group), ("stage", toJson t.stage),
     ("host", toJson t.host), ("service", toJson t.service), ("component", toJson t.component),
     ("operation", toJson t.operation), ("version", toJson t.version), ("status", toJson t.status),
     ("retryCount", toJson t.retryCount), ("lastError", toJson t.lastError),
     ("startedAt", toJson t.startedAt), ("completedAt", toJson t.completedAt)]
  ofJson? j := do
    let fs ← fields? ["id", "group", "stage", "host", "service", "component", "operation",
      "version", "status", "retryCount", "lastError", "startedAt", "completedAt"] j
    return {
      id := ← fs.get? "id"
      group := ← fs.get? "group"
      stage := ← fs.get? "stage"
      host := ← fs.get? "host"
      service := ← fs.get? "service"
      component := ← fs.get? "component"
      operation := ← fs.get? "operation"
      version := ← fs.get? "version"
      status := ← fs.get? "status"
      retryCount := ← fs.get? "retryCount"
      lastError := ← fs.getOr? "lastError" none
      startedAt := ← fs.getOr? "startedAt" none
      completedAt := ← fs.getOr? "completedAt" none }

instance : Wire Run where
  toJson r := Json.record
    [("id", toJson r.id), ("plan", toJson r.plan), ("policy", toJson r.policy),
     ("state", toJson r.state), ("cursor", toJson r.cursor),
     ("stageDispatched", toJson r.stageDispatched), ("tasks", toJson r.tasks),
     ("message", toJson r.message), ("createdAt", toJson r.createdAt),
     ("updatedAt", toJson r.updatedAt), ("completedAt", toJson r.completedAt)]
  ofJson? j := do
    let fs ← fields? ["id", "plan", "policy", "state", "cursor", "stageDispatched", "tasks",
      "message", "createdAt", "updatedAt", "completedAt"] j
    return {
      id := ← fs.get? "id"
      plan := ← fs.get? "plan"
      policy := ← Policy.ofJsonAt? 2 (← fs.lookup "policy")
      state := ← fs.get? "state"
      cursor := ← fs.get? "cursor"
      stageDispatched := ← fs.get? "stageDispatched"
      tasks := ← fs.get? "tasks"
      message := ← fs.getOr? "message" none
      createdAt := ← fs.get? "createdAt"
      updatedAt := ← fs.get? "updatedAt"
      completedAt := ← fs.getOr? "completedAt" none }

/-! ## Agent messages -/

instance : Wire TaskCommand where
  toJson c := Json.record <|
    [("runId", toJson c.runId), ("taskId", toJson c.taskId), ("host", toJson c.host),
     ("service", toJson c.service), ("component", toJson c.component),
     ("operation", toJson c.operation), ("version", toJson c.version)]
    ++ c.direction.toFields ++ [("attempt", toJson c.attempt)]
  ofJson? j := do
    let (fs, rest) ← openFields? ["runId", "taskId", "host", "service", "component", "operation",
      "version", "attempt"] 1 j
    return {
      runId := ← fs.get? "runId"
      taskId := ← fs.get? "taskId"
      host := ← fs.get? "host"
      service := ← fs.get? "service"
      component := ← fs.get? "component"
      operation := ← fs.get? "operation"
      version := ← fs.get? "version"
      direction := ← Direction.ofFields? rest
      attempt := ← fs.get? "attempt" }

instance : Wire PingRequest where
  toJson p := Json.record
    [("username", toJson p.username), ("instanceName", toJson p.instanceName),
     ("immediate", toJson p.immediate)]
  ofJson? j := do
    let fs ← fields? ["username", "instanceName", "immediate"] j
    return ⟨← fs.get? "username", ← fs.get? "instanceName", ← fs.get? "immediate"⟩

instance : Wire PingReply where
  toJson p := Json.record [("contactedAt", toJson p.contactedAt)]
  ofJson? j := do
    let fs ← fields? ["contactedAt"] j
    return ⟨← fs.get? "contactedAt"⟩

instance : Wire CommandReply where
  toJson r := Json.record [("accepted", toJson r.accepted), ("message", toJson r.message)]
  ofJson? j := do
    let fs ← fields? ["accepted", "message"] j
    return ⟨← fs.get? "accepted", ← fs.getOr? "message" none⟩

/-! ## Resources -/

instance : Wire TaskView where
  toJson t := Json.record <|
    [("id", toJson t.id), ("group", toJson t.group), ("stage", toJson t.stage),
     ("host", toJson t.host), ("service", toJson t.service), ("component", toJson t.component),
     ("operation", toJson t.operation), ("status", toJson t.status),
     ("retryCount", toJson t.retryCount)] ++ presentField "lastError" t.lastError
  ofJson? j := do
    let fs ← fields? ["id", "group", "stage", "host", "service", "component", "operation",
      "status", "retryCount", "lastError"] j
    return {
      id := ← fs.get? "id"
      group := ← fs.get? "group"
      stage := ← fs.get? "stage"
      host := ← fs.get? "host"
      service := ← fs.get? "service"
      component := ← fs.get? "component"
      operation := ← fs.get? "operation"
      status := ← fs.get? "status"
      retryCount := ← fs.get? "retryCount"
      lastError := ← fs.getOr? "lastError" none }

instance : Wire UpgradeResource where
  toJson r := Json.record <|
    [("kind", toJson r.kind), ("id", toJson r.id), ("topology", toJson r.topology),
     ("fromVersion", toJson r.fromVersion), ("toVersion", toJson r.toVersion),
     ("state", toJson r.state)]
    ++ r.directives.toFields
    ++ presentField "currentGroup" r.currentGroup ++ presentField "currentStage" r.currentStage
    ++ [("progressPercent", toJson r.progressPercent)] ++ presentField "message" r.message
    ++ [("failedTasks", toJson r.failedTasks), ("tasks", toJson r.tasks),
      ("createdAt", toJson r.createdAt), ("updatedAt", toJson r.updatedAt)]
    ++ presentField "completedAt" r.completedAt
  ofJson? j := do
    let (fs, rest) ← openFields? ["kind", "id", "topology", "fromVersion", "toVersion", "state",
      "currentGroup", "currentStage", "progressPercent", "message", "failedTasks", "tasks",
      "createdAt", "updatedAt", "completedAt"] 1 j
    return {
      kind := ← fs.get? "kind"
      id := ← fs.get? "id"
      topology := ← fs.get? "topology"
      fromVersion := ← fs.get? "fromVersion"
      toVersion := ← fs.get? "toVersion"
      state := ← fs.get? "state"
      directives := ← Policy.ofRest? rest
      currentGroup := ← fs.getOr? "currentGroup" none
      currentStage := ← fs.getOr? "currentStage" none
      progressPercent := ← fs.get? "progressPercent"
      message := ← fs.getOr? "message" none
      failedTasks := ← fs.getOr? "failedTasks" []
      tasks := ← fs.getOr? "tasks" []
      createdAt := ← fs.get? "createdAt"
      updatedAt := ← fs.get? "updatedAt"
      completedAt := ← fs.getOr? "completedAt" none }

end Rollout
