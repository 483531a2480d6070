import ControlPlane.Scheduling.Admission
import ControlPlane.Server.Statements

/-! # The endpoints of the registry and of submission

Each request is one transaction: reads that may refuse it, `UPDATE`s that lock
the rows they change, and its writes at the commit. The activation and the
disabling of an agent and the numbering of its versions meet at the agent's row;
nothing else makes two requests wait for each other, so what a request has read
may have changed by the time it writes. -/

namespace ControlPlane
open Keyed Fallible Transactions

structure VersionCreate where
  runtimeSpec : JsonObject := []
  requiredCapabilities : List String := []
  config : JsonObject := []
  maxAttempts : Int := 3
  maxExecutionTimeS : Int := 300

structure ActivateRequest where
  versionId : VersionId
  expectedCurrentVersionId : Option VersionId := none
  requireExpected : Bool := false

structure ToolCreate where
  tenantId : TenantId
  name : String
  toolType : ToolType := .simulated
  description : Option String := none
  config : JsonObject := []

/-- A submission names a task type or a request type, not both. -/
inductive TaskTarget where
  | direct (taskType : String)
  | routed (requestType : String)

structure TaskCreate where
  tenantId : TenantId
  target : TaskTarget
  payload : JsonObject := []
  idempotencyKey : Option String := none
  priority : Int := 100
  maxAttempts : Int := 3
  maxExecutionTimeS : Int := 300
  availableAt : Option Time := none

/-- What a submission takes from the API process: the cached depth of all
queues, the setting it is compared with, and the trace of the request, which is
written in hexadecimal. -/
structure Surroundings where
  globalQueued : Nat := 0
  globalQueueShedThreshold : Int := 0
  carrier : JsonObject := []
  carrier_storable : Json.storableFields carrier = true := by exact Json.storableFields_nil

/-- `str(id)`. -/
def strId (i : Nat) : Json := .str (toString i)

def notFound (message : String) (details : JsonObject) : Failure := .api ⟨.notFound, message, details⟩

def conflict (message : String) (details : JsonObject) : Failure := .api ⟨.conflict, message, details⟩

def unknownTenant (i : TenantId) : Failure := notFound "unknown tenant" [("tenant_id", strId i)]

def unknownAgent (i : AgentId) : Failure := notFound "unknown agent" [("agent_id", strId i)]

def unknownVersion (i : VersionId) : Failure :=
  notFound "unknown agent version" [("version_id", strId i)]

def unknownTool (i : ToolId) : Failure := notFound "unknown tool" [("tool_id", strId i)]

/-! ## Agents and versions -/

def createAgentOn (now : Time) (newId : AgentId) (tenantId : TenantId) (name : String)
    (description : Option String) (s : Store) : Except Failure (Store × Answer) :=
  match createAgent s.db.tenants s.reg
    { id := newId, tenantId, name, description, createdAt := now, updatedAt := now } with
  | .ok (reg, row) => .ok ({ s with reg := reg }, .agent row)
  | .error (.integrity _) =>
    .error (conflict "agent name already exists for this tenant" [("name", .str name)])
  | .error e => .error (.registry e)

def createAgentTx (now : Time) (newId : AgentId) (tenantId : TenantId) (name : String)
    (description : Option String) : Program :=
  .read .other fun s =>
    match s.db.tenants.find? tenantId with
    | none => .fail (unknownTenant tenantId)
    | some _ => .commit .other (createAgentOn now newId tenantId name description)

def createVersionOn (now : Time) (newId : VersionId) (agentId : AgentId) (version : Int)
    (body : VersionCreate) (s : Store) : Except Failure (Store × Answer) := do
  let (reg, row) ← (createVersion s.reg
    { id := newId, agentId, version, runtimeSpec := body.runtimeSpec,
      requiredCapabilities := body.requiredCapabilities, config := body.config,
      maxAttempts := body.maxAttempts, maxExecutionTimeS := body.maxExecutionTimeS,
      createdAt := now }).mapError .registry
  pure ({ s with reg := reg }, .version row)

/-- The agent's row is locked before its highest version is read. -/
def createVersionTx (now : Time) (newId : VersionId) (agentId : AgentId) (body : VersionCreate) :
    Program :=
  .stmt .other [.agent agentId]
    (fun s _ => if (s.reg.agent? agentId).isSome then [.agent agentId] else [])
    fun s _ => match s.reg.agent? agentId with
      | none => .fail (unknownAgent agentId)
      | some _ => .read .other fun s =>
        .commit .other (createVersionOn now newId agentId (nextVersion s.reg agentId) body)

def ActivateRequest.expected (body : ActivateRequest) : ExpectedDefault :=
  if body.requireExpected then some body.expectedCurrentVersionId else none

def activationRejected (reason : String) : Failure :=
  conflict "activation rejected" [("reason", .str reason)]

def activateOn (now : Time) (agentId : AgentId) (body : ActivateRequest) (s : Store) :
    Except Failure (Store × Answer) := do
  let (reg, row) ← (setDefaultVersion s.reg now agentId body.versionId body.expected).mapError
    .registry
  match row with
  | none => .error (activationRejected "default_version_changed_concurrently")
  | some agent =>
    let (reg, _) ← (setVersionStatus reg body.versionId .active).mapError .registry
    pure ({ s with reg := reg }, .agent agent)

def activateTx (now : Time) (agentId : AgentId) (body : ActivateRequest) : Program :=
  .read .other fun s =>
    match (s.reg.version? body.versionId).filter fun v => v.agentId == agentId with
    | none => .fail (notFound "no such version for this agent" [("version_id", strId body.versionId)])
    | some version =>
      if version.status = .disabled then .fail (activationRejected "version_disabled")
      else
        .stmt .other [.agent agentId]
          (fun s _ => if (s.reg.agent? agentId).any (activates agentId body.expected)
            then [.agent agentId] else [])
          fun s _ =>
            if (s.reg.agent? agentId).any (activates agentId body.expected) then
              .stmt .other [.version body.versionId] (fun _ _ => [.version body.versionId])
                fun _ _ => .commit .other (activateOn now agentId body)
            else .fail (activationRejected "default_version_changed_concurrently")

/-- One `UPDATE` for each version: each row is locked. -/
def lockVersionsTx (k : Program) : List VersionId → Program
  | [] => k
  | v :: rest => .stmt .other [.version v] (fun _ _ => [.version v]) fun _ _ => lockVersionsTx k rest

def setVersionStatuses (reg : Registry) (status : VersionStatus) (versionIds : List VersionId) :
    Except RegistryError Registry :=
  versionIds.foldlM (fun reg v => (setVersionStatus reg v status).map Prod.fst) reg

def disabledReason [PyText] (agent : Agent) : String := "agent " ++ PyText.repr agent.name ++ " disabled"

def disableOn (now : Time) (agentId : AgentId) (versionIds : List VersionId) (reason : String)
    (queued running : List TaskId) (s : Store) : Except Failure (Store × Answer) := do
  let (reg, row) ← (setAgentStatus s.reg now agentId .disabled).mapError .registry
  match row with
  | none => .error (unknownAgent agentId)
  | some agent =>
    let reg ← (setVersionStatuses reg .disabled versionIds).mapError .registry
    let (db, affected) ← (writeSweep s.db now versionIds reason queued running).mapError .raised
    pure ({ s with db := db, reg := reg }, .disabled agent affected)

def disableTx [PyText] (now : Time) (agentId : AgentId) (scan : Scan) : Program :=
  .stmt .other [.agent agentId]
    (fun s _ => if (s.reg.agent? agentId).isSome then [.agent agentId] else [])
    fun s _ => match s.reg.agent? agentId with
      | none => .fail (unknownAgent agentId)
      | some agent => .read .other fun s =>
        let versionIds := (listVersions s.reg agentId).map AgentVersion.id
        lockVersionsTx (sweepTx versionIds scan fun queued running =>
          .commit .other (disableOn now agentId versionIds (disabledReason agent) queued running))
          versionIds

def setRouteOn (now : Time) (tenantId : TenantId) (requestType : String) (agentId : AgentId)
    (s : Store) : Except Failure (Store × Answer) := do
  let route : AgentRoute := ⟨tenantId, requestType, agentId, now⟩
  let reg ← (s.reg.upsertRoute s.db.tenants route).mapError .registry
  pure ({ s with reg := reg }, .route route)

def setRouteTx (now : Time) (tenantId : TenantId) (requestType : String) (agentId : AgentId) :
    Program :=
  .read .other fun s =>
    match s.reg.agent? agentId with
    | none => .fail (unknownAgent agentId)
    | some agent =>
      if agent.tenantId ≠ tenantId then .fail (conflict "agent belongs to a different tenant" [])
      else .commit .other (setRouteOn now tenantId requestType agentId)

/-! ## Tools and grants -/

def createToolOn (now : Time) (newId : ToolId) (body : ToolCreate) (s : Store) :
    Except Failure (Store × Answer) :=
  match createTool s.db.tenants s.reg
    { id := newId, tenantId := body.tenantId, name := body.name, description := body.description,
      toolType := body.toolType, config := body.config, createdAt := now } with
  | .ok (reg, row) => .ok ({ s with reg := reg }, .tool row)
  | .error (.integrity _) =>
    .error (conflict "tool name already exists for this tenant" [("name", .str body.name)])
  | .error e => .error (.registry e)

def createToolTx (now : Time) (newId : ToolId) (body : ToolCreate) : Program :=
  .read .other fun s =>
    match s.db.tenants.find? body.tenantId with
    | none => .fail (unknownTenant body.tenantId)
    | some _ => .commit .other (createToolOn now newId body)

/-- `disable_tool` and `enable_tool`: the status, and what the audit log says. -/
def setToolStatusOn (toolId : ToolId) (status : ToolStatus) (action : String) (s : Store) :
    Except Failure (Store × Answer) :=
  match setToolStatus s.reg toolId status with
  | (_, none) => .error (unknownTool toolId)
  | (reg, some tool) => .ok (recordAudit { s with reg := reg }
      { tenantId := tool.tenantId, action, resourceType := "tool", resourceId := some toolId
        outcome := "OK", data := .obj [("name", .str tool.name)] }, .tool tool)

def setToolStatusTx (toolId : ToolId) (status : ToolStatus) (action : String) : Program :=
  .commit .other (setToolStatusOn toolId status action)

def disableToolTx (toolId : ToolId) : Program := setToolStatusTx toolId .disabled "TOOL_DISABLED"

def enableToolTx (toolId : ToolId) : Program := setToolStatusTx toolId .active "TOOL_ENABLED"

def releasedVersion (version : AgentVersion) : Failure :=
  conflict "cannot change grants on a released version; cut a new version instead"
    [("version_id", strId version.id), ("status", .str version.status.value)]

/-- The audit record of a change to the grants of a version. -/
def grantAudit (action : String) (versionId : VersionId) (tool : Tool) : AuditEvent where
  tenantId := tool.tenantId
  action := action
  resourceType := "agent_version"
  resourceId := some versionId
  outcome := "OK"
  data := .obj [("tool", .str tool.name), ("tool_id", strId tool.id)]

def grantToolOn (now : Time) (versionId : VersionId) (tool : Tool) (s : Store) :
    Except Failure (Store × Answer) := do
  let reg ← (grantTool s.reg now versionId tool.id).mapError .registry
  pure (recordAudit { s with reg := reg } (grantAudit "TOOL_GRANTED" versionId tool),
    .granted versionId tool.id)

/-- What `grant` and `revoke_grant` check first: the version exists and is not
ACTIVE now, and the tool exists. -/
def grantGuardTx (versionId : VersionId) (toolId : ToolId) (k : AgentVersion → Tool → Program) :
    Program :=
  .read .other fun s =>
    match s.reg.version? versionId with
    | none => .fail (unknownVersion versionId)
    | some version =>
      if version.status = .active then .fail (releasedVersion version)
      else .read .other fun s =>
        match s.reg.tool? toolId with
        | none => .fail (unknownTool toolId)
        | some tool => k version tool

def grantTx (now : Time) (versionId : VersionId) (toolId : ToolId) : Program :=
  grantGuardTx versionId toolId fun version tool =>
    .read .other fun s =>
      match s.reg.agent? version.agentId with
      | none => .fail .internal
      | some agent =>
        if agent.tenantId ≠ tool.tenantId then
          .fail (conflict "tool belongs to a different tenant" [])
        else .commit .other (grantToolOn now versionId tool)

def revokeGrantOn (versionId : VersionId) (tool : Tool) (s : Store) :
    Except Failure (Store × Answer) :=
  match revokeGrant s.reg versionId tool.id with
  | (_, false) => .error (notFound "grant does not exist"
      [("version_id", strId versionId), ("tool_id", strId tool.id)])
  | (reg, true) => .ok (recordAudit { s with reg := reg }
      (grantAudit "TOOL_GRANT_REVOKED" versionId tool), .done)

def revokeGrantTx (versionId : VersionId) (toolId : ToolId) : Program :=
  grantGuardTx versionId toolId fun _ tool => .commit .other (revokeGrantOn versionId tool)

/-! ## Submission -/

/-- `runtime_spec.get("task_type", agent_name)`; `none` when that is no text. -/
def Resolution.taskType? (r : Resolution) : Option String :=
  match r.runtimeSpec.lookup "task_type" with
  | none => some r.agentName
  | some (.str s) => some s
  | some _ => none

/-- The trace of the request goes into the payload. -/
def TaskCreate.tracedPayload (body : TaskCreate) (carrier : JsonObject) : JsonObject :=
  if carrier = [] then body.payload else body.payload.set "_trace" (.obj carrier)

def TaskCreate.directArgs (body : TaskCreate) (taskType : String) (carrier : JsonObject) :
    SubmitArgs where
  tenantId := body.tenantId
  taskType := taskType
  payload := body.tracedPayload carrier
  idempotencyKey := body.idempotencyKey
  priority := body.priority
  maxAttempts := body.maxAttempts
  maxExecutionTimeS := body.maxExecutionTimeS
  availableAt := body.availableAt

/-- The version's limits win over the request's. -/
def TaskCreate.routedArgs (body : TaskCreate) (taskType : String) (carrier : JsonObject)
    (r : Resolution) : SubmitArgs :=
  { body.directArgs taskType carrier with
    maxAttempts := r.maxAttempts
    maxExecutionTimeS := r.maxExecutionTimeS
    agentVersionId := some r.versionId
    requiredCapabilities := r.requiredCapabilities }

def submitRefused : Raised → Failure
  | .payloadMismatch i =>
    conflict "idempotency_key was reused with a different payload" [("existing_task_id", strId i)]
  | .lookupError message => conflict message [("retry_after_s", .int 1)]
  | e => .raised e

def retryLater (kind : ErrorKind) (v : Verdict) : Failure :=
  .api ⟨kind, v.reason, [("retry_after_s", .int v.retryAfterS)]⟩

def submittedTaskAnswer (res : SubmitResult) : Answer := .task res.created res.task

variable [PyText]

/-- `_submit`. -/
def submitEndpointTx (now : Time) (newId : TaskId) (body : TaskCreate) (env : Surroundings) :
    Program :=
  .read .other fun s =>
    match s.db.tenants.find? body.tenantId with
    | none => .fail (unknownTenant body.tenantId)
    | some tenant => .read .other fun s =>
      let verdict := Admission.decide (queuedCountForTenant s.db body.tenantId) tenant.maxQueuedTasks
        env.globalQueued env.globalQueueShedThreshold
      match verdict.decision with
      | .rejectTenantBacklog => .fail (retryLater .quotaExceeded verdict)
      | .shedOverloaded => .fail (retryLater .overloaded verdict)
      | .admitted =>
        match body.target with
        | .direct taskType =>
          submitTx now newId (body.directArgs taskType env.carrier) submittedTaskAnswer submitRefused
        | .routed requestType => .read .other fun s =>
          match resolveRoute s.reg body.tenantId requestType with
          | .error (.noRoute message) =>
            .fail (notFound message [("request_type", .str requestType)])
          | .error (.notRoutable message) =>
            .fail (conflict message [("request_type", .str requestType)])
          | .ok resolution =>
            match resolution.taskType? with
            | none => .fail .internal
            | some taskType =>
              submitTx now newId (body.routedArgs taskType env.carrier resolution)
                submittedTaskAnswer submitRefused

/-! ## Requests -/

inductive Endpoint where
  | createAgent (newId : AgentId) (tenantId : TenantId) (name : String) (description : Option String)
  | createVersion (newId : VersionId) (agentId : AgentId) (body : VersionCreate)
  | activate (agentId : AgentId) (body : ActivateRequest)
  | disable (agentId : AgentId) (scan : Scan)
  | setRoute (tenantId : TenantId) (requestType : String) (agentId : AgentId)
  | createTool (newId : ToolId) (body : ToolCreate)
  | disableTool (toolId : ToolId)
  | enableTool (toolId : ToolId)
  | grant (versionId : VersionId) (toolId : ToolId)
  | revokeGrant (versionId : VersionId) (toolId : ToolId)
  | submit (newId : TaskId) (body : TaskCreate) (env : Surroundings)

/-- A request of the API, or a query called by a worker, the reaper or another part. -/
inductive Operation where
  | api (e : Endpoint)
  | call (op : Op)

/-- An operation with the time `now()` stands for in it. -/
structure Request where
  now : Time
  op : Operation

def endpointTx (now : Time) : Endpoint → Program
  | .createAgent newId tenantId name description => createAgentTx now newId tenantId name description
  | .createVersion newId agentId body => createVersionTx now newId agentId body
  | .activate agentId body => activateTx now agentId body
  | .disable agentId scan => disableTx now agentId scan
  | .setRoute tenantId requestType agentId => setRouteTx now tenantId requestType agentId
  | .createTool newId body => createToolTx now newId body
  | .disableTool toolId => disableToolTx toolId
  | .enableTool toolId => enableToolTx toolId
  | .grant versionId toolId => grantTx now versionId toolId
  | .revokeGrant versionId toolId => revokeGrantTx versionId toolId
  | .submit newId body env => submitEndpointTx now newId body env

def requestTx (r : Request) : Program :=
  match r.op with
  | .api e => endpointTx r.now e
  | .call op => callTx ⟨r.now, op⟩

end ControlPlane
