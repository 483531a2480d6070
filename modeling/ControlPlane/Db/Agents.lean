import ControlPlane.Db.Registry

/-! # Agent registry writes and resolution

The statements behind the agents' endpoints: a version's number is one more than
the agent's highest, its status is the only column that is ever updated, and a
request type resolves to the default version of the agent it is routed to, when
both may receive work. -/

namespace ControlPlane
open Keyed Fallible

def createAgent (tenants : Table Tenant Tenant.id) (reg : Registry) (row : Agent) :
    Except RegistryError (Registry × Agent) :=
  (reg.insertAgent tenants row).map fun reg => (reg, row)

def setAgentStatus (reg : Registry) (now : Time) (agentId : AgentId) (status : AgentStatus) :
    Except RegistryError (Registry × Option Agent) :=
  (reg.updateAgents (fun a => a.id == agentId)
    (fun a => { a with status := status, updatedAt := now }) fun _ => rfl).map
    (Prod.map id List.head?)

/-! ## Versions -/

/-- `coalesce(max(version), 0) + 1`. -/
def nextVersion (reg : Registry) (agentId : AgentId) : Int :=
  ((reg.versions.rows.filter fun v => v.agentId == agentId).map AgentVersion.version).foldl max 0 + 1

def createVersion (reg : Registry) (row : AgentVersion) :
    Except RegistryError (Registry × AgentVersion) :=
  (reg.insertVersion row).map fun reg => (reg, row)

/-- `ORDER BY version`. -/
def listVersions (reg : Registry) (agentId : AgentId) : List AgentVersion :=
  (reg.versions.rows.filter fun v => v.agentId == agentId).insertionSort
    fun v w => v.version ≤ w.version

/-- The only column of a version that may change after the insert. -/
def setVersionStatus (reg : Registry) (versionId : VersionId) (status : VersionStatus) :
    Except RegistryError (Registry × Option AgentVersion) :=
  (reg.updateVersions (fun v => v.id == versionId) (fun v => { v with status := status })
    fun _ => rfl).map (Prod.map id List.head?)

/-- The default an activation expects: any, or exactly this one. -/
abbrev ExpectedDefault := Option (Option VersionId)

/-- The `WHERE` clause of an activation's `UPDATE agents`. -/
def activates (agentId : AgentId) (expected : ExpectedDefault) (a : Agent) : Bool :=
  a.id == agentId && expected.all fun v => a.defaultVersionId == v

/-- `UPDATE agents SET default_version_id`, the second statement of an activation. -/
def setDefaultVersion (reg : Registry) (now : Time) (agentId : AgentId) (versionId : VersionId)
    (expected : ExpectedDefault) : Except RegistryError (Registry × Option Agent) :=
  (reg.updateAgents (activates agentId expected)
    (fun a => { a with defaultVersionId := some versionId, updatedAt := now }) fun _ => rfl).map
    (Prod.map id List.head?)

/-! ## Routing and resolution -/

/-- The pinned answer to "what will execute this task?". -/
structure Resolution where
  agentId : AgentId
  agentName : String
  versionId : VersionId
  version : Int
  requiredCapabilities : List String
  maxAttempts : Int
  maxExecutionTimeS : Int
  runtimeSpec : JsonObject

inductive Unroutable where
  | noRoute (message : String)
  | notRoutable (message : String)
  deriving DecidableEq, Repr

def resolution (a : Agent) (v : AgentVersion) : Resolution where
  agentId := a.id
  agentName := a.name
  versionId := v.id
  version := v.version
  requiredCapabilities := v.requiredCapabilities
  maxAttempts := v.maxAttempts
  maxExecutionTimeS := v.maxExecutionTimeS
  runtimeSpec := v.runtimeSpec

/-- The route joined with its agent and, when it has one, the default version. -/
def Registry.routed (reg : Registry) (tenantId : TenantId) (requestType : String) :
    Option (Agent × Option AgentVersion) :=
  (reg.route? tenantId requestType).bind fun r =>
    (reg.agent? r.agentId).map fun a => (a, a.defaultVersionId.bind reg.version?)

def resolveRoute [PyText] (reg : Registry) (tenantId : TenantId) (requestType : String) :
    Except Unroutable Resolution :=
  match reg.routed tenantId requestType with
  | none => .error (.noRoute ("no agent routed for request_type=" ++ PyText.repr requestType))
  | some (a, version) =>
    if !routableAgentStatuses.contains a.status then
      .error (.notRoutable ("agent " ++ PyText.repr a.name ++ " is " ++ a.status.value))
    else match version with
    | none => .error (.notRoutable ("agent " ++ PyText.repr a.name ++ " has no released version"))
    | some v =>
      if !routableVersionStatuses.contains v.status then
        .error (.notRoutable ("agent " ++ PyText.repr a.name ++ " default version " ++
          toString v.version ++ " is " ++ v.status.value))
      else .ok (resolution a v)

/-- What a route resolved to: the ACTIVE default version of an ACTIVE agent. -/
theorem resolveRoute_ok [PyText] {reg : Registry} {tenantId : TenantId} {requestType : String}
    {res : Resolution} (h : resolveRoute reg tenantId requestType = .ok res) :
    ∃ r a v, reg.route? tenantId requestType = some r ∧ reg.agent? r.agentId = some a ∧
      a.status = .active ∧ a.defaultVersionId = some v.id ∧ reg.version? v.id = some v ∧
      v.status = .active ∧ res = resolution a v := by
  unfold resolveRoute at h
  split at h
  · cases h
  rename_i a version hrouted
  obtain ⟨r, hr, hrouted⟩ := Option.bind_eq_some_iff.mp hrouted
  obtain ⟨b, hb, he⟩ := Option.map_eq_some_iff.mp hrouted
  obtain ⟨rfl, hversion⟩ := Prod.mk.inj he
  split at h
  · cases h
  rename_i hactive
  split at h
  · cases h
  rename_i v _
  split at h
  · cases h
  rename_i hv
  obtain ⟨i, hi, hrow⟩ := Option.bind_eq_some_iff.mp hversion
  obtain rfl : v.id = i := Table.key_of_find? hrow
  refine ⟨r, b, v, hr, hb, ?_, hi, hrow, ?_, (Except.ok.inj h).symm⟩
  · simpa [routableAgentStatuses] using hactive
  · simpa [routableVersionStatuses] using hv

end ControlPlane
