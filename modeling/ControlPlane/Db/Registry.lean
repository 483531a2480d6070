import ControlPlane.Domain.Agents
import ControlPlane.Domain.Authz
import ControlPlane.Db.Database

/-! # The registry tables

Agents and their versions, routes, tools and the grants between versions and
tools. A `Registry` carries its integrity constraints as proofs, as a `Database`
does; a version's row is immutable but for its status, which a trigger checks on
every `UPDATE`. What refers to a tenant is checked against the tenants' table
when it is inserted. -/

namespace ControlPlane
open Keyed Fallible

abbrev AgentId := Nat

structure Agent where
  id : AgentId
  tenantId : TenantId
  name : String
  description : Option String := none
  status : AgentStatus := .active
  defaultVersionId : Option VersionId := none
  createdAt : Time
  updatedAt : Time

structure AgentVersion where
  id : VersionId
  agentId : AgentId
  version : Int
  runtimeSpec : JsonObject := []
  requiredCapabilities : List String := []
  config : JsonObject := []
  maxAttempts : Int := 3
  maxExecutionTimeS : Int := 300
  status : VersionStatus := .draft
  createdAt : Time

structure AgentRoute where
  tenantId : TenantId
  requestType : String
  agentId : AgentId
  createdAt : Time

structure Tool where
  id : ToolId
  tenantId : TenantId
  name : String
  description : Option String := none
  toolType : ToolType := .simulated
  config : JsonObject := []
  status : ToolStatus := .active
  createdAt : Time

structure ToolGrant where
  agentVersionId : VersionId
  toolId : ToolId
  createdAt : Time

/-- The columns of `uq_agents_tenant_name`, and of `uq_tools_tenant_name`. -/
def Agent.tenantName (a : Agent) : TenantId × String := (a.tenantId, a.name)

def Tool.tenantName (t : Tool) : TenantId × String := (t.tenantId, t.name)

/-- The columns of `uq_agent_versions_agent_version`. -/
def AgentVersion.number (v : AgentVersion) : AgentId × Int := (v.agentId, v.version)

def AgentRoute.key (r : AgentRoute) : TenantId × String := (r.tenantId, r.requestType)

def ToolGrant.key (g : ToolGrant) : VersionId × ToolId := (g.agentVersionId, g.toolId)

/-- The check constraints of `agent_versions`. -/
def AgentVersion.constraints (v : AgentVersion) : List (String × Bool) :=
  [("ck_agent_versions_version", decide (1 ≤ v.version)),
   ("ck_agent_versions_max_attempts", decide (1 ≤ v.maxAttempts)),
   ("ck_agent_versions_max_execution_time", decide (1 ≤ v.maxExecutionTimeS))]

def AgentVersion.violation (v : AgentVersion) : Option String :=
  (v.constraints.find? fun c => !c.2).map Prod.fst

/-- What the trigger on `agent_versions` protects: every column but `status`. -/
structure AgentVersion.Fixed where
  agentId : AgentId
  version : Int
  runtimeSpec : JsonObject
  requiredCapabilities : List String
  config : JsonObject
  maxAttempts : Int
  maxExecutionTimeS : Int
  deriving DecidableEq

def AgentVersion.fixed (v : AgentVersion) : Fixed where
  agentId := v.agentId
  version := v.version
  runtimeSpec := v.runtimeSpec
  requiredCapabilities := v.requiredCapabilities
  config := v.config
  maxAttempts := v.maxAttempts
  maxExecutionTimeS := v.maxExecutionTimeS

/-- What an agent belongs to and is called; no `UPDATE` of the program assigns them. -/
structure Agent.Fixed where
  id : AgentId
  tenantId : TenantId
  name : String

def Agent.fixed (a : Agent) : Fixed where
  id := a.id
  tenantId := a.tenantId
  name := a.name

structure Registry where
  agents : Table Agent Agent.id
  versions : Table AgentVersion AgentVersion.id
  routes : Table AgentRoute AgentRoute.key
  tools : Table Tool Tool.id
  grants : Table ToolGrant ToolGrant.key
  agents_name : agents.UniqueOn Agent.tenantName
  agents_default : agents.References Agent.defaultVersionId versions
  versions_number : versions.UniqueOn AgentVersion.number
  versions_checked : ∀ v ∈ versions.rows, v.violation = none
  versions_agent : versions.References (fun v => some v.agentId) agents
  routes_agent : routes.References (fun r => some r.agentId) agents
  tools_name : tools.UniqueOn Tool.tenantName
  grants_version : grants.References (fun g => some g.agentVersionId) versions
  grants_tool : grants.References (fun g => some g.toolId) tools

def Registry.empty : Registry where
  agents := .empty
  versions := .empty
  routes := .empty
  tools := .empty
  grants := .empty
  agents_name := by simp [Table.UniqueOn, Table.empty]
  agents_default := by simp [Table.References, Table.empty]
  versions_number := by simp [Table.UniqueOn, Table.empty]
  versions_checked := by simp [Table.empty]
  versions_agent := by simp [Table.References, Table.empty]
  routes_agent := by simp [Table.References, Table.empty]
  tools_name := by simp [Table.UniqueOn, Table.empty]
  grants_version := by simp [Table.References, Table.empty]
  grants_tool := by simp [Table.References, Table.empty]

inductive RegistryError where
  | integrity (e : DbError)
  | restrictViolation (message : String)
  deriving DecidableEq, Repr

namespace Registry

def agent? (reg : Registry) (i : AgentId) : Option Agent := reg.agents.find? i

def version? (reg : Registry) (i : VersionId) : Option AgentVersion := reg.versions.find? i

def tool? (reg : Registry) (i : ToolId) : Option Tool := reg.tools.find? i

def route? (reg : Registry) (tenantId : TenantId) (requestType : String) : Option AgentRoute :=
  reg.routes.find? (tenantId, requestType)

/-- The version holds a grant for the tool. -/
def granted (reg : Registry) (v : VersionId) (t : ToolId) : Bool := (reg.grants.find? (v, t)).isSome

/-! ## Inserts -/

/-- `INSERT INTO agents`. -/
def insertAgent (tenants : Table Tenant Tenant.id) (reg : Registry) (a : Agent) :
    Except RegistryError Registry :=
  if hd : ∃ v ∈ a.defaultVersionId, (reg.versions.find? v).isNone = true then
    .error (.integrity (.foreignKeyViolation "fk_agents_default_version"))
  else if hn : ∃ b ∈ reg.agents.rows, b.tenantName = a.tenantName then
    .error (.integrity (.uniqueViolation "uq_agents_tenant_name"))
  else if (tenants.find? a.tenantId).isNone then
    .error (.integrity (.foreignKeyViolation "agents_tenant_id_fkey"))
  else match hi : reg.agents.insert? a with
  | none => .error (.integrity (.uniqueViolation "agents_pkey"))
  | some agents => .ok { reg with
      agents := agents
      agents_name := reg.agents_name.insert hi fun b hb he => hn ⟨b, hb, he⟩
      agents_default := reg.agents_default.insert hi fun v hv =>
        Option.isSome_iff_ne_none.mpr fun hnone => hd ⟨v, hv, by rw [hnone]; rfl⟩
      versions_agent := reg.versions_agent.target (Table.isSome_insert hi)
      routes_agent := reg.routes_agent.target (Table.isSome_insert hi) }

/-- `INSERT INTO agent_versions`. -/
def insertVersion (reg : Registry) (v : AgentVersion) : Except RegistryError Registry :=
  match hc : v.violation with
  | some c => .error (.integrity (.checkViolation c))
  | none =>
    if hn : ∃ w ∈ reg.versions.rows, w.number = v.number then
      .error (.integrity (.uniqueViolation "uq_agent_versions_agent_version"))
    else if ha : (reg.agents.find? v.agentId).isSome = true then
      match hi : reg.versions.insert? v with
      | none => .error (.integrity (.uniqueViolation "agent_versions_pkey"))
      | some versions => .ok { reg with
          versions := versions
          agents_default := reg.agents_default.target (Table.isSome_insert hi)
          versions_number := reg.versions_number.insert hi fun w hw he => hn ⟨w, hw, he⟩
          versions_checked := by
            rw [Table.insert?_rows hi]
            simpa [or_imp, forall_and] using And.intro reg.versions_checked hc
          versions_agent := reg.versions_agent.insert hi fun _ hk => Option.some.inj hk ▸ ha
          grants_version := reg.grants_version.target (Table.isSome_insert hi) }
    else .error (.integrity (.foreignKeyViolation "agent_versions_agent_id_fkey"))

/-- `INSERT INTO tools`. -/
def insertTool (tenants : Table Tenant Tenant.id) (reg : Registry) (t : Tool) :
    Except RegistryError Registry :=
  if hn : ∃ u ∈ reg.tools.rows, u.tenantName = t.tenantName then
    .error (.integrity (.uniqueViolation "uq_tools_tenant_name"))
  else if (tenants.find? t.tenantId).isNone then
    .error (.integrity (.foreignKeyViolation "tools_tenant_id_fkey"))
  else match hi : reg.tools.insert? t with
  | none => .error (.integrity (.uniqueViolation "tools_pkey"))
  | some tools => .ok { reg with
      tools := tools
      tools_name := reg.tools_name.insert hi fun u hu he => hn ⟨u, hu, he⟩
      grants_tool := reg.grants_tool.target (Table.isSome_insert hi) }

/-- `INSERT INTO agent_version_tool_grants … ON CONFLICT DO NOTHING`. -/
def insertGrant (reg : Registry) (g : ToolGrant) : Except RegistryError Registry :=
  match hi : reg.grants.insert? g with
  | none => .ok reg
  | some grants =>
    if hv : (reg.versions.find? g.agentVersionId).isSome = true then
      if ht : (reg.tools.find? g.toolId).isSome = true then
        .ok { reg with
          grants := grants
          grants_version := reg.grants_version.insert hi fun _ hk => Option.some.inj hk ▸ hv
          grants_tool := reg.grants_tool.insert hi fun _ hk => Option.some.inj hk ▸ ht }
      else .error (.integrity (.foreignKeyViolation "agent_version_tool_grants_tool_id_fkey"))
    else .error (.integrity (.foreignKeyViolation "agent_version_tool_grants_agent_version_id_fkey"))

/-- `INSERT INTO agent_routes … ON CONFLICT DO UPDATE SET agent_id`. -/
def upsertRoute (tenants : Table Tenant Tenant.id) (reg : Registry) (r : AgentRoute) :
    Except RegistryError Registry :=
  if ha : (reg.agents.find? r.agentId).isSome = true then
    match hi : reg.routes.insert? r with
    | none => .ok { reg with
        routes := reg.routes.modify (fun s => s.key == r.key)
          (fun s => { s with agentId := r.agentId }) fun _ => rfl
        routes_agent := reg.routes_agent.modify fun _ _ _ _ hk => Option.some.inj hk ▸ ha }
    | some routes =>
      if (tenants.find? r.tenantId).isNone then
        .error (.integrity (.foreignKeyViolation "agent_routes_tenant_id_fkey"))
      else .ok { reg with
        routes := routes
        routes_agent := reg.routes_agent.insert hi fun _ hk => Option.some.inj hk ▸ ha }
  else .error (.integrity (.foreignKeyViolation "agent_routes_agent_id_fkey"))

/-! ## Updates and deletes -/

/-- `UPDATE agents SET f WHERE p RETURNING *`. -/
def updateAgents (reg : Registry) (p : Agent → Bool) (f : Agent → Agent)
    (hf : ∀ a, (f a).fixed = a.fixed) : Except RegistryError (Registry × List Agent) :=
  if hd : ∀ a ∈ reg.agents.rows, p a = true → ∀ v ∈ (f a).defaultVersionId,
      (reg.versions.find? v).isSome = true then
    .ok ({ reg with
      agents := reg.agents.modify p f fun a => congrArg Agent.Fixed.id (hf a)
      agents_name := reg.agents_name.modify fun a _ _ => Prod.ext
        (congrArg Agent.Fixed.tenantId (hf a)) (congrArg Agent.Fixed.name (hf a))
      agents_default := reg.agents_default.modify hd
      versions_agent := reg.versions_agent.target Table.isSome_modify
      routes_agent := reg.routes_agent.target Table.isSome_modify },
      reg.agents.modified p f)
  else .error (.integrity (.foreignKeyViolation "fk_agents_default_version"))

/-- `acp_agent_versions_immutable`, the trigger: the text of what it raises. -/
def immutableMessage (i : VersionId) : String :=
  "agent_versions are immutable; only status may change (version id " ++ toString i ++ ")"

/-- `UPDATE agent_versions SET f WHERE p RETURNING *`, through the trigger. -/
def updateVersions (reg : Registry) (p : AgentVersion → Bool) (f : AgentVersion → AgentVersion)
    (hf : ∀ v, (f v).id = v.id) : Except RegistryError (Registry × List AgentVersion) :=
  match hv : reg.versions.rows.find? fun v => p v && decide ((f v).fixed ≠ v.fixed) with
  | some v => .error (.restrictViolation (immutableMessage v.id))
  | none =>
    have hfixed : ∀ v ∈ reg.versions.rows, p v = true → (f v).fixed = v.fixed := fun v hv' hp => by
      simpa [hp] using List.find?_eq_none.mp hv v hv'
    .ok ({ reg with
      versions := reg.versions.modify p f hf
      agents_default := reg.agents_default.target Table.isSome_modify
      versions_number := reg.versions_number.modify fun v hv hp => Prod.ext
        (congrArg AgentVersion.Fixed.agentId (hfixed v hv hp))
        (congrArg AgentVersion.Fixed.version (hfixed v hv hp))
      versions_checked := by
        intro w hw
        obtain ⟨v, hv, rfl⟩ := Table.mem_modify.mp hw
        have hold := reg.versions_checked v hv
        split
        · rename_i hp
          simpa [AgentVersion.violation, AgentVersion.constraints,
            show (f v).version = v.version from congrArg AgentVersion.Fixed.version (hfixed v hv hp),
            show (f v).maxAttempts = v.maxAttempts from
              congrArg AgentVersion.Fixed.maxAttempts (hfixed v hv hp),
            show (f v).maxExecutionTimeS = v.maxExecutionTimeS from
              congrArg AgentVersion.Fixed.maxExecutionTimeS (hfixed v hv hp)] using hold
        · exact hold
      versions_agent := reg.versions_agent.modify fun v hv hp k hk =>
        reg.versions_agent v hv k
          ((congrArg (fun w => some w.agentId) (hfixed v hv hp)).symm.trans hk)
      grants_version := reg.grants_version.target Table.isSome_modify },
      reg.versions.modified p f)

/-- `UPDATE tools SET f WHERE p RETURNING *`. -/
def updateTools (reg : Registry) (p : Tool → Bool) (f : Tool → Tool)
    (hf : ∀ t, (f t).id = t.id ∧ (f t).tenantName = t.tenantName) : Registry × List Tool :=
  ({ reg with
    tools := reg.tools.modify p f fun t => (hf t).1
    tools_name := reg.tools_name.modify fun t _ _ => (hf t).2
    grants_tool := reg.grants_tool.target Table.isSome_modify },
    reg.tools.modified p f)

/-- `DELETE FROM agent_version_tool_grants WHERE p`. -/
def deleteGrants (reg : Registry) (p : ToolGrant → Bool) : Registry × Nat :=
  ({ reg with
    grants := reg.grants.delete p
    grants_version := reg.grants_version.delete
    grants_tool := reg.grants_tool.delete },
    (reg.grants.rows.filter p).length)

end Registry

end ControlPlane
