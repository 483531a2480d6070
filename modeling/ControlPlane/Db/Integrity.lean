import ControlPlane.Db.Agents
import ControlPlane.Db.Tools

/-! # What the registry's statements keep

No statement removes an agent, a version or a tool or changes what identifies
it, so what is known of one of them stays true (`Registry.Keeps`). Between the
tables holds more than their foreign keys say: a route stays in its tenant, a
default is a version of its own agent and a grant stays in one tenant
(`Registry.Integrity`). Each statement keeps this, the three that write such an
edge if its ends are as they should be. -/

namespace ControlPlane
open Keyed Fallible

/-! ## What each statement writes -/

section Statements

variable {tenants : Table Tenant Tenant.id} {reg reg' : Registry}

theorem insertAgent_ok {a : Agent} (h : reg.insertAgent tenants a = .ok reg') :
    reg.agents.insert? a = some reg'.agents ∧ reg'.versions = reg.versions ∧
      reg'.routes = reg.routes ∧ reg'.tools = reg.tools ∧ reg'.grants = reg.grants := by
  unfold Registry.insertAgent at h
  split at h
  · cases h
  split at h
  · cases h
  split at h
  · cases h
  split at h
  · cases h
  · rename_i agents hi
    cases h
    exact ⟨hi, rfl, rfl, rfl, rfl⟩

theorem insertVersion_ok {v : AgentVersion} (h : reg.insertVersion v = .ok reg') :
    reg.versions.insert? v = some reg'.versions ∧ reg'.agents = reg.agents ∧
      reg'.routes = reg.routes ∧ reg'.tools = reg.tools ∧ reg'.grants = reg.grants := by
  unfold Registry.insertVersion at h
  split at h
  · cases h
  split at h
  · cases h
  split at h
  · split at h
    · cases h
    · rename_i versions hi
      cases h
      exact ⟨hi, rfl, rfl, rfl, rfl⟩
  · cases h

theorem insertTool_ok {t : Tool} (h : reg.insertTool tenants t = .ok reg') :
    reg.tools.insert? t = some reg'.tools ∧ reg'.agents = reg.agents ∧
      reg'.versions = reg.versions ∧ reg'.routes = reg.routes ∧ reg'.grants = reg.grants := by
  unfold Registry.insertTool at h
  split at h
  · cases h
  split at h
  · cases h
  split at h
  · cases h
  · rename_i tools hi
    cases h
    exact ⟨hi, rfl, rfl, rfl, rfl⟩

/-- A grant that is there already is left alone. -/
theorem insertGrant_ok {g : ToolGrant} (h : reg.insertGrant g = .ok reg') :
    reg' = reg ∧ (reg.grants.find? g.key).isSome = true ∨
      reg.grants.insert? g = some reg'.grants ∧ reg'.agents = reg.agents ∧
        reg'.versions = reg.versions ∧ reg'.routes = reg.routes ∧ reg'.tools = reg.tools := by
  unfold Registry.insertGrant at h
  split at h
  · rename_i hi
    cases h
    exact Or.inl ⟨rfl, Table.insert?_eq_none.mp hi⟩
  · rename_i grants hi
    split at h
    · split at h
      · cases h
        exact Or.inr ⟨hi, rfl, rfl, rfl, rfl⟩
      · cases h
    · cases h

/-- A grant between a version and a tool that exist does not raise. -/
theorem insertGrant_returns {g : ToolGrant} (hv : (reg.version? g.agentVersionId).isSome = true)
    (ht : (reg.tool? g.toolId).isSome = true) : ∃ reg', reg.insertGrant g = .ok reg' := by
  unfold Registry.insertGrant
  split
  · exact ⟨_, rfl⟩
  · rw [dif_pos (show (reg.versions.find? g.agentVersionId).isSome = true from hv),
      dif_pos (show (reg.tools.find? g.toolId).isSome = true from ht)]
    exact ⟨_, rfl⟩

/-- A route afterwards is one of before, or leads from the tenant to the agent
of this one. -/
theorem upsertRoute_ok {r : AgentRoute} (h : reg.upsertRoute tenants r = .ok reg') :
    (∀ s ∈ reg'.routes.rows, s ∈ reg.routes.rows ∨ s.tenantId = r.tenantId ∧ s.agentId = r.agentId) ∧
      reg'.agents = reg.agents ∧ reg'.versions = reg.versions ∧ reg'.tools = reg.tools ∧
      reg'.grants = reg.grants := by
  unfold Registry.upsertRoute at h
  split at h
  · split at h
    · cases h
      refine ⟨fun s hs => ?_, rfl, rfl, rfl, rfl⟩
      dsimp only at hs
      obtain ⟨q, hq, rfl⟩ := Table.mem_modify.mp hs
      split
      · rename_i hkey
        exact Or.inr ⟨congrArg Prod.fst (beq_iff_eq.mp hkey), rfl⟩
      · exact Or.inl hq
    · rename_i routes hi
      split at h
      · cases h
      · cases h
        refine ⟨fun s hs => ?_, rfl, rfl, rfl, rfl⟩
        rw [Table.insert?_rows hi, List.mem_append, List.mem_singleton] at hs
        rcases hs with hs | rfl
        · exact Or.inl hs
        · exact Or.inr ⟨rfl, rfl⟩
  · cases h

theorem updateAgents_ok {p : Agent → Bool} {f : Agent → Agent} {hf : ∀ a, (f a).fixed = a.fixed}
    {rows : List Agent} (h : reg.updateAgents p f hf = .ok (reg', rows)) :
    reg'.agents = reg.agents.modify p f (fun a => congrArg Agent.Fixed.id (hf a)) ∧
      rows = reg.agents.modified p f ∧ reg'.versions = reg.versions ∧ reg'.routes = reg.routes ∧
      reg'.tools = reg.tools ∧ reg'.grants = reg.grants := by
  unfold Registry.updateAgents at h
  split at h
  · cases h
    exact ⟨rfl, rfl, rfl, rfl, rfl, rfl⟩
  · cases h

/-- What the trigger let through changed no column it protects. -/
theorem updateVersions_ok {p : AgentVersion → Bool} {f : AgentVersion → AgentVersion}
    {hf : ∀ v, (f v).id = v.id} {rows : List AgentVersion}
    (h : reg.updateVersions p f hf = .ok (reg', rows)) :
    reg'.versions = reg.versions.modify p f hf ∧
      (∀ v ∈ reg.versions.rows, p v = true → (f v).fixed = v.fixed) ∧
      rows = reg.versions.modified p f ∧ reg'.agents = reg.agents ∧ reg'.routes = reg.routes ∧
      reg'.tools = reg.tools ∧ reg'.grants = reg.grants := by
  unfold Registry.updateVersions at h
  split at h
  · cases h
  · rename_i hnone
    cases h
    refine ⟨rfl, fun v hv hp => ?_, rfl, rfl, rfl, rfl, rfl⟩
    simpa [hp] using List.find?_eq_none.mp hnone v hv

end Statements

/-! ## What stays -/

/-- No agent, version or tool goes, and what identifies it stays. -/
structure Registry.Keeps (reg reg' : Registry) : Prop where
  agents : Table.Keeps Agent.fixed reg.agents reg'.agents
  versions : Table.Keeps AgentVersion.fixed reg.versions reg'.versions
  tools : Table.Keeps Tool.tenantName reg.tools reg'.tools

namespace Registry

def agentTenant (reg : Registry) (i : AgentId) : Option TenantId :=
  (reg.agent? i).map Agent.tenantId

def versionAgent (reg : Registry) (v : VersionId) : Option AgentId :=
  (reg.version? v).map AgentVersion.agentId

def versionTenant (reg : Registry) (v : VersionId) : Option TenantId :=
  (reg.versionAgent v).bind reg.agentTenant

def toolTenant (reg : Registry) (t : ToolId) : Option TenantId :=
  (reg.tool? t).map Tool.tenantId

namespace Keeps

variable {reg reg' reg'' : Registry}

theorem refl (reg : Registry) : reg.Keeps reg := ⟨.refl _, .refl _, .refl _⟩

theorem trans (h : reg.Keeps reg') (h' : reg'.Keeps reg'') : reg.Keeps reg'' :=
  ⟨h.agents.trans h'.agents, h.versions.trans h'.versions, h.tools.trans h'.tools⟩

theorem of_eq (ha : reg'.agents = reg.agents) (hv : reg'.versions = reg.versions)
    (ht : reg'.tools = reg.tools) : reg.Keeps reg' := by
  constructor
  · rw [ha]
    exact .refl _
  · rw [hv]
    exact .refl _
  · rw [ht]
    exact .refl _

theorem agentTenant {i : AgentId} {tn : TenantId} (h : reg.Keeps reg')
    (hi : reg.agentTenant i = some tn) : reg'.agentTenant i = some tn :=
  h.agents.column Agent.Fixed.tenantId hi

theorem versionAgent {v : VersionId} {a : AgentId} (h : reg.Keeps reg')
    (hv : reg.versionAgent v = some a) : reg'.versionAgent v = some a :=
  h.versions.column AgentVersion.Fixed.agentId hv

theorem versionTenant {v : VersionId} {tn : TenantId} (h : reg.Keeps reg')
    (hv : reg.versionTenant v = some tn) : reg'.versionTenant v = some tn := by
  obtain ⟨a, ha, htn⟩ := Option.bind_eq_some_iff.mp hv
  exact Option.bind_eq_some_iff.mpr ⟨a, h.versionAgent ha, h.agentTenant htn⟩

theorem toolTenant {t : ToolId} {tn : TenantId} (h : reg.Keeps reg')
    (ht : reg.toolTenant t = some tn) : reg'.toolTenant t = some tn :=
  h.tools.column Prod.fst ht

theorem version {v : VersionId} {f : AgentVersion.Fixed} (h : reg.Keeps reg')
    (hv : (reg.version? v).map AgentVersion.fixed = some f) :
    (reg'.version? v).map AgentVersion.fixed = some f :=
  h.versions v f hv

end Keeps

/-- What holds between the rows of the registry. -/
structure Integrity (reg : Registry) : Prop where
  routes : ∀ r ∈ reg.routes.rows, reg.agentTenant r.agentId = some r.tenantId
  defaults : ∀ a ∈ reg.agents.rows, ∀ v, a.defaultVersionId = some v →
    reg.versionAgent v = some a.id
  grants : ∀ g ∈ reg.grants.rows, ∃ tn, reg.versionTenant g.agentVersionId = some tn ∧
    reg.toolTenant g.toolId = some tn

theorem Integrity.empty : Registry.empty.Integrity := by
  constructor <;> simp [Registry.empty, Table.empty]

/-- The rows of a table that was not written were there. -/
theorem rows_of_eq {ρ κ : Type} {key : ρ → κ} {t t' : Table ρ key} {Q : ρ → Prop} (h : t' = t) :
    ∀ r ∈ t'.rows, r ∈ t.rows ∨ Q r := by
  intro r hr
  rw [h] at hr
  exact Or.inl hr

theorem defaults_of_eq {agents agents' : Table Agent Agent.id} {Q : Agent → VersionId → Prop}
    (h : agents' = agents) : ∀ a ∈ agents'.rows, ∀ v, a.defaultVersionId = some v →
      (∃ b ∈ agents.rows, b.id = a.id ∧ b.defaultVersionId = some v) ∨ Q a v := by
  intro a ha v hv
  rw [h] at ha
  exact Or.inl ⟨a, ha, rfl, hv⟩

/-- Rows that were there, or have the right ends, keep the integrity while
nothing they refer to goes. -/
theorem Integrity.transfer {reg reg' : Registry} (h : reg.Integrity) (hk : reg.Keeps reg')
    (hroutes : ∀ r ∈ reg'.routes.rows, r ∈ reg.routes.rows ∨
      reg.agentTenant r.agentId = some r.tenantId)
    (hdefaults : ∀ a ∈ reg'.agents.rows, ∀ v, a.defaultVersionId = some v →
      (∃ b ∈ reg.agents.rows, b.id = a.id ∧ b.defaultVersionId = some v) ∨
        reg.versionAgent v = some a.id)
    (hgrants : ∀ g ∈ reg'.grants.rows, g ∈ reg.grants.rows ∨
      ∃ tn, reg.versionTenant g.agentVersionId = some tn ∧ reg.toolTenant g.toolId = some tn) :
    reg'.Integrity := by
  constructor
  · intro r hr
    rcases hroutes r hr with hold | hnew
    · exact hk.agentTenant (h.routes r hold)
    · exact hk.agentTenant hnew
  · intro a ha v hv
    rcases hdefaults a ha v hv with ⟨b, hb, hid, hbv⟩ | hnew
    · exact hk.versionAgent (hid ▸ h.defaults b hb v hbv)
    · exact hk.versionAgent hnew
  · intro g hg
    have hold : ∃ tn, reg.versionTenant g.agentVersionId = some tn ∧
        reg.toolTenant g.toolId = some tn := by
      rcases hgrants g hg with hold | hnew
      · exact h.grants g hold
      · exact hnew
    obtain ⟨tn, hv, ht⟩ := hold
    exact ⟨tn, hk.versionTenant hv, hk.toolTenant ht⟩

end Registry

end ControlPlane
