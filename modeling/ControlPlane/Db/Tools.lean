import ControlPlane.Db.Registry

/-! # Tool registry, grants, and the claim-time policy snapshot

The snapshot reads the versions of a batch of claimed tasks, the whole tool
namespace of every tenant they belong to and all their grants, and hands each
version its own share. What a version gets is a function of the version alone,
whatever else is in the batch (`snapshotPolicies_lookup`). -/

namespace ControlPlane
open Keyed Fallible Grouping

def createTool (tenants : Table Tenant Tenant.id) (reg : Registry) (row : Tool) :
    Except RegistryError (Registry × Tool) :=
  (reg.insertTool tenants row).map fun reg => (reg, row)

def setToolStatus (reg : Registry) (toolId : ToolId) (status : ToolStatus) : Registry × Option Tool :=
  let (reg, rows) := reg.updateTools (fun t => t.id == toolId) (fun t => { t with status := status })
    fun _ => ⟨rfl, rfl⟩
  (reg, rows.head?)

def grantTool (reg : Registry) (now : Time) (agentVersionId : VersionId) (toolId : ToolId) :
    Except RegistryError Registry :=
  reg.insertGrant ⟨agentVersionId, toolId, now⟩

def revokeGrant (reg : Registry) (agentVersionId : VersionId) (toolId : ToolId) : Registry × Bool :=
  let (reg, rowcount) := reg.deleteGrants fun g =>
    g.agentVersionId == agentVersionId && g.toolId == toolId
  (reg, decide (0 < rowcount))

/-! ## The snapshot -/

def Tool.ref (t : Tool) : ToolRef where
  id := t.id
  name := t.name
  toolType := t.toolType
  status := t.status
  config := t.config

/-- A row of `agent_versions JOIN agents`. -/
structure VersionRow where
  id : VersionId
  status : VersionStatus
  tenantId : TenantId

def Registry.versionRow (reg : Registry) (v : AgentVersion) : Option VersionRow :=
  (reg.agent? v.agentId).map fun a => ⟨v.id, v.status, a.tenantId⟩

/-- A tenant's tools by name, and every tenant's. -/
def indexTools (rows : List Tool) (d : Dict String ToolRef) : Dict String ToolRef :=
  index Tool.name Tool.ref rows d

def groupTools (rows : List Tool) : Dict TenantId (Dict String ToolRef) :=
  group Tool.tenantId ∅ (fun d t => d.insert t.name t.ref) rows ∅

def groupGrants (rows : List ToolGrant) : Dict VersionId (Finset ToolId) :=
  group ToolGrant.agentVersionId ∅ (fun s g => insert g.toolId s) rows ∅

def snapshotPolicies (reg : Registry) (agentVersionIds : List (Option VersionId)) :
    Dict VersionId ToolPolicy :=
  let uniqueIds := agentVersionIds.eraseDups.filterMap id
  if uniqueIds = [] then ∅
  else
    let versionRows := (reg.versions.rows.filter fun v => uniqueIds.contains v.id).filterMap
      reg.versionRow
    if versionRows.isEmpty then ∅
    else
      let tenantIds := versionRows.map VersionRow.tenantId
      let toolRows := reg.tools.rows.filter fun t => tenantIds.contains t.tenantId
      let grantRows := reg.grants.rows.filter fun g => uniqueIds.contains g.agentVersionId
      let toolsByTenant := groupTools toolRows
      let granted := groupGrants grantRows
      index VersionRow.id (fun row =>
        { agentVersionId := some row.id
          grantedToolIds := (granted.lookup row.id).getD ∅
          toolsByName := (toolsByTenant.lookup row.tenantId).getD ∅
          versionDisabled := row.status == .disabled }) versionRows ∅

/-- What one version may do: nothing of another tenant or version is in it. -/
def Registry.policyOf (reg : Registry) (row : VersionRow) : ToolPolicy where
  agentVersionId := some row.id
  grantedToolIds :=
    (reg.grants.rows.filter fun g => g.agentVersionId = row.id).foldl (fun s g => insert g.toolId s) ∅
  toolsByName := indexTools (reg.tools.rows.filter fun t => t.tenantId = row.tenantId) ∅
  versionDisabled := row.status == .disabled

theorem mem_foldl_insert {x : ToolId} (rows : List ToolGrant) (s : Finset ToolId) :
    x ∈ rows.foldl (fun s g => insert g.toolId s) s ↔ x ∈ s ∨ ∃ g ∈ rows, g.toolId = x := by
  induction rows generalizing s with
  | nil => simp
  | cons g rows ih =>
    rw [List.foldl_cons, ih]
    simp only [Finset.mem_insert, List.mem_cons, exists_eq_or_imp, eq_comm (a := x)]
    tauto

theorem mem_policyOf_granted {reg : Registry} {row : VersionRow} {x : ToolId} :
    x ∈ (reg.policyOf row).grantedToolIds ↔ reg.granted row.id x = true := by
  unfold Registry.policyOf Registry.granted
  rw [mem_foldl_insert]
  simp only [Finset.notMem_empty, List.mem_filter, decide_eq_true_eq, false_or,
    Option.isSome_iff_exists, Table.find?_eq_some, ToolGrant.key, Prod.mk.injEq]
  constructor
  · rintro ⟨g, ⟨hg, hv⟩, hx⟩
    exact ⟨g, hg, hv, hx⟩
  · rintro ⟨g, hg, hv, hx⟩
    exact ⟨g, ⟨hg, hv⟩, hx⟩

/-- Under a name stands the tenant's tool of that name. -/
theorem lookup_policyOf_tools {reg : Registry} {row : VersionRow} {name : String} {tool : ToolRef} :
    (reg.policyOf row).toolsByName.lookup name = some tool ↔
      ∃ t ∈ reg.tools.rows, t.tenantId = row.tenantId ∧ t.name = name ∧ t.ref = tool := by
  show (index Tool.name Tool.ref _ ∅).lookup name = some tool ↔ _
  by_cases hin : ∃ t ∈ reg.tools.rows, t.tenantId = row.tenantId ∧ t.name = name
  · obtain ⟨t, ht, htenant, rfl⟩ := hin
    have hmem : t ∈ reg.tools.rows.filter fun u => u.tenantId = row.tenantId :=
      List.mem_filter.mpr ⟨ht, by simpa using htenant⟩
    have honly : ∀ u ∈ reg.tools.rows, u.tenantId = row.tenantId → u.name = t.name → u = t := by
      intro u hu hut hun
      exact reg.tools_name.eq hu ht (Prod.ext (hut.trans htenant.symm) hun)
    rw [lookup_index ∅ hmem]
    · constructor
      · intro h
        exact ⟨t, ht, htenant, rfl, Option.some.inj h⟩
      · rintro ⟨u, hu, hut, hun, rfl⟩
        rw [honly u hu hut hun]
    · intro u hu hun
      obtain ⟨hu, hut⟩ := List.mem_filter.mp hu
      rw [honly u hu (by simpa using hut) hun]
  · rw [lookup_index_absent]
    · constructor
      · intro h
        cases h
      · rintro ⟨t, ht, htenant, hname, -⟩
        exact absurd ⟨t, ht, htenant, hname⟩ hin
    · intro t ht hname
      obtain ⟨ht, htenant⟩ := List.mem_filter.mp ht
      exact hin ⟨t, ht, by simpa using htenant, hname⟩

theorem versionRow_id {reg : Registry} {v : AgentVersion} {row : VersionRow}
    (h : reg.versionRow v = some row) : row.id = v.id := by
  unfold Registry.versionRow at h
  obtain ⟨a, -, rfl⟩ := Option.map_eq_some_iff.mp h
  rfl

/-- The rows of the join are those of the batch's versions. -/
theorem mem_versionRows {reg : Registry} {uniqueIds : List VersionId} {row : VersionRow} :
    row ∈ (reg.versions.rows.filter fun v => uniqueIds.contains v.id).filterMap reg.versionRow ↔
      row.id ∈ uniqueIds ∧ (reg.version? row.id).bind reg.versionRow = some row := by
  simp only [List.mem_filterMap, List.mem_filter, List.contains_eq_mem, decide_eq_true_eq,
    Option.bind_eq_some_iff]
  constructor
  · rintro ⟨v, ⟨hv, hin⟩, hrow⟩
    rw [versionRow_id hrow]
    exact ⟨hin, v, Table.find?_key hv, hrow⟩
  · rintro ⟨hin, v, hv, hrow⟩
    exact ⟨v, ⟨Table.mem_of_find? hv, versionRow_id hrow ▸ hin⟩, hrow⟩

/-- Grouping the whole batch's rows leaves a version what its own rows leave. -/
theorem snapshot_policy (reg : Registry) {uniqueIds : List VersionId} {tenantIds : List TenantId}
    {row : VersionRow} (hid : row.id ∈ uniqueIds) (htenant : row.tenantId ∈ tenantIds) :
    ({ agentVersionId := some row.id
       grantedToolIds := ((groupGrants (reg.grants.rows.filter fun g =>
         uniqueIds.contains g.agentVersionId)).lookup row.id).getD ∅
       toolsByName := ((groupTools (reg.tools.rows.filter fun t =>
         tenantIds.contains t.tenantId)).lookup row.tenantId).getD ∅
       versionDisabled := row.status == .disabled } : ToolPolicy) = reg.policyOf row := by
  have hgrants : ((reg.grants.rows.filter fun g => uniqueIds.contains g.agentVersionId).filter
      fun g => g.agentVersionId = row.id) =
      reg.grants.rows.filter fun g => g.agentVersionId = row.id := by
    rw [List.filter_filter]
    refine List.filter_congr fun g _ => ?_
    by_cases hg : g.agentVersionId = row.id <;> simp [hg, hid]
  have htools : ((reg.tools.rows.filter fun t => tenantIds.contains t.tenantId).filter
      fun t => t.tenantId = row.tenantId) =
      reg.tools.rows.filter fun t => t.tenantId = row.tenantId := by
    rw [List.filter_filter]
    refine List.filter_congr fun t _ => ?_
    by_cases ht : t.tenantId = row.tenantId <;> simp [ht, htenant]
  unfold groupGrants groupTools
  rw [lookup_group, lookup_group, hgrants, htools]
  rfl

/-- **The snapshot gives each version of the batch its own policy**, and no other
id one. -/
theorem snapshotPolicies_lookup (reg : Registry) (agentVersionIds : List (Option VersionId))
    (v : VersionId) : (snapshotPolicies reg agentVersionIds).lookup v =
      if some v ∈ agentVersionIds then
        ((reg.version? v).bind reg.versionRow).map reg.policyOf
      else none := by
  unfold snapshotPolicies
  dsimp only
  generalize huniq : agentVersionIds.eraseDups.filterMap id = uniqueIds
  have hmem : v ∈ uniqueIds ↔ some v ∈ agentVersionIds := by
    rw [← huniq]
    simp [List.mem_eraseDups]
  rw [← if_congr hmem rfl rfl]
  split
  · rename_i hnil
    simp [hnil]
  split
  · -- no version of the batch exists
    rename_i hnil
    rw [List.isEmpty_iff] at hnil
    split
    · rename_i hin
      cases hrow : (reg.version? v).bind reg.versionRow with
      | none => rfl
      | some row =>
        obtain ⟨w, hw, hwrow⟩ := Option.bind_eq_some_iff.mp hrow
        obtain rfl : row.id = v := (versionRow_id hwrow).trans (Table.key_of_find? hw)
        have hrows := mem_versionRows.mpr ⟨hin, hrow⟩
        rw [hnil] at hrows
        cases hrows
    · rfl
  · cases hrow : if v ∈ uniqueIds then (reg.version? v).bind reg.versionRow else none with
    | none =>
      rw [lookup_index_absent]
      · split at hrow
        · rename_i hin
          rw [if_pos hin, hrow]
          rfl
        · rename_i hin
          rw [if_neg hin]
          rfl
      · rintro row hin rfl
        obtain ⟨hid, hv⟩ := mem_versionRows.mp hin
        rw [if_pos hid, hv] at hrow
        cases hrow
    | some row =>
      split at hrow
      · rename_i hin
        obtain ⟨w, hw, hwrow⟩ := Option.bind_eq_some_iff.mp hrow
        obtain rfl : row.id = v := (versionRow_id hwrow).trans (Table.key_of_find? hw)
        have hrows := mem_versionRows.mpr ⟨hin, hrow⟩
        rw [lookup_index ∅ hrows, if_pos hin, hrow, snapshot_policy reg hin
          (List.mem_map_of_mem hrows)]
        · rfl
        · intro u hu hk
          obtain ⟨-, hv⟩ := mem_versionRows.mp hu
          rw [hk, hrow] at hv
          rw [Option.some.inj hv]
      · cases hrow

end ControlPlane
