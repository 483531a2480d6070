import ControlPlane.Db.Integrity
import ControlPlane.Server.RegistryApi

/-! # What the endpoints commit

For the writes of each endpoint, what they leave of the registry: nothing that
identifies a row goes, versions are numbered under their agent, grants are
touched by the two endpoints for them, and the integrity stays where the ends of
a new edge are as they should be. The task queries leave the registry alone. -/

namespace ControlPlane
open Keyed Fallible Transactions

/-- A write to the registry that creates versions of these agents only and
changes the grants of these versions only. -/
structure RegistryWrite (numbered : AgentId → Prop) (regranted : VersionId → Prop)
    (reg reg' : Registry) : Prop where
  keeps : reg.Keeps reg'
  versions : ∀ v w, reg'.version? v = some w → reg.version? v = none → numbered w.agentId
  grants : ∀ v, ¬ regranted v → ∀ t, reg'.granted v t = reg.granted v t

/-- A write that creates no version and leaves the grants. -/
abbrev PlainWrite : Registry → Registry → Prop := RegistryWrite (fun _ => False) fun _ => False

namespace RegistryWrite

variable {numbered : AgentId → Prop} {regranted : VersionId → Prop} {reg reg' reg'' : Registry}

theorem refl (reg : Registry) : RegistryWrite numbered regranted reg reg :=
  ⟨.refl reg, fun _ _ h h' => (by rw [h] at h'; cases h'), fun _ _ _ => rfl⟩

theorem trans (h : RegistryWrite numbered regranted reg reg') (h' : PlainWrite reg' reg'') :
    RegistryWrite numbered regranted reg reg'' := by
  refine ⟨h.keeps.trans h'.keeps, fun v w hv hnone => ?_, fun v hv t => ?_⟩
  · cases hmid : reg'.version? v with
    | none => exact (h'.versions v w hv hmid).elim
    | some u =>
      have hfixed := h'.keeps.version (v := v) (f := u.fixed) (by rw [hmid]; rfl)
      rw [hv, Option.map_some, Option.some.injEq] at hfixed
      have hagent : w.agentId = u.agentId := congrArg AgentVersion.Fixed.agentId hfixed
      rw [hagent]
      exact h.versions v u hmid hnone
  · rw [h'.grants v id t, h.grants v hv t]

theorem of_versions (hk : reg.Keeps reg') (hv : reg'.versions = reg.versions)
    (hg : ∀ v, ¬ regranted v → ∀ t, reg'.granted v t = reg.granted v t) :
    RegistryWrite numbered regranted reg reg' := by
  refine ⟨hk, fun v w hw hnone => ?_, hg⟩
  rw [show reg'.version? v = reg.version? v by unfold Registry.version?; rw [hv], hnone] at hw
  cases hw

/-- The tables of versions and grants as they were. -/
theorem of_eq (hk : reg.Keeps reg') (hv : reg'.versions = reg.versions)
    (hg : reg'.grants = reg.grants) : RegistryWrite numbered regranted reg reg' :=
  of_versions hk hv fun v _ t => by
    unfold Registry.granted
    rw [hg]

end RegistryWrite

/-! ## Statements -/

section Statements

variable {reg reg' : Registry}

theorem createAgent_ok {tenants : Table Tenant Tenant.id} {row row' : Agent}
    (hdefault : row.defaultVersionId = none) (h : createAgent tenants reg row = .ok (reg', row')) :
    PlainWrite reg reg' ∧ (reg.Integrity → reg'.Integrity) := by
  unfold createAgent at h
  obtain ⟨reg₁, hins, he⟩ := map_ok h
  cases he
  obtain ⟨hi, hv, hr, ht, hg⟩ := insertAgent_ok hins
  have hk : reg.Keeps reg' :=
    ⟨.insert hi, by rw [hv]; exact .refl _, by rw [ht]; exact .refl _⟩
  refine ⟨.of_eq hk hv hg, fun hint => hint.transfer hk ?_ ?_ ?_⟩
  · exact Registry.rows_of_eq hr
  · intro a ha v hav
    rw [Table.insert?_rows hi, List.mem_append, List.mem_singleton] at ha
    rcases ha with ha | rfl
    · exact Or.inl ⟨a, ha, rfl, hav⟩
    · rw [hdefault] at hav
      cases hav
  · exact Registry.rows_of_eq hg

theorem createVersion_ok {row row' : AgentVersion} (h : createVersion reg row = .ok (reg', row')) :
    RegistryWrite (fun a => a = row.agentId) (fun _ => False) reg reg' ∧
      (reg.Integrity → reg'.Integrity) := by
  unfold createVersion at h
  obtain ⟨reg₁, hins, he⟩ := map_ok h
  cases he
  obtain ⟨hi, ha, hr, ht, hg⟩ := insertVersion_ok hins
  have hk : reg.Keeps reg' :=
    ⟨by rw [ha]; exact .refl _, .insert hi, by rw [ht]; exact .refl _⟩
  refine ⟨⟨hk, fun v w hw hnone => ?_, fun v _ t => ?_⟩, fun hint => hint.transfer hk ?_ ?_ ?_⟩
  · have hfind : reg'.version? v = if row.id = v then some row else reg.version? v :=
      Table.find?_insert? hi v
    rw [hfind, hnone] at hw
    split at hw
    · cases hw
      rfl
    · cases hw
  · unfold Registry.granted
    rw [hg]
  · exact Registry.rows_of_eq hr
  · exact Registry.defaults_of_eq ha
  · exact Registry.rows_of_eq hg

/-- An `UPDATE agents` that sets no default, or one that belongs to the agents
it is set for. -/
theorem updateAgents_write {p : Agent → Bool} {f : Agent → Agent} {hf : ∀ a, (f a).fixed = a.fixed}
    {rows : List Agent} (h : reg.updateAgents p f hf = .ok (reg', rows)) :
    PlainWrite reg reg' ∧ (reg.Integrity →
      (∀ a ∈ reg.agents.rows, p a = true → ∀ v, (f a).defaultVersionId = some v →
        a.defaultVersionId = some v ∨ reg.versionAgent v = some a.id) → reg'.Integrity) := by
  obtain ⟨ha, -, hv, hr, ht, hg⟩ := updateAgents_ok h
  have hk : reg.Keeps reg' := by
    refine ⟨?_, by rw [hv]; exact .refl _, by rw [ht]; exact .refl _⟩
    rw [ha]
    exact .modify fun a _ _ => hf a
  refine ⟨.of_eq hk hv hg, fun hint hdefault => hint.transfer hk ?_ ?_ ?_⟩
  · exact Registry.rows_of_eq hr
  · intro a ha' v hav
    rw [ha] at ha'
    obtain ⟨b, hb, rfl⟩ := Table.mem_modify.mp ha'
    split at hav
    · rename_i hp
      rw [if_pos hp, show (f b).id = b.id from congrArg Agent.Fixed.id (hf b)]
      exact (hdefault b hb hp v hav).imp_left fun hold => ⟨b, hb, rfl, hold⟩
    · rename_i hp
      rw [if_neg hp]
      exact Or.inl ⟨b, hb, rfl, hav⟩
  · exact Registry.rows_of_eq hg

theorem setAgentStatus_ok {now : Time} {i : AgentId} {status : AgentStatus} {row : Option Agent}
    (h : setAgentStatus reg now i status = .ok (reg', row)) :
    PlainWrite reg reg' ∧ (reg.Integrity → reg'.Integrity) := by
  obtain ⟨rows, hup, -⟩ := mapSnd_ok h
  obtain ⟨hwrite, hint⟩ := updateAgents_write hup
  exact ⟨hwrite, fun hi => hint hi fun a _ _ v hv => Or.inl hv⟩

theorem setDefaultVersion_ok {now : Time} {i : AgentId} {v : VersionId} {expected : ExpectedDefault}
    {row : Option Agent} (h : setDefaultVersion reg now i v expected = .ok (reg', row)) :
    PlainWrite reg reg' ∧ (reg.Integrity → reg.versionAgent v = some i → reg'.Integrity) := by
  obtain ⟨rows, hup, -⟩ := mapSnd_ok h
  obtain ⟨hwrite, hint⟩ := updateAgents_write hup
  refine ⟨hwrite, fun hi hown => hint hi fun a _ hp w hw => Or.inr ?_⟩
  obtain rfl := Option.some.inj hw
  simp only [activates, Bool.and_eq_true, beq_iff_eq] at hp
  rw [hown, hp.1]

/-- The status of one version changes, and no other column of any. -/
theorem setVersionStatus_version {v : VersionId} {status : VersionStatus}
    {row : Option AgentVersion} (h : setVersionStatus reg v status = .ok (reg', row))
    (w : VersionId) : reg'.version? w = (reg.version? w).map fun x =>
      if (x.id == v) = true then { x with status := status } else x := by
  obtain ⟨rows, hup, -⟩ := mapSnd_ok h
  unfold Registry.version?
  rw [(updateVersions_ok hup).1, Table.find?_modify]

theorem setVersionStatus_ok {v : VersionId} {status : VersionStatus} {row : Option AgentVersion}
    (h : setVersionStatus reg v status = .ok (reg', row)) :
    PlainWrite reg reg' ∧ (reg.Integrity → reg'.Integrity) := by
  obtain ⟨rows, hup, -⟩ := mapSnd_ok h
  obtain ⟨hv, hfixed, -, ha, hr, ht, hg⟩ := updateVersions_ok hup
  have hk : reg.Keeps reg' := by
    refine ⟨by rw [ha]; exact .refl _, ?_, by rw [ht]; exact .refl _⟩
    rw [hv]
    exact .modify hfixed
  refine ⟨⟨hk, fun w u hw hnone => ?_, fun w _ t => ?_⟩, fun hint => hint.transfer hk ?_ ?_ ?_⟩
  · rw [setVersionStatus_version h w, hnone] at hw
    cases hw
  · unfold Registry.granted
    rw [hg]
  · exact Registry.rows_of_eq hr
  · exact Registry.defaults_of_eq ha
  · exact Registry.rows_of_eq hg

theorem setVersionStatuses_ok {status : VersionStatus} {versions : List VersionId}
    {reg reg' : Registry} (h : setVersionStatuses reg status versions = .ok reg') :
    PlainWrite reg reg' ∧ (reg.Integrity → reg'.Integrity) := by
  induction versions generalizing reg with
  | nil =>
    obtain rfl := pure_ok.mp h
    exact ⟨.refl reg, id⟩
  | cons v versions ih =>
    unfold setVersionStatuses at h
    rw [List.foldlM_cons] at h
    obtain ⟨reg₁, h₁, h⟩ := bind_ok.mp h
    obtain ⟨r, hset, he⟩ := map_ok h₁
    cases he
    obtain ⟨hwrite₁, hint₁⟩ := setVersionStatus_ok hset
    obtain ⟨hwrite, hint⟩ := ih h
    exact ⟨hwrite₁.trans hwrite, hint ∘ hint₁⟩

theorem setToolStatus_write (reg : Registry) (t : ToolId) (status : ToolStatus) :
    PlainWrite reg (setToolStatus reg t status).1 ∧
      (reg.Integrity → (setToolStatus reg t status).1.Integrity) := by
  have hk : reg.Keeps (setToolStatus reg t status).1 := by
    refine ⟨.refl _, .refl _, ?_⟩
    unfold setToolStatus Registry.updateTools
    dsimp only
    exact .modify fun _ _ _ => rfl
  exact ⟨.of_eq hk rfl rfl, fun hint => hint.transfer hk (fun r hr => Or.inl hr)
    (fun a ha v hv => Or.inl ⟨a, ha, rfl, hv⟩) fun g hg => Or.inl hg⟩

theorem createTool_ok {tenants : Table Tenant Tenant.id} {row row' : Tool}
    (h : createTool tenants reg row = .ok (reg', row')) :
    PlainWrite reg reg' ∧ (reg.Integrity → reg'.Integrity) := by
  unfold createTool at h
  obtain ⟨reg₁, hins, he⟩ := map_ok h
  cases he
  obtain ⟨hi, ha, hv, hr, hg⟩ := insertTool_ok hins
  have hk : reg.Keeps reg' :=
    ⟨by rw [ha]; exact .refl _, by rw [hv]; exact .refl _, .insert hi⟩
  refine ⟨.of_eq hk hv hg, fun hint => hint.transfer hk ?_ ?_ ?_⟩
  · exact Registry.rows_of_eq hr
  · exact Registry.defaults_of_eq ha
  · exact Registry.rows_of_eq hg

theorem upsertRoute_write {tenants : Table Tenant Tenant.id} {r : AgentRoute}
    (h : reg.upsertRoute tenants r = .ok reg') :
    PlainWrite reg reg' ∧
      (reg.Integrity → reg.agentTenant r.agentId = some r.tenantId → reg'.Integrity) := by
  obtain ⟨hroutes, ha, hv, ht, hg⟩ := upsertRoute_ok h
  have hk : reg.Keeps reg' := .of_eq ha hv ht
  refine ⟨.of_eq hk hv hg, fun hint htenant => hint.transfer hk ?_ ?_ ?_⟩
  · intro s hs
    refine (hroutes s hs).imp_right fun hnew => ?_
    rw [hnew.1, hnew.2, htenant]
  · exact Registry.defaults_of_eq ha
  · exact Registry.rows_of_eq hg

theorem grantTool_ok {now : Time} {v : VersionId} {t : ToolId}
    (h : grantTool reg now v t = .ok reg') :
    RegistryWrite (fun _ => False) (fun w => w = v) reg reg' ∧
      (reg.Integrity → (∃ tn, reg.versionTenant v = some tn ∧ reg.toolTenant t = some tn) →
        reg'.Integrity) := by
  rcases insertGrant_ok h with ⟨rfl, -⟩ | ⟨hi, ha, hv, hr, ht⟩
  · exact ⟨.refl _, fun hint _ => hint⟩
  have hk : reg.Keeps reg' := .of_eq ha hv ht
  refine ⟨.of_versions hk hv fun w hw u => ?_, fun hint hedge => hint.transfer hk ?_ ?_ ?_⟩
  · unfold Registry.granted
    rw [Table.find?_insert? hi, if_neg]
    intro he
    exact hw (congrArg Prod.fst he).symm
  · exact Registry.rows_of_eq hr
  · exact Registry.defaults_of_eq ha
  · intro g hg
    rw [Table.insert?_rows hi, List.mem_append, List.mem_singleton] at hg
    rcases hg with hg | rfl
    · exact Or.inl hg
    · exact Or.inr hedge

theorem revokeGrant_write (reg : Registry) (v : VersionId) (t : ToolId) :
    RegistryWrite (fun _ => False) (fun w => w = v) reg (revokeGrant reg v t).1 ∧
      (reg.Integrity → (revokeGrant reg v t).1.Integrity) := by
  have hk : reg.Keeps (revokeGrant reg v t).1 := .of_eq rfl rfl rfl
  refine ⟨.of_versions hk rfl fun w hw u => ?_, fun hint => hint.transfer hk
    (fun r hr => Or.inl hr) (fun a ha w hw => Or.inl ⟨a, ha, rfl, hw⟩)
    fun g hg => Or.inl (Table.mem_delete.mp hg).1⟩
  unfold Registry.granted
  rw [show (revokeGrant reg v t).1.grants = reg.grants.delete fun g =>
    g.agentVersionId == v && g.toolId == t from rfl, Table.find?_delete_of_ne]
  intro g hg hkey
  have hgv : g.agentVersionId = w := congrArg Prod.fst hkey
  simp [hgv, hw]

end Statements

/-! ## Commits -/

section Commits

variable {s s' : Store} {a : Answer}

theorem createAgentOn_ok {now : Time} {i : AgentId} {tn : TenantId} {name : String}
    {description : Option String} (h : createAgentOn now i tn name description s = .ok (s', a)) :
    s'.db = s.db ∧ PlainWrite s.reg s'.reg ∧ (s.reg.Integrity → s'.reg.Integrity) := by
  unfold createAgentOn at h
  split at h
  · rename_i hins
    cases h
    exact ⟨rfl, createAgent_ok rfl hins⟩
  · cases h
  · cases h

theorem createVersionOn_ok {now : Time} {v : VersionId} {i : AgentId} {n : Int}
    {body : VersionCreate} (h : createVersionOn now v i n body s = .ok (s', a)) :
    s'.db = s.db ∧ RegistryWrite (fun j => j = i) (fun _ => False) s.reg s'.reg ∧
      (s.reg.Integrity → s'.reg.Integrity) := by
  unfold createVersionOn at h
  obtain ⟨⟨reg, row⟩, hins, h⟩ := bind_ok.mp h
  obtain ⟨rfl, -⟩ := Prod.mk.inj (pure_ok.mp h)
  exact ⟨rfl, createVersion_ok (mapError_ok.mp hins)⟩

theorem activateOn_ok {now : Time} {i : AgentId} {body : ActivateRequest}
    (h : activateOn now i body s = .ok (s', a)) :
    s'.db = s.db ∧ PlainWrite s.reg s'.reg ∧ (s.reg.Integrity →
      s.reg.versionAgent body.versionId = some i → s'.reg.Integrity) := by
  unfold activateOn at h
  obtain ⟨⟨reg, row⟩, hdefault, h⟩ := bind_ok.mp h
  obtain ⟨hwrite, hint⟩ := setDefaultVersion_ok (mapError_ok.mp hdefault)
  cases row with
  | none => cases h
  | some agent =>
    obtain ⟨⟨reg₂, _⟩, hstatus, h⟩ := bind_ok.mp h
    obtain ⟨rfl, -⟩ := Prod.mk.inj (pure_ok.mp h)
    obtain ⟨hwrite₂, hint₂⟩ := setVersionStatus_ok (mapError_ok.mp hstatus)
    exact ⟨rfl, hwrite.trans hwrite₂, fun hi hown => hint₂ (hint hi hown)⟩

theorem disableOn_ok {now : Time} {i : AgentId} {versions : List VersionId} {reason : String}
    {queued running : List TaskId}
    (h : disableOn now i versions reason queued running s = .ok (s', a)) :
    (∃ n, writeSweep s.db now versions reason queued running = .ok (s'.db, n)) ∧
      PlainWrite s.reg s'.reg ∧ (s.reg.Integrity → s'.reg.Integrity) := by
  unfold disableOn at h
  obtain ⟨⟨reg, row⟩, hstatus, h⟩ := bind_ok.mp h
  obtain ⟨hwrite, hint⟩ := setAgentStatus_ok (mapError_ok.mp hstatus)
  cases row with
  | none => cases h
  | some agent =>
    obtain ⟨reg₂, hversions, h⟩ := bind_ok.mp h
    obtain ⟨⟨db, n⟩, hsweep, h⟩ := bind_ok.mp h
    obtain ⟨rfl, -⟩ := Prod.mk.inj (pure_ok.mp h)
    obtain ⟨hwrite₂, hint₂⟩ := setVersionStatuses_ok (mapError_ok.mp hversions)
    exact ⟨⟨n, mapError_ok.mp hsweep⟩, hwrite.trans hwrite₂, hint₂ ∘ hint⟩

theorem setRouteOn_ok {now : Time} {tn : TenantId} {requestType : String} {i : AgentId}
    (h : setRouteOn now tn requestType i s = .ok (s', a)) :
    s'.db = s.db ∧ PlainWrite s.reg s'.reg ∧
      (s.reg.Integrity → s.reg.agentTenant i = some tn → s'.reg.Integrity) := by
  unfold setRouteOn at h
  obtain ⟨reg, hroute, h⟩ := bind_ok.mp h
  obtain ⟨rfl, -⟩ := Prod.mk.inj (pure_ok.mp h)
  exact ⟨rfl, upsertRoute_write (mapError_ok.mp hroute)⟩

theorem createToolOn_ok {now : Time} {t : ToolId} {body : ToolCreate}
    (h : createToolOn now t body s = .ok (s', a)) :
    s'.db = s.db ∧ PlainWrite s.reg s'.reg ∧ (s.reg.Integrity → s'.reg.Integrity) := by
  unfold createToolOn at h
  split at h
  · rename_i hins
    cases h
    exact ⟨rfl, createTool_ok hins⟩
  · cases h
  · cases h

theorem setToolStatusOn_ok {t : ToolId} {status : ToolStatus} {action : String}
    (h : setToolStatusOn t status action s = .ok (s', a)) :
    s'.db = s.db ∧ PlainWrite s.reg s'.reg ∧ (s.reg.Integrity → s'.reg.Integrity) := by
  have hwrite := setToolStatus_write s.reg t status
  unfold setToolStatusOn at h
  split at h
  · cases h
  · rename_i reg tool hset
    rw [hset] at hwrite
    cases h
    exact ⟨rfl, hwrite⟩

theorem grantToolOn_ok {now : Time} {v : VersionId} {tool : Tool}
    (h : grantToolOn now v tool s = .ok (s', a)) :
    s'.db = s.db ∧ RegistryWrite (fun _ => False) (fun w => w = v) s.reg s'.reg ∧
      (s.reg.Integrity → (∃ tn, s.reg.versionTenant v = some tn ∧
        s.reg.toolTenant tool.id = some tn) → s'.reg.Integrity) := by
  unfold grantToolOn at h
  obtain ⟨reg, hgrant, h⟩ := bind_ok.mp h
  obtain ⟨rfl, -⟩ := Prod.mk.inj (pure_ok.mp h)
  exact ⟨rfl, grantTool_ok (mapError_ok.mp hgrant)⟩

theorem revokeGrantOn_ok {v : VersionId} {tool : Tool}
    (h : revokeGrantOn v tool s = .ok (s', a)) :
    s'.db = s.db ∧ RegistryWrite (fun _ => False) (fun w => w = v) s.reg s'.reg ∧
      (s.reg.Integrity → s'.reg.Integrity) := by
  have hwrite := revokeGrant_write s.reg v tool.id
  unfold revokeGrantOn at h
  split at h
  · cases h
  · rename_i reg hrevoke
    rw [hrevoke] at hwrite
    cases h
    exact ⟨rfl, hwrite⟩

end Commits

/-! ## Programs -/

section Programs

variable {R : Store → Store → Prop}

theorem visitTx_writes {p : Task → Bool} {k : List TaskId → Program}
    (hk : ∀ taken, (k taken).Writes R) (todo taken : List TaskId) :
    (visitTx p k todo taken).Writes R := by
  induction todo generalizing taken with
  | nil =>
    rw [visitTx]
    exact hk taken
  | cons i todo ih =>
    rw [visitTx]
    exact fun s other => ih _

theorem updateTx_writes {point : Point} {p : Task → Bool} {scan : Scan} {k : List TaskId → Program}
    (hk : ∀ taken, (k taken).Writes R) : (updateTx point p scan k).Writes R :=
  fun _ _ => visitTx_writes hk _ _

theorem sweepTx_writes {versions : List VersionId} {scan : Scan}
    {k : List TaskId → List TaskId → Program} (hk : ∀ queued running, (k queued running).Writes R) :
    (sweepTx versions scan k).Writes R := by
  unfold sweepTx
  split
  · exact hk [] []
  · exact updateTx_writes fun queued => updateTx_writes (hk queued)

theorem lockVersionsTx_writes {k : Program} (hk : k.Writes R) (versions : List VersionId) :
    (lockVersionsTx k versions).Writes R := by
  induction versions with
  | nil => exact hk
  | cons v versions ih => exact fun _ _ => ih

/-- The registry and the audit log are left alone. -/
abbrev TasksOnly (s s' : Store) : Prop := s'.reg = s.reg ∧ s'.audit = s.audit

variable [PyText]

theorem performOn_tasksOnly {c : Call} {s s' : Store} {a : Answer}
    (h : performOn c s = .ok (s', a)) : TasksOnly s s' := by
  unfold performOn at h
  split at h
  · cases h
    exact ⟨rfl, rfl⟩
  · cases h

omit [PyText] in
theorem grantOn_tasksOnly {now : Time} {args : ClaimArgs} {ids : List TaskId} {s s' : Store}
    {a : Answer} (h : grantOn now args ids s = .ok (s', a)) : TasksOnly s s' := by
  unfold grantOn at h
  split at h
  · cases h
    exact ⟨rfl, rfl⟩
  · split at h
    · cases h
      exact ⟨rfl, rfl⟩
    · cases h

theorem claimTx_writes {now : Time} {args : ClaimArgs} {scans : Nat → Scan} (n : Nat)
    (loop : LoopState) : (claimTx now args scans n loop).Writes TasksOnly := by
  induction n generalizing loop with
  | zero => exact fun s s' a h => grantOn_tasksOnly h
  | succ n ih =>
    rw [claimTx]
    intro s other
    dsimp only
    split
    · exact fun s s' a h => grantOn_tasksOnly h
    · exact fun s _ _ _ => ih _

theorem insertOn_tasksOnly {now : Time} {newId : TaskId} {args : SubmitArgs} {s s' : Store}
    {res : SubmitResult} (h : insertOn now newId args s = .ok (s', res)) : TasksOnly s s' := by
  unfold insertOn at h
  split at h
  · obtain ⟨r, hsub, he⟩ := map_ok h
    cases he
    exact ⟨rfl, rfl⟩
  · cases h

theorem submitTx_writes {now : Time} {newId : TaskId} {args : SubmitArgs}
    {answer : SubmitResult → Answer} {refuse : Raised → Failure} :
    (submitTx now newId args answer refuse).Writes TasksOnly := by
  intro s other
  dsimp only
  split
  · trivial
  · intro s s' a h
    dsimp only at h
    split at h
    · rename_i hins
      cases h
      exact insertOn_tasksOnly hins
    · cases h
  · intro s other
    dsimp only
    split
    · trivial
    · intro s s' a h
      cases h
      exact ⟨rfl, rfl⟩

/-- A submission commits its insert, or nothing. -/
theorem submitTx_inserts {now : Time} {newId : TaskId} {args : SubmitArgs}
    {answer : SubmitResult → Answer} {refuse : Raised → Failure} (hsame : ∀ s, R s s)
    (hins : ∀ s s' res, insertOn now newId args s = .ok (s', res) → R s s') :
    (submitTx now newId args answer refuse).Writes R := by
  intro s other
  dsimp only
  split
  · trivial
  · intro s s' a h
    dsimp only at h
    split at h
    · rename_i hon
      cases h
      exact hins _ _ _ hon
    · cases h
  · intro s other
    dsimp only
    split
    · trivial
    · intro s s' a h
      cases h
      exact hsame s

/-- The endpoint commits what a submission of it does. -/
theorem submitEndpointTx_submits {now : Time} {newId : TaskId} {body : TaskCreate}
    {env : Surroundings} (hsubmit : ∀ args,
      (submitTx now newId args submittedTaskAnswer submitRefused).Writes R) :
    (submitEndpointTx now newId body env).Writes R := by
  intro s other
  dsimp only
  split
  · trivial
  intro s other
  dsimp only
  split
  · trivial
  · trivial
  split
  · exact hsubmit _
  intro s other
  dsimp only
  split
  · trivial
  · trivial
  split
  · trivial
  · exact hsubmit _

/-- **The task queries leave the registry alone.** -/
theorem callTx_writes (c : Call) : (callTx c).Writes TasksOnly := by
  have hperform : ∀ c s s' a, performOn c s = .ok (s', a) → TasksOnly s s' :=
    fun c s s' a h => performOn_tasksOnly h
  obtain ⟨now, op⟩ := c
  cases op with
  | submitTask newId args => exact submitTx_writes
  | claimTasks args scans => exact claimTx_writes maxRounds {}
  | reap o limit scan =>
    show (reapTx now o limit scan).Writes TasksOnly
    intro s other
    dsimp only
    split
    · trivial
    · intro s s' a h
      unfold recoverOn at h
      split at h
      · cases h
        exact ⟨rfl, rfl⟩
      · cases h
  | cancelAgentTasks versions reason =>
    refine sweepTx_writes fun queued running s s' a h => ?_
    unfold sweepOn at h
    split at h
    · cases h
      exact ⟨rfl, rfl⟩
    · cases h
  | renewLease i w a ttl => exact fun _ _ => hperform _
  | complete e i a w => exact fun _ _ => hperform _
  | cancelTask i =>
    show (cancelTx now i).Writes TasksOnly
    intro s other
    dsimp only
    split
    · intro s s' a h
      cases h
      exact ⟨rfl, rfl⟩
    · intro s s' a h
      unfold cancelOn at h
      split at h
      · cases h
        exact ⟨rfl, rfl⟩
      · cases h
  | _ => exact hperform _

omit [PyText] in
theorem grantGuardTx_writes {v : VersionId} {t : ToolId} {k : AgentVersion → Tool → Program}
    (hk : ∀ version tool, (k version tool).Writes R) : (grantGuardTx v t k).Writes R := by
  intro s other
  dsimp only
  split
  · trivial
  split
  · trivial
  intro s other
  dsimp only
  split
  · trivial
  · exact hk _ _

/-- The request creates versions of this agent. -/
def Endpoint.numbers (e : Endpoint) (a : AgentId) : Prop := ∃ newId body, e = .createVersion newId a body

/-- The request is about the grants of this version. -/
def Endpoint.regrants (e : Endpoint) (v : VersionId) : Prop :=
  ∃ t, e = .grant v t ∨ e = .revokeGrant v t

/-- The write a request commits, with what its statements have found. -/
inductive Committed (now : Time) (s s' : Store) : Endpoint → Prop
  | createAgent {newId : AgentId} {tn : TenantId} {name : String} {description : Option String}
      {a : Answer} (h : createAgentOn now newId tn name description s = .ok (s', a)) :
      Committed now s s' (.createAgent newId tn name description)
  | createVersion {newId : VersionId} {i : AgentId} {body : VersionCreate} {n : Int} {a : Answer}
      (h : createVersionOn now newId i n body s = .ok (s', a)) :
      Committed now s s' (.createVersion newId i body)
  | activate {i : AgentId} {body : ActivateRequest} {a : Answer}
      (h : activateOn now i body s = .ok (s', a)) : Committed now s s' (.activate i body)
  | disable {i : AgentId} {scan : Scan} {versions : List VersionId} {reason : String}
      {queued running : List TaskId} {a : Answer}
      (h : disableOn now i versions reason queued running s = .ok (s', a)) :
      Committed now s s' (.disable i scan)
  | setRoute {tn : TenantId} {requestType : String} {i : AgentId} {a : Answer}
      (h : setRouteOn now tn requestType i s = .ok (s', a)) :
      Committed now s s' (.setRoute tn requestType i)
  | createTool {newId : ToolId} {body : ToolCreate} {a : Answer}
      (h : createToolOn now newId body s = .ok (s', a)) : Committed now s s' (.createTool newId body)
  | disableTool {t : ToolId} {a : Answer}
      (h : setToolStatusOn t .disabled "TOOL_DISABLED" s = .ok (s', a)) :
      Committed now s s' (.disableTool t)
  | enableTool {t : ToolId} {a : Answer}
      (h : setToolStatusOn t .active "TOOL_ENABLED" s = .ok (s', a)) :
      Committed now s s' (.enableTool t)
  | grant {v : VersionId} {t : ToolId} {tool : Tool} {a : Answer}
      (h : grantToolOn now v tool s = .ok (s', a)) : Committed now s s' (.grant v t)
  | revokeGrant {v : VersionId} {t : ToolId} {tool : Tool} {a : Answer}
      (h : revokeGrantOn v tool s = .ok (s', a)) : Committed now s s' (.revokeGrant v t)
  | submit {newId : TaskId} {body : TaskCreate} {env : Surroundings} (h : TasksOnly s s') :
      Committed now s s' (.submit newId body env)

theorem endpointTx_commits (now : Time) (e : Endpoint) :
    (endpointTx now e).Writes fun s s' => Committed now s s' e := by
  cases e with
  | createAgent newId tenantId name description =>
    intro s other
    dsimp only
    split
    · trivial
    · exact fun s s' a h => .createAgent h
  | createVersion newId agentId body =>
    intro s other
    dsimp only
    split
    · trivial
    · exact fun s other s s' a h => .createVersion h
  | activate agentId body =>
    intro s other
    dsimp only
    split
    · trivial
    split
    · trivial
    intro s other
    dsimp only
    split
    · exact fun s other s s' a h => .activate h
    · trivial
  | disable agentId scan =>
    intro s other
    dsimp only
    split
    · trivial
    · intro s other
      refine lockVersionsTx_writes (sweepTx_writes fun queued running => ?_) _
      exact fun s s' a h => .disable h
  | setRoute tenantId requestType agentId =>
    intro s other
    dsimp only
    split
    · trivial
    split
    · trivial
    · exact fun s s' a h => .setRoute h
  | createTool newId body =>
    intro s other
    dsimp only
    split
    · trivial
    · exact fun s s' a h => .createTool h
  | disableTool toolId => exact fun s s' a h => .disableTool h
  | enableTool toolId => exact fun s s' a h => .enableTool h
  | grant versionId toolId =>
    refine grantGuardTx_writes fun version tool s other => ?_
    dsimp only
    split
    · trivial
    split
    · trivial
    · exact fun s s' a h => .grant h
  | revokeGrant versionId toolId =>
    exact grantGuardTx_writes fun version tool s s' a h => .revokeGrant h
  | submit newId body env =>
    have hsubmit : ∀ args, (submitTx now newId args submittedTaskAnswer submitRefused).Writes
        fun s s' => Committed now s s' (.submit newId body env) := fun args =>
      submitTx_writes.mono fun h => .submit h
    intro s other
    dsimp only
    split
    · trivial
    intro s other
    dsimp only
    split
    · trivial
    · trivial
    split
    · exact hsubmit _
    intro s other
    dsimp only
    split
    · trivial
    · trivial
    split
    · trivial
    · exact hsubmit _

omit [PyText] in
/-- **What a request commits to the registry.** -/
theorem Committed.registry {now : Time} {e : Endpoint} {s s' : Store} (h : Committed now s s' e) :
    RegistryWrite e.numbers e.regrants s.reg s'.reg := by
  have hplain : PlainWrite s.reg s'.reg → RegistryWrite e.numbers e.regrants s.reg s'.reg :=
    fun h => ⟨h.keeps, fun v w hv hn => (h.versions v w hv hn).elim, fun v _ => h.grants v id⟩
  cases h with
  | createAgent h => exact hplain (createAgentOn_ok h).2.1
  | createVersion h =>
    have hwrite := (createVersionOn_ok h).2.1
    refine ⟨hwrite.keeps, fun v w hv hn => ?_, fun v _ => hwrite.grants v id⟩
    rw [hwrite.versions v w hv hn]
    exact ⟨_, _, rfl⟩
  | activate h => exact hplain (activateOn_ok h).2.1
  | disable h => exact hplain (disableOn_ok h).2.1
  | setRoute h => exact hplain (setRouteOn_ok h).2.1
  | createTool h => exact hplain (createToolOn_ok h).2.1
  | disableTool h => exact hplain (setToolStatusOn_ok h).2.1
  | enableTool h => exact hplain (setToolStatusOn_ok h).2.1
  | @grant _ t _ _ h =>
    have hwrite := (grantToolOn_ok h).2.1
    exact ⟨hwrite.keeps, fun v w hv hn => (hwrite.versions v w hv hn).elim,
      fun v hv => hwrite.grants v fun he => hv ⟨t, Or.inl (he ▸ rfl)⟩⟩
  | @revokeGrant _ t _ _ h =>
    have hwrite := (revokeGrantOn_ok h).2.1
    exact ⟨hwrite.keeps, fun v w hv hn => (hwrite.versions v w hv hn).elim,
      fun v hv => hwrite.grants v fun he => hv ⟨t, Or.inr (he ▸ rfl)⟩⟩
  | submit h =>
    rw [h.1]
    exact .refl _

theorem endpointTx_writes (now : Time) (e : Endpoint) :
    (endpointTx now e).Writes fun s s' => RegistryWrite e.numbers e.regrants s.reg s'.reg :=
  (endpointTx_commits now e).mono Committed.registry

end Programs

end ControlPlane
