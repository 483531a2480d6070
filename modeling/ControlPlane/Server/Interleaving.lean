import ControlPlane.Server.CallDiscipline

/-! # Every interleaving keeps to the discipline

The endpoints write the registry at their commit, on what earlier statements have
read. What they rely on by then cannot have changed: the tenant of an agent or a
tool and the agent of a version are fixed with the row. With the task queries this
is every transaction of the program, so all of them together, in any order of
their statements, keep to the discipline (`requests_sound`). -/

namespace ControlPlane
open Keyed Fallible Transactions Runs

variable [PyText] {governed : Prop} {r : Request} {H : Lock → Prop} {s : Store}

/-! ## Registry endpoints -/

omit [PyText] in
theorem RegistryWrite.unnumbered {regranted : VersionId → Prop} {reg reg' : Registry}
    (h : RegistryWrite (fun _ => False) regranted reg reg') :
    RegistryWrite (fun a => H (.agent a)) (fun _ => True) reg reg' where
  keeps := h.keeps
  versions _ w hv hnone := (h.versions _ w hv hnone).elim
  grants _ hv := absurd trivial hv

/-- A commit to the registry that numbers no version. -/
theorem plain_ok {s₁ s₂ : Store} (hinv : s₁.Integrity governed) {regranted : VersionId → Prop}
    (hdb : s₂.db = s₁.db) (hwrite : RegistryWrite (fun _ => False) regranted s₁.reg s₂.reg)
    (hint : s₂.reg.Integrity) : s₂.Integrity governed ∧ StoreWrites H s₁ s₂ :=
  writes_of_registry hinv hdb hint hwrite.unnumbered

theorem createAgentTx_ok {now : Time} {newId : AgentId} {tn : TenantId} {name : String}
    {description : Option String} (hr : r.Quiet) :
    (discipline governed).Ok r (createAgentTx now newId tn name description) H s := by
  intro s₁ other _ _ _ _ _
  dsimp only
  split
  · exact fail_ok hr _
  · refine commit_ok hr fun s₂ s₃ a _ hinv h => ?_
    obtain ⟨hdb, hwrite, hint⟩ := createAgentOn_ok h
    exact plain_ok hinv hdb hwrite (hint hinv.registry)

/-- The agent's row is locked from the first statement on. -/
theorem createVersionTx_ok {now : Time} {newId : VersionId} {i : AgentId} {body : VersionCreate}
    (hr : r.Quiet) : (discipline governed).Ok r (createVersionTx now newId i body) H s := by
  intro s₁ other _ _ _ _ _
  dsimp only
  split
  · exact fail_ok hr _
  · rename_i agent hagent
    intro s₂ other₂ _ _ _ _ _
    refine commit_ok hr fun s₃ s₄ a _ hinv h => ?_
    obtain ⟨hdb, hwrite, hint⟩ := createVersionOn_ok h
    refine writes_of_registry hinv hdb (hint hinv.registry)
      ⟨hwrite.keeps, fun v w hv hnone => ?_, fun v hv => absurd trivial hv⟩
    rw [hwrite.versions v w hv hnone, hagent]
    exact Or.inl (Or.inr (List.mem_singleton_self _))

theorem activateTx_ok {now : Time} {i : AgentId} {body : ActivateRequest} (hr : r.Quiet) :
    (discipline governed).Ok r (activateTx now i body) H s := by
  intro s₁ other _ _ _ _ _
  dsimp only
  split
  · exact fail_ok hr _
  rename_i version hversion
  split
  · exact fail_ok hr _
  have hown : s₁.reg.versionAgent body.versionId = some i := by
    obtain ⟨hv, hagent⟩ := Option.filter_eq_some_iff.mp hversion
    unfold Registry.versionAgent
    rw [hv, Option.map_some, beq_iff_eq.mp hagent]
  intro s₂ other₂ hrel₂ _ _ _ _
  dsimp only
  split
  · intro s₃ other₃ hrel₃ _ _ _ _
    refine commit_ok hr fun s₄ s₅ a hrel₄ hinv h => ?_
    obtain ⟨hdb, hwrite, hint⟩ := activateOn_ok h
    have hkeeps := ((rely_registry hrel₂).trans (rely_registry hrel₃)).trans (rely_registry hrel₄)
    exact plain_ok hinv hdb hwrite (hint hinv.registry (hkeeps.versionAgent hown))
  · exact fail_ok hr _

theorem lockVersionsTx_ok {k : Program}
    (hk : ∀ (H' : Lock → Prop) s', (discipline governed).Ok r k H' s') (versions : List VersionId)
    (H : Lock → Prop) (s : Store) : (discipline governed).Ok r (lockVersionsTx k versions) H s := by
  induction versions generalizing H s with
  | nil => exact hk H s
  | cons v versions ih => exact fun s₁ _ _ _ _ _ _ => ih _ s₁

theorem disableTx_ok {now : Time} {i : AgentId} {scan : Scan} (hr : r.Quiet) :
    (discipline governed).Ok r (disableTx now i scan) H s := by
  intro s₁ other _ _ _ _ _
  dsimp only
  split
  · exact fail_ok hr _
  intro s₂ other₂ _ _ _ _ _
  refine lockVersionsTx_ok (fun H' s' => sweepTx_ok fun queued running H'' s'' hq hu => ?_) _ _ s₂
  refine commit_ok hr fun s₃ s₄ a _ hinv h => ?_
  obtain ⟨⟨n, hsweep⟩, hwrite, hint⟩ := disableOn_ok h
  obtain ⟨hsteps, hrows⟩ := writeSweep_ok hsweep
  refine writes_of_steps hinv (hint hinv.registry) hwrite.unnumbered ?_ ?_ hsteps ?_
  · intro i ty a w data hop
    cases hop
  · intro newId args hop
    cases hop
  · intro i _ hne
    rcases hrows i hne with hi | hi
    · exact hq i hi
    · exact hu i hi

/-- The route is written after its check; the agent's tenant is the one checked. -/
theorem setRouteTx_ok {now : Time} {tn : TenantId} {requestType : String} {i : AgentId}
    (hr : r.Quiet) : (discipline governed).Ok r (setRouteTx now tn requestType i) H s := by
  intro s₁ other _ _ _ _ _
  dsimp only
  split
  · exact fail_ok hr _
  rename_i agent hagent
  split
  · exact fail_ok hr _
  rename_i htenant
  refine commit_ok hr fun s₂ s₃ a hrel hinv h => ?_
  obtain ⟨hdb, hwrite, hint⟩ := setRouteOn_ok h
  have hown : s₁.reg.agentTenant i = some tn := by
    unfold Registry.agentTenant
    rw [hagent, Option.map_some, not_not.mp htenant]
  exact plain_ok hinv hdb hwrite (hint hinv.registry ((rely_registry hrel).agentTenant hown))

theorem createToolTx_ok {now : Time} {newId : ToolId} {body : ToolCreate} (hr : r.Quiet) :
    (discipline governed).Ok r (createToolTx now newId body) H s := by
  intro s₁ other _ _ _ _ _
  dsimp only
  split
  · exact fail_ok hr _
  · refine commit_ok hr fun s₂ s₃ a _ hinv h => ?_
    obtain ⟨hdb, hwrite, hint⟩ := createToolOn_ok h
    exact plain_ok hinv hdb hwrite (hint hinv.registry)

theorem setToolStatusTx_ok {t : ToolId} {status : ToolStatus} {action : String} (hr : r.Quiet) :
    (discipline governed).Ok r (setToolStatusTx t status action) H s := by
  refine commit_ok hr fun s₁ s₂ a _ hinv h => ?_
  obtain ⟨hdb, hwrite, hint⟩ := setToolStatusOn_ok h
  exact plain_ok hinv hdb hwrite (hint hinv.registry)

/-- What the guard has read is still there for what follows it. -/
theorem grantGuardTx_ok {v : VersionId} {t : ToolId} {k : AgentVersion → Tool → Program}
    (hr : r.Quiet)
    (hk : ∀ version tool (H' : Lock → Prop) s', s'.reg.versionAgent v = some version.agentId →
      s'.reg.toolTenant tool.id = some tool.tenantId →
      (discipline governed).Ok r (k version tool) H' s') :
    (discipline governed).Ok r (grantGuardTx v t k) H s := by
  intro s₁ other _ _ _ _ _
  dsimp only
  split
  · exact fail_ok hr _
  rename_i version hversion
  split
  · exact fail_ok hr _
  intro s₂ other₂ hrel _ _ _ _
  dsimp only
  split
  · exact fail_ok hr _
  rename_i tool htool
  refine hk version tool _ s₂ ((rely_registry hrel).versionAgent ?_) ?_
  · unfold Registry.versionAgent
    rw [hversion]
    rfl
  · unfold Registry.toolTenant
    rw [show tool.id = t from Table.key_of_find? htool, htool]
    rfl

theorem grantTx_ok {now : Time} {v : VersionId} {t : ToolId} (hr : r.Quiet) :
    (discipline governed).Ok r (grantTx now v t) H s := by
  refine grantGuardTx_ok hr fun version tool H' s₁ hagent htool => ?_
  intro s₂ other hrel₂ _ _ _ _
  dsimp only
  split
  · exact fail_ok hr _
  rename_i agent hrow
  split
  · exact fail_ok hr _
  rename_i htenant
  refine commit_ok hr fun s₃ s₄ a hrel₃ hinv h => ?_
  obtain ⟨hdb, hwrite, hint⟩ := grantToolOn_ok h
  have hversion : s₂.reg.versionTenant v = some tool.tenantId := by
    refine Option.bind_eq_some_iff.mpr ⟨_, (rely_registry hrel₂).versionAgent hagent, ?_⟩
    unfold Registry.agentTenant
    rw [hrow, Option.map_some, not_not.mp htenant]
  have htool₃ := (rely_registry hrel₃).toolTenant ((rely_registry hrel₂).toolTenant htool)
  exact plain_ok hinv hdb hwrite
    (hint hinv.registry ⟨_, (rely_registry hrel₃).versionTenant hversion, htool₃⟩)

theorem revokeGrantTx_ok {v : VersionId} {t : ToolId} (hr : r.Quiet) :
    (discipline governed).Ok r (revokeGrantTx v t) H s := by
  refine grantGuardTx_ok hr fun version tool H' s₁ _ _ => ?_
  refine commit_ok hr fun s₂ s₃ a _ hinv h => ?_
  obtain ⟨hdb, hwrite, hint⟩ := revokeGrantOn_ok h
  exact plain_ok hinv hdb hwrite (hint hinv.registry)

/-! ## Submission through the API -/

theorem direct_pinned (now : Time) (newId : TaskId) (body : TaskCreate) (taskType : String)
    (carrier : JsonObject) (reg : Registry) :
    (submittedTask now newId (body.directArgs taskType carrier)).pinned.Integrity reg :=
  ⟨rfl, fun v hv => by cases hv⟩

/-- What a route resolves to is pinned as the version says, for the tenant of
the version's agent. -/
theorem routed_pinned {now : Time} {newId : TaskId} {body : TaskCreate} {requestType : String}
    {resolution : Resolution} {reg : Registry} (hint : reg.Integrity)
    (h : resolveRoute reg body.tenantId requestType = .ok resolution) (taskType : String)
    (carrier : JsonObject) :
    (submittedTask now newId (body.routedArgs taskType carrier resolution)).pinned.Integrity reg := by
  obtain ⟨route, a, v, hroute, ha, -, hdefault, hv, -, rfl⟩ := resolveRoute_ok h
  refine ⟨rfl, fun w hw => ?_⟩
  obtain rfl : v.id = w := Option.some.inj hw
  refine ⟨v, hv, ?_, rfl, rfl, rfl⟩
  have hown := hint.defaults a (Table.mem_of_find? ha) v.id hdefault
  have hagent : v.agentId = a.id := by
    unfold Registry.versionAgent at hown
    rw [hv] at hown
    exact Option.some.inj hown
  have htenant := hint.routes route (Table.mem_of_find? hroute)
  rw [hagent, show a.id = route.agentId from Table.key_of_find? ha, htenant]
  exact congrArg some (congrArg Prod.fst (Table.key_of_find? hroute))

theorem submitEndpointTx_ok {newId : TaskId} {body : TaskCreate} {env : Surroundings}
    (hop : r.op = .api (.submit newId body env)) :
    (discipline governed).Ok r (submitEndpointTx r.now newId body env) H s := by
  have hrefused : ∀ e s', RequestPost r (.error e) s' := by
    intro e s'
    refine ⟨fun newId' args hop' => ?_, fun _ _ _ _ _ hres => by cases hres⟩
    rw [hop] at hop'
    cases hop'
  have hpost : ∀ args, r.Submits newId args → ∀ x s', SubmitOutcome r.now newId args s' x →
      RequestPost r ((x.map submittedTaskAnswer).mapError submitRefused) s' := by
    intro args hsub x s' hx
    refine ⟨fun newId' args' hop' => (by rw [hop] at hop'; cases hop'), ?_⟩
    intro newId' body' env' a hop' hres
    rw [hop] at hop'
    cases hop'
    cases x with
    | error e => cases hres
    | ok sub =>
      cases hres
      exact ⟨args, sub, hsub, hx, rfl⟩
  intro s₁ other _ _ _ _ _
  dsimp only
  split
  · exact fun s' _ _ => hrefused _ s'
  intro s₂ other₂ _ _ _ _ _
  dsimp only
  split
  · exact fun s' _ _ => hrefused _ s'
  · exact fun s' _ _ => hrefused _ s'
  split
  · rename_i taskType _
    exact submitTx_ok (hpost _ (.direct taskType hop)) fun _ => direct_pinned ..
  intro s₃ other₃ _ hinv _ _ _
  dsimp only
  split
  · exact fun s' _ _ => hrefused _ s'
  · exact fun s' _ _ => hrefused _ s'
  rename_i resolution hresolved
  split
  · exact fun s' _ _ => hrefused _ s'
  · rename_i taskType _
    exact submitTx_ok (hpost _ (.routed taskType resolution hop)) fun _ =>
      routed_pinned hinv.registry hresolved ..

/-! ## Every request -/

theorem endpointTx_ok {e : Endpoint} (hop : r.op = .api e) :
    (discipline governed).Ok r (endpointTx r.now e) H s := by
  have hquiet : (∀ newId body env, e ≠ .submit newId body env) → r.Quiet := by
    intro hno newId args hsubmits
    cases hsubmits with
    | call hcall => rw [hop] at hcall; cases hcall
    | direct taskType hapi =>
      rw [hop] at hapi
      exact hno _ _ _ (Operation.api.inj hapi)
    | routed taskType resolution hapi =>
      rw [hop] at hapi
      exact hno _ _ _ (Operation.api.inj hapi)
  cases e with
  | createAgent newId tenantId name description => exact createAgentTx_ok (hquiet (by simp))
  | createVersion newId agentId body => exact createVersionTx_ok (hquiet (by simp))
  | activate agentId body => exact activateTx_ok (hquiet (by simp))
  | disable agentId scan => exact disableTx_ok (hquiet (by simp))
  | setRoute tenantId requestType agentId => exact setRouteTx_ok (hquiet (by simp))
  | createTool newId body => exact createToolTx_ok (hquiet (by simp))
  | disableTool toolId => exact setToolStatusTx_ok (hquiet (by simp))
  | enableTool toolId => exact setToolStatusTx_ok (hquiet (by simp))
  | grant versionId toolId => exact grantTx_ok (hquiet (by simp))
  | revokeGrant versionId toolId => exact revokeGrantTx_ok (hquiet (by simp))
  | submit newId body env => exact submitEndpointTx_ok hop

/-- A transaction of the program: what a query records on its own is one of the
events the worker records. -/
def Request.Standalone (r : Request) : Prop := ∀ op, r.op = .call op → op.Standalone

/-- Submissions that pin a version come through the API. -/
def Request.Governed (r : Request) : Prop := ∀ newId args, r.op ≠ .call (.submitTask newId args)

/-- What the request records on its own, if that is all it does. -/
def Request.recorded (r : Request) : Option EventType :=
  match r.op with
  | .call (.recordEvent _ ty _ _ _) => some ty
  | _ => none

omit [PyText] in
theorem Request.standalone_iff (r : Request) :
    r.Standalone ↔ ∀ ty ∈ r.recorded, ty ∈ standaloneEvents := by
  obtain ⟨now, op⟩ := r
  unfold Request.Standalone Request.recorded Op.Standalone
  constructor
  · intro h ty hty
    dsimp only at hty h
    split at hty
    · obtain rfl := Option.some.inj hty
      exact h _ rfl _ _ _ _ _ rfl
    · cases hty
  · intro h op' hop i ty a w data hrec
    subst hrec
    dsimp only at hop
    subst hop
    exact h ty rfl

instance requestStandalone (r : Request) : Decidable r.Standalone :=
  decidable_of_iff _ r.standalone_iff.symm

/-- The arguments of a submission that does not come through the API. -/
def Request.submitted (r : Request) : Option SubmitArgs :=
  match r.op with
  | .call (.submitTask _ args) => some args
  | _ => none

omit [PyText] in
theorem Request.governed_iff (r : Request) : r.Governed ↔ r.submitted.isNone = true := by
  obtain ⟨now, op⟩ := r
  unfold Request.Governed Request.submitted
  constructor
  · intro h
    split
    · rename_i newId args hop
      exact absurd hop (h newId args)
    · rfl
  · intro h newId args hop
    dsimp only at hop
    subst hop
    cases h

instance requestGoverned (r : Request) : Decidable r.Governed :=
  decidable_of_iff _ r.governed_iff.symm

theorem requestTx_ok (hstand : r.Standalone) (hgov : governed → r.Governed) :
    (discipline governed).Ok r (requestTx r) H s := by
  unfold requestTx
  split
  · rename_i e hop
    exact endpointTx_ok hop
  · rename_i op hop
    exact callTx_ok hop (hstand op hop) fun newId args hsub hg => hgov hg newId args (hsub ▸ hop)

/-! ## Interleavings -/

/-- The committed data, the requests that were begun and their locks. -/
abbrev Server := Machine Store Lock Failure Answer Point Request

/-- Statement by statement, in any order. -/
def Interleaves (m : Server) (acts : List (Action Request)) (m' : Server) : Prop :=
  Run (fun m a m' => act requestTx m a = some m') m acts m'

def Server.empty : Server := { db := .empty }

/-- **Every interleaving of the program's requests keeps to the discipline.** -/
theorem requests_sound {m m' : Server} {acts : List (Action Request)}
    (hrun : Interleaves m acts m') (hm : Discipline.Sound (discipline governed) m)
    (hstand : ∀ r, .begin r ∈ acts → r.Standalone)
    (hgov : governed → ∀ r, .begin r ∈ acts → r.Governed) :
    Discipline.Sound (discipline governed) m' ∧
      Run (fun m a m' => act requestTx m a = some m' ∧ Discipline.Sound (discipline governed) m ∧
        Discipline.Sound (discipline governed) m' ∧
        Discipline.Commits (discipline governed) m a m') m acts m' :=
  Discipline.sound_run hrun hm fun r hr _ _ => requestTx_ok (hstand r hr) fun hg => hgov hg r hr

theorem empty_sound : Discipline.Sound (discipline governed) Server.empty :=
  .start ⟨.empty, fun _ i t ht => by cases ht⟩

end ControlPlane
