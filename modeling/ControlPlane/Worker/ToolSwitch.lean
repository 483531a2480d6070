import ControlPlane.Server.EmergencyStop
import ControlPlane.Worker.ToolTrail

/-! # Switching a tool off

The status of a tool is written by two requests, each with a record in the audit log in
the same transaction, so the log tells the status of every tool. A policy is frozen by
the last queries of a claim: what is switched off before them is off for all attempts of
that claim, and a claim that has read its policies keeps what it read, even if it commits
afterwards. -/

namespace ControlPlane
open Keyed Fallible Transactions Runs Journal

def Registry.toolStatus? (reg : Registry) (t : ToolId) : Option ToolStatus :=
  (reg.tool? t).map Tool.status

/-- The status a record of the audit log gives a tool. -/
def AuditEvent.toolStatus? (t : ToolId) (e : AuditEvent) : Option ToolStatus :=
  if e.resourceType = "tool" ∧ e.resourceId = some t then
    if e.action = "TOOL_DISABLED" then some .disabled
    else if e.action = "TOOL_ENABLED" then some .active
    else none
  else none

/-! ## What a commit does to the tools -/

/-- **The status of the tools, and what the audit log says of it**, after a request. -/
inductive ToolMove (s s' : Store) : Operation → Prop
  | same {o : Operation} (hstatus : ∀ t, s'.reg.toolStatus? t = s.reg.toolStatus? t)
      (haudit : Journal.Grows (fun e : AuditEvent => ∀ t, e.toolStatus? t = none) s.audit s'.audit) :
      ToolMove s s' o
  | created {o : Operation} {newId : ToolId} (hfresh : s.reg.toolStatus? newId = none)
      (hstatus : ∀ t, s'.reg.toolStatus? t = if newId = t then some .active else s.reg.toolStatus? t)
      (haudit : s'.audit = s.audit) : ToolMove s s' o
  | set {e : Endpoint} {tool : ToolId} {status : ToolStatus} {record : AuditEvent}
      (hendpoint : e = .disableTool tool ∧ status = .disabled ∨ e = .enableTool tool ∧ status = .active)
      (hknown : (s.reg.toolStatus? tool).isSome = true)
      (hstatus : ∀ t, s'.reg.toolStatus? t = if tool = t then some status else s.reg.toolStatus? t)
      (haudit : s'.audit = s.audit ++ [record])
      (hrecord : ∀ t, record.toolStatus? t = if tool = t then some status else none) :
      ToolMove s s' (.api e)

section

variable {reg reg' : Registry} {s s' : Store}

theorem Registry.toolStatus?_of_tools (h : reg'.tools = reg.tools) (t : ToolId) :
    reg'.toolStatus? t = reg.toolStatus? t := by
  unfold Registry.toolStatus? Registry.tool?
  rw [h]

theorem ToolMove.of_tools {o : Operation} (htools : s'.reg.tools = s.reg.tools)
    (haudit : s'.audit = s.audit) : ToolMove s s' o :=
  .same (Registry.toolStatus?_of_tools htools) (.of_eq haudit)

theorem setVersionStatus_tools {v : VersionId} {status : VersionStatus} {row : Option AgentVersion}
    (h : setVersionStatus reg v status = .ok (reg', row)) : reg'.tools = reg.tools := by
  obtain ⟨rows, hup, -⟩ := mapSnd_ok h
  exact (updateVersions_ok hup).2.2.2.2.2.1

theorem setVersionStatuses_tools {status : VersionStatus} {versions : List VersionId}
    (h : setVersionStatuses reg status versions = .ok reg') : reg'.tools = reg.tools := by
  refine foldlM_invariant (I := fun r : Registry => r.tools = reg.tools) ?_ h rfl
  intro r v r' hr hset
  obtain ⟨x, hone, rfl⟩ := map_ok hset
  exact (setVersionStatus_tools hone).trans hr

theorem setToolStatus_status (reg : Registry) (tool : ToolId) (status : ToolStatus) (t : ToolId) :
    (setToolStatus reg tool status).1.toolStatus? t =
      if tool = t then (reg.toolStatus? t).map fun _ => status else reg.toolStatus? t := by
  have hmodify : (setToolStatus reg tool status).1.tool? t = (reg.tool? t).map fun r =>
      if (r.id == tool) = true then { r with status := status } else r :=
    Table.find?_modify reg.tools (fun t => t.id == tool) (fun t => { t with status := status })
      (fun _ => rfl) t
  unfold Registry.toolStatus?
  rw [hmodify]
  cases ht : reg.tool? t with
  | none => simp
  | some row =>
    have hid : row.id = t := Table.key_of_find? ht
    by_cases he : tool = t
    · simp [hid, he]
    · simp [hid, he, Ne.symm he]

/-- The tool that is returned is there. -/
theorem setToolStatus_known {tool : ToolId} {status : ToolStatus} {row : Tool}
    (h : setToolStatus reg tool status = (reg', some row)) :
    (reg.toolStatus? tool).isSome = true := by
  have hrow : (reg.tools.modified (fun t => t.id == tool) fun t => { t with status := status }).head? =
      some row := congrArg Prod.snd h
  have hmem := List.mem_of_head? hrow
  obtain ⟨t, ht, hsel, -, -⟩ := Table.modified_key (f := fun t : Tool => { t with status := status })
    (fun _ => rfl) hmem
  have hid : t.id = tool := beq_iff_eq.mp hsel
  unfold Registry.toolStatus? Registry.tool?
  rw [Option.isSome_map, ← hid, Table.find?_key ht]
  rfl

theorem setToolStatusOn_move {e : Endpoint} {tool : ToolId} {status : ToolStatus} {action : String}
    {a : Answer} (h : setToolStatusOn tool status action s = .ok (s', a))
    (hendpoint : e = .disableTool tool ∧ status = .disabled ∧ action = "TOOL_DISABLED" ∨
      e = .enableTool tool ∧ status = .active ∧ action = "TOOL_ENABLED") :
    ToolMove s s' (.api e) := by
  unfold setToolStatusOn at h
  split at h
  · cases h
  rename_i reg row hset
  cases h
  have hknown := setToolStatus_known hset
  refine @ToolMove.set _ _ e tool status _ ?_ hknown (fun t => ?_) rfl fun t => ?_
  · rcases hendpoint with ⟨he, hs, -⟩ | ⟨he, hs, -⟩
    · exact .inl ⟨he, hs⟩
    · exact .inr ⟨he, hs⟩
  · have hafter := setToolStatus_status s.reg tool status t
    rw [hset] at hafter
    show reg.toolStatus? t = _
    rw [hafter]
    split
    · rename_i he
      obtain ⟨x, hx⟩ := Option.isSome_iff_exists.mp (he ▸ hknown)
      rw [hx]
      rfl
    · rfl
  · rcases hendpoint with ⟨-, rfl, rfl⟩ | ⟨-, rfl, rfl⟩
    · simp [AuditEvent.toolStatus?]
    · simp [AuditEvent.toolStatus?]

/-- A new tool is ACTIVE, and every other tool is what it was. -/
theorem createToolOn_move {now : Time} {newId : ToolId} {body : ToolCreate} {a : Answer}
    (h : createToolOn now newId body s = .ok (s', a)) :
    ToolMove s s' (.api (.createTool newId body)) := by
  unfold createToolOn at h
  split at h
  · rename_i hins
    cases h
    obtain ⟨reg₁, hnew, hrow⟩ := map_ok hins
    cases hrow
    have hinsert := (insertTool_ok hnew).1
    refine @ToolMove.created _ _ _ newId ?_ (fun t => ?_) rfl
    · have hfresh : s.reg.tools.find? newId = none := Table.insert?_fresh hinsert
      unfold Registry.toolStatus? Registry.tool?
      rw [hfresh]
      rfl
    · unfold Registry.toolStatus? Registry.tool?
      rw [Table.find?_insert? hinsert]
      split
      · rfl
      · rfl
  · cases h
  · cases h

/-- The records about grants are about versions. -/
theorem grantAudit_toolStatus (action : String) (v : VersionId) (tool : Tool) (t : ToolId) :
    (grantAudit action v tool).toolStatus? t = none := by
  simp [AuditEvent.toolStatus?, grantAudit]

theorem Committed.tools {now : Time} {e : Endpoint} (h : Committed now s s' e) :
    ToolMove s s' (.api e) := by
  cases h with
  | createAgent h =>
    unfold createAgentOn at h
    split at h
    · rename_i hins
      cases h
      obtain ⟨reg₁, hnew, hrow⟩ := map_ok hins
      cases hrow
      exact .of_tools (insertAgent_ok hnew).2.2.2.1 rfl
    · cases h
    · cases h
  | createVersion h =>
    obtain ⟨⟨reg, row⟩, hins, h⟩ := bind_ok.mp h
    obtain ⟨rfl, -⟩ := Prod.mk.inj (pure_ok.mp h)
    obtain ⟨reg₁, hnew, hrow⟩ := map_ok (mapError_ok.mp hins)
    cases hrow
    exact .of_tools (insertVersion_ok hnew).2.2.2.1 rfl
  | activate h =>
    obtain ⟨⟨reg, row⟩, hdefault, h⟩ := bind_ok.mp h
    obtain ⟨rows, hup, -⟩ := mapSnd_ok (mapError_ok.mp hdefault)
    have htools : reg.tools = s.reg.tools := (updateAgents_ok hup).2.2.2.2.1
    cases row with
    | none => cases h
    | some agent =>
      obtain ⟨⟨reg₂, row⟩, hset, h⟩ := bind_ok.mp h
      obtain ⟨rfl, -⟩ := Prod.mk.inj (pure_ok.mp h)
      exact .of_tools ((setVersionStatus_tools (mapError_ok.mp hset)).trans htools) rfl
  | disable h =>
    obtain ⟨⟨reg, row⟩, hstatus, h⟩ := bind_ok.mp h
    obtain ⟨rows, hup, -⟩ := mapSnd_ok (mapError_ok.mp hstatus)
    have htools : reg.tools = s.reg.tools := (updateAgents_ok hup).2.2.2.2.1
    cases row with
    | none => cases h
    | some agent =>
      obtain ⟨reg₂, hset, h⟩ := bind_ok.mp h
      obtain ⟨⟨db, n⟩, -, h⟩ := bind_ok.mp h
      obtain ⟨rfl, -⟩ := Prod.mk.inj (pure_ok.mp h)
      exact .of_tools ((setVersionStatuses_tools (mapError_ok.mp hset)).trans htools) rfl
  | setRoute h =>
    obtain ⟨reg, hroute, h⟩ := bind_ok.mp h
    obtain ⟨rfl, -⟩ := Prod.mk.inj (pure_ok.mp h)
    exact .of_tools (upsertRoute_ok (mapError_ok.mp hroute)).2.2.2.1 rfl
  | createTool h => exact createToolOn_move h
  | disableTool h => exact setToolStatusOn_move h (.inl ⟨rfl, rfl, rfl⟩)
  | enableTool h => exact setToolStatusOn_move h (.inr ⟨rfl, rfl, rfl⟩)
  | grant h =>
    obtain ⟨reg, hgrant, h⟩ := bind_ok.mp h
    obtain ⟨rfl, -⟩ := Prod.mk.inj (pure_ok.mp h)
    refine .same (Registry.toolStatus?_of_tools ?_) (.one rfl (grantAudit_toolStatus _ _ _))
    rcases insertGrant_ok (mapError_ok.mp hgrant) with ⟨rfl, -⟩ | ⟨-, -, -, -, htools⟩
    · rfl
    · exact htools
  | revokeGrant h =>
    unfold revokeGrantOn at h
    split at h
    · cases h
    · rename_i reg hrevoke
      cases h
      obtain rfl := congrArg Prod.fst hrevoke
      exact .same (Registry.toolStatus?_of_tools rfl) (.one rfl (grantAudit_toolStatus _ _ _))
  | submit h => exact .of_tools (by rw [h.1]) h.2

end

variable [PyText]

theorem requestTx_tools (r : Request) : (requestTx r).Writes fun s s' => ToolMove s s' r.op := by
  unfold requestTx
  split
  · rename_i e hop
    rw [hop]
    exact (endpointTx_commits r.now e).mono Committed.tools
  · exact (callTx_writes _).mono fun h => .of_tools (by rw [h.1]) h.2

/-! ## The system -/

/-- What the requests that are let through do to the tools. -/
def Gateway.Tooled (g : Gateway) : Prop :=
  Confined (fun (r : Request) s s' => ToolMove s s' r.op) g.server

theorem plainTx_tools (r : Request) : (plainTx r).Writes fun s s' => ToolMove s s' r.op := by
  unfold plainTx
  split
  · trivial
  · exact requestTx_tools r

omit [PyText] in
theorem ToolAccess.deniedAudit_toolStatus (a : ToolAccess) (toolName reason : String) (t : ToolId) :
    (a.deniedAudit toolName reason).toolStatus? t = none := by
  simp [AuditEvent.toolStatus?, ToolAccess.deniedAudit]

/-- A call says nothing of the status of a tool. -/
theorem ToolCall.Moves.tools {c c' : ToolCall} {s s' : Store} {now : Time}
    (h : c.Moves s now s' c') :
    Journal.Grows (fun e : AuditEvent => ∀ t, e.toolStatus? t = none) s.audit s'.audit := by
  cases h with
  | breaks => exact .refl _
  | reports broken hrep hrecord =>
    obtain ⟨-, -, -, -, haudit, -⟩ := ToolAccess.record_use hrecord
    exact .of_eq haudit
  | audits broken hstage => exact .one rfl (c.access.deniedAudit_toolStatus _ _)
  | starts hstage => exact .refl _
  | ends hstage => exact .refl _

/-- **A step of the system, as far as the tools go.** -/
theorem GatewayStep.tools {g g' : Gateway} {a : GatewayAction} (hg : g.Tooled)
    (h : GatewayStep g a g') : g'.Tooled ∧
      ((∃ k r, a = .serve (.next k) ∧ g.server.Committing k r ∧
          ToolMove g.server.db g'.server.db r.op) ∨
        g'.server.db.reg = g.server.db.reg ∧
          Journal.Grows (fun e : AuditEvent => ∀ t, e.toolStatus? t = none) g.server.db.audit
            g'.server.db.audit) := by
  cases h.move with
  | served hact hplain hbound =>
    refine ⟨Confined.step plainTx_tools hg hplain, ?_⟩
    rcases Confined.commits hg hplain with hdb | ⟨k, r, rfl, hcommit, hmove⟩
    · refine .inr ⟨?_, .of_eq ?_⟩
      · rw [hdb]
      · rw [hdb]
    · exact .inl ⟨k, r, rfl, hcommit, hmove⟩
  | snapped hnew => exact ⟨hg, .inr ⟨rfl, .refl _⟩⟩
  | called hb => exact ⟨hg, .inr ⟨rfl, .refl _⟩⟩
  | woken hc hmoves => exact ⟨hg, .inr ⟨hmoves.same.2.2.2, hmoves.tools⟩⟩

/-! ## The audit log tells the status -/

/-- Of the last record of a tool's status, if there is one, it is the status; a tool
without any is ACTIVE, as it was created. -/
def Store.ToolsTold (s : Store) : Prop :=
  ∀ t, (s.reg.toolStatus? t).isNone = true ∧ replay (AuditEvent.toolStatus? t) none s.audit = none ∨
    s.reg.toolStatus? t = some ((replay (AuditEvent.toolStatus? t) none s.audit).getD .active)

omit [PyText] in
theorem replay_grows {t : ToolId} {es es' : List AuditEvent}
    (h : Journal.Grows (fun e : AuditEvent => ∀ t, e.toolStatus? t = none) es es')
    (status : Option ToolStatus) :
    replay (AuditEvent.toolStatus? t) status es' = replay (AuditEvent.toolStatus? t) status es := by
  obtain ⟨new, rfl, hnew⟩ := h
  rw [replay_append, replay_eq_last]
  have hnone : changes (AuditEvent.toolStatus? t) new = [] :=
    List.filterMap_eq_nil_iff.mpr fun e he => hnew e he t
  rw [hnone]
  rfl

omit [PyText] in
theorem Store.ToolsTold.move {s s' : Store} {o : Operation} (h : s.ToolsTold) (hm : ToolMove s s' o) :
    s'.ToolsTold := by
  intro t
  cases hm with
  | same hstatus haudit =>
    rw [hstatus, replay_grows haudit]
    exact h t
  | @created _ newId hfresh hstatus haudit =>
    rw [hstatus, haudit]
    by_cases ht : newId = t
    · subst ht
      rw [if_pos rfl]
      rcases h newId with ⟨-, hnone⟩ | hsome
      · rw [hnone]
        exact .inr rfl
      · rw [hfresh] at hsome
        cases hsome
    · rw [if_neg ht]
      exact h t
  | @set e tool status record hendpoint hknown hstatus haudit hrecord =>
    rw [hstatus, haudit, replay_append]
    have hlast : ∀ old, replay (AuditEvent.toolStatus? t) old [record] =
        (record.toolStatus? t).or old := fun _ => rfl
    rw [hlast, hrecord]
    by_cases ht : tool = t
    · rw [if_pos ht, if_pos ht]
      exact .inr rfl
    · rw [if_neg ht, if_neg ht]
      exact h t

/-- **The audit log tells the status of every tool.** In every state of every run, the
status of a tool is the last one the audit log names for it, and ACTIVE if it names none. -/
theorem audit_tells_status {acts : List GatewayAction} {g : Gateway}
    (h : Run GatewayStep .empty acts g) (t : ToolId) :
    g.server.db.reg.toolStatus? t = (g.server.db.reg.tool? t).map fun _ =>
      (replay (AuditEvent.toolStatus? t) none g.server.db.audit).getD .active := by
  have hkept := h.invariant (I := fun g : Gateway => g.Tooled ∧ g.server.db.ToolsTold) ?_
    ⟨Confined.start _ _, fun t => .inl ⟨rfl, rfl⟩⟩
  · rcases hkept.2 t with ⟨hnone, -⟩ | hsome
    · unfold Registry.toolStatus? at hnone ⊢
      rw [Option.isNone_map, Option.isNone_iff_eq_none] at hnone
      rw [hnone]
      rfl
    · rw [hsome]
      unfold Registry.toolStatus? at hsome
      obtain ⟨tool, htool, -⟩ := Option.map_eq_some_iff.mp hsome
      rw [htool]
      rfl
  · intro g a g' hg hst
    obtain ⟨htooled, ⟨k, r, -, -, hmove⟩ | ⟨hreg, haudit⟩⟩ := hst.tools hg.1
    · exact ⟨htooled, hg.2.move hmove⟩
    · refine ⟨htooled, fun t => ?_⟩
      rw [hreg, replay_grows haudit]
      exact hg.2 t

/-! ## Switched off -/

/-- The next step enables no such tool. -/
def Gateway.LeavesOff (g : Gateway) (t : ToolId) (a : GatewayAction) : Prop :=
  ∀ k r, a = .serve (.next k) → g.server.Committing k r → r.op ≠ .api (.enableTool t)

omit [PyText] in
theorem ToolMove.off {s s' : Store} {o : Operation} {t : ToolId} (h : ToolMove s s' o)
    (hoff : s.reg.toolStatus? t = some .disabled) (ho : o ≠ .api (.enableTool t)) :
    s'.reg.toolStatus? t = some .disabled := by
  cases h with
  | same hstatus haudit => rw [hstatus, hoff]
  | @created _ newId hfresh hstatus haudit =>
    rw [hstatus, if_neg, hoff]
    intro he
    rw [he, hoff] at hfresh
    cases hfresh
  | @set e tool status record hendpoint hknown hstatus haudit hrecord =>
    rw [hstatus]
    split
    · rename_i he
      rcases hendpoint with ⟨-, rfl⟩ | ⟨rfl, -⟩
      · rfl
      · exact absurd (by rw [he]) ho
    · exact hoff

/-- The claim has read its policies. -/
def Gateway.HasRead (g : Gateway) (claim : Nat) : Prop := ∃ x ∈ g.snapshots, x.claim = claim

/-- No policy that is read from here on lets a call use the tool. -/
structure Gateway.SwitchedOff (t : ToolId) (before : List Snapshot) (g : Gateway) : Prop where
  tooled : g.Tooled
  exact : g.Exact
  off : g.server.db.reg.toolStatus? t = some .disabled
  frozen : ∀ x ∈ g.snapshots, x ∈ before ∨ x.reg.toolStatus? t = some .disabled

theorem Gateway.SwitchedOff.step {g g' : Gateway} {a : GatewayAction} {t : ToolId}
    {before : List Snapshot} (h : g.SwitchedOff t before) (hst : GatewayStep g a g')
    (hleaves : g.LeavesOff t a) : g'.SwitchedOff t before := by
  obtain ⟨htooled, hmove⟩ := hst.tools h.tooled
  refine ⟨htooled, h.exact.step hst, ?_, ?_⟩
  · rcases hmove with ⟨k, r, ha, hcommit, hmove⟩ | ⟨hreg, -⟩
    · exact hmove.off h.off (hleaves k r ha hcommit)
    · rw [hreg, h.off]
  · cases hst.move with
    | served hact hplain hbound => exact h.frozen
    | called hb => exact h.frozen
    | woken hc hmoves => exact h.frozen
    | snapped hnew =>
      intro x hx
      rcases List.mem_append.mp hx with hx | hx
      · exact h.frozen x hx
      · obtain rfl := List.mem_singleton.mp hx
        exact .inr h.off

omit [PyText] in
/-- A policy that was read while the tool is DISABLED does not allow it. -/
theorem frozen_denies {x : Snapshot} {t : ToolId} (hoff : x.reg.toolStatus? t = some .disabled)
    {w : WorkerId} {rows : List Task} {a : ToolAccess} (ha : a ∈ bindPolicies x.reg w rows)
    {toolName : String} {ref : ToolRef}
    (hallowed : authorize a.policy toolName = { allowed := true, tool := some ref }) :
    ref.id ≠ t := by
  rintro rfl
  obtain ⟨tool, huse, rfl⟩ := (authorize_usable ha).mp hallowed
  unfold Registry.toolStatus? at hoff
  rw [show tool.ref.id = tool.id from rfl, huse.registered, Option.map_some, huse.active] at hoff
  cases hoff

/-- **A tool that was switched off is not used under policies read afterwards**: from a
state in which it is DISABLED on, as long as no request that enables it commits, it stays
DISABLED, and no call of an attempt whose claim had not read its policies by then is let
through to it. -/
theorem disabled_tool_unused {before after : List GatewayAction} {g g' : Gateway} {t : ToolId}
    (hbefore : Run GatewayStep .empty before g)
    (hoff : g.server.db.reg.toolStatus? t = some .disabled)
    (hafter : Run (fun g a g' => GatewayStep g a g' ∧ g.LeavesOff t a) g after g') :
    g'.server.db.reg.toolStatus? t = some .disabled ∧
      ∀ c ∈ g'.calls, ∃ b, g'.accesses[c.bound]? = some b ∧
        (¬ g.HasRead b.claim → ∀ tool, c.stage.tool? = some tool → tool.id ≠ t) := by
  have hstart : g.SwitchedOff t g.snapshots := by
    have htooled : g.Tooled := hbefore.invariant (I := Gateway.Tooled)
      (fun hg hst => (hst.tools hg).1) (Confined.start _ _)
    exact ⟨htooled, run_exact hbefore, hoff, fun x hx => .inl hx⟩
  have hend := hafter.invariant (I := Gateway.SwitchedOff t g.snapshots)
    (fun hg hst => hg.step hst.1 hst.2) hstart
  refine ⟨hend.off, fun c hc => ?_⟩
  obtain ⟨b, hb, hsame⟩ := hend.exact.bound c hc
  refine ⟨b, hb, fun hnot tool htool => ?_⟩
  obtain ⟨x, hx, hclaim, w, rows, haccess⟩ := hend.exact.read b (List.mem_of_getElem? hb)
  have hx' : x.reg.toolStatus? t = some .disabled :=
    (hend.frozen x hx).resolve_left fun hold => hnot ⟨x, hold, hclaim⟩
  exact frozen_denies hx' (hsame ▸ haccess) ((hend.exact.cleared c hc).allowed tool htool)

/-- A check that finds every step `LeavesOff` excludes. -/
def Gateway.enables (g : Gateway) (t : ToolId) : GatewayAction → Bool
  | .serve (.next k) => (g.server.txs[k]?).any fun x => match x.op.op with
    | .api (.enableTool u) => u == t
    | _ => false
  | _ => false

omit [PyText] in
theorem Gateway.leavesOff_of_check {g : Gateway} {t : ToolId} {a : GatewayAction}
    (h : g.enables t a = false) : g.LeavesOff t a := by
  intro k r ha hcommit hop
  obtain ⟨x, point, write, hx, hxr, -⟩ := hcommit
  subst ha
  unfold Gateway.enables at h
  simp [hx, hxr, hop] at h

section
omit [PyText]

/-- The tool is switched off when one claim has read its policies and not committed. -/
def searchSwitchedOff : List GatewayAction :=
  searchTaskClaiming.map .serve ++ .snapshot 7 ::
    (.begin ⟨8, .api (.disableTool 1)⟩ :: steps 8 1).map .serve

/-- That claim commits, another one follows, and both attempts call the tool. -/
def calledAfterwards : List GatewayAction :=
  (.next 7 :: .begin ⟨9, .call (.submitTask 8
      { tenantId := 1, taskType := "demo", payload := [], agentVersionId := some 1 })⟩ ::
    steps 9 2 ++ .begin ⟨10, .call (.claimTasks { workerId := "worker", limit := 1, leaseTtlS := 30 }
      fun _ => {})⟩ :: steps 10 4).map .serve ++
  [.snapshot 10, .serve (.next 10), .call 0 "search" [], .call 1 "search" [], .wake 0 11 .done,
    .wake 1 11 .done]

theorem audit_tells_status_switchedOff :
    ∃ g, Run (@GatewayStep PyText.plain) .empty searchSwitchedOff g ∧
      (replay (AuditEvent.toolStatus? 1) none g.server.db.audit).getD .active = .disabled ∧
      g.server.db.reg.toolStatus? 1 = some .disabled := by
  have hend : (exec (@Gateway.step PyText.plain) Gateway.empty searchSwitchedOff).map (fun g =>
      ((replay (AuditEvent.toolStatus? 1) none g.server.db.audit).getD .active,
        (g.server.db.reg.tool? 1).isSome)) = some (.disabled, true) := by decide +kernel
  obtain ⟨g, hg, hseen⟩ := Option.map_eq_some_iff.mp hend
  obtain ⟨htold, hthere⟩ := Prod.mk.inj hseen
  obtain ⟨tool, htool⟩ := Option.isSome_iff_exists.mp hthere
  have hrun : Run (@GatewayStep PyText.plain) .empty searchSwitchedOff g := Run.of_exec hg
  refine ⟨g, hrun, htold, ?_⟩
  rw [@audit_tells_status PyText.plain _ _ hrun 1, htool, Option.map_some, htold]

theorem disabled_tool_unused_calledAfterwards :
    ∃ g g', Run (@GatewayStep PyText.plain) .empty searchSwitchedOff g ∧
      Run (fun (g : Gateway) a g' => @GatewayStep PyText.plain g a g' ∧ g.LeavesOff 1 a) g
        calledAfterwards g' ∧
      (g'.calls.map fun c => (c.bound, c.stage.tool?.isSome)) = [(0, true), (1, false)] ∧
      ∀ c ∈ g'.calls, ∃ b, g'.accesses[c.bound]? = some b ∧
        (b.claim ≠ 7 → ∀ tool, c.stage.tool? = some tool → tool.id ≠ 1) := by
  have hend : ((exec (@Gateway.step PyText.plain) Gateway.empty searchSwitchedOff).bind fun g =>
      (exec (fun (g : Gateway) a => if g.enables 1 a then none
        else @Gateway.step PyText.plain g a) g calledAfterwards).map fun g' : Gateway =>
          (g.server.db.reg.toolStatus? 1, g.snapshots.map Snapshot.claim,
            g'.calls.map fun c => (c.bound, c.stage.tool?.isSome))) =
      some (some .disabled, [7], [(0, true), (1, false)]) := by decide +kernel
  obtain ⟨g, hg, hend⟩ := Option.bind_eq_some_iff.mp hend
  obtain ⟨g', hg', hseen⟩ := Option.map_eq_some_iff.mp hend
  obtain ⟨hoff, hseen⟩ := Prod.mk.inj hseen
  obtain ⟨hread, hcalls⟩ := Prod.mk.inj hseen
  have hbefore : Run (@GatewayStep PyText.plain) .empty searchSwitchedOff g := Run.of_exec hg
  have hafter : Run (fun (g : Gateway) a g' => @GatewayStep PyText.plain g a g' ∧ g.LeavesOff 1 a) g
      calledAfterwards g' := (Run.of_guarded hg').mono fun {s a t} hst =>
    And.intro hst.1 (Gateway.leavesOff_of_check hst.2)
  have honly : ∀ k, g.HasRead k → k = 7 := by
    rintro k ⟨x, hx, rfl⟩
    have hmem := List.mem_map_of_mem (f := Snapshot.claim) hx
    rw [hread] at hmem
    exact List.mem_singleton.mp hmem
  refine ⟨g, g', hbefore, hafter, hcalls, fun c hc => ?_⟩
  obtain ⟨b, hb, hunused⟩ :=
    (@disabled_tool_unused PyText.plain _ _ _ _ _ hbefore hoff hafter).2 c hc
  exact ⟨b, hb, fun hne => hunused fun hread => hne (honly _ hread)⟩

end

end ControlPlane
