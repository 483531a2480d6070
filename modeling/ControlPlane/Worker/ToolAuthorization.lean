import ControlPlane.Server.History
import ControlPlane.Worker.Tools

/-! # Tool authorization is exact

What the policy of a claimed task allows is what the registry held at the
snapshot: the tool of that name in the tenant of the task's version, ACTIVE and
granted to it. The batch it was claimed in, other tenants' tools and grants and
every later change of the registry have no part in it. -/

namespace ControlPlane
open Keyed Fallible Grouping Runs

/-- The task's pinned version may use the tool, in this registry. -/
structure Registry.Usable (reg : Registry) (pinned : Option VersionId) (toolName : String)
    (tool : Tool) : Prop where
  registered : reg.tool? tool.id = some tool
  named : tool.name = toolName
  active : tool.status = .active
  version : ∃ v version agent, pinned = some v ∧ reg.version? v = some version ∧
    version.status ≠ .disabled ∧ reg.agent? version.agentId = some agent ∧
    tool.tenantId = agent.tenantId ∧ reg.granted v tool.id = true

/-- The call ended, and left the tools, as the registry of the snapshot says. -/
structure CallExact {ω : Type} (reg : Registry) (pinned : Option VersionId) (toolName : String)
    (request : JsonObject) (invoker : ToolInvoker ω) (before after : ω)
    (result : Except Raised CallEnd) : Prop where
  invoked : storableText toolName = true → ∀ tool, reg.Usable pinned toolName tool →
    after = (invoker tool.ref request before).2 ∧
      result = CallEnd.told tool.ref (invoker tool.ref request before).1
  denied : storableText toolName = true → (∀ tool, ¬ reg.Usable pinned toolName tool) →
    after = before ∧ ∃ message, result = .ok (.permissionDenied message)
  /-- the decision comes first, and cannot be recorded -/
  unrecorded : storableText toolName = false →
    after = before ∧ result = .error (.integrity .dataError)

/-- The registries agree on what concerns one version: its row and its agent's
tenant, the tools of that tenant, and its own grants. -/
structure Registry.SameFor (reg reg' : Registry) (v : VersionId) : Prop where
  row : (reg.version? v).bind reg.versionRow = (reg'.version? v).bind reg'.versionRow
  tools : ∀ row, (reg.version? v).bind reg.versionRow = some row →
    ∀ t : Tool, t.tenantId = row.tenantId → (t ∈ reg.tools.rows ↔ t ∈ reg'.tools.rows)
  grants : ∀ t, reg.granted v t = reg'.granted v t

/-- The policy an attempt of a batch is bound to. -/
theorem bindPolicies_policy {reg : Registry} {w : WorkerId} {claimed : List Task} {a : ToolAccess}
    (h : a ∈ bindPolicies reg w claimed) : a.row ∈ claimed ∧
      a.policy = ((a.row.agentVersionId.bind fun v =>
        ((reg.version? v).bind reg.versionRow).map reg.policyOf).getD ungoverned) := by
  obtain ⟨row, hrow, rfl⟩ := List.mem_map.mp h
  refine ⟨hrow, ?_⟩
  show policyFor _ row = _
  unfold policyFor
  cases hv : row.agentVersionId with
  | none => rfl
  | some v =>
    have hin : some v ∈ claimed.map Task.agentVersionId := hv ▸ List.mem_map_of_mem hrow
    simp only [Option.bind_some]
    rw [snapshotPolicies_lookup, if_pos hin]

/-- What the policy of a version allows. -/
theorem authorize_policyOf {reg : Registry} {row : VersionRow} {toolName : String} {ref : ToolRef} :
    authorize (reg.policyOf row) toolName = { allowed := true, tool := some ref } ↔
      row.status ≠ .disabled ∧ ∃ t ∈ reg.tools.rows, t.tenantId = row.tenantId ∧
        t.name = toolName ∧ t.status = .active ∧ reg.granted row.id t.id = true ∧ t.ref = ref := by
  rw [authorize_allowed_iff, lookup_policyOf_tools, mem_policyOf_granted]
  have hdisabled : (reg.policyOf row).versionDisabled = false ↔ row.status ≠ .disabled := by
    show (row.status == .disabled) = false ↔ _
    exact beq_eq_false_iff_ne
  rw [hdisabled]
  constructor
  · rintro ⟨hv, -, ⟨t, ht, htenant, hname, rfl⟩, hs, hg⟩
    exact ⟨hv, t, ht, htenant, hname, hs, hg, rfl⟩
  · rintro ⟨hv, t, ht, htenant, hname, hs, hg, rfl⟩
    exact ⟨hv, Option.some_ne_none _, ⟨t, ht, htenant, hname, rfl⟩, hs, hg⟩

/-- The decision on an attempt of a batch, in terms of the registry. -/
theorem authorize_usable {reg : Registry} {w : WorkerId} {claimed : List Task} {a : ToolAccess}
    (h : a ∈ bindPolicies reg w claimed) {toolName : String} {ref : ToolRef} :
    authorize a.policy toolName = { allowed := true, tool := some ref } ↔
      ∃ tool, reg.Usable a.row.agentVersionId toolName tool ∧ tool.ref = ref := by
  rw [(bindPolicies_policy h).2]
  cases hv : a.row.agentVersionId with
  | none =>
    rw [Option.bind_none, Option.getD_none, authorize_ungoverned]
    constructor
    · intro hd
      cases hd
    · rintro ⟨tool, ⟨-, -, -, v, -, -, hpin, -⟩, -⟩
      cases hpin
  | some v =>
    rw [Option.bind_some]
    cases hrow : (reg.version? v).bind reg.versionRow with
    | none =>
      rw [Option.map_none, Option.getD_none, authorize_ungoverned]
      constructor
      · intro hd
        cases hd
      · rintro ⟨tool, ⟨-, -, -, v', version, agent, hpin, hversion, -, hagent, -⟩, -⟩
        obtain rfl := Option.some.inj hpin
        simp [hversion, Registry.versionRow, hagent] at hrow
    | some row =>
      obtain ⟨version, hversion, hjoin⟩ := Option.bind_eq_some_iff.mp hrow
      obtain ⟨agent, hagent, rfl⟩ := Option.map_eq_some_iff.mp hjoin
      have hid : version.id = v := Table.key_of_find? hversion
      rw [Option.map_some, Option.getD_some, authorize_policyOf]
      constructor
      · rintro ⟨hs, t, ht, htenant, hname, hactive, hg, href⟩
        exact ⟨t, ⟨Table.find?_key ht, hname, hactive, v, version, agent, rfl, hversion, hs, hagent,
          htenant, hid ▸ hg⟩, href⟩
      · rintro ⟨t, ⟨ht, hname, hactive, v', version', agent', hpin, hversion', hs, hagent', htenant,
          hg⟩, href⟩
        obtain rfl := Option.some.inj hpin
        obtain rfl := Option.eq_some_unique hversion hversion'
        obtain rfl := Option.eq_some_unique hagent hagent'
        exact ⟨hs, t, Table.mem_of_find? ht, htenant, hname, hactive, hid.symm ▸ hg, href⟩

/-- The decision on a version's policy depends on its own share of the registry. -/
theorem authorize_sameFor {reg reg' : Registry} {v : VersionId} (h : reg.SameFor reg' v)
    (toolName : String) :
    authorize ((((reg.version? v).bind reg.versionRow).map reg.policyOf).getD ungoverned) toolName =
      authorize ((((reg'.version? v).bind reg'.versionRow).map reg'.policyOf).getD ungoverned)
        toolName := by
  rw [← h.row]
  cases hrow : (reg.version? v).bind reg.versionRow with
  | none => rfl
  | some row =>
    have hid : row.id = v := by
      obtain ⟨version, hversion, hjoin⟩ := Option.bind_eq_some_iff.mp hrow
      exact (versionRow_id hjoin).trans (Table.key_of_find? hversion)
    have hlookup : (reg.policyOf row).toolsByName.lookup toolName =
        (reg'.policyOf row).toolsByName.lookup toolName := by
      refine Option.ext fun ref => ?_
      rw [lookup_policyOf_tools, lookup_policyOf_tools]
      constructor
      · rintro ⟨t, ht, htenant, hrest⟩
        exact ⟨t, (h.tools row hrow t htenant).mp ht, htenant, hrest⟩
      · rintro ⟨t, ht, htenant, hrest⟩
        exact ⟨t, (h.tools row hrow t htenant).mpr ht, htenant, hrest⟩
    have hgranted : (reg.policyOf row).grantedToolIds = (reg'.policyOf row).grantedToolIds := by
      ext x
      rw [mem_policyOf_granted, mem_policyOf_granted, hid, h.grants]
    show authorize (reg.policyOf row) toolName = authorize (reg'.policyOf row) toolName
    unfold authorize
    rw [hlookup, hgranted]
    rfl

/-! ## The calls of an attempt -/

/-- What happens while an attempt runs: its adapter calls a tool, or something
else commits. -/
inductive AttemptLabel (ω : Type) where
  | call (now : Time) (toolName : String) (request : JsonObject) (invoker : ToolInvoker ω)
      (before after : ω) (result : Except Raised CallEnd)
  | change

/-- A call ended as the registry says; nothing else is asked of a change. -/
def AttemptLabel.Exact {ω : Type} (reg : Registry) (pinned : Option VersionId) :
    AttemptLabel ω → Prop
  | call _ toolName request invoker before after result =>
    CallExact reg pinned toolName request invoker before after result
  | change => True

variable [PyText] {ω : Type}

/-- No change removes a task; the registry and the tools may become anything. -/
inductive AccessStep (a : ToolAccess) : Store × ω → AttemptLabel ω → Store × ω → Prop
  | called {s s' : Store} {x x' : ω} {now : Time} {toolName : String} {request : JsonObject}
      {invoker : ToolInvoker ω} {r : Except Raised CallEnd}
      (h : callTool (some a) invoker s x now toolName request = (s', x', r)) :
      AccessStep a (s, x) (.call now toolName request invoker x x' r) (s', x')
  | changed {s s' : Store} {x x' : ω}
      (h : ∀ i, (s.db.task? i).isSome = true → (s'.db.task? i).isSome = true) :
      AccessStep a (s, x) .change (s', x')

/-- **One call is exact.** -/
theorem callTool_exact {reg : Registry} {w : WorkerId} {claimed : List Task} {a : ToolAccess}
    (ha : a ∈ bindPolicies reg w claimed) {s s' : Store} {x x' : ω} {now : Time}
    {toolName : String} {request : JsonObject} {invoker : ToolInvoker ω}
    {r : Except Raised CallEnd} (ht : (s.db.task? a.row.id).isSome = true)
    (h : callTool (some a) invoker s x now toolName request = (s', x', r)) :
    CallExact reg a.row.agentVersionId toolName request invoker x x' r ∧
      ∀ i, s'.db.task? i = s.db.task? i := by
  have hnamed : ∀ ref, authorize a.policy toolName = { allowed := true, tool := some ref } →
      ref.name = toolName := by
    intro ref hallow
    obtain ⟨tool, huse, rfl⟩ := (authorize_usable ha).mp hallow
    exact huse.named
  obtain ⟨s₁, r₁, htask, hend⟩ := callTool_decided invoker x now toolName request ht hnamed
  rcases hend with ⟨hname, ref, hallow, hcall, htold⟩ | ⟨hname, hdeny, hcall, hr⟩ |
    ⟨hname, hcall, hr⟩
  · -- let through: every tool that may be used is the one that was
    rw [h] at hcall
    cases hcall
    refine ⟨⟨fun _ tool huse => ?_, fun _ hno => ?_, fun hnot => ?_⟩, htask⟩
    · have hsame := (authorize_usable ha).mpr ⟨tool, huse, rfl⟩
      rw [hallow] at hsame
      obtain rfl : ref = tool.ref := Option.some.inj (AuthzDecision.mk.inj hsame).2.1
      exact ⟨rfl, htold⟩
    · obtain ⟨tool, huse, -⟩ := (authorize_usable ha).mp hallow
      exact absurd huse (hno tool)
    · rw [hname] at hnot
      cases hnot
  · rw [h] at hcall
    cases hcall
    refine ⟨⟨fun _ tool huse => ?_, fun _ _ => ⟨rfl, _, hr⟩, fun hnot => ?_⟩, htask⟩
    · rw [(authorize_usable ha).mpr ⟨tool, huse, rfl⟩] at hdeny
      cases hdeny
    · rw [hname] at hnot
      cases hnot
  · rw [h] at hcall
    cases hcall
    have hnot : ¬ storableText toolName = true := by rw [hname]; exact Bool.false_ne_true
    exact ⟨⟨fun hyes => absurd hyes hnot, fun hyes => absurd hyes hnot, fun _ => ⟨rfl, hr⟩⟩, htask⟩

theorem AccessStep.exact {reg : Registry} {w : WorkerId} {claimed : List Task} {a : ToolAccess}
    (ha : a ∈ bindPolicies reg w claimed) {p p' : Store × ω} {l : AttemptLabel ω}
    (h : AccessStep a p l p') (ht : (p.1.db.task? a.row.id).isSome = true) :
    l.Exact reg a.row.agentVersionId ∧ (p'.1.db.task? a.row.id).isSome = true := by
  cases h with
  | called hcall =>
    obtain ⟨hexact, htask⟩ := callTool_exact ha ht hcall
    exact ⟨hexact, by rw [htask]; exact ht⟩
  | changed hkeep => exact ⟨trivial, hkeep _ ht⟩

/-- **Tool authorization is exact.** Every call an attempt makes, in whatever
sequence and whatever is committed meanwhile, runs the invoker once, with the tool of
that name, if the registry of the snapshot lets the task's pinned version use one; if
not, it is denied and nothing is run. A name that cannot be recorded ends in the
database's error instead, before the invoker. The decision is the same in every other
registry and batch that agree on the version's own share. -/
theorem tool_authorization_exact (reg : Registry) (w : WorkerId) (claimed : List Task)
    (a : ToolAccess) (ha : a ∈ bindPolicies reg w claimed) :
    (∀ (p p' : Store × ω) (labels : List (AttemptLabel ω)),
        (p.1.db.task? a.row.id).isSome = true → Run (AccessStep a) p labels p' →
        ∀ l ∈ labels, l.Exact reg a.row.agentVersionId) ∧
      ∀ (reg' : Registry) (w' : WorkerId) (claimed' : List Task) (a' : ToolAccess),
        a' ∈ bindPolicies reg' w' claimed' → a'.row.agentVersionId = a.row.agentVersionId →
        (∀ v, a.row.agentVersionId = some v → reg.SameFor reg' v) →
        ∀ toolName, authorize a.policy toolName = authorize a'.policy toolName := by
  constructor
  · intro p p' labels ht hrun
    induction hrun with
    | nil p => simp
    | cons hstep _ ih =>
      obtain ⟨hexact, ht'⟩ := hstep.exact ha ht
      intro l hl
      rcases List.mem_cons.mp hl with rfl | hl
      · exact hexact
      · exact ih ht' l hl
  · intro reg' w' claimed' a' ha' hpin hsame toolName
    rw [(bindPolicies_policy ha).2, (bindPolicies_policy ha').2, hpin]
    cases hv : a.row.agentVersionId with
    | none => rfl
    | some v =>
      simp only [Option.bind_some]
      exact authorize_sameFor (hsame v hv) toolName

section
omit [PyText]

/-- A tenant with a task pinned to version 3. -/
def pinnedTask : Database :=
  @history PyText.plain .empty
    [⟨0, .createTenant 1 "tenant" 10 1000⟩,
     ⟨0, .submitTask 7
       { tenantId := 1, taskType := "demo", payload := [], agentVersionId := some 3 }⟩]

/-- Version 3 is ACTIVE and holds a grant for the tenant's one tool. -/
def searchGranted : Registry :=
  Except.toOption (do
    let reg ← Registry.empty.insertAgent pinnedTask.tenants
      { id := 2, tenantId := 1, name := "agent", createdAt := 0, updatedAt := 0 }
    let reg ← reg.insertVersion
      { id := 3, agentId := 2, version := 1, status := .active, createdAt := 0 }
    let (reg, _) ← createTool pinnedTask.tenants reg
      { id := 4, tenantId := 1, name := "search", createdAt := 0 }
    grantTool reg 0 3 4) |>.getD .empty

def pinnedRow : Task := (pinnedTask.task? 7).get (by decide +kernel)

def pinnedAccess : ToolAccess where
  workerId := "worker"
  row := pinnedRow
  policy := policyFor (snapshotPolicies searchGranted [pinnedRow.agentVersionId]) pinnedRow

/-- A tool that keeps account of its uses. -/
def loggedInvoker : ToolInvoker (List (ToolRef × JsonObject)) :=
  fun tool request log => (.ok request, log ++ [(tool, request)])

/-- The tool is disabled between the snapshot and the call. -/
def searchDisabled : Store where
  db := pinnedTask
  reg := (setToolStatus searchGranted 4 .disabled).1

theorem pinnedAccess_bound : pinnedAccess ∈ bindPolicies searchGranted "worker" [pinnedRow] :=
  List.mem_map_of_mem (List.mem_singleton_self _)

theorem tool_authorization_exact_disabledLater : ∃ tool s',
    searchGranted.Usable pinnedRow.agentVersionId "search" tool ∧
      @callTool PyText.plain _ (some pinnedAccess) loggedInvoker searchDisabled [] 5 "search" [] =
        (s', [(tool.ref, [])], .ok (.returned tool.ref [])) := by
  have hallow : authorize pinnedAccess.policy "search" =
      { allowed := true, tool := some { id := 4, name := "search", toolType := .simulated,
                                        status := .active } } := by decide +kernel
  obtain ⟨tool, huse, -⟩ := (authorize_usable pinnedAccess_bound).mp hallow
  obtain ⟨s', x', r, hcall⟩ : ∃ s' x' r, @callTool PyText.plain _ (some pinnedAccess)
      loggedInvoker searchDisabled [] 5 "search" [] = (s', x', r) := ⟨_, _, _, rfl⟩
  have hrun : Run (@AccessStep PyText.plain _ pinnedAccess) (⟨pinnedTask, searchGranted, []⟩, [])
      [.change, .call 5 "search" [] loggedInvoker [] x' r] (s', x') :=
    .cons (t := (searchDisabled, [])) (@AccessStep.changed PyText.plain _ _ _ _ _ _ fun _ h => h)
      (.single (@AccessStep.called PyText.plain _ _ _ _ _ _ _ _ _ _ _ hcall))
  have hexact := (@tool_authorization_exact PyText.plain _ searchGranted "worker"
    [pinnedRow] pinnedAccess pinnedAccess_bound).1 _ _ _ (by decide +kernel) hrun
    (.call 5 "search" [] loggedInvoker [] x' r) (by simp)
  obtain ⟨rfl, rfl⟩ := CallExact.invoked hexact (by decide) tool huse
  exact ⟨tool, s', huse, hcall⟩

/-- No tool has a name with a NUL in it, and yet the call is not denied. -/
theorem nul_name_not_denied :
    (∀ tool, ¬ searchGranted.Usable pinnedRow.agentVersionId "\x00" tool) ∧
      @callTool PyText.plain _ (some pinnedAccess) loggedInvoker searchDisabled [] 5 "\x00" [] =
        (searchDisabled, [], .error (.integrity .dataError)) := by
  constructor
  · intro tool huse
    have hallow := (authorize_usable pinnedAccess_bound).mpr ⟨tool, huse, rfl⟩
    have hdeny : (authorize pinnedAccess.policy "\x00").allowed = false := by decide +kernel
    rw [hallow] at hdeny
    cases hdeny
  · have hrefused := pinnedAccess.onDecision_refused searchDisabled 5
      (authorize pinnedAccess.policy "\x00") (by decide : storableText "\x00" = false)
    unfold callTool ToolAccess.call
    dsimp only
    rw [hrefused]

end

end ControlPlane
