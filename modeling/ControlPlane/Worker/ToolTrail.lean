import ControlPlane.Lib.Tally
import ControlPlane.Server.Pinning
import ControlPlane.Worker.ToolGateway

/-! # Every use of a tool is on record

The calls write their records one at a time, each in a transaction of its own. Counted by
task, attempt, tool and kind, what stands in the timeline and in the audit log is what the
calls have come to, in every interleaving with everything else: no use is missing, none is
there twice, and no failed completion takes one back. -/

namespace ControlPlane
open Keyed Fallible Transactions Runs Journal

/-! ## Records -/

/-- Whose use of which tool a record is about. -/
structure ToolUse where
  taskId : TaskId
  attempt : Int
  toolName : String
  deriving DecidableEq

inductive ToolRecord where
  | allowed | denied | executed | failed
  /-- the record in the audit log -/
  | audited
  deriving DecidableEq

/-- The type of the event; the audit log has none. -/
def ToolRecord.eventType? : ToolRecord → Option EventType
  | allowed => some .toolAccessAllowed
  | denied => some .toolAccessDenied
  | executed => some .toolExecuted
  | failed => some .toolExecutionFailed
  | audited => none

def ToolEvent.record : ToolEvent → ToolRecord
  | .allowed _ => .allowed
  | .denied .. => .denied
  | .executed _ ok _ => if ok then .executed else .failed

def ToolEvent.toolName : ToolEvent → String
  | .allowed tool => tool
  | .denied tool _ => tool
  | .executed tool _ _ => tool

/-- What an event of the tool runtime is about, read off its columns. -/
def TaskEvent.use? (e : TaskEvent) : Option ToolUse :=
  match e.attempt, e.data with
  | some n, .obj data => match data.lookup "tool" with
    | some (.str tool) => some ⟨e.taskId, n, tool⟩
    | _ => none
  | _, _ => none

/-- What the audit record of a denial is about. -/
def AuditEvent.use? (e : AuditEvent) : Option ToolUse :=
  match e.resourceId, e.data with
  | some i, .obj data => match data.lookup "attempt", data.lookup "tool" with
    | some (.int n), some (.str tool) => some ⟨i, n, tool⟩
    | _, _ => none
  | _, _ => none

/-- How many records of a kind there are about a use. -/
def Store.onRecord (s : Store) (u : ToolUse) (k : ToolRecord) : Nat :=
  match k.eventType? with
  | some ty => s.db.events.countP fun e => decide (e.eventType = ty ∧ e.use? = some u)
  | none => s.audit.countP fun e => decide (e.action = deniedAction ∧ e.use? = some u)

/-- What a call that has come this far has written. -/
def CallStage.records : CallStage → List ToolRecord
  | .deciding => []
  | .denied => [.denied]
  | .allowed _ => [.allowed]
  | .invoking _ => [.allowed]
  | .invoked .. => [.allowed]
  | .answered (.permissionDenied _) => [.denied, .audited]
  | .answered (.returned ..) => [.allowed, .executed]
  | .answered (.invokerRaised ..) => [.allowed, .failed]

/-- The tool the call is allowed to use. -/
def CallStage.tool? : CallStage → Option ToolRef
  | .deciding => none
  | .denied => none
  | .allowed tool => tool
  | .invoking tool => some tool
  | .invoked tool _ => some tool
  | .answered r => r.tool?

def CallStage.refused : CallStage → Bool
  | .denied => true
  | .answered (.permissionDenied _) => true
  | _ => false

/-- The end of a call whose records are all written. -/
def CallStage.end? : CallStage → Option CallEnd
  | .answered r => some r
  | _ => none

/-- What the adapter was told. -/
def ToolCall.told (c : ToolCall) : Option CallEnd := if c.broken then none else c.stage.end?

/-- What the adapter would have been told, had the call not been cut short after its last
transaction had committed. -/
def ToolCall.untold (c : ToolCall) : Option CallEnd := if c.broken then c.stage.end? else none

def CallEnd.isDenied : CallEnd → Bool
  | permissionDenied _ => true
  | _ => false

def CallEnd.isReturned : CallEnd → Bool
  | returned .. => true
  | _ => false

def CallEnd.isRaised : CallEnd → Bool
  | invokerRaised .. => true
  | _ => false

theorem ToolCall.told_denied {c : ToolCall} (h : c.told.any CallEnd.isDenied = true) :
    ∃ message, c.stage = .answered (.permissionDenied message) := by
  unfold ToolCall.told CallStage.end? at h
  split at h
  · cases h
  split at h
  · rename_i r hstage
    cases r with
    | permissionDenied message => exact ⟨message, hstage⟩
    | _ => cases h
  · cases h

def ToolCall.use (c : ToolCall) : ToolUse := ⟨c.access.row.id, c.access.row.attempt, c.toolName⟩

/-- The call has written its record of this kind, and it is about this use. -/
def ToolCall.wrote (c : ToolCall) (u : ToolUse) (k : ToolRecord) : Bool :=
  decide (c.use = u ∧ k ∈ c.stage.records)

/-! ## Writing one -/

theorem ToolEvent.record_eventType (e : ToolEvent) : e.record.eventType? = some e.eventType := by
  cases e with
  | allowed tool => rfl
  | denied tool reason => rfl
  | executed tool ok error => cases ok <;> rfl

theorem ToolRecord.eventType?_inj {k l : ToolRecord} (h : k.eventType? = l.eventType?) : k = l := by
  cases k <;> cases l <;> first | rfl | cases h

theorem ToolRecord.eventType?_ofTools {k : ToolRecord} {ty : EventType}
    (h : k.eventType? = some ty) : ty.ofTools = true := by
  cases k <;> cases h <;> rfl

theorem ToolAccess.record_use {a : ToolAccess} {s s' : Store} {now : Time} {e : ToolEvent}
    (h : a.record s now e = .ok s') : ∃ f : TaskEvent, s'.db.events = s.db.events ++ [f] ∧
      f.eventType = e.eventType ∧ f.use? = some ⟨a.row.id, a.row.attempt, e.toolName⟩ ∧
      s'.audit = s.audit ∧ s'.reg = s.reg := by
  obtain ⟨-, -, h⟩ := bind_ok.mp h
  obtain ⟨db, hrec, h⟩ := bind_ok.mp h
  obtain rfl := pure_ok.mp h
  refine ⟨_, (insertEvent_ok hrec).1, rfl, ?_, rfl, rfl⟩
  cases e <;> rfl

/-- One more record of a kind about a use. -/
theorem ToolAccess.record_onRecord {a : ToolAccess} {s s' : Store} {now : Time} {e : ToolEvent}
    (h : a.record s now e = .ok s') (u : ToolUse) (k : ToolRecord) :
    s'.onRecord u k = s.onRecord u k +
      if ⟨a.row.id, a.row.attempt, e.toolName⟩ = u ∧ e.record = k then 1 else 0 := by
  obtain ⟨f, hevents, hty, huse, haudit, -⟩ := record_use h
  unfold Store.onRecord
  cases hk : k.eventType? with
  | none =>
    have hne : e.record ≠ k := fun he => by rw [← he, e.record_eventType] at hk; cases hk
    simp [haudit, hne]
  | some ty =>
    have hiff : e.eventType = ty ↔ e.record = k := by
      constructor
      · intro he
        refine ToolRecord.eventType?_inj ?_
        rw [hk, ← he, e.record_eventType]
      · intro he
        rw [← he, e.record_eventType] at hk
        exact Option.some.inj hk
    simp only [hevents, List.countP_append, List.countP_singleton, hty, huse, hiff,
      Option.some.injEq, decide_eq_true_eq, and_comm (a := e.record = k)]

theorem recordAudit_onRecord (a : ToolAccess) (s : Store) (toolName reason : String) (u : ToolUse)
    (k : ToolRecord) : (recordAudit s (a.deniedAudit toolName reason)).onRecord u k =
      s.onRecord u k + if ⟨a.row.id, a.row.attempt, toolName⟩ = u ∧ .audited = k then 1 else 0 := by
  have huse : (a.deniedAudit toolName reason).use? =
      some ⟨a.row.id, a.row.attempt, toolName⟩ := by
    simp [AuditEvent.use?, ToolAccess.deniedAudit, List.lookup_cons]
  have haction : (a.deniedAudit toolName reason).action = deniedAction := rfl
  unfold Store.onRecord
  cases k <;> simp [ToolRecord.eventType?, recordAudit, List.countP_append, List.countP_singleton,
    huse, haction]

/-! ## Keeping count -/

/-- A use is recorded under the name it was asked for by. -/
def ToolAccess.Named (a : ToolAccess) : Prop :=
  ∀ toolName tool, authorize a.policy toolName = { allowed := true, tool := some tool } →
    tool.name = toolName

/-- What the stage of a call says about the decision on it. -/
structure ToolCall.Cleared (c : ToolCall) : Prop where
  allowed : ∀ tool, c.stage.tool? = some tool →
    authorize c.access.policy c.toolName = { allowed := true, tool := some tool }
  denied : c.stage.refused = true → (authorize c.access.policy c.toolName).allowed = false
  /-- an ALLOW comes with its tool -/
  tool : c.stage ≠ .allowed none

/-- A refusal the adapter is told of is in the audit log. -/
def ToolCall.Audited (c : ToolCall) (s : Store) : Prop :=
  ∀ message, c.stage = .answered (.permissionDenied message) →
    c.access.deniedAudit c.toolName (authorize c.access.policy c.toolName).reasonValue ∈ s.audit

theorem bindPolicies_named {reg : Registry} {w : WorkerId} {claimed : List Task} {a : ToolAccess}
    (h : a ∈ bindPolicies reg w claimed) : a.Named := by
  intro toolName ref hallowed
  obtain ⟨tool, huse, rfl⟩ := (authorize_usable h).mp hallowed
  exact huse.named

/-- A call that has written one record more. -/
theorem ToolCall.wrote_next (c : ToolCall) {stage : CallStage} (broken : Bool) {r : ToolRecord}
    (hrecords : stage.records = c.stage.records ++ [r]) (hnew : r ∉ c.stage.records)
    (u : ToolUse) (k : ToolRecord) :
    (if ({ c with stage := stage, broken := broken } : ToolCall).wrote u k then 1 else 0) =
      (if c.wrote u k then 1 else 0) + if c.use = u ∧ r = k then 1 else 0 := by
  have huse : ({ c with stage := stage, broken := broken } : ToolCall).use = c.use := rfl
  unfold ToolCall.wrote
  rw [huse]
  dsimp only
  rw [hrecords]
  by_cases hk : r = k
  · subst hk
    simp [hnew]
  · simp [hk, Ne.symm hk]

/-- The next stage has the record that was asked for, and no other, more. -/
theorem ToolCall.Reports.records {c : ToolCall} {e : ToolEvent} {stage : CallStage}
    (h : c.Reports e stage) :
    stage.records = c.stage.records ++ [e.record] ∧ e.record ∉ c.stage.records := by
  cases h with
  | allow hstage => simp [hstage, CallStage.records, ToolEvent.record]
  | deny hstage => simp [hstage, CallStage.records, ToolEvent.record]
  | returned hstage => simp [hstage, CallStage.records, ToolEvent.record]
  | raised hstage => simp [hstage, CallStage.records, ToolEvent.record]

theorem ToolCall.Reports.toolName {c : ToolCall} {e : ToolEvent} {stage : CallStage}
    (h : c.Reports e stage) (hc : c.Cleared) (hnamed : c.access.Named) : e.toolName = c.toolName := by
  cases h with
  | allow => rfl
  | deny => rfl
  | returned hstage => exact hnamed _ _ (hc.allowed _ (by rw [hstage]; rfl))
  | raised hstage => exact hnamed _ _ (hc.allowed _ (by rw [hstage]; rfl))

variable [PyText]

/-- **A call's step adds to the records what it adds to its own.** -/
theorem ToolCall.Moves.counts {c c' : ToolCall} {s s' : Store} {now : Time}
    (h : c.Moves s now s' c') (hc : c.Cleared) (hnamed : c.access.Named) (u : ToolUse)
    (k : ToolRecord) : ∃ n, s'.onRecord u k = s.onRecord u k + n ∧
      (if c'.wrote u k then 1 else 0) = (if c.wrote u k then 1 else 0) + n := by
  cases h with
  | breaks => exact ⟨0, rfl, rfl⟩
  | reports broken hrep hrecord =>
    obtain ⟨hrecords, hnew⟩ := hrep.records
    refine ⟨_, c.access.record_onRecord hrecord u k, ?_⟩
    rw [hrep.toolName hc hnamed]
    exact c.wrote_next broken hrecords hnew u k
  | audits broken hstage =>
    refine ⟨_, recordAudit_onRecord .., c.wrote_next broken ?_ ?_ u k⟩
    · rw [hstage]
      rfl
    · simp [hstage, CallStage.records]
  | starts hstage => exact ⟨0, rfl, by simp [ToolCall.wrote, ToolCall.use, hstage, CallStage.records]⟩
  | ends hstage => exact ⟨0, rfl, by simp [ToolCall.wrote, ToolCall.use, hstage, CallStage.records]⟩

theorem ToolCall.Moves.cleared {c c' : ToolCall} {s s' : Store} {now : Time}
    (h : c.Moves s now s' c') (hc : c.Cleared) : c'.Cleared := by
  have hsame : ∀ {stage : CallStage} {broken : Bool}, stage.tool? = c.stage.tool? →
      stage.refused = c.stage.refused → stage ≠ .allowed none →
      ({ c with stage := stage, broken := broken } : ToolCall).Cleared :=
    fun htool hrefused hstage =>
      ⟨fun tool ht => hc.allowed tool (htool ▸ ht), fun hr => hc.denied (hrefused ▸ hr), hstage⟩
  cases h with
  | breaks => exact hsame rfl rfl hc.tool
  | reports broken hrep hrecord =>
    cases hrep with
    | allow hstage hd =>
      refine ⟨fun tool htool => ?_, fun hr => (by cases hr), by simp⟩
      obtain rfl := Option.some.inj htool
      exact hd
    | deny hstage hd => exact ⟨fun tool htool => (by cases htool), fun _ => hd, by simp⟩
    | returned hstage => exact hsame (by rw [hstage]; rfl) (by rw [hstage]; rfl) (by simp)
    | raised hstage => exact hsame (by rw [hstage]; rfl) (by rw [hstage]; rfl) (by simp)
  | audits broken hstage => exact hsame (by rw [hstage]; rfl) (by rw [hstage]; rfl) (by simp)
  | starts hstage => exact hsame (by rw [hstage]; rfl) (by rw [hstage]; rfl) (by simp)
  | ends hstage => exact hsame (by rw [hstage]; rfl) (by rw [hstage]; rfl) (by simp)

/-- A call stays about the same use, and leaves the registry alone. -/
theorem ToolCall.Moves.same {c c' : ToolCall} {s s' : Store} {now : Time}
    (h : c.Moves s now s' c') : c'.bound = c.bound ∧ c'.access = c.access ∧
      c'.toolName = c.toolName ∧ s'.reg = s.reg := by
  cases h with
  | breaks => exact ⟨rfl, rfl, rfl, rfl⟩
  | reports broken hrep hrecord =>
    obtain ⟨-, -, -, -, -, hreg⟩ := ToolAccess.record_use hrecord
    exact ⟨rfl, rfl, rfl, hreg⟩
  | audits => exact ⟨rfl, rfl, rfl, rfl⟩
  | starts => exact ⟨rfl, rfl, rfl, rfl⟩
  | ends => exact ⟨rfl, rfl, rfl, rfl⟩

/-- What is on record stays there. -/
theorem ToolCall.Moves.grows {c c' : ToolCall} {s s' : Store} {now : Time}
    (h : c.Moves s now s' c') : s.db.events <+: s'.db.events ∧ s.audit <+: s'.audit := by
  cases h with
  | breaks => exact ⟨List.prefix_refl _, List.prefix_refl _⟩
  | reports broken hrep hrecord =>
    obtain ⟨f, hevents, -, -, haudit, -⟩ := ToolAccess.record_use hrecord
    rw [hevents, haudit]
    exact ⟨List.prefix_append _ _, List.prefix_refl _⟩
  | audits => exact ⟨List.prefix_refl _, List.prefix_append _ _⟩
  | starts => exact ⟨List.prefix_refl _, List.prefix_refl _⟩
  | ends => exact ⟨List.prefix_refl _, List.prefix_refl _⟩

theorem ToolCall.Moves.audited {c c' : ToolCall} {s s' : Store} {now : Time}
    (h : c.Moves s now s' c') (hc : c.Audited s) : c'.Audited s' := by
  intro message hanswer
  cases h with
  | breaks => exact hc message hanswer
  | reports broken hrep hrecord => cases hrep <;> cases hanswer
  | audits broken hstage => exact List.mem_append_right _ (List.mem_singleton_self _)
  | starts hstage => cases hanswer
  | ends hstage => cases hanswer

/-! ## The system -/

/-- What the server commits is no use of a tool. -/
def Gateway.Plain (g : Gateway) : Prop :=
  Confined (fun (_ : Request) s s' => Store.Grows s s') g.server

/-- The programs of the requests that are let through. -/
def plainTx (r : Request) : Program := if r.usesTool then .fail .internal else requestTx r

theorem plainTx_grows (r : Request) : (plainTx r).Writes Store.Grows := by
  unfold plainTx
  split
  · trivial
  · rename_i hr
    exact requestTx_grows (Bool.eq_false_iff.mpr hr)

theorem act_plain {m : Server} {a : Transactions.Action Request}
    (ha : (GatewayAction.serve a).foreign = false) :
    act requestTx m a = act plainTx m a := by
  cases a with
  | begin r =>
    have hr : r.usesTool = false := ha
    show some _ = some _
    simp [plainTx, hr]
  | next k => rfl
  | abort k => rfl

/-- The attempt is one of a claim that has read its policies. -/
def Gateway.Read (g : Gateway) (b : Binding) : Prop :=
  ∃ x ∈ g.snapshots, x.claim = b.claim ∧ ∃ w rows, b.access ∈ bindPolicies x.reg w rows

/-- **A step of the system**: the server's own, with the attempts it dispatches, a claim's
snapshot, a new call, or a call's. -/
inductive GatewayMove (g : Gateway) : GatewayAction → Gateway → Prop
  | served {a : Transactions.Action Request} {m : Server} {bound : List Binding}
      (hact : act requestTx g.server a = some m) (hplain : act plainTx g.server a = some m)
      (hbound : ∀ b ∈ bound, g.Read b) :
      GatewayMove g (.serve a) { g with server := m, accesses := g.accesses ++ bound }
  | snapped {k : Nat} (hnew : ∀ x ∈ g.snapshots, x.claim ≠ k) : GatewayMove g (.snapshot k)
      { g with snapshots := g.snapshots ++ [⟨k, g.server.db.reg⟩] }
  | called {bound : Nat} {toolName : String} {request : JsonObject} {b : Binding}
      (hb : g.accesses[bound]? = some b) : GatewayMove g (.call bound toolName request)
        { g with calls := g.calls ++ [{ bound, access := b.access, toolName, request }] }
  | woken {k : Nat} {now : Time} {w : Wakeup} {c c' : ToolCall} {s : Store}
      (hc : g.calls[k]? = some c) (hmoves : c.Moves g.server.db now s c') :
      GatewayMove g (.wake k now w)
        { g with server := { g.server with db := s }, calls := g.calls.set k c' }

omit [PyText] in
theorem Gateway.dispatched_read {g : Gateway} {m : Server} {a : Transactions.Action Request}
    {bound : List Binding} (h : g.dispatched m a = some bound) : ∀ b ∈ bound, g.Read b := by
  intro b hb
  unfold Gateway.dispatched at h
  split at h
  · split at h
    · cases h
      cases hb
    · obtain ⟨x, hx, rfl⟩ := Option.map_eq_some_iff.mp h
      obtain ⟨access, ha, rfl⟩ := List.mem_map.mp hb
      have hclaim := List.find?_some hx
      exact ⟨x, List.mem_of_find?_eq_some hx, beq_iff_eq.mp hclaim, _, _, ha⟩
  · cases h
    cases hb

theorem GatewayStep.move {g g' : Gateway} {a : GatewayAction} (h : GatewayStep g a g') :
    GatewayMove g a g' := by
  unfold GatewayStep Gateway.step at h
  split at h
  · cases h
  rename_i hforeign
  split at h
  · obtain ⟨m, hact, h⟩ := Option.bind_eq_some_iff.mp h
    obtain ⟨bound, hbound, rfl⟩ := Option.map_eq_some_iff.mp h
    exact .served hact (by rw [← act_plain (Bool.eq_false_iff.mpr hforeign), hact])
      (Gateway.dispatched_read hbound)
  · split at h
    · rename_i hclaim
      cases h
      refine .snapped fun x hx hk => ?_
      have hno := (Bool.and_eq_true_iff.mp hclaim).2
      rw [Bool.not_eq_true', List.any_eq_false] at hno
      exact hno x hx (beq_iff_eq.mpr hk)
    · cases h
  · obtain ⟨b, hb, rfl⟩ := Option.map_eq_some_iff.mp h
    exact .called hb
  · obtain ⟨c, hc, h⟩ := Option.bind_eq_some_iff.mp h
    obtain ⟨⟨s, c'⟩, hwake, rfl⟩ := Option.map_eq_some_iff.mp h
    exact .woken hc (ToolCall.wake_moves hwake).2

omit [PyText] in
theorem Store.Grows.onRecord {s s' : Store} (h : s.Grows s') (u : ToolUse) (k : ToolRecord) :
    s'.onRecord u k = s.onRecord u k := by
  unfold Store.onRecord
  cases hk : k.eventType? with
  | none =>
    refine h.audit.countP_eq fun e he => ?_
    simp [he]
  | some ty =>
    refine h.events.countP_eq fun e he => ?_
    have hty := ToolRecord.eventType?_ofTools hk
    have hne : e.eventType ≠ ty := fun heq => by rw [heq, hty] at he; cases he
    simp [hne]

/-- **The records are what the calls have come to.** -/
structure Gateway.Exact (g : Gateway) : Prop where
  plain : g.Plain
  read : ∀ b ∈ g.accesses, g.Read b
  bound : ∀ c ∈ g.calls, ∃ b, g.accesses[c.bound]? = some b ∧ b.access = c.access
  cleared : ∀ c ∈ g.calls, c.Cleared
  audited : ∀ c ∈ g.calls, c.Audited g.server.db
  counted : ∀ u k, g.server.db.onRecord u k = g.calls.countP fun c => c.wrote u k

theorem Gateway.Plain.commits {g : Gateway} {a : Transactions.Action Request} {m : Server} (h : g.Plain)
    (hact : act plainTx g.server a = some m) : g.server.db.Grows m.db := by
  rcases Confined.commits h hact with hdb | ⟨-, -, -, -, hgrows⟩
  · rw [hdb]
    exact .refl _
  · exact hgrows

omit [PyText] in
theorem Gateway.Read.named {g : Gateway} {b : Binding} (h : g.Read b) : b.access.Named := by
  obtain ⟨x, -, -, w, rows, hb⟩ := h
  exact bindPolicies_named hb

theorem Gateway.Exact.step {g g' : Gateway} {a : GatewayAction} (h : g.Exact)
    (hst : GatewayStep g a g') : g'.Exact := by
  cases hst.move with
  | served hact hplain hbound =>
    have hgrows := h.plain.commits hplain
    refine ⟨Confined.step plainTx_grows h.plain hplain, fun b hb => ?_, fun c hc => ?_, h.cleared,
      fun c hc message hanswer => ?_, fun u k => ?_⟩
    · exact (List.mem_append.mp hb).elim (h.read b) (hbound b)
    · obtain ⟨b, hb, haccess⟩ := h.bound c hc
      exact ⟨b, List.getElem?_append_left (List.getElem?_eq_some_iff.mp hb).1 ▸ hb, haccess⟩
    · exact hgrows.audit.isPrefix.subset (h.audited c hc message hanswer)
    · rw [← h.counted u k]
      exact hgrows.onRecord u k
  | snapped hnew =>
    refine ⟨h.plain, fun b hb => ?_, h.bound, h.cleared, h.audited, h.counted⟩
    obtain ⟨x, hx, hread⟩ := h.read b hb
    exact ⟨x, List.mem_append_left _ hx, hread⟩
  | @called bound toolName request b hb =>
    refine ⟨h.plain, h.read, fun c hc => ?_, fun c hc => ?_, fun c hc => ?_, fun u k => ?_⟩
    · rcases List.mem_append.mp hc with hc | hc
      · exact h.bound c hc
      · obtain rfl := List.mem_singleton.mp hc
        exact ⟨b, hb, rfl⟩
    · rcases List.mem_append.mp hc with hc | hc
      · exact h.cleared c hc
      · obtain rfl := List.mem_singleton.mp hc
        exact ⟨fun tool htool => (by cases htool), fun hr => (by cases hr), by simp⟩
    · rcases List.mem_append.mp hc with hc | hc
      · exact h.audited c hc
      · obtain rfl := List.mem_singleton.mp hc
        exact fun message hanswer => by cases hanswer
    · rw [List.countP_append, ← h.counted u k]
      simp [ToolCall.wrote, CallStage.records]
  | @woken k now w c c' s hc hmoves =>
    have hmem : c ∈ g.calls := List.mem_of_getElem? hc
    obtain ⟨hbound, haccess, -, -⟩ := hmoves.same
    obtain ⟨b, hb, hsame⟩ := h.bound c hmem
    have hnamed : c.access.Named := hsame ▸ (h.read b (List.mem_of_getElem? hb)).named
    refine ⟨h.plain, h.read, fun d hd => ?_, fun d hd => ?_, fun d hd => ?_, fun u r => ?_⟩
    · rcases List.mem_or_eq_of_mem_set hd with hd | rfl
      · exact h.bound d hd
      · rw [hbound, haccess]
        exact h.bound c hmem
    · rcases List.mem_or_eq_of_mem_set hd with hd | rfl
      · exact h.cleared d hd
      · exact hmoves.cleared (h.cleared c hmem)
    · rcases List.mem_or_eq_of_mem_set hd with hd | rfl
      · exact fun message hanswer => hmoves.grows.2.subset (h.audited d hd message hanswer)
      · exact hmoves.audited (h.audited c hmem)
    · obtain ⟨n, hstore, hcall⟩ := hmoves.counts (h.cleared c hmem) hnamed u r
      show s.onRecord u r = (g.calls.set k c').countP fun c => c.wrote u r
      rw [hstore, Tally.countP_step (p := fun c => c.wrote u r) hc hcall, h.counted u r]

omit [PyText] in
theorem Gateway.Exact.empty : Gateway.empty.Exact where
  plain := Confined.start _ _
  read b hb := by cases hb
  bound c hc := by cases hc
  cleared c hc := by cases hc
  audited c hc := by cases hc
  counted u k := by cases k <;> rfl

theorem run_exact {acts : List GatewayAction} {g : Gateway} (h : Run GatewayStep .empty acts g) :
    g.Exact :=
  h.invariant (I := Gateway.Exact) (fun hg hst => hg.step hst) .empty

omit [PyText] in
/-- The calls about a use that have written a record, told by their stage. -/
theorem countP_wrote {calls : List ToolCall} {u : ToolUse} {k : ToolRecord} {p : CallStage → Bool}
    (h : ∀ c ∈ calls, (k ∈ c.stage.records ↔ p c.stage = true)) :
    calls.countP (fun c => c.wrote u k) =
      (calls.filter fun c => c.use = u).countP fun c => p c.stage := by
  rw [List.countP_filter]
  refine List.countP_congr fun c hc => ?_
  simp [ToolCall.wrote, h c hc, and_comm]

omit [PyText] in
/-- A call whose records are all written has told the adapter so, or was cut short. -/
theorem countP_end (calls : List ToolCall) (p : CallEnd → Bool) :
    calls.countP (fun c => c.stage.end?.any p) =
      calls.countP (fun c => c.told.any p) + calls.countP fun c => c.untold.any p := by
  induction calls with
  | nil => rfl
  | cons c calls ih =>
    have hone : (if c.stage.end?.any p then 1 else 0) =
        (if c.told.any p then 1 else 0) + if c.untold.any p then 1 else 0 := by
      unfold ToolCall.told ToolCall.untold
      cases c.broken <;> simp
    rw [List.countP_cons, List.countP_cons, List.countP_cons, ih, hone]
    omega

/-- **Every use of a tool is on record, once.** In every state of every run, about every
task, attempt and tool name: there is an ALLOW for each call that was allowed, a DENY for
each that was not, in the audit log a record for each refusal the adapter was told of, and
a record of the outcome for each invoker whose end the adapter was told of; what is on
record beside these is of calls that were cut short when it had just been committed. -/
theorem tool_trail_exact {acts : List GatewayAction} {g : Gateway}
    (h : Run GatewayStep .empty acts g) (u : ToolUse) :
    g.server.db.onRecord u .allowed =
        (g.calls.filter fun c => c.use = u).countP (fun c => c.stage.tool?.isSome) ∧
      g.server.db.onRecord u .denied =
        (g.calls.filter fun c => c.use = u).countP (fun c => c.stage.refused) ∧
      g.server.db.onRecord u .audited =
        (g.calls.filter fun c => c.use = u).countP (fun c => c.told.any CallEnd.isDenied) +
          (g.calls.filter fun c => c.use = u).countP (fun c => c.untold.any CallEnd.isDenied) ∧
      g.server.db.onRecord u .executed =
        (g.calls.filter fun c => c.use = u).countP (fun c => c.told.any CallEnd.isReturned) +
          (g.calls.filter fun c => c.use = u).countP (fun c => c.untold.any CallEnd.isReturned) ∧
      g.server.db.onRecord u .failed =
        (g.calls.filter fun c => c.use = u).countP (fun c => c.told.any CallEnd.isRaised) +
          (g.calls.filter fun c => c.use = u).countP (fun c => c.untold.any CallEnd.isRaised) := by
  have hexact := run_exact h
  simp only [hexact.counted, ← countP_end]
  refine ⟨countP_wrote (p := fun stage => stage.tool?.isSome) fun c hc => ?_,
    countP_wrote fun c hc => ?_, countP_wrote (p := fun stage => stage.end?.any CallEnd.isDenied)
      fun c hc => ?_, countP_wrote (p := fun stage => stage.end?.any CallEnd.isReturned)
      fun c hc => ?_, countP_wrote (p := fun stage => stage.end?.any CallEnd.isRaised)
      fun c hc => ?_⟩
  · have htool := (hexact.cleared c hc).tool
    cases hstage : c.stage with
    | allowed tool =>
      cases tool with
      | none => exact absurd hstage htool
      | some tool => simp [CallStage.records, CallStage.tool?]
    | answered r => cases r <;> simp [CallStage.records, CallStage.tool?, CallEnd.tool?]
    | _ => simp [CallStage.records, CallStage.tool?]
  · cases c.stage with
    | answered r => cases r <;> simp [CallStage.records, CallStage.refused]
    | _ => simp [CallStage.records, CallStage.refused]
  · cases c.stage with
    | answered r => cases r <;> simp [CallStage.records, CallStage.end?, CallEnd.isDenied]
    | _ => simp [CallStage.records, CallStage.end?]
  · cases c.stage with
    | answered r => cases r <;> simp [CallStage.records, CallStage.end?, CallEnd.isReturned]
    | _ => simp [CallStage.records, CallStage.end?]
  · cases c.stage with
    | answered r => cases r <;> simp [CallStage.records, CallStage.end?, CallEnd.isRaised]
    | _ => simp [CallStage.records, CallStage.end?]

/-! ## For good -/

/-- A step takes nothing off the record. -/
theorem GatewayStep.grows {g g' : Gateway} {a : GatewayAction} (hg : g.Plain)
    (h : GatewayStep g a g') : g.server.db.db.events <+: g'.server.db.db.events ∧
      g.server.db.audit <+: g'.server.db.audit := by
  cases h.move with
  | served hact hplain hbound =>
    have hgrows := hg.commits hplain
    exact ⟨hgrows.events.isPrefix, hgrows.audit.isPrefix⟩
  | snapped hnew => exact ⟨List.prefix_refl _, List.prefix_refl _⟩
  | called hb => exact ⟨List.prefix_refl _, List.prefix_refl _⟩
  | woken hc hmoves => exact hmoves.grows

/-- **A refusal outlives its attempt**: once an adapter was told that it may not use a
tool, the audit record of it, with the reason, is there in every later state, whatever
becomes of the attempt, its lease and its completion. -/
theorem refusals_outlive {before after : List GatewayAction} {g g' : Gateway}
    (hbefore : Run GatewayStep .empty before g) (hafter : Run GatewayStep g after g')
    {c : ToolCall} (hc : c ∈ g.calls) {message : String}
    (htold : c.stage = .answered (.permissionDenied message)) :
    (authorize c.access.policy c.toolName).allowed = false ∧
      c.access.deniedAudit c.toolName (authorize c.access.policy c.toolName).reasonValue ∈
        g'.server.db.audit := by
  have hexact := run_exact hbefore
  refine ⟨(hexact.cleared c hc).denied (by rw [htold]; rfl), ?_⟩
  have hkept := hafter.invariant
    (I := fun g' : Gateway => g'.Exact ∧ g.server.db.audit <+: g'.server.db.audit)
    (fun hg hst => ⟨hg.1.step hst, hg.2.trans (hst.grows hg.1.plain).2⟩)
    ⟨hexact, List.prefix_refl _⟩
  exact hkept.2.subset (hexact.audited c hc message htold)

/-! ## A run -/

section
omit [PyText]

/-- A task of a version that may use one tool; a worker's claim of it has its row. -/
def searchTaskClaiming : List (Transactions.Action Request) :=
  .begin ⟨0, .call (.createTenant 1 "acme" 10 1000)⟩ :: steps 0 1 ++
  .begin ⟨1, .api (.createAgent 1 1 "summarizer" none)⟩ :: steps 1 2 ++
  .begin ⟨2, .api (.createVersion 1 1 {})⟩ :: steps 2 3 ++
  .begin ⟨3, .api (.createTool 1 { tenantId := 1, name := "search" })⟩ :: steps 3 2 ++
  .begin ⟨4, .api (.grant 1 1)⟩ :: steps 4 4 ++
  .begin ⟨5, .call (.submitTask 7
    { tenantId := 1, taskType := "demo", payload := [], agentVersionId := some 1 })⟩ :: steps 5 2 ++
  .begin ⟨6, .call (.registerWorker "worker" 4 [])⟩ :: steps 6 1 ++
  .begin ⟨7, .call (.claimTasks { workerId := "worker", limit := 1, leaseTtlS := 30 } fun _ => {})⟩ ::
    steps 7 4

/-- The attempt uses the tool it may use and is cut short before the outcome is on record;
it is refused another one. -/
def searchedAndRefused : List GatewayAction :=
  searchTaskClaiming.map .serve ++
    [.snapshot 7, .serve (.next 7), .call 0 "search" [], .call 0 "email" [], .wake 0 8 .done,
      .wake 1 8 .done, .wake 0 8 .done, .wake 1 8 .done, .wake 0 9 (.invokerEnded (.ok [])),
      .wake 0 9 (.cutShort false)]

theorem tool_trail_exact_searched :
    ∃ g, Run (@GatewayStep PyText.plain) .empty searchedAndRefused g ∧
      g.server.db.onRecord ⟨7, 1, "search"⟩ .allowed = 1 ∧
      g.server.db.onRecord ⟨7, 1, "search"⟩ .executed = 0 ∧
      g.server.db.onRecord ⟨7, 1, "email"⟩ .audited = 1 ∧
      (g.calls.filter fun c => c.use = ⟨7, 1, "search"⟩).countP (fun c => c.stage.tool?.isSome) = 1 ∧
      (g.calls.filter fun c => c.use = ⟨7, 1, "email"⟩).countP
        (fun c => c.told.any CallEnd.isDenied) = 1 := by
  have hend : (exec (@Gateway.step PyText.plain) Gateway.empty searchedAndRefused).map (fun g =>
      (g.server.db.onRecord ⟨7, 1, "search"⟩ .allowed, g.server.db.onRecord ⟨7, 1, "search"⟩ .executed,
        g.server.db.onRecord ⟨7, 1, "email"⟩ .audited,
        (g.calls.filter fun c => c.use = ⟨7, 1, "email"⟩).countP
          (fun c => c.untold.any CallEnd.isDenied))) = some (1, 0, 1, 0) := by decide +kernel
  obtain ⟨g, hg, hseen⟩ := Option.map_eq_some_iff.mp hend
  obtain ⟨hallowed, hseen⟩ := Prod.mk.inj hseen
  obtain ⟨hexecuted, hseen⟩ := Prod.mk.inj hseen
  obtain ⟨haudited, huntold⟩ := Prod.mk.inj hseen
  have hrun : Run (@GatewayStep PyText.plain) .empty searchedAndRefused g := Run.of_exec hg
  obtain ⟨hlet, -⟩ := @tool_trail_exact PyText.plain _ _ hrun ⟨7, 1, "search"⟩
  obtain ⟨-, -, hdenied, -⟩ := @tool_trail_exact PyText.plain _ _ hrun ⟨7, 1, "email"⟩
  rw [huntold, Nat.add_zero] at hdenied
  exact ⟨g, hrun, hallowed, hexecuted, haudited, hlet.symm.trans hallowed,
    hdenied.symm.trans haudited⟩

/-- After the refusal the task is taken from the worker, whose completion is rejected. -/
def takenBack : List GatewayAction :=
  (.begin ⟨40, .call (.reap .leaseExpired 10 {})⟩ :: steps 8 2 ++
    .begin ⟨41, .call (.complete (.success (.obj [])) 7 1 "worker")⟩ :: steps 9 2).map .serve

theorem refusals_outlive_takenBack :
    ∃ g g' c, Run (@GatewayStep PyText.plain) .empty searchedAndRefused g ∧
      Run (@GatewayStep PyText.plain) g takenBack g' ∧ c ∈ g.calls ∧ c.toolName = "email" ∧
      (g'.server.db.db.task? 7).map Task.state = some .queued ∧
      c.access.deniedAudit "email" (authorize c.access.policy "email").reasonValue ∈
        g'.server.db.audit := by
  have hend : ((exec (@Gateway.step PyText.plain) Gateway.empty searchedAndRefused).bind fun g =>
      (exec (@Gateway.step PyText.plain) g takenBack).map fun g' =>
        ((g.calls[1]?).map fun c => (c.toolName, c.told.any CallEnd.isDenied),
          (g'.server.db.db.task? 7).map Task.state)) =
      some (some ("email", true), some .queued) := by decide +kernel
  obtain ⟨g, hg, hend⟩ := Option.bind_eq_some_iff.mp hend
  obtain ⟨g', hg', hseen⟩ := Option.map_eq_some_iff.mp hend
  obtain ⟨hcall, hstate⟩ := Prod.mk.inj hseen
  obtain ⟨c, hc, hcall⟩ := Option.map_eq_some_iff.mp hcall
  obtain ⟨hname, htold⟩ := Prod.mk.inj hcall
  obtain ⟨message, hmessage⟩ := ToolCall.told_denied htold
  have hmem : c ∈ g.calls := List.mem_of_getElem? hc
  have hbefore : Run (@GatewayStep PyText.plain) .empty searchedAndRefused g := Run.of_exec hg
  have hafter : Run (@GatewayStep PyText.plain) g takenBack g' := Run.of_exec hg'
  have hkept := (@refusals_outlive PyText.plain _ _ _ _ hbefore hafter c hmem message hmessage).2
  rw [hname] at hkept
  exact ⟨g, g', c, hbefore, hafter, hmem, hname, hstate, hkept⟩

end

end ControlPlane
