import ControlPlane.Db.Store
import ControlPlane.Worker.Loop

/-! # Tool calls of an attempt

The worker freezes the policies of the tasks it claimed inside the claim's
transaction and binds each attempt to its own. A call from the adapter is
decided on that policy and recorded, and only then does the tool's invoker run;
what happens to the registry in the meantime is not looked at. -/

namespace ControlPlane
open Keyed Fallible Grouping Runs

/-- The tool gateway of one attempt, as the worker binds it. -/
structure ToolAccess where
  workerId : WorkerId
  row : Task
  policy : ToolPolicy

/-- `policies.get(row["agent_version_id"], UNGOVERNED)`. -/
def policyFor (policies : Dict VersionId ToolPolicy) (row : Task) : ToolPolicy :=
  (row.agentVersionId.bind policies.lookup).getD ungoverned

/-- What the attempts of a batch of claimed rows are bound to. -/
def bindPolicies (reg : Registry) (workerId : WorkerId) (claimed : List Task) : List ToolAccess :=
  let policies := snapshotPolicies reg (claimed.map Task.agentVersionId)
  claimed.map fun row => ⟨workerId, row, policyFor policies row⟩

/-- What a tool does when it is invoked: a result, or the text of an exception, and
what it leaves of what it works on. -/
abbrev ToolInvoker (ω : Type) := ToolRef → JsonObject → ω → Except String JsonObject × ω

/-- How a call of an adapter ends. -/
inductive CallEnd where
  | permissionDenied (message : String)
  | returned (tool : ToolRef) (result : JsonObject)
  | invokerRaised (tool : ToolRef) (error : String)
  deriving DecidableEq

/-- The tool of a call that was let through. -/
def CallEnd.tool? : CallEnd → Option ToolRef
  | permissionDenied _ => none
  | returned tool _ => some tool
  | invokerRaised tool _ => some tool

def AuthzDecision.reasonValue (d : AuthzDecision) : String :=
  (d.reason.map DenyReason.value).getD "denied"

namespace ToolAccess

/-- The event carries the tool's name, which may be one that JSONB refuses. -/
def record (a : ToolAccess) (s : Store) (now : Time) (e : ToolEvent) : Except Raised Store := do
  ensure (e.data.storable = true) (.integrity .dataError)
  let db ← recordEvent s.db now a.row.id e.eventType (some a.row.attempt) (some a.workerId) e.data
  pure { s with db }

def deniedAudit (a : ToolAccess) (toolName reason : String) : AuditEvent where
  tenantId := a.row.tenantId
  action := "TOOL_ACCESS_DENIED"
  resourceType := "task"
  resourceId := some a.row.id
  outcome := "DENIED"
  actor := "agent_version:" ++ (a.policy.agentVersionId.map toString).getD "None"
  data := .obj [("tool", .str toolName), ("reason", .str reason), ("attempt", .int a.row.attempt)]

/-- An ALLOW goes to the task's timeline, a DENY to the audit log as well. -/
def onDecision (a : ToolAccess) (s : Store) (now : Time) (toolName : String)
    (decision : AuthzDecision) : Except Raised Store :=
  if decision.allowed then a.record s now (.allowed toolName)
  else do
    let s ← a.record s now (.denied toolName decision.reasonValue)
    pure (recordAudit s (a.deniedAudit toolName decision.reasonValue))

def onExecuted (a : ToolAccess) (s : Store) (now : Time) (tool : ToolRef) (ok : Bool)
    (error : Option String) : Except Raised Store :=
  a.record s now (.executed tool.name ok error)

/-- The outcome of the invoker goes on record before the adapter is told. -/
def report (a : ToolAccess) (s : Store) (now : Time) (tool : ToolRef) :
    Except String JsonObject → Store × Except Raised CallEnd
  | .ok result => match a.onExecuted s now tool true none with
    | .ok s => (s, .ok (.returned tool result))
    | .error e => (s, .error e)
  | .error error => match a.onExecuted s now tool false (some error) with
    | .ok s => (s, .ok (.invokerRaised tool error))
    | .error e => (s, .error e)

end ToolAccess

variable [PyText] {ω : Type}

def deniedMessage (toolName : String) (decision : AuthzDecision) : String :=
  "agent is not permitted to use tool " ++ PyText.repr toolName ++ " (" ++ decision.reasonValue ++ ")"

/-- Every record is in a transaction of its own: what raises takes none of them back. -/
def ToolAccess.call (a : ToolAccess) (invoker : ToolInvoker ω) (s : Store) (x : ω) (now : Time)
    (toolName : String) (request : JsonObject) : Store × ω × Except Raised CallEnd :=
  let decision := authorize a.policy toolName
  match a.onDecision s now toolName decision with
  | .error e => (s, x, .error e)
  | .ok s =>
    if !decision.allowed then
      (s, x, .ok (.permissionDenied (deniedMessage toolName decision)))
    else match decision.tool with
    | none => (s, x, .error (.assertionError ""))
    | some tool =>
      let (outcome, x) := invoker tool request x
      let (s, r) := a.report s now tool outcome
      (s, x, r)

/-- `call_tool`, with what the worker has bound. -/
def callTool (bound : Option ToolAccess) (invoker : ToolInvoker ω) (s : Store) (x : ω) (now : Time)
    (toolName : String) (request : JsonObject) : Store × ω × Except Raised CallEnd :=
  match bound with
  | none => (s, x, .ok (.permissionDenied
      "no tool policy is bound; tools may only be called from inside a task attempt"))
  | some a => a.call invoker s x now toolName request

/-! ## One call -/

/-- What the adapter learns of what the invoker came to: an error whose text JSONB
refuses is not on record, and the database's error is what the call raises. -/
def CallEnd.told (tool : ToolRef) : Except String JsonObject → Except Raised CallEnd
  | .ok result => .ok (.returned tool result)
  | .error error =>
    if storableText error = true then .ok (.invokerRaised tool error)
    else .error (.integrity .dataError)

section
omit [PyText]

theorem AuthzDecision.reasonValue_storable (d : AuthzDecision) :
    storableText d.reasonValue = true := by
  have hreasons : ∀ r : Option DenyReason,
      storableText ((r.map DenyReason.value).getD "denied") = true := by
    intro r
    cases r with
    | none => decide
    | some reason => cases reason <;> decide
  exact hreasons d.reason

@[simp] theorem ToolEvent.allowed_storable (toolName : String) :
    (ToolEvent.allowed toolName).data.storable = storableText toolName := by
  have hkey : storableText "tool" = true := by decide
  simp [ToolEvent.data, Json.storable, Json.storableFields, hkey]

@[simp] theorem ToolEvent.denied_storable (toolName : String) (d : AuthzDecision) :
    (ToolEvent.denied toolName d.reasonValue).data.storable = storableText toolName := by
  have hkey : storableText "tool" = true := by decide
  have hreason : storableText "reason" = true := by decide
  simp [ToolEvent.data, Json.storable, Json.storableFields, hkey, hreason, d.reasonValue_storable]

@[simp] theorem ToolEvent.executed_storable (toolName : String) (ok : Bool)
    (error : Option String) : (ToolEvent.executed toolName ok error).data.storable =
      (storableText toolName && error.all storableText) := by
  have hkey : storableText "tool" = true := by decide
  have herror : storableText "error" = true := by decide
  cases error <;>
    simp [ToolEvent.data, Json.storable, Json.storableFields, jsonOption, hkey, herror]

theorem ToolAccess.record_succeeds {a : ToolAccess} {s : Store} (now : Time) {e : ToolEvent}
    (ht : (s.db.task? a.row.id).isSome = true) (he : e.data.storable = true) :
    ∃ s', a.record s now e = .ok s' ∧ ∀ i, s'.db.task? i = s.db.task? i := by
  have hinsert : ∃ db, insertEvent s.db
      ⟨a.row.id, some a.row.attempt, e.eventType, some a.workerId, e.data, now⟩ = .ok db :=
    insertEvent_succeeds ht
  obtain ⟨db, hdb⟩ := hinsert
  refine ⟨{ s with db }, ?_, fun i => ?_⟩
  · unfold record recordEvent
    rw [ensure_eq he, ok_bind, hdb]
    rfl
  · unfold Database.task?
    rw [(insertEvent_ok hdb).2.1]

theorem ToolAccess.record_refused (a : ToolAccess) (s : Store) (now : Time) {e : ToolEvent}
    (he : e.data.storable = false) : a.record s now e = .error (.integrity .dataError) := by
  unfold record
  simp [ensure, he, error_bind]

theorem ToolAccess.onDecision_succeeds {a : ToolAccess} {s : Store} (now : Time) {toolName : String}
    (decision : AuthzDecision) (ht : (s.db.task? a.row.id).isSome = true)
    (hname : storableText toolName = true) :
    ∃ s', a.onDecision s now toolName decision = .ok s' ∧
      ∀ i, s'.db.task? i = s.db.task? i := by
  unfold onDecision
  split
  · exact a.record_succeeds now ht (by simpa using hname)
  · obtain ⟨s', hs', htask⟩ := a.record_succeeds now ht
      (e := .denied toolName decision.reasonValue) (by simpa using hname)
    refine ⟨recordAudit s' (a.deniedAudit toolName decision.reasonValue), ?_, htask⟩
    rw [hs']
    rfl

/-- Nothing of a decision is on record when the name of the tool cannot be. -/
theorem ToolAccess.onDecision_refused (a : ToolAccess) (s : Store) (now : Time) {toolName : String}
    (decision : AuthzDecision) (hname : storableText toolName = false) :
    a.onDecision s now toolName decision = .error (.integrity .dataError) := by
  unfold onDecision
  split
  · exact a.record_refused s now (by simpa using hname)
  · rw [a.record_refused s now (by simpa using hname)]
    rfl

/-- The outcome of the invoker of a tool whose name is on record already. -/
theorem ToolAccess.report_told {a : ToolAccess} {s : Store} (now : Time) {tool : ToolRef}
    (outcome : Except String JsonObject) (ht : (s.db.task? a.row.id).isSome = true)
    (hname : storableText tool.name = true) :
    (a.report s now tool outcome).2 = CallEnd.told tool outcome ∧
      ∀ i, (a.report s now tool outcome).1.db.task? i = s.db.task? i := by
  cases outcome with
  | ok result =>
    obtain ⟨s', hs', htask⟩ := a.record_succeeds now ht
      (e := .executed tool.name true none) (by simp [hname])
    have hreport : a.report s now tool (.ok result) = (s', .ok (.returned tool result)) := by
      simp only [report, onExecuted, hs']
    rw [hreport]
    exact ⟨rfl, htask⟩
  | error error =>
    by_cases herror : storableText error = true
    · obtain ⟨s', hs', htask⟩ := a.record_succeeds now ht
        (e := .executed tool.name false (some error)) (by simp [hname, herror])
      have hreport : a.report s now tool (.error error) =
          (s', .ok (.invokerRaised tool error)) := by
        simp only [report, onExecuted, hs']
      rw [hreport]
      exact ⟨(if_pos herror).symm, htask⟩
    · have hrefused := a.record_refused s now (e := .executed tool.name false (some error))
        (by simp [hname, herror])
      have hreport : a.report s now tool (.error error) =
          (s, .error (.integrity .dataError)) := by
        simp only [report, onExecuted, hrefused]
      rw [hreport]
      exact ⟨(if_neg herror).symm, fun _ => rfl⟩

end

/-- **A call of an attempt whose task exists** ends as its policy decides: the invoker
is run, once, with the tool the policy allows, or the call is denied and nothing is run;
where the decision cannot be recorded, nothing is run either. -/
theorem callTool_decided {a : ToolAccess} {s : Store} (invoker : ToolInvoker ω) (x : ω) (now : Time)
    (toolName : String) (request : JsonObject) (ht : (s.db.task? a.row.id).isSome = true)
    (hnamed : ∀ tool, authorize a.policy toolName = { allowed := true, tool := some tool } →
      tool.name = toolName) :
    ∃ s' r, (∀ i, s'.db.task? i = s.db.task? i) ∧
      ((storableText toolName = true ∧ ∃ tool,
          authorize a.policy toolName = { allowed := true, tool := some tool } ∧
          callTool (some a) invoker s x now toolName request = (s', (invoker tool request x).2, r) ∧
          r = CallEnd.told tool (invoker tool request x).1) ∨
        (storableText toolName = true ∧ (authorize a.policy toolName).allowed = false ∧
          callTool (some a) invoker s x now toolName request = (s', x, r) ∧
          r = .ok (.permissionDenied (deniedMessage toolName (authorize a.policy toolName)))) ∨
        (storableText toolName = false ∧
          callTool (some a) invoker s x now toolName request = (s', x, r) ∧
          r = .error (.integrity .dataError))) := by
  unfold callTool ToolAccess.call
  dsimp only
  by_cases hname : storableText toolName = true
  · obtain ⟨s₁, h₁, htask₁⟩ := a.onDecision_succeeds now (authorize a.policy toolName) ht hname
    rw [h₁]
    rcases authorize_cases a.policy toolName with ⟨tool, hallow⟩ | ⟨hdeny, -⟩
    · obtain ⟨htold, htask₂⟩ := a.report_told (s := s₁) now (invoker tool request x).1
        (by rw [htask₁]; exact ht) (by rw [hnamed tool hallow, hname])
      refine ⟨_, _, fun i => (htask₂ i).trans (htask₁ i), .inl ⟨hname, tool, hallow, ?_, htold⟩⟩
      rw [hallow]
      rfl
    · refine ⟨s₁, _, htask₁, .inr (.inl ⟨hname, hdeny, ?_, rfl⟩)⟩
      simp only [hdeny, Bool.not_false, if_true]
  · rw [Bool.not_eq_true] at hname
    refine ⟨s, _, fun _ => rfl, .inr (.inr ⟨hname, ?_, rfl⟩)⟩
    rw [a.onDecision_refused s now _ hname]

end ControlPlane
