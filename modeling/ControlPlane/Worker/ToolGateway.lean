import ControlPlane.Server.AppendOnly
import ControlPlane.Worker.ToolAuthorization

/-! # The tool gateway, transaction by transaction

A call of a tool is up to three transactions and the run of its invoker: the decision
goes on record before anything else happens, an ALLOW to the task's timeline, a DENY to
the timeline and then to the audit log; the outcome of the invoker follows. Between any
two of them everything else may happen, and the call may be cut short at each. What is
on record about a use of a tool is nevertheless, at every moment, exactly what the calls
have come to. -/

namespace ControlPlane
open Keyed Fallible Transactions Runs Journal

/-! ## One call -/

/-- How far a call has come. -/
inductive CallStage where
  | deciding
  /-- the DENY is on the timeline, and not in the audit log yet -/
  | denied
  /-- the ALLOW is on the timeline -/
  | allowed (tool : Option ToolRef)
  | invoking (tool : ToolRef)
  | invoked (tool : ToolRef) (outcome : Except String JsonObject)
  | answered (r : CallEnd)

/-- A call of an adapter, of the attempt with this place among those that were bound;
`broken` says that it was cut short. -/
structure ToolCall where
  bound : Nat
  access : ToolAccess
  toolName : String
  request : JsonObject
  stage : CallStage := .deciding
  broken : Bool := false

/-- How the coroutine of a call comes back from what it awaits. -/
inductive Wakeup where
  /-- the transaction has committed -/
  | done
  /-- an exception or a cancellation; the transaction may have committed all the same -/
  | cutShort (committed : Bool)
  | invokerEnded (outcome : Except String JsonObject)

namespace ToolCall

/-- The call is back from a transaction that leads on to a stage. -/
def settle (c : ToolCall) (s : Store) (written : Except Raised Store) (stage : CallStage) :
    Wakeup → Option (Store × ToolCall)
  | .done => some (match written with
    | .ok s' => (s', { c with stage := stage })
    | .error _ => (s, { c with broken := true }))
  | .cutShort true => some (match written with
    | .ok s' => (s', { c with stage := stage, broken := true })
    | .error _ => (s, { c with broken := true }))
  | .cutShort false => some (s, { c with broken := true })
  | .invokerEnded _ => none

variable [PyText]

/-- `ToolAccess.call`, from one await to the next. -/
def wake (c : ToolCall) (s : Store) (now : Time) (w : Wakeup) : Option (Store × ToolCall) :=
  let decision := authorize c.access.policy c.toolName
  if c.broken then none
  else match c.stage with
  | .deciding =>
    if decision.allowed then
      c.settle s (c.access.record s now (.allowed c.toolName)) (.allowed decision.tool) w
    else c.settle s (c.access.record s now (.denied c.toolName decision.reasonValue)) .denied w
  | .denied =>
    c.settle s (.ok (recordAudit s (c.access.deniedAudit c.toolName decision.reasonValue)))
      (.answered (.permissionDenied (deniedMessage c.toolName decision))) w
  -- nothing is awaited between the commit and the invoker
  | .allowed none => match w with
    | .done => some (s, { c with broken := true })
    | _ => none
  | .allowed (some tool) => match w with
    | .done => some (s, { c with stage := .invoking tool })
    | _ => none
  | .invoking tool => match w with
    | .invokerEnded outcome => some (s, { c with stage := .invoked tool outcome })
    | .cutShort _ => some (s, { c with broken := true })
    | .done => none
  | .invoked tool (.ok result) =>
    c.settle s (c.access.onExecuted s now tool true none) (.answered (.returned tool result)) w
  | .invoked tool (.error e) =>
    c.settle s (c.access.onExecuted s now tool false (some e)) (.answered (.invokerRaised tool e)) w
  | .answered _ => none

end ToolCall

/-! ## The system -/

/-- What the transaction of a claim has read of the registry. -/
structure Snapshot where
  claim : Nat
  reg : Registry

/-- An attempt that a claim has dispatched, under the policy this claim read. -/
structure Binding where
  claim : Nat
  access : ToolAccess

/-- The server, what its claims have read, the attempts that are bound to it, and their
calls. -/
structure Gateway where
  server : Server
  snapshots : List Snapshot := []
  accesses : List Binding := []
  calls : List ToolCall := []

inductive GatewayAction where
  | serve (a : Transactions.Action Request)
  /-- `snapshot_policies`, the last queries of a claim's transaction -/
  | snapshot (claim : Nat)
  | call (bound : Nat) (toolName : String) (request : JsonObject)
  | wake (k : Nat) (now : Time) (w : Wakeup)

/-- Uses of tools are recorded by the calls alone. -/
def GatewayAction.foreign : GatewayAction → Bool
  | .serve (.begin r) => r.usesTool
  | _ => false

def Gateway.empty : Gateway := { server := .empty }

/-- The transaction is a claim that has its rows and not committed yet. -/
def Server.claiming (m : Server) (k : Nat) : Bool :=
  match m.txs[k]? with
  | some ⟨⟨_, .call (.claimTasks ..)⟩, .running (.commit ..)⟩ => true
  | _ => false

/-- The rows a claim has returned, and to whom. -/
def Server.claimed? (m : Server) (k : Nat) : Option (WorkerId × List Task) :=
  match m.txs[k]? with
  | some ⟨⟨_, .call (.claimTasks args _)⟩, .done (.ok (.reply (.claimed rows)))⟩ =>
    some (args.workerId, rows)
  | _ => none

/-- What a step of the server dispatches: the attempts of the claim it commits, which
has read their policies before. -/
def Gateway.dispatched (g : Gateway) (m : Server) : Transactions.Action Request → Option (List Binding)
  | .next k => match m.claimed? k with
    | none => some []
    | some (workerId, rows) => (g.snapshots.find? fun x => x.claim == k).map fun x =>
      (bindPolicies x.reg workerId rows).map fun access => ⟨k, access⟩
  | _ => some []

variable [PyText]

def Gateway.step (g : Gateway) (a : GatewayAction) : Option Gateway :=
  if a.foreign then none
  else match a with
  | .serve a => (act requestTx g.server a).bind fun m => (g.dispatched m a).map fun bound =>
    { g with server := m, accesses := g.accesses ++ bound }
  | .snapshot k =>
    if g.server.claiming k && !g.snapshots.any fun x => x.claim == k then
      some { g with snapshots := g.snapshots ++ [⟨k, g.server.db.reg⟩] }
    else none
  | .call bound toolName request => (g.accesses[bound]?).map fun b =>
    { g with calls := g.calls ++ [{ bound, access := b.access, toolName, request }] }
  | .wake k now w => (g.calls[k]?).bind fun c => (c.wake g.server.db now w).map fun r =>
    { g with server := { g.server with db := r.1 }, calls := g.calls.set k r.2 }

def GatewayStep (g : Gateway) (a : GatewayAction) (g' : Gateway) : Prop := g.step a = some g'

/-! ## What a call can do -/

/-- The record a stage asks for, and where the call is once it is written. -/
inductive ToolCall.Reports (c : ToolCall) : ToolEvent → CallStage → Prop
  | allow {tool : ToolRef} (hstage : c.stage = .deciding)
      (hdecision : authorize c.access.policy c.toolName = { allowed := true, tool := some tool }) :
      c.Reports (.allowed c.toolName) (.allowed (some tool))
  | deny {reason : String} (hstage : c.stage = .deciding)
      (hdecision : (authorize c.access.policy c.toolName).allowed = false) :
      c.Reports (.denied c.toolName reason) .denied
  | returned {tool : ToolRef} {result : JsonObject} (hstage : c.stage = .invoked tool (.ok result)) :
      c.Reports (.executed tool.name true none) (.answered (.returned tool result))
  | raised {tool : ToolRef} {e : String} (hstage : c.stage = .invoked tool (.error e)) :
      c.Reports (.executed tool.name false (some e)) (.answered (.invokerRaised tool e))

/-- **A call's step**: it is cut short, or writes its next record, or the invoker starts
or ends. -/
inductive ToolCall.Moves (c : ToolCall) (s : Store) (now : Time) : Store → ToolCall → Prop
  | breaks : c.Moves s now s { c with broken := true }
  | reports {e : ToolEvent} {stage : CallStage} {s' : Store} (broken : Bool) (h : c.Reports e stage)
      (hrecord : c.access.record s now e = .ok s') :
      c.Moves s now s' { c with stage := stage, broken := broken }
  | audits (broken : Bool) (hstage : c.stage = .denied) :
      c.Moves s now (recordAudit s (c.access.deniedAudit c.toolName
          (authorize c.access.policy c.toolName).reasonValue))
        { c with
          stage := .answered (.permissionDenied
            (deniedMessage c.toolName (authorize c.access.policy c.toolName)))
          broken := broken }
  | starts {tool : ToolRef} (hstage : c.stage = .allowed (some tool)) :
      c.Moves s now s { c with stage := .invoking tool }
  | ends {tool : ToolRef} {outcome : Except String JsonObject} (hstage : c.stage = .invoking tool) :
      c.Moves s now s { c with stage := .invoked tool outcome }

omit [PyText] in
/-- The ends of a transaction: written or not, cut short or not. -/
theorem ToolCall.settle_cases {c c' : ToolCall} {s s' : Store} {written : Except Raised Store}
    {stage : CallStage} {w : Wakeup} (h : c.settle s written stage w = some (s', c')) :
    (∃ broken, written = .ok s' ∧ c' = { c with stage := stage, broken := broken }) ∨
      (s' = s ∧ c' = { c with broken := true }) := by
  cases w with
  | done =>
    cases written with
    | ok s₁ =>
      cases h
      exact .inl ⟨_, rfl, rfl⟩
    | error e =>
      cases h
      exact .inr ⟨rfl, rfl⟩
  | cutShort committed =>
    cases committed with
    | false =>
      cases h
      exact .inr ⟨rfl, rfl⟩
    | true =>
      cases written with
      | ok s₁ =>
        cases h
        exact .inl ⟨_, rfl, rfl⟩
      | error e =>
        cases h
        exact .inr ⟨rfl, rfl⟩
  | invokerEnded outcome => cases h

theorem ToolCall.wake_moves {c c' : ToolCall} {s s' : Store} {now : Time} {w : Wakeup}
    (h : c.wake s now w = some (s', c')) : c.broken = false ∧ c.Moves s now s' c' := by
  have hreports : ∀ {e stage}, c.Reports e stage →
      c.settle s (c.access.record s now e) stage w = some (s', c') → c.Moves s now s' c' := by
    intro e stage hrep h
    rcases settle_cases h with ⟨broken, hrec, rfl⟩ | ⟨rfl, rfl⟩
    · exact .reports broken hrep hrec
    · exact .breaks
  unfold ToolCall.wake at h
  dsimp only at h
  split at h
  · cases h
  rename_i hbroken
  refine ⟨Bool.eq_false_iff.mpr hbroken, ?_⟩
  split at h
  · rename_i hstage
    split at h
    · rename_i hallowed
      rcases authorize_cases c.access.policy c.toolName with ⟨tool, hd⟩ | ⟨hd, -⟩
      · rw [show (authorize c.access.policy c.toolName).tool = some tool by rw [hd]] at h
        exact hreports (.allow hstage hd) h
      · rw [hd] at hallowed
        cases hallowed
    · rename_i hdenied
      exact hreports (.deny hstage (Bool.eq_false_iff.mpr hdenied)) h
  · rename_i hstage
    rcases settle_cases h with ⟨broken, hwritten, rfl⟩ | ⟨rfl, rfl⟩
    · cases hwritten
      exact .audits broken hstage
    · exact .breaks
  · split at h <;> cases h
    exact .breaks
  · rename_i tool hstage
    split at h <;> cases h
    exact .starts hstage
  · rename_i tool hstage
    split at h <;> cases h
    · exact .ends hstage
    · exact .breaks
  · rename_i tool result hstage
    exact hreports (.returned hstage) h
  · rename_i tool e hstage
    exact hreports (.raised hstage) h
  · cases h

/-- **Undisturbed, a call does what `callTool` does in one step.** -/
theorem callTool_wakes {ω : Type} {c : ToolCall} {invoker : ToolInvoker ω} {s s' : Store} {x x' : ω}
    {now : Time} {r : CallEnd} (hstage : c.stage = .deciding) (hbroken : c.broken = false)
    (h : callTool (some c.access) invoker s x now c.toolName c.request = (s', x', .ok r)) :
    ∃ ws, Run (fun (x : Store × ToolCall) w y => x.2.wake x.1 now w = some y) (s, c) ws
      (s', { c with stage := .answered r }) := by
  obtain ⟨bound, access, toolName, request, stage, broken⟩ := c
  dsimp only at hstage hbroken h
  subst hstage hbroken
  let call : CallStage → ToolCall := fun stage => ⟨bound, access, toolName, request, stage, false⟩
  show ∃ ws, Run _ (s, call .deciding) ws (s', call (.answered r))
  unfold callTool ToolAccess.call at h
  dsimp only at h
  cases hdecision : access.onDecision s now toolName (authorize access.policy toolName) with
  | error e =>
    rw [hdecision] at h
    cases h
  | ok s₁ =>
    rw [hdecision] at h
    unfold ToolAccess.onDecision at hdecision
    rcases authorize_cases access.policy toolName with ⟨tool, hd⟩ | ⟨hd, -⟩
    · rw [hd] at h hdecision
      dsimp only at hdecision h
      rw [if_pos rfl] at hdecision
      rw [Bool.not_true, if_neg Bool.false_ne_true] at h
      have hallow : (call .deciding).wake s now .done = some (s₁, call (.allowed (some tool))) := by
        simp only [call, ToolCall.wake, hd, ToolCall.settle, hdecision]
        rfl
      have hstart : (call (.allowed (some tool))).wake s₁ now .done =
          some (s₁, call (.invoking tool)) := rfl
      have hend : ∀ o, (call (.invoking tool)).wake s₁ now (.invokerEnded o) =
          some (s₁, call (.invoked tool o)) := fun _ => rfl
      have hreport : access.report s₁ now tool (invoker tool request x).1 = (s', .ok r) := by
        obtain ⟨hs, hr⟩ := Prod.mk.inj h
        exact Prod.ext hs (Prod.mk.inj hr).2
      cases hout : (invoker tool request x).1 with
      | error error =>
        rw [hout] at hreport
        cases hexec : access.onExecuted s₁ now tool false (some error) with
        | error e =>
          simp only [ToolAccess.report, hexec] at hreport
          cases hreport
        | ok s₂ =>
          simp only [ToolAccess.report, hexec] at hreport
          cases hreport
          refine ⟨_, .cons hallow (.cons hstart (.cons (hend (.error error))
            (.single (a := .done) ?_)))⟩
          simp only [call, ToolCall.wake, ToolCall.settle, hexec]
          rfl
      | ok result =>
        rw [hout] at hreport
        cases hexec : access.onExecuted s₁ now tool true none with
        | error e =>
          simp only [ToolAccess.report, hexec] at hreport
          cases hreport
        | ok s₂ =>
          simp only [ToolAccess.report, hexec] at hreport
          cases hreport
          refine ⟨_, .cons hallow (.cons hstart (.cons (hend (.ok result))
            (.single (a := .done) ?_)))⟩
          simp only [call, ToolCall.wake, ToolCall.settle, hexec]
          rfl
    · rw [hd, if_neg Bool.false_ne_true] at hdecision
      obtain ⟨s₂, hrecord, haudit⟩ := bind_ok.mp hdecision
      obtain rfl := pure_ok.mp haudit
      rw [hd] at h
      dsimp only at h
      rw [Bool.not_false, if_pos rfl] at h
      obtain ⟨rfl, hr⟩ := Prod.mk.inj h
      obtain rfl := Except.ok.inj (Prod.mk.inj hr).2
      have hdeny : (call .deciding).wake s now .done = some (s₂, call .denied) := by
        simp only [call, ToolCall.wake, hd, ToolCall.settle, hrecord]
        rfl
      exact ⟨_, .cons hdeny (.single (a := .done) rfl)⟩

end ControlPlane
