import ControlPlane.Db.Models
import ControlPlane.Lib.Grouping
import Mathlib.Data.Finset.Insert

/-! # Agent-to-tool authorization

The decision is a function of a policy, frozen when the task is claimed, and
the name of a tool. The kill switches come before the grants. -/

namespace ControlPlane
open Grouping

abbrev ToolId := Nat

inductive ToolStatus where
  | active | disabled
  deriving DecidableEq, Repr

inductive ToolType where
  | simulated | http
  deriving DecidableEq, Repr

def ToolType.value : ToolType → String
  | simulated => "SIMULATED"
  | http => "HTTP"

inductive DenyReason where
  | unknownTool | notGranted | toolDisabled | versionDisabled | noPolicy
  deriving DecidableEq, Repr

def DenyReason.value : DenyReason → String
  | unknownTool => "unknown_tool"
  | notGranted => "not_granted"
  | toolDisabled => "tool_disabled"
  | versionDisabled => "version_disabled"
  | noPolicy => "no_policy"

/-- A registered tool, as the executor sees it. -/
structure ToolRef where
  id : ToolId
  name : String
  toolType : ToolType
  status : ToolStatus
  config : JsonObject := []
  deriving DecidableEq

structure ToolPolicy where
  agentVersionId : Option VersionId
  grantedToolIds : Finset ToolId := ∅
  toolsByName : Dict String ToolRef := ∅
  versionDisabled : Bool := false

/-- The policy of a task with no agent version pinned. -/
def ungoverned : ToolPolicy where
  agentVersionId := none

structure AuthzDecision where
  allowed : Bool
  tool : Option ToolRef := none
  reason : Option DenyReason := none
  deriving DecidableEq

def authorize (policy : ToolPolicy) (toolName : String) : AuthzDecision :=
  if policy.versionDisabled then { allowed := false, reason := some .versionDisabled }
  else if policy.agentVersionId = none then { allowed := false, reason := some .noPolicy }
  else match policy.toolsByName.lookup toolName with
  | none => { allowed := false, reason := some .unknownTool }
  | some tool =>
    if tool.status = .disabled then
      { allowed := false, tool := some tool, reason := some .toolDisabled }
    else if tool.id ∉ policy.grantedToolIds then
      { allowed := false, tool := some tool, reason := some .notGranted }
    else { allowed := true, tool := some tool }

/-- What it takes to be allowed, and which tool is then used. -/
theorem authorize_allowed_iff {policy : ToolPolicy} {toolName : String} {tool : ToolRef} :
    authorize policy toolName = { allowed := true, tool := some tool } ↔
      policy.versionDisabled = false ∧ policy.agentVersionId ≠ none ∧
        policy.toolsByName.lookup toolName = some tool ∧ tool.status = .active ∧
        tool.id ∈ policy.grantedToolIds := by
  unfold authorize
  split
  · rename_i hv
    simp [hv]
  split
  · rename_i hv
    simp [hv]
  rename_i hdisabled hpinned
  split
  · rename_i hname
    simp [hname]
  · rename_i t hname
    rw [hname]
    split
    · rename_i hs
      simp only [AuthzDecision.mk.injEq, Bool.false_eq_true, false_and, false_iff, not_and]
      intro _ _ ht hactive
      rw [← Option.some.inj ht, hs] at hactive
      cases hactive
    · rename_i hs
      have hactive : t.status = .active := by
        cases hst : t.status with
        | active => rfl
        | disabled => exact absurd hst hs
      split
      · rename_i hg
        simp only [AuthzDecision.mk.injEq, Bool.false_eq_true, false_and, false_iff, not_and]
        intro _ _ ht _ hin
        rw [← Option.some.inj ht] at hin
        exact hg hin
      · rename_i hg
        simp only [AuthzDecision.mk.injEq, Option.some.injEq, true_and, and_true]
        constructor
        · rintro rfl
          exact ⟨Bool.eq_false_iff.mpr hdisabled, hpinned, rfl, hactive, not_not.mp hg⟩
        · exact fun h => h.2.2.1

/-- A decision is a denial, with its reason, or it names the tool. -/
theorem authorize_cases (policy : ToolPolicy) (toolName : String) :
    (∃ tool, authorize policy toolName = { allowed := true, tool := some tool }) ∨
      ((authorize policy toolName).allowed = false ∧
        ∃ reason, (authorize policy toolName).reason = some reason) := by
  unfold authorize
  split
  · exact Or.inr ⟨rfl, _, rfl⟩
  split
  · exact Or.inr ⟨rfl, _, rfl⟩
  split
  · exact Or.inr ⟨rfl, _, rfl⟩
  split
  · exact Or.inr ⟨rfl, _, rfl⟩
  split
  · exact Or.inr ⟨rfl, _, rfl⟩
  · exact Or.inl ⟨_, rfl⟩

/-- Nothing governs the task: every tool is denied. -/
theorem authorize_ungoverned (toolName : String) :
    authorize ungoverned toolName = { allowed := false, reason := some .noPolicy } := rfl

end ControlPlane
