import Mathlib.Data.Int.Notation
import Mathlib.Order.Basic

/-! # Admission control

Whether a submission is accepted at all. A tenant at the bound of its own
backlog is told so before anybody is told that the system is overloaded. -/

namespace ControlPlane

inductive Admission where
  | admitted | rejectTenantBacklog | shedOverloaded
  deriving DecidableEq, Repr

structure Verdict where
  decision : Admission
  reason : String := ""
  retryAfterS : Nat := 0

def Verdict.admitted (v : Verdict) : Bool := v.decision == .admitted

/-- A threshold of 0 disables shedding. -/
def Admission.decide (tenantQueued : Nat) (tenantMaxQueued : Int) (globalQueued : Nat := 0)
    (globalShedThreshold : Int := 0) : Verdict :=
  if tenantMaxQueued ≤ tenantQueued then
    { decision := .rejectTenantBacklog
      reason := "tenant has " ++ toString tenantQueued ++ " queued tasks, at its limit of " ++
        toString tenantMaxQueued ++ "; submissions are outpacing execution"
      retryAfterS := 5 }
  else if 0 < globalShedThreshold ∧ globalShedThreshold ≤ globalQueued then
    { decision := .shedOverloaded
      reason := "system queue depth " ++ toString globalQueued ++
        " is at or above the shed threshold " ++ toString globalShedThreshold
      retryAfterS := 30 }
  else { decision := .admitted }

/-- Who is admitted: a tenant below its own bound while the system is not over
its threshold, or no threshold is set. -/
theorem Admission.decide_admitted_iff (q : Nat) (m : Int) (g : Nat) (n : Int) :
    (Admission.decide q m g n).admitted = true ↔ (q : Int) < m ∧ (n ≤ 0 ∨ (g : Int) < n) := by
  unfold Admission.decide Verdict.admitted
  split
  · rename_i h
    simp [Int.not_lt.mpr h]
  · rename_i h
    split
    · rename_i h'
      simp [Int.not_le.mpr h'.1, Int.not_lt.mpr h'.2]
    · rename_i h'
      have hn : n ≤ 0 ∨ (g : Int) < n := by omega
      simp [Int.not_le.mp h, hn]

/-- Where nothing is shed, the depth of all queues does not matter. -/
theorem Admission.decide_unshed (q : Nat) (m : Int) {g g' : Nat} {n n' : Int} (h : n ≤ 0)
    (h' : n' ≤ 0) : Admission.decide q m g n = Admission.decide q m g' n' := by
  unfold Admission.decide
  simp [Int.not_lt.mpr h, Int.not_lt.mpr h']

end ControlPlane
