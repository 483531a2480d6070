import ControlPlane.Lib.Table
import ControlPlane.Domain.States
import ControlPlane.Domain.Text

/-! # The task tables and what PostgreSQL guarantees about them

The rows of `tenants`, `workers`, `tasks`, `task_attempts` and `task_events`.
A `Database` carries its integrity constraints as proofs: primary keys, the
check constraints of `tasks`, the partial unique index on idempotency keys and
the foreign keys. Every statement either produces such a database or raises,
and a transaction that raises is rolled back. Timestamps are exact seconds;
`now()` is fixed for a whole transaction. -/

namespace ControlPlane
open Keyed

abbrev TenantId := Nat
abbrev TaskId := Nat
abbrev VersionId := Nat
abbrev WorkerId := String
abbrev Time := ℚ

/-- `seconds(n)`: a duration, in the unit of the clock. -/
def seconds (n : ℚ) : Time := n

structure Tenant where
  id : TenantId
  name : String
  maxConcurrentTasks : Int := 10
  maxQueuedTasks : Int := 1000

inductive WorkerStatus where
  | alive | draining | dead
  deriving DecidableEq, Repr

structure WorkerRow where
  id : WorkerId
  capacity : Int
  capabilities : List String := []
  status : WorkerStatus := .alive
  registeredAt : Time
  lastHeartbeatAt : Time

structure Task where
  id : TaskId
  tenantId : TenantId
  taskType : String
  payload : JsonObject
  idempotencyKey : Option String
  priority : Int := 100
  state : State := .queued
  attempt : Int := 0
  maxAttempts : Int := 3
  maxExecutionTimeS : Int := 300
  availableAt : Time
  leaseWorkerId : Option WorkerId := none
  leaseExpiresAt : Option Time := none
  agentVersionId : Option VersionId := none
  requiredCapabilities : List String := []
  capabilityKey : String := ""
  cancelRequested : Bool := false
  result : Option Json := none
  errorClass : Option String := none
  errorMessage : Option String := none
  createdAt : Time
  updatedAt : Time
  firstStartedAt : Option Time := none
  finishedAt : Option Time := none

inductive AttemptOutcome where
  | succeeded | failed | lost | abandoned | cancelled
  deriving DecidableEq, Repr

structure AttemptRow where
  taskId : TaskId
  attempt : Int
  workerId : WorkerId
  startedAt : Time
  finishedAt : Option Time := none
  outcome : Option AttemptOutcome := none
  errorClass : Option String := none
  errorMessage : Option String := none

/-- An event; its id is its position in the log. -/
structure TaskEvent where
  taskId : TaskId
  attempt : Option Int
  eventType : EventType
  workerId : Option WorkerId
  data : Json
  createdAt : Time

/-! ## Check constraints -/

/-- The check constraints of `tasks`, by name, with whether the row meets each. -/
def Task.constraints (t : Task) : List (String × Bool) :=
  [("ck_tasks_max_attempts", decide (1 ≤ t.maxAttempts)),
   ("ck_tasks_max_execution_time", decide (1 ≤ t.maxExecutionTimeS)),
   ("ck_tasks_attempt_nonneg", decide (0 ≤ t.attempt)),
   ("ck_tasks_priority_nonneg", decide (0 ≤ t.priority)),
   ("ck_tasks_lease_coherence",
     (t.state == .running) == (t.leaseWorkerId.isSome && t.leaseExpiresAt.isSome))]

def Task.violation (t : Task) : Option String := (t.constraints.find? fun c => !c.2).map Prod.fst

def Task.Checked (t : Task) : Prop := t.violation = none

instance (t : Task) : Decidable t.Checked := inferInstanceAs (Decidable (_ = none))

theorem Task.checked_iff (t : Task) :
    t.Checked ↔ 1 ≤ t.maxAttempts ∧ 1 ≤ t.maxExecutionTimeS ∧ 0 ≤ t.attempt ∧ 0 ≤ t.priority ∧
      (t.state = .running ↔ t.leaseWorkerId.isSome = true ∧ t.leaseExpiresAt.isSome = true) := by
  simp only [Checked, violation, Option.map_eq_none_iff, List.find?_eq_none, constraints,
    List.mem_cons, List.not_mem_nil, or_false, forall_eq_or_imp, forall_eq, Bool.not_eq_true,
    Bool.not_eq_false', decide_eq_true_eq, beq_iff_eq]
  refine and_congr_right' (and_congr_right' (and_congr_right' (and_congr_right' ?_)))
  constructor
  · intro h
    rw [← Bool.and_eq_true, ← h, beq_iff_eq]
  · intro h
    rw [← Bool.and_eq_true] at h
    by_cases hr : t.state = .running
    · rw [h.mp hr, hr]; rfl
    · have : (t.leaseWorkerId.isSome && t.leaseExpiresAt.isSome) = false :=
        Bool.eq_false_iff.mpr fun he => hr (h.mpr he)
      rw [this]
      exact beq_eq_false_iff_ne.mpr hr

end ControlPlane
