import Mathlib.Data.List.Basic

/-! # The task state machine

Five states, the complete graph of legal transitions between them, and the
kinds of events the history of a task is written in. Legality says nothing
about concurrency: that is what the compare-and-set predicates of the queries
are for. -/

namespace ControlPlane

inductive State where
  | queued | running | succeeded | failed | cancelled
  deriving DecidableEq, Repr

namespace State

def terminal : List State := [succeeded, failed, cancelled]

/-- The legal targets of each state. -/
def allowed : State → List State
  | queued => [running, cancelled]
  | running => [queued, succeeded, failed, cancelled]
  | succeeded => []
  | failed => []
  | cancelled => []

def isLegal (frm dest : State) : Bool := (allowed frm).contains dest

def isTerminal (s : State) : Bool := terminal.contains s

/-- A terminal state is exactly one nothing may follow. -/
theorem isTerminal_iff_allowed_nil (s : State) : s.isTerminal = true ↔ s.allowed = [] := by
  cases s <;> decide

end State

inductive EventType where
  | taskCreated | taskClaimed | taskStarted | attemptFailed | retryScheduled
  | leaseRenewed | leaseExpired | taskRecovered | taskAbandoned | workerLost
  | staleWriteRejected | taskSucceeded | taskFailed
  | toolAccessAllowed | toolAccessDenied | toolExecuted | toolExecutionFailed
  | cancelRequested | taskCancelled
  deriving DecidableEq, Repr

end ControlPlane
