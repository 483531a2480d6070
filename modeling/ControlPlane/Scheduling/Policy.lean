import ControlPlane.Db.Models
import Mathlib.Data.List.Lex

/-! # Scheduling policies

The order a claim takes tasks in: a list of columns with directions, from a
closed set. Its meaning is the key the rows are compared by, column after
column. -/

namespace ControlPlane

inductive SortKey where
  | priority | availableAt | createdAt | id
  deriving DecidableEq, Repr

inductive Direction where
  | asc | desc
  deriving DecidableEq, Repr

def SortKey.value : SortKey → String
  | priority => "priority"
  | availableAt => "available_at"
  | createdAt => "created_at"
  | id => "id"

def Direction.value : Direction → String
  | asc => "ASC"
  | desc => "DESC"

/-- The column order of the index `idx_tasks_ready`. -/
def readyIndexColumns : List String := ["priority", "available_at", "id"]

structure ClaimPolicy where
  name : String
  orderBy : List (SortKey × Direction)

namespace ClaimPolicy

def orderBySql (p : ClaimPolicy) : String :=
  String.intercalate ", " (p.orderBy.map fun (key, direction) => key.value ++ " " ++ direction.value)

def isIndexServable (p : ClaimPolicy) : Bool :=
  p.orderBy.map (fun (key, _) => key.value) == readyIndexColumns &&
    p.orderBy.all fun (_, direction) => direction == .asc

end ClaimPolicy

def priorityFifo : ClaimPolicy where
  name := "priority-fifo"
  orderBy := [(.priority, .asc), (.availableAt, .asc), (.id, .asc)]

def defaultPolicy : ClaimPolicy := priorityFifo

example : priorityFifo.isIndexServable = true := by decide

/-! ## The order a policy stands for -/

def SortKey.column : SortKey → Task → ℚ
  | priority, t => t.priority
  | availableAt, t => t.availableAt
  | createdAt, t => t.createdAt
  | id, t => t.id

def Direction.sign : Direction → ℚ
  | asc => 1
  | desc => -1

/-- The values a row is ordered by, the first difference deciding. -/
def ClaimPolicy.sortKey (p : ClaimPolicy) (t : Task) : List ℚ :=
  p.orderBy.map fun (key, direction) => direction.sign * key.column t

theorem priorityFifo_sortKey (t : Task) :
    priorityFifo.sortKey t = [(t.priority : ℚ), t.availableAt, (t.id : ℚ)] := by
  simp [ClaimPolicy.sortKey, priorityFifo, Direction.sign, SortKey.column]

end ControlPlane
