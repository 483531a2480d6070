import ControlPlane.Db.Completion

/-! # Lease renewal

A renewal keeps the state and extends the lease. It has its own fence: the row
is RUNNING under the caller's attempt and worker, and its lease has not expired
yet. Whatever the reason, a refused renewal is the same `none`. -/

namespace ControlPlane
open Keyed Fallible

/-- The row passes the fence of a renewal. -/
def Task.Renewable (t : Task) (now : Time) (a : Int) (w : WorkerId) : Prop :=
  t.HeldBy a w ∧ ∃ e, t.leaseExpiresAt = some e ∧ now < e

instance (t : Task) (now : Time) (a : Int) (w : WorkerId) : Decidable (t.Renewable now a w) :=
  decidable_of_iff (t.HeldBy a w ∧ t.leaseExpiresAt.any (fun e => decide (now < e)) = true) <|
    and_congr_right' (by simp [Option.any_eq_true])

def renewWrite (now : Time) (leaseTtlS : Int) : TaskWrite where
  row t := { t with leaseExpiresAt := some (now + seconds leaseTtlS), updatedAt := now }
  pinned _ := rfl

/-- What a renewal returns: the cancellation flag and the new deadline. -/
structure Renewal where
  cancelRequested : Bool
  leaseExpiresAt : Option Time

def renewLease (db : Database) (now : Time) (taskId : TaskId) (workerId : WorkerId)
    (expectAttempt leaseTtlS : Int) : Except Raised (Database × Option Renewal) := do
  let (db, rows) ← updateTasks db
    (fun t => t.id == taskId && decide (t.Renewable now expectAttempt workerId))
    (renewWrite now leaseTtlS)
  pure (db, rows.head?.map fun t => ⟨t.cancelRequested, t.leaseExpiresAt⟩)

/-- **A renewal that returned**: extended on a row that passes its fence,
refused otherwise with nothing changed. -/
theorem renewLease_ok {db db' : Database} {now : Time} {i : TaskId} {w : WorkerId} {a ttl : Int}
    {res : Option Renewal} (h : renewLease db now i w a ttl = .ok (db', res)) :
    SameParties db db' ∧
    ((∃ t, db.task? i = some t ∧ t.Renewable now a w ∧
        res = some ⟨t.cancelRequested, some (now + seconds ttl)⟩ ∧
        db'.view = Function.update db.view i ⟨some ((renewWrite now ttl).row t),
          (db.view i).attempts, (db.view i).events⟩) ∨
      ((∀ t, db.task? i = some t → ¬ t.Renewable now a w) ∧ res = none ∧ db'.view = db.view)) := by
  unfold renewLease at h
  obtain ⟨⟨db₁, rows⟩, hup, h⟩ := bind_ok.mp h
  obtain ⟨rfl, rfl⟩ := Prod.mk.inj (pure_ok.mp h)
  have hid : ∀ t : Task, (t.id == i && decide (t.Renewable now a w)) = true → t.id = i := by
    intro t ht
    simp only [Bool.and_eq_true, beq_iff_eq] at ht
    exact ht.1
  obtain ⟨hp, ⟨t, hr, hsel, rfl, hv⟩ | ⟨hno, rfl, hv⟩⟩ := updateTask_ok hid hup
  · refine ⟨hp, Or.inl ⟨t, hr, ?_, rfl, hv⟩⟩
    simp only [Bool.and_eq_true, decide_eq_true_eq] at hsel
    exact hsel.2
  · refine ⟨hp, Or.inr ⟨fun t ht hren => ?_, rfl, hv⟩⟩
    have hsel := hno t ht
    rw [Database.row_id ht] at hsel
    simp [hren] at hsel

end ControlPlane
