import ControlPlane.Db.Transitions

/-! # The ways an attempt ends

Every ending pairs the transition of the task with the update of its attempt's
row in the ledger, in one transaction. The five completions a worker can choose
are fenced on the attempt number and the worker; they differ in the state they
move to, the event they write and the columns they set, which `Ending` lists. -/

namespace ControlPlane
open Keyed Fallible

def finishedAttempt (now : Time) (outcome : AttemptOutcome) (errorClass errorMessage : Option String)
    (r : AttemptRow) : AttemptRow :=
  { r with
    finishedAt := some now
    outcome := some outcome
    errorClass := errorClass
    errorMessage := errorMessage }

theorem finishedAttempt_key (now : Time) (o : AttemptOutcome) (ec em : Option String)
    (r : AttemptRow) : (finishedAttempt now o ec em r).key = r.key := rfl

theorem finishedAttempt_workerId (now : Time) (o : AttemptOutcome) (ec em : Option String)
    (r : AttemptRow) : (finishedAttempt now o ec em r).workerId = r.workerId := rfl

def finishAttempt (db : Database) (now : Time) (taskId : TaskId) (attempt : Int)
    (outcome : AttemptOutcome) (errorClass errorMessage : Option String) : Database :=
  updateAttempt db taskId attempt (finishedAttempt now outcome errorClass errorMessage)
    (finishedAttempt_key now outcome errorClass errorMessage)
    (finishedAttempt_workerId now outcome errorClass errorMessage)

/-- The ledger rows of a task after `finishAttempt`. -/
def closeAttempt (now : Time) (attempt : Int) (outcome : AttemptOutcome)
    (errorClass errorMessage : Option String) (rows : List AttemptRow) : List AttemptRow :=
  rows.map fun r =>
    if r.attempt = attempt then finishedAttempt now outcome errorClass errorMessage r else r

theorem finishAttempt_view (db : Database) (now : Time) (i : TaskId) (a : Int)
    (o : AttemptOutcome) (ec em : Option String) :
    (finishAttempt db now i a o ec em).view = Function.update db.view i
      ⟨(db.view i).row, closeAttempt now a o ec em (db.view i).attempts, (db.view i).events⟩ := by
  have hid : ∀ j, ∀ r ∈ (db.view j).attempts, r.taskId = j := by
    intro j r hr
    simpa using (List.mem_filter.mp hr).2
  funext j
  unfold finishAttempt
  rw [updateAttempt_view]
  by_cases hj : j = i
  · subst hj
    rw [Function.update_self]
    congr 1
    refine List.map_congr_left fun r hr => ?_
    simp only [hid j r hr, true_and]
  · rw [Function.update_of_ne hj]
    have hsame : ((db.view j).attempts.map fun r =>
        if r.taskId = i ∧ r.attempt = a then finishedAttempt now o ec em r else r) =
        (db.view j).attempts := by
      refine (List.map_congr_left fun r hr => ?_).trans (List.map_id _)
      rw [hid j r hr, if_neg (fun h => hj h.1)]
      rfl
    rw [hsame]

theorem finishAttempt_parties (db : Database) (now : Time) (i : TaskId) (a : Int)
    (o : AttemptOutcome) (ec em : Option String) :
    SameParties db (finishAttempt db now i a o ec em) := ⟨rfl, rfl⟩

/-! ## The worker's endings -/

/-- How a worker reports the end of an attempt. -/
inductive Ending where
  | success (result : Json)
  | retry (errorClass errorMessage : String) (backoffS : ℚ)
  | failed (errorClass errorMessage : String)
  | cancelled
  | abandoned (reason : String)

namespace Ending

def toState : Ending → State
  | success _ => .succeeded
  | retry .. => .queued
  | failed .. => .failed
  | cancelled => .cancelled
  | abandoned _ => .queued

def eventType : Ending → EventType
  | success _ => .taskSucceeded
  | retry .. => .retryScheduled
  | failed .. => .taskFailed
  | cancelled => .taskCancelled
  | abandoned _ => .taskAbandoned

def setFields (now : Time) : Ending → SetFields
  | success result =>
    { result := some result.jsonb, finishedAt := some now, leaseWorkerId := some none
      leaseExpiresAt := some none }
  | retry errorClass errorMessage backoffS =>
    { availableAt := some (now + seconds backoffS), leaseWorkerId := some none
      leaseExpiresAt := some none, errorClass := some errorClass
      errorMessage := some errorMessage }
  | failed errorClass errorMessage =>
    { finishedAt := some now, errorClass := some errorClass, errorMessage := some errorMessage
      leaseWorkerId := some none, leaseExpiresAt := some none }
  | cancelled =>
    { finishedAt := some now, leaseWorkerId := some none, leaseExpiresAt := some none }
  | abandoned _ =>
    { availableAt := some now, leaseWorkerId := some none, leaseExpiresAt := some none }

def eventData : Ending → Json
  | retry errorClass _ _ => .obj [("error_class", .str errorClass)]
  | abandoned reason => .obj [("reason", .str reason)]
  | _ => .obj []

def outcome : Ending → AttemptOutcome
  | success _ => .succeeded
  | retry .. => .failed
  | failed .. => .failed
  | cancelled => .cancelled
  | abandoned _ => .abandoned

/-- The error columns of the attempt's row. -/
def errorClass : Ending → Option String
  | retry errorClass _ _ => some errorClass
  | failed errorClass _ => some errorClass
  | abandoned reason => some reason
  | _ => none

def errorMessage : Ending → Option String
  | retry _ errorMessage _ => some errorMessage
  | failed _ errorMessage => some errorMessage
  | _ => none

end Ending

/-- A transition fenced on attempt and worker and, when it applied, the end of
the attempt's row. -/
def completeAttempt (db : Database) (now : Time) (e : Ending) (taskId : TaskId) (attempt : Int)
    (workerId : WorkerId) : Except Raised (Database × TransitionResult) := do
  let (db, res) ← transition db now taskId [.running] e.toState e.eventType
    { attempt := some attempt, worker := some workerId } (e.setFields now) e.eventData
  if res.isApplied then
    pure (finishAttempt db now taskId attempt e.outcome e.errorClass e.errorMessage, res)
  else
    pure (db, res)

def completeSuccess (db : Database) (now : Time) (taskId : TaskId) (attempt : Int)
    (workerId : WorkerId) (result : Json) : Except Raised (Database × TransitionResult) :=
  completeAttempt db now (.success result) taskId attempt workerId

def completeRetry (db : Database) (now : Time) (taskId : TaskId) (attempt : Int)
    (workerId : WorkerId) (errorClass errorMessage : String) (backoffS : ℚ) :
    Except Raised (Database × TransitionResult) :=
  completeAttempt db now (.retry errorClass errorMessage backoffS) taskId attempt workerId

def completeFailed (db : Database) (now : Time) (taskId : TaskId) (attempt : Int)
    (workerId : WorkerId) (errorClass errorMessage : String) :
    Except Raised (Database × TransitionResult) :=
  completeAttempt db now (.failed errorClass errorMessage) taskId attempt workerId

def completeCancelled (db : Database) (now : Time) (taskId : TaskId) (attempt : Int)
    (workerId : WorkerId) : Except Raised (Database × TransitionResult) :=
  completeAttempt db now .cancelled taskId attempt workerId

def completeAbandoned (db : Database) (now : Time) (taskId : TaskId) (attempt : Int)
    (workerId : WorkerId) (reason : String) : Except Raised (Database × TransitionResult) :=
  completeAttempt db now (.abandoned reason) taskId attempt workerId

/-- The row a completion leaves. -/
def Ending.row (e : Ending) (now : Time) (t : Task) : Task :=
  (transitionWrite now e.toState (e.setFields now)).row t

/-- What a completion does to its task's share of the database. -/
def Ending.view (e : Ending) (now : Time) (w : WorkerId) (t : Task) (v : TaskView) : TaskView where
  row := some (e.row now t)
  attempts := closeAttempt now t.attempt e.outcome e.errorClass e.errorMessage v.attempts
  events := v.events ++ [⟨t.id, some t.attempt, e.eventType, some w, e.eventData, now⟩]

theorem Ending.setFields_lease (e : Ending) (now : Time) :
    (e.setFields now).leaseWorkerId = some none ∧ (e.setFields now).leaseExpiresAt = some none := by
  cases e <;> exact ⟨rfl, rfl⟩

/-- The row passes the fence of a worker's completion. -/
def Task.HeldBy (t : Task) (a : Int) (w : WorkerId) : Prop :=
  t.state = .running ∧ t.attempt = a ∧ t.leaseWorkerId = some w

instance (t : Task) (a : Int) (w : WorkerId) : Decidable (t.HeldBy a w) :=
  inferInstanceAs (Decidable (_ ∧ _ ∧ _))

theorem heldBy_iff {t : Task} {a : Int} {w : WorkerId} {now : Time} :
    t.state ∈ [State.running] ∧
      Expect.matches { attempt := some a, worker := some w } now t = true ↔ t.HeldBy a w := by
  simp [Expect.matches, Task.HeldBy]

/-- **A completion that returned** took effect exactly on a row that passes the
fence, and changed nothing otherwise. -/
theorem completeAttempt_ok {db db' : Database} {now : Time} {e : Ending} {i : TaskId} {a : Int}
    {w : WorkerId} {res : TransitionResult}
    (h : completeAttempt db now e i a w = .ok (db', res)) :
    SameParties db db' ∧
    ((∃ t, db.task? i = some t ∧ t.HeldBy a w ∧ res = .applied (e.row now t) ∧
        db'.view = Function.update db.view i (e.view now w t (db.view i))) ∨
      ((∀ t, db.task? i = some t → ¬ t.HeldBy a w) ∧ res.isApplied = false ∧
        db'.view = db.view)) := by
  unfold completeAttempt at h
  obtain ⟨⟨db₁, res₁⟩, htr, h⟩ := bind_ok.mp h
  obtain ⟨hp, ⟨t, hrow, hst, hm, -, rfl, hv⟩ | ⟨hno, hres, hv⟩⟩ := transition_ok htr
  · obtain ⟨rfl, rfl⟩ := Prod.mk.inj (pure_ok.mp h)
    have hheld := heldBy_iff.mp ⟨hst, hm⟩
    have ha := hheld.2.1
    refine ⟨hp.trans (finishAttempt_parties ..), Or.inl ⟨t, hrow, hheld, rfl, ?_⟩⟩
    have hid : t.id = i := Database.row_id hrow
    rw [finishAttempt_view, hv, Function.update_self, Function.update_idem]
    subst ha
    unfold Ending.view
    rw [hid, (e.setFields_lease now).1]
    rfl
  · simp only [hres, Bool.false_eq_true, if_false] at h
    obtain ⟨rfl, rfl⟩ := Prod.mk.inj (pure_ok.mp h)
    exact ⟨hp, Or.inr ⟨fun t ht hh => hno t ht (heldBy_iff.mpr hh), hres, hv⟩⟩

theorem Ending.toState_legal (e : Ending) : State.running.isLegal e.toState = true := by
  cases e <;> rfl

theorem Ending.toState_not_running (e : Ending) : e.toState ≠ .running := by
  cases e <;> simp [Ending.toState]

/-- A completion never raises. -/
theorem completeAttempt_returns (db : Database) (now : Time) (e : Ending) (i : TaskId) (a : Int)
    (w : WorkerId) : ∃ db' res, completeAttempt db now e i a w = .ok (db', res) := by
  have hlegal : ∀ src ∈ [State.running], src.isLegal e.toState = true := fun src hsrc => by
    rw [List.mem_singleton.mp hsrc]
    exact e.toState_legal
  obtain ⟨db₁, res, h⟩ := transition_returns db now i e.eventType
    { attempt := some a, worker := some w } e.eventData (List.cons_ne_nil _ _) hlegal
    fun t ht _ => transitionWrite_checked ht e.toState_not_running (e.setFields_lease now).1
  unfold completeAttempt
  rw [h, ok_bind]
  dsimp only
  split
  · exact ⟨_, _, rfl⟩
  · exact ⟨_, _, rfl⟩

end ControlPlane
