import ControlPlane.Db.View

/-! # The compare-and-set that moves a task between states

`transition` is a single `UPDATE` whose predicate carries every expectation of
the caller, followed by the event of the change in the same transaction.
Losing the race is a returned rejection, read off a second look at the row; an
illegal pair of states raises before anything is written. -/

namespace ControlPlane
open Keyed Fallible

inductive Rejection where
  | notFound | stateMismatch | attemptMismatch | workerMismatch | leaseNotExpired
  | executionTimeNotExceeded
  deriving DecidableEq, Repr

def Rejection.value : Rejection → String
  | notFound => "not_found"
  | stateMismatch => "state_mismatch"
  | attemptMismatch => "attempt_mismatch"
  | workerMismatch => "worker_mismatch"
  | leaseNotExpired => "lease_not_expired"
  | executionTimeNotExceeded => "execution_time_not_exceeded"

/-- What a caller expects of the row besides its state. -/
structure Expect where
  attempt : Option Int := none
  worker : Option WorkerId := none
  leaseExpired : Bool := false
  executionTimeExceeded : Bool := false

/-- `lease_expires_at < now()`; a NULL lease is not expired. -/
def Task.leaseExpired (t : Task) (now : Time) : Bool :=
  t.leaseExpiresAt.any fun e => decide (e < now)

/-- `first_started_at + seconds(max_execution_time_s) < now()`, NULL excluded. -/
def Task.executionTimeExceeded (t : Task) (now : Time) : Bool :=
  t.firstStartedAt.any fun s => decide (s + seconds t.maxExecutionTimeS < now)

def Expect.matches (e : Expect) (now : Time) (t : Task) : Bool :=
  e.attempt.all (fun a => t.attempt == a) && e.worker.all (fun w => t.leaseWorkerId == some w) &&
    (!e.leaseExpired || t.leaseExpired now) &&
    (!e.executionTimeExceeded || t.executionTimeExceeded now)

/-- The columns a transition may set besides `state` and `updated_at`; an
absent entry leaves its column alone. -/
structure SetFields where
  availableAt : Option Time := none
  leaseWorkerId : Option (Option WorkerId) := none
  leaseExpiresAt : Option (Option Time) := none
  cancelRequested : Option Bool := none
  result : Option Json := none
  errorClass : Option String := none
  errorMessage : Option String := none
  finishedAt : Option Time := none

def SetFields.apply (s : SetFields) (t : Task) : Task :=
  { t with
    availableAt := s.availableAt.getD t.availableAt
    leaseWorkerId := s.leaseWorkerId.getD t.leaseWorkerId
    leaseExpiresAt := s.leaseExpiresAt.getD t.leaseExpiresAt
    cancelRequested := s.cancelRequested.getD t.cancelRequested
    result := s.result.or t.result
    errorClass := s.errorClass.or t.errorClass
    errorMessage := s.errorMessage.or t.errorMessage
    finishedAt := s.finishedAt.or t.finishedAt }

def transitionWrite (now : Time) (toState : State) (s : SetFields) : TaskWrite where
  row t := s.apply { t with state := toState, updatedAt := now }
  pinned _ := rfl

/-- What a rejected transition saw when it read the row again. -/
structure Observed where
  state : State
  attempt : Int
  leaseWorkerId : Option WorkerId
  leaseExpiresAt : Option Time
  firstStartedAt : Option Time
  maxExecutionTimeS : Int

def Task.observed (t : Task) : Observed where
  state := t.state
  attempt := t.attempt
  leaseWorkerId := t.leaseWorkerId
  leaseExpiresAt := t.leaseExpiresAt
  firstStartedAt := t.firstStartedAt
  maxExecutionTimeS := t.maxExecutionTimeS

inductive TransitionResult where
  | applied (task : Task)
  | rejected (why : Rejection) (observed : Option Observed)

def TransitionResult.isApplied : TransitionResult → Bool
  | applied _ => true
  | rejected _ _ => false

/-- `_explain`: the first expectation the row fails, in the order state,
attempt, worker, lease, execution time. -/
def explain (db : Database) (now : Time) (taskId : TaskId) (expected : List State) (e : Expect) :
    TransitionResult :=
  match db.task? taskId with
  | none => .rejected .notFound none
  | some obs =>
    let reason : Rejection :=
      if !expected.contains obs.state then .stateMismatch
      else if !e.attempt.all (fun a => obs.attempt == a) then .attemptMismatch
      else if !e.worker.all (fun w => obs.leaseWorkerId == some w) then .workerMismatch
      else if e.leaseExpired && !obs.leaseExpired now then .leaseNotExpired
      else if e.executionTimeExceeded && !obs.executionTimeExceeded now then
        .executionTimeNotExceeded
      -- matched on re-read but not during the UPDATE: contention
      else .stateMismatch
    .rejected reason (some obs.observed)

def assertLegal (frm dest : State) : Except Raised PUnit :=
  ensure (frm.isLegal dest = true) (.illegalTransition frm dest)

/-- Python's `x or y` on an optional string: the empty string is falsy too. -/
def pyOr : Option String → Option String → Option String
  | some s, y => if s = "" then y else some s
  | none, y => y

def recordEvent (db : Database) (now : Time) (taskId : TaskId) (eventType : EventType)
    (attempt : Option Int) (workerId : Option WorkerId) (data : Json) : Except Raised Database :=
  insertEvent db ⟨taskId, attempt, eventType, workerId, data, now⟩

/-- The rows a transition's `UPDATE` selects. -/
def Expect.selects (e : Expect) (now : Time) (taskId : TaskId) (expected : List State)
    (t : Task) : Bool :=
  t.id == taskId && expected.contains t.state && e.matches now t

def transition (db : Database) (now : Time) (taskId : TaskId) (expectState : List State)
    (toState : State) (eventType : EventType) (e : Expect) (setFields : SetFields)
    (eventData : Json) : Except Raised (Database × TransitionResult) := do
  ensure (expectState ≠ [])
    (.valueError "expect_state is required; it is the CAS anchor, not an optimisation")
  forM expectState fun src => assertLegal src toState
  let (db, rows) ← updateTasks db (e.selects now taskId expectState)
    (transitionWrite now toState setFields)
  match rows.head? with
  | none => pure (db, explain db now taskId expectState e)
  | some row =>
    let db ← insertEvent db ⟨taskId, some row.attempt, eventType,
      pyOr row.leaseWorkerId e.worker, eventData, now⟩
    pure (db, .applied row)

/-! ## What a transition does -/

theorem Expect.selects_id {e : Expect} {now : Time} {i : TaskId} {expected : List State} {t : Task}
    (h : e.selects now i expected t = true) : t.id = i := by
  simp only [selects, Bool.and_eq_true, beq_iff_eq] at h
  exact h.1.1

theorem Expect.selects_iff {e : Expect} {now : Time} {i : TaskId} {expected : List State} {t : Task}
    (hid : t.id = i) :
    e.selects now i expected t = true ↔ t.state ∈ expected ∧ e.matches now t = true := by
  simp [selects, hid]

theorem explain_isApplied (db : Database) (now : Time) (i : TaskId) (expected : List State)
    (e : Expect) : (explain db now i expected e).isApplied = false := by
  unfold explain; split <;> rfl

/-- **A transition that returned.** Either the row met every expectation: it
moved along a legal edge, only its own columns changed, and one event was
appended; or it was rejected and nothing changed. -/
theorem transition_ok {db db' : Database} {now : Time} {i : TaskId} {expected : List State}
    {dest : State} {ty : EventType} {e : Expect} {s : SetFields} {data : Json}
    {res : TransitionResult}
    (h : transition db now i expected dest ty e s data = .ok (db', res)) :
    SameParties db db' ∧
    ((∃ t, db.task? i = some t ∧ t.state ∈ expected ∧ e.matches now t = true ∧
        t.state.isLegal dest = true ∧
        res = .applied ((transitionWrite now dest s).row t) ∧
        db'.view = Function.update db.view i
          ⟨some ((transitionWrite now dest s).row t), (db.view i).attempts,
            (db.view i).events ++ [⟨i, some t.attempt, ty,
              pyOr (s.leaseWorkerId.getD t.leaseWorkerId) e.worker, data, now⟩]⟩) ∨
      ((∀ t, db.task? i = some t → ¬ (t.state ∈ expected ∧ e.matches now t = true)) ∧
        res.isApplied = false ∧ db'.view = db.view)) := by
  unfold transition at h
  obtain ⟨-, -, h⟩ := bind_ok.mp h
  obtain ⟨_, hlegal, h⟩ := bind_ok.mp h
  obtain ⟨⟨db₁, rows⟩, hup, h⟩ := bind_ok.mp h
  obtain ⟨hp, ⟨t, hr, hsel, rfl, hv⟩ | ⟨hno, rfl, hv⟩⟩ :=
    updateTask_ok (fun _ => Expect.selects_id) hup
  · obtain ⟨db₂, hev, h⟩ := bind_ok.mp h
    obtain ⟨rfl, rfl⟩ := Prod.mk.inj (pure_ok.mp h)
    obtain ⟨hst, hm⟩ := (Expect.selects_iff (Database.row_id hr)).mp hsel
    refine ⟨hp.trans (insertEvent_parties hev), Or.inl ⟨t, hr, hst, hm,
      ensure_ok.mp (forM_ok hlegal t.state hst), rfl, ?_⟩⟩
    funext j
    rw [insertEvent_view hev, hv]
    by_cases hj : j = i
    · subst hj
      rw [Function.update_self, Function.update_self, if_pos rfl]
      rfl
    · rw [Function.update_of_ne hj, Function.update_of_ne hj, if_neg (Ne.symm hj),
        List.append_nil]
  · obtain ⟨rfl, rfl⟩ := Prod.mk.inj (pure_ok.mp h)
    refine ⟨hp, Or.inr ⟨fun t ht hm => ?_, explain_isApplied .., hv⟩⟩
    have hsel := (Expect.selects_iff (Database.row_id ht)).mpr hm
    rw [hno t ht] at hsel
    cases hsel

/-- A transition along legal edges to rows that pass the checks does not raise. -/
theorem transition_returns (db : Database) (now : Time) (i : TaskId) {expected : List State}
    {dest : State} (ty : EventType) (e : Expect) {s : SetFields} (data : Json)
    (hne : expected ≠ []) (hlegal : ∀ src ∈ expected, src.isLegal dest = true)
    (hchecked : ∀ t : Task, t.Checked → t.state ∈ expected →
      ((transitionWrite now dest s).row t).Checked) :
    ∃ db' res, transition db now i expected dest ty e s data = .ok (db', res) := by
  obtain ⟨db₁, h₁⟩ := updateTasks_succeeds db (e.selects now i expected)
    (transitionWrite now dest s) fun t ht hsel =>
      hchecked t (db.tasks_checked t ht)
        ((Expect.selects_iff (Expect.selects_id hsel)).mp hsel).1
  have hassert : (forM expected fun src => assertLegal src dest) = .ok ⟨⟩ :=
    forM_succeeds fun src hsrc => ensure_eq (hlegal src hsrc)
  unfold transition
  rw [ensure_eq hne, ok_bind, hassert, ok_bind, h₁, ok_bind]
  dsimp only
  split
  · exact ⟨db₁, _, rfl⟩
  · rename_i row hrow
    -- the event's task is there: it is the row the UPDATE returned
    obtain ⟨t, ht, hsel, -, -⟩ := Table.modified_key (transitionWrite now dest s).id
      (List.mem_of_head? hrow)
    obtain rfl : t.id = i := Expect.selects_id hsel
    have hsome : (db₁.task? t.id).isSome = true := by
      rw [task?_of_tasks (updateTasks_ok h₁).1, show db.task? t.id = some t from Table.find?_key ht]
      rfl
    obtain ⟨db₂, h₂⟩ := insertEvent_succeeds (e := ⟨t.id, some row.attempt, ty,
      pyOr row.leaseWorkerId e.worker, data, now⟩) hsome
    rw [h₂]
    exact ⟨db₂, _, rfl⟩

/-- A write that gives the lease up passes the checks in every state but RUNNING. -/
theorem transitionWrite_checked {now : Time} {dest : State} {s : SetFields} {t : Task}
    (h : t.Checked) (hdest : dest ≠ .running) (hw : s.leaseWorkerId = some none) :
    ((transitionWrite now dest s).row t).Checked := by
  obtain ⟨hm, he, ha, hp, -⟩ := t.checked_iff.mp h
  refine (Task.checked_iff _).mpr ⟨hm, he, ha, hp, ?_⟩
  have hnone : ((transitionWrite now dest s).row t).leaseWorkerId = none := by
    show s.leaseWorkerId.getD t.leaseWorkerId = none
    rw [hw]
    rfl
  rw [hnone]
  exact ⟨fun hrun => absurd hrun hdest, fun hlease => by simp at hlease⟩

end ControlPlane
