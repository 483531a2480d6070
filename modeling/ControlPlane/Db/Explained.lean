import ControlPlane.Lib.ThreeValued
import ControlPlane.Db.Completion
import ControlPlane.Db.Reap
import ControlPlane.Db.Tasks

/-! # A transition and its explanation

The expectations of a transition are written twice: as conditions of the `UPDATE`,
over columns that may be NULL, and as questions about the row read again. Both are
given here as they are written, and agree with the one predicate of `transition`; so
a rejection names the first expectation that the row fails. -/

namespace ControlPlane
open Keyed Fallible ThreeValued

/-! ## As written -/

/-- The row of the second read, with its two labelled columns. -/
structure Reread extends Observed where
  leaseExpired : Truth
  executionTimeExceeded : Truth

def Reread.reason (obs : Reread) (expected : List State) (e : Expect) : Rejection :=
  if !expected.contains obs.state then .stateMismatch
  else if e.attempt.any (fun a => obs.attempt != a) then .attemptMismatch
  else if e.worker.any (fun w => obs.leaseWorkerId != some w) then .workerMismatch
  else if e.leaseExpired && !truthy obs.leaseExpired then .leaseNotExpired
  else if e.executionTimeExceeded && !truthy obs.executionTimeExceeded then
    .executionTimeNotExceeded
  -- the row matched on re-read but not during the UPDATE
  else .stateMismatch

/-- The expectations, each with the rejection it stands for, in the order in which they
are named. -/
def Expect.checks (e : Expect) (now : Time) (expected : List State) (t : Task) :
    List (Rejection × Bool) :=
  [(.stateMismatch, expected.contains t.state),
    (.attemptMismatch, e.attempt.all fun a => t.attempt == a),
    (.workerMismatch, e.worker.all fun w => t.leaseWorkerId == some w),
    (.leaseNotExpired, !e.leaseExpired || t.leaseExpired now),
    (.executionTimeNotExceeded, !e.executionTimeExceeded || t.executionTimeExceeded now)]

/-- The first expectation that fails; a row that is not there fails all of them. -/
def Expect.firstFailing (e : Expect) (now : Time) (expected : List State) :
    Option Task → Option Rejection
  | none => some .notFound
  | some t => ((e.checks now expected t).find? fun c => !c.2).map Prod.fst

theorem Expect.firstFailing_none {e : Expect} {now : Time} {expected : List State} {t : Task} :
    e.firstFailing now expected (some t) = none ↔
      t.state ∈ expected ∧ e.matches now t = true := by
  simp [firstFailing, checks, Expect.matches, and_assoc]

/-- The rows a database has are those of another, one of which has been rewritten, and
its log has one more event. -/
structure Database.Moved (db : Database) (t t' : Task) (ev : TaskEvent) (db' : Database) :
    Prop where
  row : db'.task? t.id = some t'
  others : ∀ j, j ≠ t.id → db'.task? j = db.task? j
  events : db'.events = db.events ++ [ev]
  attempts : db'.attempts = db.attempts
  parties : SameParties db db'

/-- The combinations of expected states, new state and fields that the program uses:
of the completions, of the two recoveries, of a cancellation before the start. -/
inductive CallerFields [PyText] (now : Time) : List State → State → SetFields → Prop
  | completion (e : Ending) : CallerFields now [.running] e.toState (e.setFields now)
  | recovery (o : Overdue) (a m : Int) (w : Option WorkerId) :
    CallerFields now [.running] (reapToState a m) (reapSetFields now o a m w)
  | cancellation : CallerFields now [.queued] .cancelled (cancelFields now)

/-- None of them makes a row that the table would refuse. -/
theorem CallerFields.checked [PyText] {now : Time} {expected : List State} {dest : State} {s : SetFields}
    (h : CallerFields now expected dest s) {t : Task} (ht : t.Checked) (hst : t.state ∈ expected) :
    ((transitionWrite now dest s).row t).Checked := by
  cases h with
  | completion e => exact transitionWrite_checked ht e.toState_not_running (e.setFields_lease now).1
  | recovery o a m w =>
    exact transitionWrite_checked ht (reapToState_not_running a m) (reapSetFields_lease ..).1
  | cancellation =>
    obtain ⟨hm, hx, ha, hp, hlease⟩ := t.checked_iff.mp ht
    have hqueued : t.state = .queued := List.mem_singleton.mp hst
    have hfree : ¬ (t.leaseWorkerId.isSome = true ∧ t.leaseExpiresAt.isSome = true) := by
      rw [← hlease, hqueued]
      exact State.noConfusion
    refine (Task.checked_iff _).mpr ⟨hm, hx, ha, hp, fun hrun => ?_, fun hheld => ?_⟩
    · exact State.noConfusion hrun
    · exact absurd hheld hfree

section
variable (db : Database) (now : Time) (i : TaskId) {expected : List State} {dest : State}
  (ty : EventType) (e : Expect) (s : SetFields) (data : Json)

variable (hne : expected ≠ []) (hlegal : ∀ src ∈ expected, src.isLegal dest = true)
include hne hlegal

/-- Past the checks, a transition is its `UPDATE` and what follows. -/
theorem transition_update : transition db now i expected dest ty e s data = (do
    let (db, rows) ← updateTasks db (e.selects now i expected) (transitionWrite now dest s)
    match rows.head? with
    | none => pure (db, explain db now i expected e)
    | some row =>
      let db ← insertEvent db ⟨i, some row.attempt, ty, pyOr row.leaseWorkerId e.worker, data, now⟩
      pure (db, .applied row)) := by
  have hassert : (forM expected fun src => assertLegal src dest) = .ok ⟨⟩ :=
    forM_succeeds fun src hsrc => ensure_eq (hlegal src hsrc)
  unfold transition
  rw [ensure_eq hne, ok_bind, hassert]
  rfl

theorem transition_applies {t : Task} (ht : db.task? i = some t)
    (hmatch : e.firstFailing now expected (some t) = none)
    (hchecked : ((transitionWrite now dest s).row t).Checked) :
    ∃ db', transition db now i expected dest ty e s data =
        .ok (db', .applied ((transitionWrite now dest s).row t)) ∧
      db.Moved t ((transitionWrite now dest s).row t)
        ⟨i, some t.attempt, ty, pyOr (s.leaseWorkerId.getD t.leaseWorkerId) e.worker, data, now⟩
        db' := by
  obtain rfl : t.id = i := Database.row_id ht
  have hsel : e.selects now t.id expected t = true :=
    (Expect.selects_iff rfl).mpr (Expect.firstFailing_none.mp hmatch)
  have honly : ∀ u ∈ db.tasks.rows, e.selects now t.id expected u = true → u = t := by
    intro u hu hselu
    exact Table.eq_of_key_eq hu (Table.mem_of_find? ht) (Expect.selects_id hselu)
  obtain ⟨db₁, h₁⟩ := updateTasks_succeeds db (e.selects now t.id expected)
    (transitionWrite now dest s) fun u hu hselu => honly u hu hselu ▸ hchecked
  obtain ⟨htasks₁, -, hattempts₁, hevents₁, -⟩ := updateTasks_ok h₁
  obtain ⟨hp₁, ⟨u, hu, -, hrows, -⟩ | ⟨hno, -, -⟩⟩ :=
    updateTask_ok (fun _ => Expect.selects_id) h₁
  swap
  · rw [hno t ht] at hsel
    cases hsel
  obtain rfl : u = t := Option.eq_some_unique hu ht
  have hrow : ∀ j, db₁.task? j = (db.task? j).map fun v =>
      if e.selects now u.id expected v then (transitionWrite now dest s).row v else v :=
    task?_of_tasks htasks₁
  have hthere : (db₁.task? u.id).isSome = true := by
    rw [hrow, ht]
    rfl
  obtain ⟨db₂, h₂⟩ := insertEvent_succeeds (e := ⟨u.id, some u.attempt, ty,
    pyOr (s.leaseWorkerId.getD u.leaseWorkerId) e.worker, data, now⟩) hthere
  obtain ⟨hevents₂, htasks₂, hattempts₂, -⟩ := insertEvent_ok h₂
  have htask : ∀ j, db₂.task? j = db₁.task? j := by
    intro j
    unfold Database.task?
    rw [htasks₂]
  refine ⟨db₂, ?_, ?_, fun j hj => ?_, ?_, ?_, ?_⟩
  · rw [transition_update db now u.id ty e s data hne hlegal, h₁, ok_bind, hrows]
    dsimp only [List.head?_cons]
    exact (congrArg (· >>= _) h₂).trans rfl
  · rw [htask, hrow, ht, Option.map_some, if_pos hsel]
  · rw [htask, hrow]
    cases hv : db.task? j with
    | none => rfl
    | some v =>
      have hnot : e.selects now u.id expected v = false := by
        by_contra hselv
        have hid := Expect.selects_id (Bool.not_eq_false _ ▸ hselv)
        exact hj ((Database.row_id hv).symm.trans hid)
      rw [Option.map_some, hnot]
      rfl
  · rw [hevents₂, hevents₁]
  · rw [hattempts₂, hattempts₁]
  · exact hp₁.trans (insertEvent_parties h₂)

end

end ControlPlane
