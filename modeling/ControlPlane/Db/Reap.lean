import ControlPlane.Db.Completion
import Mathlib.Data.List.Sort

/-! # Recovery of the tasks nobody else can end

Two sweeps over RUNNING tasks, for expired leases and for attempts past their
execution time. They are one procedure: lock a batch of overdue rows, move each
back to QUEUED or, out of attempts, to FAILED, fenced on the overdue predicate
inside the `UPDATE`, and close the attempt as LOST. `Overdue` says which. -/

namespace ControlPlane
open Keyed Fallible

/-- What a locking read meets besides the rows: which of them other transactions
hold, and where each lies in the heap, which decides the order of equal keys. -/
structure Scan where
  locked : TaskId → Bool := fun _ => false
  ctid : TaskId → Nat := id

inductive Overdue where
  | leaseExpired | executionTimeExceeded
  deriving DecidableEq, Repr

namespace Overdue

/-- The row satisfies the sweep's predicate. -/
def holds (o : Overdue) (now : Time) (t : Task) : Bool :=
  match o with
  | leaseExpired => t.leaseExpired now
  | executionTimeExceeded => t.executionTimeExceeded now

def expect : Overdue → Expect
  | leaseExpired => { leaseExpired := true }
  | executionTimeExceeded => { executionTimeExceeded := true }

/-- The column the candidates are ordered by. -/
def sortKey (o : Overdue) (t : Task) : Option Time :=
  match o with
  | leaseExpired => t.leaseExpiresAt
  | executionTimeExceeded => t.firstStartedAt

def errorClass : Overdue → String
  | leaseExpired => "LeaseExpired"
  | executionTimeExceeded => "ExecutionTimeExceeded"

def errorMessage [PyText] (o : Overdue) (leaseWorkerId : Option WorkerId) : String :=
  match o with
  | leaseExpired => "lease expired; worker " ++ pyReprOption leaseWorkerId ++ " presumed dead"
  | executionTimeExceeded =>
    "execution time exceeded; worker " ++ pyReprOption leaseWorkerId ++ " presumed stuck"

/-- The data of the WORKER_LOST event. -/
def lostData : Overdue → Json
  | leaseExpired => .obj []
  | executionTimeExceeded => .obj [("reason", .str "execution_time_exceeded")]

/-- How long ago the row became overdue. -/
def overdueS (o : Overdue) (now : Time) (t : Task) : ℚ :=
  match o with
  | leaseExpired => now - t.leaseExpiresAt.getD now
  | executionTimeExceeded => now - t.firstStartedAt.getD now - seconds t.maxExecutionTimeS

theorem expect_matches (o : Overdue) (now : Time) (t : Task) :
    o.expect.matches now t = o.holds now t := by
  cases o <;> simp [Overdue.expect, Expect.matches, Overdue.holds]

theorem expect_worker (o : Overdue) : o.expect.worker = none := by
  cases o <;> rfl

end Overdue

/-- A candidate row, as the locking read returns it. -/
structure ReapRow where
  id : TaskId
  attempt : Int
  maxAttempts : Int
  leaseWorkerId : Option WorkerId
  overdueS : ℚ

/-- `ORDER BY` the overdue column; rows with equal values come in heap order. -/
def reapBefore (o : Overdue) (scan : Scan) (t u : Task) : Bool :=
  let inHeapOrder := decide (scan.ctid t.id ≤ scan.ctid u.id)
  match o.sortKey t, o.sortKey u with
  | some a, some b => decide (a < b) || (decide (a = b) && inHeapOrder)
  | some _, none => true
  | none, some _ => false
  | none, none => inHeapOrder

/-- The first `limit` RUNNING rows that satisfy the predicate, passing over the
locked ones. -/
def overdueTasks (db : Database) (now : Time) (o : Overdue) (limit : Int) (scan : Scan) :
    List Task :=
  ((db.tasks.rows.filter fun t => t.state == .running && o.holds now t && !scan.locked t.id)
    |>.insertionSort (fun t u => reapBefore o scan t u = true)).take limit.toNat

theorem mem_overdueTasks {db : Database} {now : Time} {o : Overdue} {limit : Int} {scan : Scan}
    {t : Task} (h : t ∈ overdueTasks db now o limit scan) :
    db.task? t.id = some t ∧ t.state = .running ∧ o.holds now t = true := by
  have hm := List.mem_of_mem_take h
  rw [List.mem_insertionSort, List.mem_filter] at hm
  obtain ⟨hmem, hsel⟩ := hm
  simp only [Bool.and_eq_true, beq_iff_eq] at hsel
  exact ⟨Table.find?_key hmem, hsel.1.1, hsel.1.2⟩

theorem overdueTasks_nodup (db : Database) (now : Time) (o : Overdue) (limit : Int)
    (scan : Scan) : ((overdueTasks db now o limit scan).map Task.id).Nodup := by
  have hperm := (List.perm_insertionSort (fun t u => reapBefore o scan t u = true)
    (db.tasks.rows.filter fun t =>
      t.state == .running && o.holds now t && !scan.locked t.id)).map Task.id
  exact (hperm.nodup_iff.mpr (db.tasks.filter_keys_nodup _)).sublist
    ((List.take_sublist ..).map _)

/-- What is overdue stays so while the row does not change. -/
theorem Overdue.holds_mono {o : Overdue} {now now' : Time} {t : Task} (hle : now ≤ now')
    (h : o.holds now t = true) : o.holds now' t = true := by
  cases o with
  | leaseExpired =>
    obtain ⟨e, he, hlt⟩ := (Option.any_eq_true ..).mp h
    have hlt' : e < now := of_decide_eq_true hlt
    exact (Option.any_eq_true ..).mpr ⟨e, he, decide_eq_true (hlt'.trans_le hle)⟩
  | executionTimeExceeded =>
    obtain ⟨s, hs, hlt⟩ := (Option.any_eq_true ..).mp h
    have hlt' : s + seconds t.maxExecutionTimeS < now := of_decide_eq_true hlt
    exact (Option.any_eq_true ..).mpr ⟨s, hs, decide_eq_true (hlt'.trans_le hle)⟩

/-- A batch with room left has taken every overdue row nobody else holds. -/
theorem overdueTasks_short {db : Database} {now : Time} {o : Overdue} {limit : Int} {scan : Scan}
    (hshort : ((overdueTasks db now o limit scan).length : Int) < limit) {t : Task}
    (ht : t ∈ db.tasks.rows) (hrun : t.state = .running) (hov : o.holds now t = true)
    (hfree : scan.locked t.id = false) : t ∈ overdueTasks db now o limit scan := by
  unfold overdueTasks at hshort ⊢
  rw [List.take_of_length_le]
  · rw [List.mem_insertionSort, List.mem_filter]
    simp [ht, hrun, hov, hfree]
  · rw [List.length_take] at hshort
    omega

theorem overdueTasks_length_le (db : Database) (now : Time) (o : Overdue) (limit : Int) (scan : Scan) :
    (overdueTasks db now o limit scan).length ≤ limit.toNat :=
  List.length_take_le ..

def Overdue.reapRow (o : Overdue) (now : Time) (t : Task) : ReapRow where
  id := t.id
  attempt := t.attempt
  maxAttempts := t.maxAttempts
  leaseWorkerId := t.leaseWorkerId
  overdueS := o.overdueS now t

/-- The locking read of a sweep. A negative LIMIT is an error of the statement. -/
def findOverdue (db : Database) (now : Time) (o : Overdue) (limit : Int) (scan : Scan) :
    Except Raised (List ReapRow) :=
  if limit < 0 then .error (.integrity .invalidRowCount)
  else .ok ((overdueTasks db now o limit scan).map (o.reapRow now))

def findExpiredLeases (db : Database) (now : Time) (limit : Int) (scan : Scan) :
    Except Raised (List ReapRow) :=
  findOverdue db now .leaseExpired limit scan

def findHungTasks (db : Database) (now : Time) (limit : Int) (scan : Scan) :
    Except Raised (List ReapRow) :=
  findOverdue db now .executionTimeExceeded limit scan

/-! ## Recovering one task -/

def reapToState (attempt maxAttempts : Int) : State :=
  if attempt < maxAttempts then .queued else .failed

theorem reapToState_cases (a m : Int) :
    (a < m ∧ reapToState a m = .queued) ∨ (m ≤ a ∧ reapToState a m = .failed) := by
  unfold reapToState
  by_cases h : a < m
  · exact Or.inl ⟨h, if_pos h⟩
  · exact Or.inr ⟨by omega, if_neg h⟩

theorem reapToState_legal (a m : Int) : State.running.isLegal (reapToState a m) = true := by
  rcases reapToState_cases a m with ⟨-, h⟩ | ⟨-, h⟩ <;> rw [h] <;> rfl

theorem reapToState_not_running (a m : Int) : reapToState a m ≠ .running := by
  rcases reapToState_cases a m with ⟨-, h⟩ | ⟨-, h⟩ <;> rw [h] <;> decide

def reapEventType (attempt maxAttempts : Int) : EventType :=
  if attempt < maxAttempts then .taskRecovered else .taskFailed

variable [PyText]

def reapSetFields (now : Time) (o : Overdue) (attempt maxAttempts : Int)
    (leaseWorkerId : Option WorkerId) : SetFields :=
  if attempt < maxAttempts then
    { availableAt := some now, leaseWorkerId := some none, leaseExpiresAt := some none
      errorClass := some o.errorClass, errorMessage := some (o.errorMessage leaseWorkerId) }
  else
    { finishedAt := some now, leaseWorkerId := some none, leaseExpiresAt := some none
      errorClass := some o.errorClass, errorMessage := some (o.errorMessage leaseWorkerId) }

def jsonOption : Option String → Json
  | some s => .str s
  | none => .null

def reapEventData (attempt maxAttempts : Int) (leaseWorkerId : Option WorkerId) : Json :=
  if attempt < maxAttempts then .obj [("lease_worker_id", jsonOption leaseWorkerId)]
  else .obj [("lease_worker_id", jsonOption leaseWorkerId), ("reason", .str "attempts_exhausted")]

/-- The recovery both sweeps share: the transition, the WORKER_LOST event and
the end of the attempt's row as LOST. -/
def reapOverdue (db : Database) (now : Time) (o : Overdue) (taskId : TaskId)
    (attempt maxAttempts : Int) (leaseWorkerId : Option WorkerId) :
    Except Raised (Database × Bool) := do
  let (db, res) ← transition db now taskId [.running] (reapToState attempt maxAttempts)
    (reapEventType attempt maxAttempts) o.expect
    (reapSetFields now o attempt maxAttempts leaseWorkerId)
    (reapEventData attempt maxAttempts leaseWorkerId)
  if !res.isApplied then
    pure (db, false)
  else
    let db ← recordEvent db now taskId .workerLost (some attempt) leaseWorkerId o.lostData
    pure (finishAttempt db now taskId attempt .lost (some o.errorClass)
      (some (o.errorMessage leaseWorkerId)), true)

def reapTask (db : Database) (now : Time) (taskId : TaskId) (attempt maxAttempts : Int)
    (leaseWorkerId : Option WorkerId) : Except Raised (Database × Bool) :=
  reapOverdue db now .leaseExpired taskId attempt maxAttempts leaseWorkerId

def reapHungTask (db : Database) (now : Time) (taskId : TaskId) (attempt maxAttempts : Int)
    (leaseWorkerId : Option WorkerId) : Except Raised (Database × Bool) :=
  reapOverdue db now .executionTimeExceeded taskId attempt maxAttempts leaseWorkerId

/-! ## One batch -/

structure ReapResult where
  requeued : Nat := 0
  failedExhausted : Nat := 0
  overdueS : List ℚ := []

def ReapResult.reaped (r : ReapResult) : Nat := r.requeued + r.failedExhausted

def ReapResult.count (r : ReapResult) (row : ReapRow) : ReapResult :=
  if row.maxAttempts ≤ row.attempt then
    { r with failedExhausted := r.failedExhausted + 1, overdueS := r.overdueS ++ [row.overdueS] }
  else { r with requeued := r.requeued + 1, overdueS := r.overdueS ++ [row.overdueS] }

def reapRow (now : Time) (o : Overdue) (s : Database × ReapResult) (row : ReapRow) :
    Except Raised (Database × ReapResult) := do
  let (db, done) ← reapOverdue s.1 now o row.id row.attempt row.maxAttempts row.leaseWorkerId
  pure (db, if done then s.2.count row else s.2)

def reapBatch (db : Database) (now : Time) (o : Overdue) (limit : Int) (scan : Scan) :
    Except Raised (Database × ReapResult) := do
  let candidates ← findOverdue db now o limit scan
  candidates.foldlM (reapRow now o) (db, {})

def reapExpiredLeases (db : Database) (now : Time) (limit : Int) (scan : Scan) :
    Except Raised (Database × ReapResult) :=
  reapBatch db now .leaseExpired limit scan

def reapHungTasks (db : Database) (now : Time) (limit : Int) (scan : Scan) :
    Except Raised (Database × ReapResult) :=
  reapBatch db now .executionTimeExceeded limit scan

/-! ## What a sweep does -/

/-- The row a recovery leaves. -/
def Overdue.row (o : Overdue) (now : Time) (t : Task) : Task :=
  (transitionWrite now (reapToState t.attempt t.maxAttempts)
    (reapSetFields now o t.attempt t.maxAttempts t.leaseWorkerId)).row t

/-- What a recovery does to its task's share of the database. -/
def Overdue.view (o : Overdue) (now : Time) (t : Task) (v : TaskView) : TaskView where
  row := some (o.row now t)
  attempts := closeAttempt now t.attempt .lost (some o.errorClass)
    (some (o.errorMessage t.leaseWorkerId)) v.attempts
  events := v.events ++
    [⟨t.id, some t.attempt, reapEventType t.attempt t.maxAttempts, none,
        reapEventData t.attempt t.maxAttempts t.leaseWorkerId, now⟩,
      ⟨t.id, some t.attempt, .workerLost, t.leaseWorkerId, o.lostData, now⟩]

theorem reapSetFields_lease (now : Time) (o : Overdue) (a m : Int) (w : Option WorkerId) :
    (reapSetFields now o a m w).leaseWorkerId = some none ∧
      (reapSetFields now o a m w).leaseExpiresAt = some none := by
  unfold reapSetFields
  split <;> exact ⟨rfl, rfl⟩

/-- **A recovery of an overdue row** that returned, called with what the row says
of itself. -/
theorem reapOverdue_ok {db db' : Database} {now : Time} {o : Overdue} {t : Task} {done : Bool}
    (ht : db.task? t.id = some t) (hrun : t.state = .running) (hov : o.holds now t = true)
    (h : reapOverdue db now o t.id t.attempt t.maxAttempts t.leaseWorkerId = .ok (db', done)) :
    done = true ∧ SameParties db db' ∧
      db'.view = Function.update db.view t.id (o.view now t (db.view t.id)) := by
  unfold reapOverdue at h
  obtain ⟨⟨db₁, res⟩, htr, h⟩ := bind_ok.mp h
  obtain ⟨hp, ⟨s, hs, -, -, -, rfl, hv⟩ | ⟨hno, -, -⟩⟩ := transition_ok htr
  · obtain rfl : s = t := Option.eq_some_unique hs ht
    obtain ⟨db₂, hev, h⟩ := bind_ok.mp h
    obtain ⟨rfl, rfl⟩ := Prod.mk.inj (pure_ok.mp h)
    refine ⟨rfl, (hp.trans (insertEvent_parties hev)).trans (finishAttempt_parties ..), ?_⟩
    -- the three statements, composed at the task and at every other one
    have hview : db₂.view = Function.update db.view s.id ⟨some (o.row now s),
        (db.view s.id).attempts, (o.view now s (db.view s.id)).events⟩ := by
      funext j
      rw [insertEvent_view hev, hv]
      by_cases hj : j = s.id
      · subst hj
        rw [Function.update_self, Function.update_self, if_pos rfl, o.expect_worker,
          (reapSetFields_lease ..).1]
        simp [Overdue.view, Overdue.row, pyOr]
      · rw [Function.update_of_ne hj, Function.update_of_ne hj, if_neg (Ne.symm hj),
          List.append_nil]
    rw [finishAttempt_view, hview, Function.update_self, Function.update_idem]
    rfl
  · exact absurd ⟨by simp [hrun], (o.expect_matches now t).trans hov⟩ (hno t ht)

/-- The loop of a sweep over rows that are still as the locking read saw them. -/
theorem reapRows_ok {now : Time} {o : Overdue} : ∀ {ts : List Task} {db db' : Database}
    {r r' : ReapResult}, (ts.map Task.id).Nodup →
    (∀ t ∈ ts, db.task? t.id = some t ∧ t.state = .running ∧ o.holds now t = true) →
    (ts.map (o.reapRow now)).foldlM (reapRow now o) (db, r) = .ok (db', r') →
    SameParties db db' ∧ r'.reaped = r.reaped + ts.length ∧
      (∀ t ∈ ts, db'.view t.id = o.view now t (db.view t.id)) ∧
      ∀ i, (∀ t ∈ ts, t.id ≠ i) → db'.view i = db.view i
  | [], db, db', r, r', _, _, h => by
    obtain ⟨rfl, rfl⟩ := Prod.mk.inj (pure_ok.mp h)
    exact ⟨.refl _, rfl, by simp, fun _ _ => rfl⟩
  | t :: ts, db, db', r, r', hnd, hts, h => by
    rw [List.map_cons, List.nodup_cons] at hnd
    rw [List.map_cons, List.foldlM_cons] at h
    obtain ⟨⟨db₁, r₁⟩, hrow, h⟩ := bind_ok.mp h
    obtain ⟨⟨db₁', done⟩, hone, hrow⟩ := bind_ok.mp hrow
    obtain ⟨rfl, hr₁⟩ := Prod.mk.inj (pure_ok.mp hrow)
    obtain ⟨ht, hrun, hov⟩ := hts t (by simp)
    obtain ⟨rfl, hp, hv⟩ := reapOverdue_ok ht hrun hov hone
    have hother : ∀ u ∈ ts, u.id ≠ t.id := fun u hu he =>
      hnd.1 (he ▸ List.mem_map_of_mem hu)
    have hrest : ∀ u ∈ ts, db₁'.task? u.id = some u ∧ u.state = .running ∧ o.holds now u = true := by
      intro u hu
      obtain ⟨hu₁, hu₂⟩ := hts u (by simp [hu])
      refine ⟨?_, hu₂⟩
      rw [← Database.view_row, hv, Function.update_of_ne (hother u hu), Database.view_row, hu₁]
    obtain ⟨hp', hcount, hin, hout⟩ := reapRows_ok hnd.2 hrest h
    refine ⟨hp.trans hp', ?_, ?_, ?_⟩
    · subst hr₁
      have hone : (r.count (o.reapRow now t)).reaped = r.reaped + 1 := by
        unfold ReapResult.count ReapResult.reaped
        split <;> simp only <;> omega
      simp only [if_true, hone] at hcount
      rw [hcount, List.length_cons]
      omega
    · intro u hu
      rcases List.mem_cons.mp hu with rfl | hu
      · rw [hout _ hother, hv, Function.update_self]
      · rw [hin u hu, hv, Function.update_of_ne (hother u hu)]
    · intro i hi
      rw [hout i fun u hu => hi u (by simp [hu]), hv, Function.update_of_ne (hi t (by simp)).symm]

/-- **A sweep that returned** recovered exactly the rows its locking read
returned, each as the row itself says, and touched no other task. -/
theorem reapBatch_ok {db db' : Database} {now : Time} {o : Overdue} {limit : Int} {scan : Scan}
    {r : ReapResult} (h : reapBatch db now o limit scan = .ok (db', r)) :
    SameParties db db' ∧ r.reaped = (overdueTasks db now o limit scan).length ∧
      (∀ t ∈ overdueTasks db now o limit scan, db'.view t.id = o.view now t (db.view t.id)) ∧
      ∀ i, (∀ t ∈ overdueTasks db now o limit scan, t.id ≠ i) → db'.view i = db.view i := by
  unfold reapBatch findOverdue at h
  obtain ⟨rows, hrows, h⟩ := bind_ok.mp h
  split at hrows
  · cases hrows
  · cases hrows
    obtain ⟨hp, hcount, hin, hout⟩ :=
      reapRows_ok (overdueTasks_nodup ..) (fun t ht => mem_overdueTasks ht) h
    refine ⟨hp, ?_, hin, hout⟩
    rw [hcount]
    show 0 + _ = _
    omega

theorem reapOverdue_returns (db : Database) (now : Time) (o : Overdue) (i : TaskId) (a m : Int)
    (w : Option WorkerId) : ∃ db' done, reapOverdue db now o i a m w = .ok (db', done) := by
  have hlegal : ∀ src ∈ [State.running], src.isLegal (reapToState a m) = true := fun src hsrc => by
    rw [List.mem_singleton.mp hsrc]
    exact reapToState_legal a m
  obtain ⟨db₁, res, h⟩ := transition_returns db now i (reapEventType a m) o.expect
    (reapEventData a m w) (List.cons_ne_nil _ _) hlegal
    fun t ht _ => transitionWrite_checked ht (reapToState_not_running a m) (reapSetFields_lease ..).1
  unfold reapOverdue
  rw [h, ok_bind]
  dsimp only
  obtain ⟨-, ⟨t, ht, -, -, -, rfl, hv⟩ | ⟨-, hres, -⟩⟩ := transition_ok h
  · have hsome : (db₁.task? i).isSome = true := by
      rw [← Database.view_row, hv, Function.update_self]
      rfl
    obtain ⟨db₂, h₂⟩ := insertEvent_succeeds (e := ⟨i, some a, .workerLost, w, o.lostData, now⟩) hsome
    unfold recordEvent
    rw [h₂]
    exact ⟨_, _, rfl⟩
  · rw [hres]
    exact ⟨_, _, rfl⟩

/-- A sweep with a limit raises on nothing. -/
theorem reapBatch_returns (db : Database) (now : Time) (o : Overdue) {limit : Int} (scan : Scan)
    (hlimit : 0 ≤ limit) : ∃ db' r, reapBatch db now o limit scan = .ok (db', r) := by
  have hrows : ∀ (rows : List ReapRow) (s : Database × ReapResult),
      ∃ s', rows.foldlM (reapRow now o) s = .ok s' := by
    intro rows
    induction rows with
    | nil => intro s; exact ⟨s, rfl⟩
    | cons row rows ih =>
      intro s
      obtain ⟨db₁, done, h⟩ := reapOverdue_returns s.1 now o row.id row.attempt row.maxAttempts
        row.leaseWorkerId
      have hrow : reapRow now o s row = .ok (db₁, if done then s.2.count row else s.2) := by
        unfold reapRow
        rw [h]
        rfl
      rw [List.foldlM_cons, hrow]
      exact ih _
  unfold reapBatch findOverdue
  rw [if_neg (by omega), ok_bind]
  obtain ⟨⟨db', r⟩, h⟩ := hrows ((overdueTasks db now o limit scan).map (o.reapRow now)) (db, {})
  exact ⟨db', r, h⟩

end ControlPlane
