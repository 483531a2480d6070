import ControlPlane.Lib.Runs
import ControlPlane.Db.ClaimLoop
import ControlPlane.Db.Lease
import ControlPlane.Db.Parties
import ControlPlane.Db.Tasks

/-! # The database as a state machine

Its steps are the transactions of the API, the workers and the reaper, each
committed whole or rolled back. `TaskStep` lists what one of them can do to one
task; every property of all runs is a property of these steps. -/

namespace ControlPlane
open Keyed Fallible Runs

/-- The transactions. `complete` is one of the five completions, `reap` one of
the two sweeps. -/
inductive Op where
  | createTenant (newId : TenantId) (name : String) (maxConcurrentTasks maxQueuedTasks : Int)
  | registerWorker (workerId : WorkerId) (capacity : Int) (capabilities : List String)
  | heartbeat (workerId : WorkerId)
  | setWorkerStatus (workerId : WorkerId) (status : WorkerStatus)
  | markDeadWorkers (deadAfterS : Int)
  | submitTask (newId : TaskId) (args : SubmitArgs)
  | claimTasks (args : ClaimArgs) (scans : Nat → Scan)
  | renewLease (taskId : TaskId) (workerId : WorkerId) (expectAttempt leaseTtlS : Int)
  | complete (e : Ending) (taskId : TaskId) (attempt : Int) (workerId : WorkerId)
  | reap (o : Overdue) (limit : Int) (scan : Scan)
  | cancelTask (taskId : TaskId)
  | cancelAgentTasks (agentVersionIds : List VersionId) (reason : String)
  | recordEvent (taskId : TaskId) (eventType : EventType) (attempt : Option Int)
      (workerId : Option WorkerId) (data : Json)

/-- A transaction with the time `now()` stands for in it. -/
structure Call where
  now : Time
  op : Op

inductive Reply where
  | done
  | tenant (row : Tenant)
  | worker (row : WorkerRow)
  | alive (alive : Bool)
  | workers (ids : List WorkerId)
  | submitted (res : SubmitResult)
  | claimed (rows : List Task)
  | renewed (res : Option Renewal)
  | completed (res : TransitionResult)
  | reaped (res : ReapResult)
  | cancelled (res : CancelResult)
  | count (n : Nat)

variable [PyText]

def perform (db : Database) (now : Time) : Op → Except Raised (Database × Reply)
  | .createTenant newId name c q => (createTenant db newId name c q).map (Prod.map id .tenant)
  | .registerWorker w c caps => (registerWorker db now w c caps).map (Prod.map id .worker)
  | .heartbeat w => .ok (Prod.map id .alive (heartbeat db now w))
  | .setWorkerStatus w status => .ok (setWorkerStatus db w status, .done)
  | .markDeadWorkers s => .ok (Prod.map id .workers (markDeadWorkers db now s))
  | .submitTask newId args => (submitTask db now newId args).map (Prod.map id .submitted)
  | .claimTasks args scans => (claimTasks db now args scans).map (Prod.map id .claimed)
  | .renewLease i w a ttl => (renewLease db now i w a ttl).map (Prod.map id .renewed)
  | .complete e i a w => (completeAttempt db now e i a w).map (Prod.map id .completed)
  | .reap o limit scan => (reapBatch db now o limit scan).map (Prod.map id .reaped)
  | .cancelTask i => (cancelTask db now i).map (Prod.map id .cancelled)
  | .cancelAgentTasks versions reason =>
    (cancelAgentTasks db now versions reason).map (Prod.map id .count)
  | .recordEvent i ty a w data => (recordEvent db now i ty a w data).map fun db => (db, .done)

/-- The database after a transaction: what it wrote, or nothing if it raised. -/
def commit (db : Database) (c : Call) : Database :=
  match perform db c.now c.op with
  | .ok (db', _) => db'
  | .error _ => db

def Step (db : Database) (c : Call) (db' : Database) : Prop := commit db c = db'

theorem commit_eq (db : Database) (c : Call) :
    (∃ r, perform db c.now c.op = .ok (commit db c, r)) ∨ commit db c = db := by
  unfold commit
  cases perform db c.now c.op with
  | error e => exact Or.inr rfl
  | ok p => exact Or.inl ⟨p.2, rfl⟩

theorem commit_of_ok {db db' : Database} {c : Call} {r : Reply}
    (h : perform db c.now c.op = .ok (db', r)) : commit db c = db' := by
  unfold commit
  rw [h]

theorem commit_of_error {db : Database} {c : Call} {e : Raised}
    (h : perform db c.now c.op = .error e) : commit db c = db := by
  unfold commit
  rw [h]

/-! ## What a transaction can do to one task -/

/-- The transaction asks for cancellation. -/
def Op.cancels (op : Op) (i : TaskId) : Prop :=
  op = .cancelTask i ∨ ∃ versions reason, op = .cancelAgentTasks versions reason

/-- One transaction, seen from one task. -/
inductive TaskStep (c : Call) (i : TaskId) (v : TaskView) : TaskView → Prop
  | skip : TaskStep c i v v
  | noted (e : TaskEvent) (hop : ∃ a w data, c.op = .recordEvent i e.eventType a w data) :
      TaskStep c i v ⟨v.row, v.attempts, v.events ++ [e]⟩
  | submitted {args : SubmitArgs} (hop : c.op = .submitTask i args) (hv : v = ⟨none, [], []⟩) :
      TaskStep c i v (submittedView c.now i args)
  | claimed {args : ClaimArgs} {scans : Nat → Scan} {t : Task} (hop : c.op = .claimTasks args scans)
      (hrow : v.row = some t) (hc : t.claimable c.now = true) :
      TaskStep c i v (claimView c.now args.workerId args.leaseTtlS t v)
  | renewed {w : WorkerId} {a ttl : Int} {t : Task} (hop : c.op = .renewLease i w a ttl)
      (hrow : v.row = some t) (hfence : t.Renewable c.now a w) :
      TaskStep c i v ⟨some ((renewWrite c.now ttl).row t), v.attempts, v.events⟩
  | completed {e : Ending} {a : Int} {w : WorkerId} {t : Task} (hop : c.op = .complete e i a w)
      (hrow : v.row = some t) (hfence : t.HeldBy a w) : TaskStep c i v (e.view c.now w t v)
  | reaped {o : Overdue} {limit : Int} {scan : Scan} {t : Task} (hop : c.op = .reap o limit scan)
      (hrow : v.row = some t) (hrun : t.state = .running) (hov : o.holds c.now t = true) :
      TaskStep c i v (o.view c.now t v)
  | cancelled {t t' : Task} {e : TaskEvent} (hop : c.op.cancels i) (hrow : v.row = some t)
      (hq : t.state = .queued)
      (ht' : t' = cancelledTask c.now t ∨ ∃ reason, t' = (agentDisabledWrite c.now reason).row t)
      (he : e.eventType = .taskCancelled) :
      TaskStep c i v ⟨some t', v.attempts, v.events ++ [e]⟩
  | flagged {t : Task} {e : TaskEvent} (hop : c.op.cancels i) (hrow : v.row = some t)
      (hrun : t.state = .running) (hf : t.cancelRequested = false)
      (he : e.eventType = .cancelRequested) :
      TaskStep c i v ⟨some ((flagWrite c.now).row t), v.attempts, v.events ++ [e]⟩

omit [PyText] in
theorem view_update {db db' : Database} {i j : TaskId} {v : TaskView}
    (h : db'.view = Function.update db.view i v) :
    (j = i ∧ db'.view j = v) ∨ (j ≠ i ∧ db'.view j = db.view j) := by
  by_cases hj : j = i
  · subst hj
    exact Or.inl ⟨rfl, by rw [h, Function.update_self]⟩
  · exact Or.inr ⟨hj, by rw [h, Function.update_of_ne hj]⟩

theorem TaskStep.of_eq {c : Call} {i : TaskId} {v v' : TaskView} (h : v' = v) :
    TaskStep c i v v' := h ▸ .skip

theorem cancelView_step {c : Call} {i : TaskId} (hop : c.op = .cancelTask i) (v : TaskView) :
    TaskStep c i v (cancelView c.now v) := by
  unfold cancelView
  split
  · exact .skip
  · rename_i t hrow
    split
    · rename_i hs
      exact .cancelled (Or.inl hop) hrow hs (Or.inl rfl) rfl
    · rename_i hs
      split
      · exact .skip
      · rename_i hf
        exact .flagged (Or.inl hop) hrow hs (Bool.eq_false_iff.mpr hf) rfl
    · exact .skip

theorem cancelAgentView_step {c : Call} {i : TaskId} {versions : List VersionId} {reason : String}
    (hop : c.op = .cancelAgentTasks versions reason) (v : TaskView) :
    TaskStep c i v (cancelAgentView c.now versions reason v) := by
  have hcan : c.op.cancels i := Or.inr ⟨versions, reason, hop⟩
  unfold cancelAgentView cancelSelectedView
  split
  · exact .skip
  · rename_i t hrow
    split
    · rename_i hq
      simp only [agentQueued, Bool.and_eq_true, beq_iff_eq] at hq
      exact .cancelled hcan hrow hq.2 (Or.inr ⟨reason, rfl⟩) rfl
    · split
      · rename_i hu
        simp only [agentRunning, Bool.and_eq_true, beq_iff_eq, Bool.not_eq_true'] at hu
        exact .flagged hcan hrow hu.1.2 hu.2 rfl
      · exact .skip

/-- **Every transaction is one step of every task.** -/
theorem commit_step (db : Database) (c : Call) (i : TaskId) :
    TaskStep c i (db.view i) ((commit db c).view i) := by
  rcases commit_eq db c with ⟨r, h⟩ | h
  swap
  · exact .of_eq (by rw [h])
  generalize commit db c = db' at h
  obtain ⟨now, op⟩ := c
  cases op with
  | createTenant newId name m q =>
    obtain ⟨t, h, -⟩ := mapSnd_ok h
    exact .of_eq (congrFun (createTenant_view h) i)
  | registerWorker w m caps =>
    obtain ⟨t, h, -⟩ := mapSnd_ok h
    exact .of_eq (congrFun (registerWorker_view h) i)
  | heartbeat w => cases h; exact .skip
  | setWorkerStatus w status => cases h; exact .skip
  | markDeadWorkers s => cases h; exact .skip
  | submitTask newId args =>
    obtain ⟨res, h, -⟩ := mapSnd_ok h
    obtain ⟨-, ⟨-, hfresh, hv⟩ | ⟨-, -, -, -, rfl⟩⟩ := submitTask_ok h
    · rcases view_update (j := i) hv with ⟨rfl, hi⟩ | ⟨-, hi⟩
      · rw [hi]
        exact .submitted rfl (Database.view_absent hfresh)
      · exact .of_eq hi
    · exact .skip
  | claimTasks args scans =>
    obtain ⟨rows, h, -⟩ := mapSnd_ok h
    obtain ⟨-, -, hin, hout⟩ := claimTasks_ok h
    by_cases hi : i ∈ (claimLoop db now args scans).claimedIds
    · obtain ⟨t, ht, hc, -, hv⟩ := hin i hi
      rw [hv]
      exact .claimed rfl ht hc
    · exact .of_eq (hout i hi)
  | renewLease j w a ttl =>
    obtain ⟨res, h, -⟩ := mapSnd_ok h
    obtain ⟨-, ⟨t, ht, hren, -, hv⟩ | ⟨-, -, hv⟩⟩ := renewLease_ok h
    · rcases view_update (j := i) hv with ⟨rfl, hi⟩ | ⟨-, hi⟩
      · rw [hi]
        exact .renewed rfl ht hren
      · exact .of_eq hi
    · exact .of_eq (congrFun hv i)
  | complete e j a w =>
    obtain ⟨res, h, -⟩ := mapSnd_ok h
    obtain ⟨-, ⟨t, ht, hheld, -, hv⟩ | ⟨-, -, hv⟩⟩ := completeAttempt_ok h
    · rcases view_update (j := i) hv with ⟨rfl, hi⟩ | ⟨-, hi⟩
      · rw [hi]
        exact .completed rfl ht hheld
      · exact .of_eq hi
    · exact .of_eq (congrFun hv i)
  | reap o limit scan =>
    obtain ⟨res, h, -⟩ := mapSnd_ok h
    obtain ⟨-, -, hin, hout⟩ := reapBatch_ok h
    by_cases hi : ∃ t ∈ overdueTasks db now o limit scan, t.id = i
    · obtain ⟨t, ht, rfl⟩ := hi
      obtain ⟨hrow, hrun, hov⟩ := mem_overdueTasks ht
      rw [hin t ht]
      exact .reaped rfl hrow hrun hov
    · exact .of_eq (hout i fun t ht he => hi ⟨t, ht, he⟩)
  | cancelTask j =>
    obtain ⟨res, h, -⟩ := mapSnd_ok h
    obtain ⟨-, hv⟩ := cancelTask_ok h
    rcases view_update (j := i) hv with ⟨rfl, hi⟩ | ⟨-, hi⟩
    · rw [hi]
      exact cancelView_step rfl _
    · exact .of_eq hi
  | cancelAgentTasks versions reason =>
    obtain ⟨res, h, -⟩ := mapSnd_ok h
    obtain ⟨-, hv⟩ := cancelAgentTasks_ok h
    rw [hv]
    exact cancelAgentView_step rfl _
  | recordEvent j ty a w data =>
    obtain ⟨db₁, hrec, he⟩ := map_ok h
    cases he
    rw [insertEvent_view hrec]
    split
    · rename_i hj
      obtain rfl : j = i := hj
      exact .noted _ ⟨a, w, data, rfl⟩
    · rw [List.append_nil]
      exact .skip

/-- A completion takes effect on the row that passes its fence. -/
theorem commit_completed {db : Database} {now : Time} {e : Ending} {i : TaskId} {a : Int}
    {w : WorkerId} {t : Task} (ht : db.task? i = some t) (hheld : t.HeldBy a w) :
    (commit db ⟨now, .complete e i a w⟩).view i = e.view now w t (db.view i) := by
  obtain ⟨db', res, h⟩ := completeAttempt_returns db now e i a w
  have hperf : perform db now (.complete e i a w) = .ok (db', .completed res) := by
    show (completeAttempt db now e i a w).map _ = _
    rw [h]
    rfl
  rw [commit_of_ok hperf]
  obtain ⟨-, ⟨s, hs, -, -, hv⟩ | ⟨hno, -, -⟩⟩ := completeAttempt_ok h
  · obtain rfl : s = t := Option.eq_some_unique hs ht
    rw [hv, Function.update_self]
  · exact absurd hheld (hno t ht)

/-- A sweep recovers the rows its locking read selects and no other task. -/
theorem commit_reaped (db : Database) (now : Time) (o : Overdue) (limit : Int) (scan : Scan) :
    (∀ t ∈ overdueTasks db now o limit scan,
        (commit db ⟨now, .reap o limit scan⟩).view t.id = o.view now t (db.view t.id)) ∧
      ∀ i, (∀ t ∈ overdueTasks db now o limit scan, t.id ≠ i) →
        (commit db ⟨now, .reap o limit scan⟩).view i = db.view i := by
  by_cases hlimit : 0 ≤ limit
  · obtain ⟨db', r, h⟩ := reapBatch_returns db now o scan hlimit
    have hperf : perform db now (.reap o limit scan) = .ok (db', .reaped r) := by
      show (reapBatch db now o limit scan).map _ = _
      rw [h]
      rfl
    rw [commit_of_ok hperf]
    obtain ⟨-, -, hin, hout⟩ := reapBatch_ok h
    exact ⟨hin, hout⟩
  · -- a negative limit raises, and selects nothing
    have hnil : overdueTasks db now o limit scan = [] := by
      unfold overdueTasks
      rw [Int.toNat_of_nonpos (by omega), List.take_zero]
    have hraise : perform db now (.reap o limit scan) = .error (.integrity .invalidRowCount) := by
      show (reapBatch db now o limit scan).map _ = _
      unfold reapBatch findOverdue
      rw [if_pos (by omega)]
      rfl
    rw [hnil, commit_of_error hraise]
    exact ⟨by simp, fun _ _ => rfl⟩

/-- A sweep rewrites a row if its locking read selects it. -/
theorem commit_reaped_row {db : Database} {i : TaskId} {t : Task} (ht : db.task? i = some t)
    (now : Time) (o : Overdue) (limit : Int) (scan : Scan) :
    (t ∈ overdueTasks db now o limit scan ∧
        (commit db ⟨now, .reap o limit scan⟩).task? i = some (o.row now t)) ∨
      (t ∉ overdueTasks db now o limit scan ∧
        (commit db ⟨now, .reap o limit scan⟩).task? i = some t) := by
  obtain rfl : t.id = i := Database.row_id ht
  obtain ⟨hin, hout⟩ := commit_reaped db now o limit scan
  by_cases hsel : t ∈ overdueTasks db now o limit scan
  · exact Or.inl ⟨hsel, congrArg TaskView.row (hin t hsel)⟩
  · have hother : ∀ u ∈ overdueTasks db now o limit scan, u.id ≠ t.id := by
      intro u hu he
      have hrow := (mem_overdueTasks hu).1
      rw [he, ht] at hrow
      exact hsel (Option.some.inj hrow ▸ hu)
    exact Or.inr ⟨hsel, (congrArg TaskView.row (hout t.id hother)).trans ht⟩

/-- The transactions that write the tenants or the workers. -/
def Op.writesParties : Op → Bool
  | createTenant .. => true
  | registerWorker .. => true
  | heartbeat _ => true
  | setWorkerStatus .. => true
  | markDeadWorkers _ => true
  | _ => false

theorem commit_parties {db : Database} {c : Call} (hop : c.op.writesParties = false) :
    SameParties db (commit db c) := by
  rcases commit_eq db c with ⟨r, h⟩ | h
  swap
  · rw [h]
    exact .refl db
  generalize commit db c = db' at h
  obtain ⟨now, op⟩ := c
  cases op with
  | createTenant newId name m q => cases hop
  | registerWorker w m caps => cases hop
  | heartbeat w => cases hop
  | setWorkerStatus w status => cases hop
  | markDeadWorkers s => cases hop
  | submitTask newId args =>
    obtain ⟨_, h, -⟩ := mapSnd_ok h
    exact (submitTask_ok h).1
  | claimTasks args scans =>
    obtain ⟨_, h, -⟩ := mapSnd_ok h
    exact (claimTasks_ok h).1
  | renewLease j w a ttl =>
    obtain ⟨_, h, -⟩ := mapSnd_ok h
    exact (renewLease_ok h).1
  | complete e j a w =>
    obtain ⟨_, h, -⟩ := mapSnd_ok h
    exact (completeAttempt_ok h).1
  | reap o limit scan =>
    obtain ⟨_, h, -⟩ := mapSnd_ok h
    exact (reapBatch_ok h).1
  | cancelTask j =>
    obtain ⟨_, h, -⟩ := mapSnd_ok h
    exact (cancelTask_ok h).1
  | cancelAgentTasks versions reason =>
    obtain ⟨_, h, -⟩ := mapSnd_ok h
    exact (cancelAgentTasks_ok h).1
  | recordEvent j ty a w data =>
    obtain ⟨db₁, hrec, he⟩ := map_ok h
    cases he
    exact insertEvent_parties hrec

/-- Only the creation of a tenant changes the tenants. -/
theorem commit_tenants {db : Database} {c : Call}
    (hop : ∀ newId name m q, c.op ≠ .createTenant newId name m q) :
    (commit db c).tenants = db.tenants := by
  by_cases hwrites : c.op.writesParties = false
  · exact (commit_parties hwrites).tenants
  rcases commit_eq db c with ⟨r, h⟩ | h
  swap
  · rw [h]
  generalize commit db c = db' at h
  obtain ⟨now, op⟩ := c
  cases op with
  | createTenant newId name m q => exact absurd rfl (hop newId name m q)
  | registerWorker w m caps =>
    obtain ⟨_, h, -⟩ := mapSnd_ok h
    exact registerWorker_tenants h
  | heartbeat w => cases h; rfl
  | setWorkerStatus w status => cases h; rfl
  | markDeadWorkers s => cases h; rfl
  | _ => exact absurd rfl hwrites

end ControlPlane
