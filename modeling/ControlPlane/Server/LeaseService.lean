import ControlPlane.Lib.Fenced
import ControlPlane.Server.Legality

/-! # The queue as a service of fenced leases

A row of the database is a job of `Fenced`, its attempt number the token. Whatever the
transactions of the API, the workers and the reaper do to a task, and whatever claims,
renewals and completions return, the abstract service could have done and answered. -/

namespace ControlPlane
open Keyed Fallible Runs

/-- Where the task is. The lease columns of a RUNNING row are set. -/
def Task.phase (t : Task) : Fenced.Phase WorkerId Time State :=
  match t.state, t.leaseWorkerId, t.leaseExpiresAt with
  | .queued, _, _ => .waiting
  | .running, some w, some e => .leased w e
  | s, _, _ => .ended s

def Task.job (t : Task) : Fenced.Job WorkerId Time State where
  budget := t.maxAttempts
  allowance := seconds t.maxExecutionTimeS
  phase := t.phase
  token := t.attempt
  recalled := t.cancelRequested
  started := t.firstStartedAt

def TaskView.job? (v : TaskView) : Option (Fenced.Job WorkerId Time State) := v.row.map Task.job

def Database.job? (db : Database) (i : TaskId) : Option (Fenced.Job WorkerId Time State) :=
  (db.task? i).map Task.job

/-- What a completion says of the job: a retry and an abandonment give it back. -/
def Ending.verdict (e : Ending) : Option State :=
  if e.toState = .queued then none else some e.toState

/-- The service that the queue is: a task lost for good has FAILED, one withdrawn is
CANCELLED. -/
abbrev LeaseStep : Option (Fenced.Job WorkerId Time State) → Fenced.Event WorkerId Time State →
    Option (Fenced.Job WorkerId Time State) → Prop :=
  Fenced.Step .failed .cancelled

section Rows

variable {t : Task} {w : WorkerId} {a : Int} {now e : Time}

theorem Task.phase_queued (h : t.state = .queued) : t.phase = .waiting := by
  simp [Task.phase, h]

theorem Task.phase_ended (hq : t.state ≠ .queued) (hr : t.state ≠ .running) :
    t.phase = .ended t.state := by
  unfold Task.phase
  cases h : t.state <;> simp_all

theorem Task.phase_leased_iff :
    t.phase = .leased w e ↔
      t.state = .running ∧ t.leaseWorkerId = some w ∧ t.leaseExpiresAt = some e := by
  unfold Task.phase
  cases t.state <;> cases t.leaseWorkerId <;> cases t.leaseExpiresAt <;> simp

theorem Task.phase_running (hc : t.Checked) (h : t.state = .running) :
    ∃ w e, t.phase = .leased w e := by
  obtain ⟨hw, he⟩ := (t.checked_iff.mp hc).2.2.2.2.mp h
  obtain ⟨w, hw⟩ := Option.isSome_iff_exists.mp hw
  obtain ⟨e, he⟩ := Option.isSome_iff_exists.mp he
  exact ⟨w, e, Task.phase_leased_iff.mpr ⟨h, hw, he⟩⟩

/-- The fence of a completion is the abstract one. -/
theorem Task.job_heldBy_iff (hc : t.Checked) : t.job.HeldBy w a ↔ t.HeldBy a w := by
  constructor
  · rintro ⟨ha, e, he⟩
    obtain ⟨hrun, hw, -⟩ := Task.phase_leased_iff.mp he
    exact ⟨hrun, ha, hw⟩
  · rintro ⟨hrun, ha, hw⟩
    obtain ⟨w', e, he⟩ := Task.phase_running hc hrun
    obtain ⟨-, hw', -⟩ := Task.phase_leased_iff.mp he
    obtain rfl : w = w' := Option.some.inj (hw.symm.trans hw')
    exact ⟨ha, e, he⟩

/-- So is that of a renewal. -/
theorem Task.job_renewableBy_iff : t.job.RenewableBy now w a ↔ t.Renewable now a w := by
  constructor
  · rintro ⟨ha, e, he, hlt⟩
    obtain ⟨hrun, hw, hexp⟩ := Task.phase_leased_iff.mp he
    exact ⟨⟨hrun, ha, hw⟩, e, hexp, hlt⟩
  · rintro ⟨⟨hrun, ha, hw⟩, e, hexp, hlt⟩
    exact ⟨ha, e, Task.phase_leased_iff.mpr ⟨hrun, hw, hexp⟩, hlt⟩

/-- A row that ends an attempt settles the job. -/
theorem Task.job_transition {dest : State} {s : SetFields} (hdest : dest ≠ .running)
    (hflag : s.cancelRequested = none) :
    ((transitionWrite now dest s).row t).job =
      t.job.settle (if dest = .queued then none else some dest) := by
  have hphase : ((transitionWrite now dest s).row t).phase =
      (if dest = .queued then none else some dest : Option State).elim .waiting .ended := by
    by_cases hq : dest = .queued
    · rw [if_pos hq, Task.phase_queued (hq : ((transitionWrite now dest s).row t).state = _)]
      rfl
    · rw [if_neg hq]
      exact Task.phase_ended hq hdest
  unfold Task.job
  rw [hphase]
  simp [transitionWrite, SetFields.apply, Fenced.Job.settle, hflag]

end Rows

variable [PyText]

/-- What the reply to a call tells its caller about a task. -/
def Call.told (c : Call) (r : Reply) (i : TaskId) : List (Fenced.Event WorkerId Time State) :=
  match c.op, r with
  | .claimTasks args _, .claimed rows =>
    (rows.filter fun t => t.id = i).map fun t =>
      .granted c.now args.workerId t.attempt (c.now + seconds args.leaseTtlS)
  | .renewLease j w a ttl, .renewed res =>
    if j = i then
      [.renewed c.now w a (c.now + seconds ttl) (res.map Renewal.cancelRequested)]
    else []
  | .complete e j a w, .completed res =>
    if j = i then [.reported w a e.verdict res.isApplied] else []
  | _, _ => []

/-- What a transaction answers about a task: nothing, if it raises. -/
def Call.answers (i : TaskId) (db : Database) (c : Call) :
    List (Fenced.Event WorkerId Time State) :=
  match perform db c.now c.op with
  | .ok (_, r) => c.told r i
  | .error _ => []

/-- The answers of a history about a task, in order. -/
def answersAbout (i : TaskId) (db : Database) (calls : List Call) :
    List (Fenced.Event WorkerId Time State) :=
  outputs (fun s c => some (commit s c)) (Call.answers i) db calls

/-! ## One transaction -/

/-- The transactions that answer about single jobs. -/
def Op.answersJobs : Op → Bool
  | .claimTasks .. => true
  | .renewLease .. => true
  | .complete .. => true
  | _ => false

omit [PyText] in
theorem Database.view_job (db : Database) (i : TaskId) : (db.view i).job? = db.job? i := rfl

omit [PyText] in
theorem TaskView.job?_of_row {v : TaskView} {t : Task} (h : v.row = some t) :
    v.job? = some t.job := by
  rw [TaskView.job?, h]
  rfl

/-- What the service does on its own: submissions, sweeps and cancellations. -/
theorem TaskStep.untold {c : Call} {i : TaskId} {v v' : TaskView} (h : TaskStep c i v v')
    (hc : ∀ t, v.row = some t → t.Checked) (hop : c.op.answersJobs = false) :
    ∃ es, Run LeaseStep v.job? es v'.job? ∧ es.filter Fenced.Event.told = [] := by
  cases h with
  | skip => exact ⟨[], .nil _, rfl⟩
  | noted e => exact ⟨[], .nil _, rfl⟩
  | @submitted args hop' hv =>
    subst hv
    exact ⟨[.submitted args.maxAttempts (seconds args.maxExecutionTimeS)],
      .single (.submit args.maxAttempts _), rfl⟩
  | claimed hop' => simp [Op.answersJobs, hop'] at hop
  | renewed hop' => simp [Op.answersJobs, hop'] at hop
  | completed hop' => simp [Op.answersJobs, hop'] at hop
  | @reaped o limit scan t hop' hrow hrun hov =>
    obtain ⟨w, e, hheld⟩ := Task.phase_running (hc t hrow) hrun
    obtain ⟨-, -, hexp⟩ := Task.phase_leased_iff.mp hheld
    have hdue : e < c.now ∨ t.job.Overran c.now := by
      cases o with
      | leaseExpired =>
        have : t.leaseExpired c.now = true := hov
        exact .inl (by simpa [Task.leaseExpired, hexp] using this)
      | executionTimeExceeded =>
        obtain ⟨s, hs, hlt⟩ := (Option.any_eq_true ..).mp hov
        exact .inr ⟨s, hs, of_decide_eq_true hlt⟩
    have hsettled : (o.row c.now t).job =
        t.job.settle (if t.job.token < t.job.budget then none else some .failed) := by
      refine (Task.job_transition (reapToState_not_running t.attempt t.maxAttempts)
        (reapSetFields_flag ..)).trans ?_
      congr 1
      show (if reapToState t.attempt t.maxAttempts = _ then _ else _) =
        if t.attempt < t.maxAttempts then _ else _
      unfold reapToState
      by_cases hlt : t.attempt < t.maxAttempts
      · simp [hlt]
      · simp [hlt]
    rw [TaskView.job?_of_row hrow]
    refine ⟨[.reclaimed c.now], ?_, rfl⟩
    rw [show (o.view c.now t v).job? = some (o.row c.now t).job from rfl, hsettled]
    exact .single (.reclaim (j := t.job) hheld hdue)
  | @cancelled t t' e hop' hrow hq ht' he =>
    refine ⟨[.withdrawn], ?_, rfl⟩
    rw [TaskView.job?_of_row hrow]
    have hafter : t'.job = { t.job with phase := .ended .cancelled, recalled := true } := by
      rcases ht' with rfl | ⟨reason, rfl⟩
      · rfl
      · rfl
    rw [TaskView.job?_of_row (rfl : (⟨some t', v.attempts, v.events ++ [e]⟩ : TaskView).row = _),
      hafter]
    exact .single (.withdraw (Task.phase_queued hq))
  | @flagged t e hop' hrow hrun hf he =>
    obtain ⟨w, exp, hheld⟩ := Task.phase_running (hc t hrow) hrun
    refine ⟨[.recalled], ?_, rfl⟩
    rw [TaskView.job?_of_row hrow]
    exact .single (.callBack (j := t.job) hheld hf)

omit [PyText] in
/-- The rows a claim grants and returns. -/
theorem granted_lease {db db' : Database} {now : Time} {w : WorkerId} {ttl : Int}
    {ids : List TaskId} (hnodup : ids.Nodup)
    (hin : ∀ i ∈ ids, ∃ t, db.task? i = some t ∧ t.claimable now = true ∧
      db'.view i = claimView now w ttl t (db.view i))
    (hout : ∀ i, i ∉ ids → db'.view i = db.view i) (i : TaskId) :
    Run LeaseStep (db.job? i)
      (((grantedRows db now w ttl ids).filter fun r => r.id = i).map fun r =>
        .granted now w r.attempt (now + seconds ttl)) (db'.job? i) := by
  rw [grantedRows_filter hnodup]
  by_cases hi : i ∈ ids
  · obtain ⟨t, ht, hcl, hv⟩ := hin i hi
    rw [if_pos hi, ht, ← db'.view_job i, hv, Database.job?, ht]
    exact .single (.grant (j := t.job) _ _ _ (Task.phase_queued (Task.claimable_iff.mp hcl).1))
  · rw [if_neg hi, ← db'.view_job i, hout i hi]
    exact .nil _

theorem claimTasks_lease {db db' : Database} {now : Time} {args : ClaimArgs} {scans : Nat → Scan}
    {rows : List Task} (h : claimTasks db now args scans = .ok (db', rows)) (i : TaskId) :
    Run LeaseStep (db.job? i)
      ((rows.filter fun r => r.id = i).map fun r =>
        .granted now args.workerId r.attempt (now + seconds args.leaseTtlS)) (db'.job? i) := by
  have hsound := claimLoop_sound db now args scans
  obtain ⟨-, rfl, hin, hout⟩ := claimTasks_ok h
  refine granted_lease (hsound.nodup.sublist hsound.claimed) (fun j hj => ?_) hout i
  obtain ⟨t, ht, hcl, -, hv⟩ := hin j hj
  exact ⟨t, ht, hcl, hv⟩

omit [PyText] in
theorem renewLease_lease {db db' : Database} {now : Time} {j : TaskId} {w : WorkerId} {a ttl : Int}
    {res : Option Renewal} (h : renewLease db now j w a ttl = .ok (db', res)) (i : TaskId) :
    Run LeaseStep (db.job? i)
      (if j = i then [.renewed now w a (now + seconds ttl) (res.map Renewal.cancelRequested)] else [])
      (db'.job? i) := by
  obtain ⟨-, ⟨t, ht, hren, rfl, hv⟩ | ⟨hno, rfl, hv⟩⟩ := renewLease_ok h
  · rcases view_update (j := i) hv with ⟨rfl, hi⟩ | ⟨hne, hi⟩
    · rw [if_pos rfl, ← db'.view_job i, hi, Database.job?, ht]
      have hafter : ((renewWrite now ttl).row t).job = t.job.extend w (now + seconds ttl) := by
        have hphase : ((renewWrite now ttl).row t).phase = .leased w (now + seconds ttl) :=
          Task.phase_leased_iff.mpr ⟨hren.1.1, hren.1.2.2, rfl⟩
        unfold Task.job
        rw [hphase]
        rfl
      rw [TaskView.job?_of_row (rfl : TaskView.row ⟨some _, _, _⟩ = some _), hafter]
      exact .single (.renew _ (Task.job_renewableBy_iff.mpr hren))
    · rw [if_neg hne.symm, ← db'.view_job i, hi]
      exact .nil _
  · rw [← db'.view_job i, hv, db.view_job i]
    split
    · rename_i he
      refine .single (.refuseRenewal _ fun b hb hown => ?_)
      obtain ⟨t, ht, rfl⟩ := Option.map_eq_some_iff.mp hb
      exact hno t (he ▸ ht) (Task.job_renewableBy_iff.mp hown)
    · exact .nil _

omit [PyText] in
theorem completeAttempt_lease {db db' : Database} {now : Time} {e : Ending} {j : TaskId} {a : Int}
    {w : WorkerId} {res : TransitionResult} (h : completeAttempt db now e j a w = .ok (db', res))
    (i : TaskId) :
    Run LeaseStep (db.job? i) (if j = i then [.reported w a e.verdict res.isApplied] else [])
      (db'.job? i) := by
  obtain ⟨-, ⟨t, ht, hheld, rfl, hv⟩ | ⟨hno, hres, hv⟩⟩ := completeAttempt_ok h
  · rcases view_update (j := i) hv with ⟨rfl, hi⟩ | ⟨hne, hi⟩
    · rw [if_pos rfl, ← db'.view_job i, hi, Database.job?, ht]
      have hafter : (e.row now t).job = t.job.settle e.verdict :=
        Task.job_transition e.toState_not_running (e.setFields_flag now)
      rw [show (e.view now w t (db.view i)).job? = some (e.row now t).job from rfl, hafter]
      exact .single (.report _ ((Task.job_heldBy_iff (Database.row_checked ht)).mpr hheld))
    · rw [if_neg hne.symm, ← db'.view_job i, hi]
      exact .nil _
  · rw [← db'.view_job i, hv, db.view_job i, hres]
    split
    · rename_i he
      refine .single (.refuseReport _ fun b hb hown => ?_)
      obtain ⟨t, ht, rfl⟩ := Option.map_eq_some_iff.mp hb
      exact hno t (he ▸ ht) ((Task.job_heldBy_iff (Database.row_checked ht)).mp hown)
    · exact .nil _

omit [PyText] in
theorem Call.told_told (c : Call) (r : Reply) (i : TaskId) :
    (c.told r i).filter Fenced.Event.told = c.told r i := by
  unfold Call.told
  split
  · simp [List.filter_map, Function.comp_def, Fenced.Event.told]
  · split <;> rfl
  · split <;> rfl
  · rfl

omit [PyText] in
theorem Call.told_nothing {c : Call} (hop : c.op.answersJobs = false) (r : Reply) (i : TaskId) :
    c.told r i = [] := by
  obtain ⟨now, op⟩ := c
  cases op with
  | claimTasks => cases hop
  | renewLease => cases hop
  | complete => cases hop
  | _ => rfl

/-- The service does in one step, or none, what a transaction does to a task, and
answers what the transaction answers. -/
theorem perform_lease {db db' : Database} {c : Call} {r : Reply}
    (h : perform db c.now c.op = .ok (db', r)) (i : TaskId) :
    ∃ es, Run LeaseStep (db.job? i) es (db'.job? i) ∧
      es.filter Fenced.Event.told = c.told r i := by
  by_cases hop : c.op.answersJobs = true
  · refine ⟨c.told r i, ?_, c.told_told r i⟩
    obtain ⟨now, op⟩ := c
    cases op with
    | claimTasks args scans =>
      obtain ⟨rows, hok, rfl⟩ := mapSnd_ok h
      exact claimTasks_lease hok i
    | renewLease j w a ttl =>
      obtain ⟨res, hok, rfl⟩ := mapSnd_ok h
      exact renewLease_lease hok i
    | complete e j a w =>
      obtain ⟨res, hok, rfl⟩ := mapSnd_ok h
      exact completeAttempt_lease hok i
    | _ => cases hop
  · have hop' := Bool.eq_false_iff.mpr hop
    have hstep := commit_step db c i
    rw [commit_of_ok h] at hstep
    obtain ⟨es, hrun, htold⟩ := hstep.untold (fun t ht => Database.row_checked ht) hop'
    exact ⟨es, hrun, htold.trans (Call.told_nothing hop' r i).symm⟩

theorem commit_lease (db : Database) (c : Call) (i : TaskId) :
    ∃ es, Run LeaseStep (db.job? i) es ((commit db c).job? i) ∧
      es.filter Fenced.Event.told = c.answers i db := by
  unfold Call.answers
  cases hperf : perform db c.now c.op with
  | error e =>
    rw [commit_of_error hperf]
    exact ⟨[], .nil _, rfl⟩
  | ok p =>
    rw [commit_of_ok hperf]
    exact perform_lease hperf i

/-! ## Histories -/

/-- **The queue is a service of fenced leases.** From every database and for every task:
what a history does to the row and answers about it is a run of the abstract service,
from the job the row was to the job it is. -/
theorem lease_service_refined (db : Database) (calls : List Call) (i : TaskId) :
    ∃ es, Run LeaseStep (db.job? i) es ((history db calls).job? i) ∧
      es.filter Fenced.Event.told = answersAbout i db calls := by
  have hrun : Run (fun s c t => some (commit s c) = some t) db calls (history db calls) :=
    (history_run db calls).mono fun h => congrArg some h
  refine hrun.audited (I := fun answers s =>
    ∃ es, Run LeaseStep (db.job? i) es (s.job? i) ∧ es.filter Fenced.Event.told = answers) ?_
    ⟨[], .nil _, rfl⟩
  rintro answers s c t ⟨es, hes, rfl⟩ hst
  obtain rfl := Option.some.inj hst
  obtain ⟨more, hmore, htold⟩ := commit_lease s c i
  exact ⟨es ++ more, hes.append hmore, by rw [List.filter_append, htold]⟩

end ControlPlane
