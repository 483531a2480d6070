import ControlPlane.Lib.Pacing
import ControlPlane.Reaper.Process
import ControlPlane.Server.ExecutionTime
import ControlPlane.Server.RowShape

/-! # How soon lost work is recovered

Both sweeps are duties of the reaper's rounds: what they look for is a deadline that
RUNNING tasks have, and a sweep that finds all of them leaves none before the
present. So with rounds and pauses of bounded length a task is RUNNING past its
deadline for no longer than the pause and twice the round: past its lease, whoever
held it, and past the execution time it is allowed. -/

namespace ControlPlane
open Keyed Fallible Runs Pacing

/-! ## Deadlines of RUNNING tasks -/

/-- A deadline of the task: the expiry of its lease; or the end of its execution time,
which is never before the present attempt began. -/
def Overdue.DueAt (o : Overdue) (v : TaskView) (t : Task) (d : Time) : Prop :=
  match o with
  | leaseExpired => t.leaseExpiresAt = some d
  | executionTimeExceeded => ∃ first, ∃ r ∈ v.attempts, t.firstStartedAt = some first ∧
      r.attempt = t.attempt ∧ d = max (first + seconds t.maxExecutionTimeS) r.startedAt

/-- A RUNNING task has this deadline. -/
def Overdue.Pending (o : Overdue) (db : Database) (d : Time) : Prop :=
  ∃ i t, db.task? i = some t ∧ t.state = .running ∧ o.DueAt (db.view i) t d

/-- A claim or a renewal gives a lease that has not expired yet. -/
def Op.LeasesAhead (op : Op) : Prop :=
  (∀ args scans, op = .claimTasks args scans → 0 ≤ args.leaseTtlS) ∧
    ∀ i w a ttl, op = .renewLease i w a ttl → 0 ≤ ttl

section Steps
variable [PyText]

/-- One case for each kind of step: a deadline stays, or a new one is ahead. -/
theorem TaskStep.defers (o : Overdue) {c : Call} {i : TaskId} {v v' : TaskView}
    (h : TaskStep c i v v') (hl : v.Ledgered) (hop : c.op.LeasesAhead) {t' : Task} {d' : Time}
    (ht' : v'.row = some t') (hrun' : t'.state = .running) (hd' : o.DueAt v' t' d') :
    c.now ≤ d' ∨ ∃ t d, v.row = some t ∧ t.state = .running ∧ o.DueAt v t d ∧ d ≤ d' := by
  cases h with
  | skip => exact .inr ⟨t', d', ht', hrun', hd', le_refl d'⟩
  | noted e => exact .inr ⟨t', d', ht', hrun', hd', le_refl d'⟩
  | submitted hsub hv =>
    obtain rfl := Option.some.inj ht'
    cases hrun'
  | @claimed args scans t hclaim hrow hc =>
    obtain rfl := Option.some.inj ht'
    refine .inl ?_
    cases o with
    | leaseExpired =>
      obtain rfl := Option.some.inj hd'
      exact le_add_of_nonneg_right (by unfold seconds; exact_mod_cast hop.1 _ _ hclaim)
    | executionTimeExceeded =>
      -- the attempt that begins now is the only one of its number
      obtain ⟨first, r, hr, -, ha, rfl⟩ := hd'
      rcases List.mem_append.mp hr with hr | hr
      · have hold := ((hl.ledger hrow).mem_attempts.mp ⟨r, hr, rfl⟩).2
        have hnew : r.attempt = t.attempt + 1 := ha
        omega
      · obtain rfl := List.mem_singleton.mp hr
        exact le_max_right _ _
  | @renewed w a ttl t hrenew hrow hfence =>
    obtain rfl := Option.some.inj ht'
    cases o with
    | leaseExpired =>
      obtain rfl := Option.some.inj hd'
      exact .inl (le_add_of_nonneg_right (by unfold seconds; exact_mod_cast hop.2 _ _ _ _ hrenew))
    | executionTimeExceeded => exact .inr ⟨t, d', hrow, hrun', hd', le_refl d'⟩
  | @completed e a w t hdone hrow hfence =>
    obtain rfl := Option.some.inj ht'
    rw [(e.row_fields c.now t).1] at hrun'
    exact absurd hrun' e.toState_not_running
  | @reaped o' limit scan t hreap hrow hrun hov =>
    obtain rfl := Option.some.inj ht'
    rw [(o'.row_fields c.now t).1] at hrun'
    exact absurd hrun' (reapToState_not_running _ _)
  | cancelled hcancel hrow hq hrow' =>
    obtain rfl := Option.some.inj ht'
    rw [(cancelled_fields hrow').1] at hrun'
    cases hrun'
  | @flagged t e hcancel hrow hrun hf =>
    obtain rfl := Option.some.inj ht'
    exact .inr ⟨t, d', hrow, hrun, hd', le_refl d'⟩

theorem commit_defers (o : Overdue) {db : Database} (c : Call) (hdb : Timed db)
    (hop : c.op.LeasesAhead) : Defers o.Pending c.now db (commit db c) := by
  intro d' hd'
  obtain ⟨i, t', ht', hrun', hdue⟩ := hd'
  rcases (commit_step db c i).defers o (hdb i).1 hop ht' hrun' hdue with
    hnow | ⟨t, d, ht, hrun, hd, hle⟩
  · exact .inl hnow
  · exact .inr ⟨d, ⟨i, t, ht, hrun, hd⟩, hle⟩

omit [PyText] in
/-- Whoever is not overdue has a deadline that is not past. -/
theorem Overdue.DueAt.ahead {o : Overdue} {v : TaskView} {t : Task} {d now : Time}
    (h : o.DueAt v t d) (hov : o.holds now t = false) : now ≤ d := by
  cases o with
  | leaseExpired =>
    have hdue : t.leaseExpiresAt = some d := h
    simpa [Overdue.holds, Task.leaseExpired, hdue] using hov
  | executionTimeExceeded =>
    obtain ⟨first, r, -, hfirst, -, rfl⟩ := h
    have hle : now ≤ first + seconds t.maxExecutionTimeS := by
      simpa [Overdue.holds, Task.executionTimeExceeded, hfirst] using hov
    exact hle.trans (le_max_left _ _)

/-- **A short batch clears the past**, unless somebody holds an overdue row. -/
theorem reapBatch_clears {db db' : Database} {now : Time} {o : Overdue} {limit : Int} {scan : Scan}
    {result : ReapResult} (h : reapBatch db now o limit scan = .ok (db', result))
    (hshort : (result.reaped : Int) < limit)
    (hfree : ∀ t ∈ db.tasks.rows, t.state = .running → o.holds now t = true →
      scan.locked t.id = false) : Clear o.Pending now db' := by
  obtain ⟨-, hcount, hin, hout⟩ := reapBatch_ok h
  rw [hcount] at hshort
  intro d hd
  obtain ⟨i, t, ht, hrun, hdue⟩ := hd
  have hnot : ∀ u ∈ overdueTasks db now o limit scan, u.id ≠ i := by
    rintro u hu rfl
    have hrow : some (o.row now u) = some t := (congrArg TaskView.row (hin u hu)).symm.trans ht
    rw [← Option.some.inj hrow, (o.row_fields now u).1] at hrun
    exact reapToState_not_running _ _ hrun
  have hview := hout i hnot
  have hrow : db.task? i = some t := (congrArg TaskView.row hview).symm.trans ht
  rw [hview] at hdue
  refine hdue.ahead (Bool.eq_false_iff.mpr fun hov => ?_)
  have hmem := Table.mem_of_find? hrow
  exact hnot t (overdueTasks_short hshort hmem hrun hov (hfree t hmem hrun hov)) (Database.row_id hrow)

end Steps

/-! ## The reaper keeps its duties -/

/-- Where the reaper is with one of its duties. -/
def ReaperStage.pace (o : Overdue) : ReaperStage → Option (Pace Time)
  | sweeping .leaseExpired _ started => some (.ahead started)
  | sweeping .executionTimeExceeded _ started =>
    some (if o = .leaseExpired then .behind started else .ahead started)
  | marking started => some (.behind started)
  | sleeping since => some (.resting since)
  | exited => none

/-- Its sweep or its sleep has not taken too long. -/
def ReaperStage.Timely (l : Limits Time) (now : Time) : ReaperStage → Prop
  | sweeping _ _ started => now ≤ started + l.work
  | marking started => now ≤ started + l.work
  | sleeping since => now ≤ since + l.rest
  | exited => False

theorem ReaperStage.Timely.pace {l : Limits Time} {now : Time} {stage : ReaperStage}
    (h : stage.Timely l now) (o : Overdue) :
    ∃ x, stage.pace o = some x ∧ x.Timely l now := by
  cases stage with
  | sweeping part batches started =>
    cases part with
    | leaseExpired => exact ⟨_, rfl, h⟩
    | executionTimeExceeded =>
      refine ⟨_, rfl, ?_⟩
      split <;> exact h
  | marking started => exact ⟨_, rfl, h⟩
  | sleeping since => exact ⟨_, rfl, h⟩
  | exited => exact h.elim

/-- It runs, nobody has asked it to stop, and it has not taken too long. -/
structure ReaperProcess.Timely (l : Limits Time) (now : Time) (p : ReaperProcess) : Prop where
  going : p.stopping = false
  stage : p.stage.Timely l now

/-! Where its own steps take it: a loop left behind is a duty done. -/

section Stages

variable {p : ReaperProcess} (hgoing : p.stopping = false)
  (hmax : 1 ≤ p.reaper.maxBatchesPerSweep) (started : Time)
include hgoing hmax

theorem ReaperProcess.afterLeases_eq :
    ∃ batches, p.afterLeases started = .sweeping .executionTimeExceeded batches started := by
  unfold afterLeases
  cases hn : p.reaper.maxBatchesPerSweep.toNat with
  | zero => omega
  | succ n => exact ⟨n, by simp [hungFrom, hgoing]⟩

theorem ReaperProcess.sweepFrom_eq :
    ∃ batches, p.sweepFrom started = .sweeping .leaseExpired batches started := by
  unfold sweepFrom
  cases hn : p.reaper.maxBatchesPerSweep.toNat with
  | zero => omega
  | succ n => exact ⟨n, by simp [leasesFrom, hgoing]⟩

theorem ReaperProcess.pace_after (o : Overdue) :
    (p.after o started).pace o = some (.behind started) := by
  cases o with
  | leaseExpired =>
    obtain ⟨batches, he⟩ := p.afterLeases_eq hgoing hmax started
    simp [after, he, ReaperStage.pace]
  | executionTimeExceeded => rfl

theorem ReaperProcess.pace_after_other {o o' : Overdue} (ho : o' ≠ o) (batches : Nat) :
    (p.after o' started).pace o = (ReaperStage.sweeping o' batches started).pace o := by
  cases o' with
  | leaseExpired =>
    obtain ⟨n, he⟩ := p.afterLeases_eq hgoing hmax started
    cases o with
    | leaseExpired => exact absurd rfl ho
    | executionTimeExceeded => simp [after, he, ReaperStage.pace]
  | executionTimeExceeded =>
    cases o with
    | leaseExpired => rfl
    | executionTimeExceeded => exact absurd rfl ho

end Stages

/-- The batch leaves no overdue row because somebody holds it, and is not the last one
allowed if it is full. -/
def Deployment.Thorough (o : Overdue) (d : Deployment) (a : DeploymentAction) : Prop :=
  ∀ scan batches started, a = .reaper (.batch scan) →
    d.reaper.stage = .sweeping o batches started →
    (∀ t ∈ d.sys.db.tasks.rows, t.state = .running → o.holds d.sys.clock t = true →
      scan.locked t.id = false) ∧
    (batches = 0 → ((overdueTasks d.sys.db d.sys.clock o d.reaper.reaper.batchSize scan).length : Int) <
      d.reaper.reaper.batchSize)

/-- The lease of every worker is this long. -/
def DeploymentAction.Leases (ttl : Int) (a : DeploymentAction) : Prop :=
  ∀ w config, a = .system (.start w config) → config.leaseTtlS = ttl

instance (l : Limits Time) (now : Time) (stage : ReaperStage) : Decidable (stage.Timely l now) :=
  match stage with
  | .sweeping _ _ started => inferInstanceAs (Decidable (now ≤ started + l.work))
  | .marking started => inferInstanceAs (Decidable (now ≤ started + l.work))
  | .sleeping since => inferInstanceAs (Decidable (now ≤ since + l.rest))
  | .exited => inferInstanceAs (Decidable False)

/-- The conditions on one step of a run, decided. -/
def Deployment.onTime (o : Overdue) (l : Limits Time) (ttl : Int) (d : Deployment)
    (a : DeploymentAction) : Bool :=
  !d.reaper.stopping && decide (d.reaper.stage.Timely l d.sys.clock) &&
    (match a, d.reaper.stage with
    | .reaper (.batch scan), .sweeping o' batches _ => o' != o ||
        (d.sys.db.tasks.rows.all fun t =>
          !(t.state == .running && o.holds d.sys.clock t) || !scan.locked t.id) &&
        (batches != 0 || decide (((overdueTasks d.sys.db d.sys.clock o d.reaper.reaper.batchSize
          scan).length : Int) < d.reaper.reaper.batchSize))
    | _, _ => true) &&
    match a with
    | .system (.start _ config) => config.leaseTtlS == ttl
    | _ => true

/-- What the reaper and the database say of a duty. -/
structure Deployment.OnDuty (o : Overdue) (l : Limits Time) (ttl : Int) (d : Deployment) : Prop where
  batches : 1 ≤ d.reaper.reaper.maxBatchesPerSweep
  timed : Timed d.sys.db
  leases : d.sys.Each fun p => p.config.leaseTtlS = ttl
  current : ∀ x, d.reaper.stage.pace o = some x → Current o.Pending l d.sys.clock x d.sys.db

section Duty
variable [PyText]

/-- Every step of the system gives leases of the workers' length. -/
theorem step_leasesAhead {s s' : System} {a : Action} {op : Op} {ttl : Int} (h : SystemStep s a s')
    (hs : s.Each fun p => p.config.leaseTtlS = ttl) (httl : 0 ≤ ttl) (hop : s.op? a = some op) :
    op.LeasesAhead := by
  rcases step_issues h hop with ⟨-, hext⟩ | ⟨v, capacity, caps, rfl⟩ | ⟨v, p, b, rfl, hp, hissues⟩
  · refine ⟨fun args scans he => ?_, fun i w a ttl he => ?_⟩
    · subst he; cases hext
    · subst he; cases hext
  · exact ⟨nofun, nofun⟩
  · refine ⟨fun args scans he => ?_, fun i w a ttl' he => ?_⟩
    · subst he
      obtain ⟨-, rfl⟩ := hissues.claims
      show 0 ≤ p.config.leaseTtlS
      rw [hs v p hp]
      exact httl
    · subst he
      rw [hissues.renewal.2, hs v p hp]
      exact httl

theorem step_leases {s s' : System} {a : Action} {ttl : Int} (h : SystemStep s a s')
    (hs : s.Each fun p => p.config.leaseTtlS = ttl)
    (ha : ∀ w config, a = .start w config → config.leaseTtlS = ttl) :
    s'.Each fun p => p.config.leaseTtlS = ttl := by
  intro v q hq
  rcases step_workers h with ⟨he, -⟩ | ⟨w, config, row, rfl, -, -, -, he⟩ | ⟨w, p, b, m, -, hp, hm, he⟩
  · exact hs v q (he ▸ hq)
  · rw [he] at hq
    rcases update_some hq with ⟨-, rfl⟩ | hq
    · exact ha w config rfl
    · exact hs v q hq
  · rw [he] at hq
    rcases update_some hq with ⟨-, rfl⟩ | hq
    · rw [(runForever_own hm s.db s.clock).config]
      exact hs w p hp
    · exact hs v q hq

/-- A step of anybody else. -/
theorem step_defers (o : Overdue) {s s' : System} {a : Action} {ttl : Int} (h : SystemStep s a s')
    (hs : s.Each fun p => p.config.leaseTtlS = ttl) (httl : 0 ≤ ttl) (htimed : Timed s.db) :
    Defers o.Pending s.clock s.db s'.db := by
  rw [step_db h]
  split
  · exact fun d hd => .inr ⟨d, hd, le_refl d⟩
  · rename_i op hop
    exact commit_defers o ⟨s.clock, op⟩ htimed (step_leasesAhead h hs httl hop)

theorem step_timed {s s' : System} {a : Action} (h : SystemStep s a s') (hs : Timed s.db) :
    Timed s'.db :=
  step_keeps (I := Timed) commit_timed h hs

/-- What a batch leaves, whichever loop takes it. -/
theorem reapBatch_defers {db db' : Database} {now : Time} (o : Overdue) {o' : Overdue} {limit : Int}
    {scan : Scan} {result : ReapResult} (hdb : Timed db)
    (h : reapBatch db now o' limit scan = .ok (db', result)) :
    Defers o.Pending now db db' ∧ Timed db' := by
  have hperf : perform db now (.reap o' limit scan) = .ok (db', .reaped result) := by
    show (reapBatch db now o' limit scan).map _ = _
    rw [h]
    rfl
  rw [← commit_of_ok (c := ⟨now, .reap o' limit scan⟩) hperf]
  exact ⟨commit_defers o _ hdb ⟨nofun, nofun⟩, commit_timed _ _ hdb⟩

/-- **A step of the reaper keeps its duty**, when it is in time and thorough. -/
theorem ReaperMove.current {o : Overdue} {l : Limits Time} {db db' : Database} {now : Time}
    {p p' : ReaperProcess} {a : ReaperAction} (h : ReaperMove db now p a db' p')
    (hmax : 1 ≤ p.reaper.maxBatchesPerSweep) (ht : p.Timely l now) (hdb : Timed db)
    (hthorough : ∀ scan batches started, a = .batch scan → p.stage = .sweeping o batches started →
      (∀ t ∈ db.tasks.rows, t.state = .running → o.holds now t = true → scan.locked t.id = false) ∧
      (batches = 0 →
        ((overdueTasks db now o p.reaper.batchSize scan).length : Int) < p.reaper.batchSize))
    (hcurrent : ∀ x, p.stage.pace o = some x → Current o.Pending l now x db) :
    ∀ x, p'.stage.pace o = some x → Current o.Pending l now x db' := by
  intro x hx
  cases h with
  | stopped => exact hcurrent x hx
  | @batch o' batches started scan db' result hstage hreap =>
    obtain ⟨hdefers, -⟩ := reapBatch_defers o hdb hreap
    have hbefore := hstage ▸ hcurrent
    dsimp only at hx
    by_cases ho : o' = o
    · subst ho
      obtain ⟨hfree, hlast⟩ := hthorough scan batches started rfl hstage
      have hahead : (ReaperStage.sweeping o' batches started).pace o' = some (.ahead started) := by
        cases o' <;> rfl
      split at hx
      · rename_i hshort
        rw [p.pace_after ht.going hmax started o'] at hx
        obtain rfl := Option.some.inj hx
        exact (hbefore _ hahead).performed (reapBatch_clears hreap hshort hfree)
      · rename_i hfull
        cases batches with
        | zero =>
          rw [(reapBatch_ok hreap).2.1] at hfull
          exact absurd (hlast rfl) hfull
        | succ batches =>
          rw [p.resume_going ht.going] at hx
          have hsame : (ReaperStage.sweeping o' batches started).pace o' = some (.ahead started) := by
            cases o' <;> rfl
          obtain rfl := Option.some.inj (hx.symm.trans hsame)
          exact (hbefore _ hahead).defers (le_refl now) hdefers
    · -- the other loop: this duty is where it was
      have hsame : (ReaperStage.sweeping o' batches started).pace o = some x := by
        split at hx
        · rw [← hx, p.pace_after_other ht.going hmax started ho]
        · cases batches with
          | zero => rw [← hx, p.resume_done, p.pace_after_other ht.going hmax started ho]
          | succ n =>
            rw [p.resume_going ht.going] at hx
            rw [← hx]
            cases o' <;> rfl
      exact (hbefore x hsame).defers (le_refl now) hdefers
  | @marked started hstage =>
    have hbehind : Current o.Pending l now (.behind started) db := hcurrent _ (by rw [hstage]; rfl)
    obtain rfl := Option.some.inj hx
    have hdefers : Defers o.Pending now db (markDeadWorkers db now p.reaper.workerDeadAfterS).1 :=
      commit_defers o ⟨now, .markDeadWorkers p.reaper.workerDeadAfterS⟩ hdb ⟨nofun, nofun⟩
    have hstill := ht.stage
    rw [hstage] at hstill
    exact (hbehind.finished hstill).defers (le_refl now) hdefers
  | @woke since hstage hgoing hlate =>
    have hresting : Current o.Pending l now (.resting since) db := hcurrent _ (by rw [hstage]; rfl)
    obtain ⟨batches, he⟩ := p.sweepFrom_eq hgoing hmax now
    dsimp only at hx
    rw [he] at hx
    obtain rfl := Option.some.inj hx
    have hstill := ht.stage
    rw [hstage] at hstill
    exact hresting.begun hstill
  | ended => cases hx

theorem ReaperMove.kept {db db' : Database} {now : Time} {p p' : ReaperProcess} {a : ReaperAction}
    (h : ReaperMove db now p a db' p') (hdb : Timed db) : Timed db' ∧ p'.reaper = p.reaper := by
  cases h with
  | stopped => exact ⟨hdb, rfl⟩
  | batch hstage hreap => exact ⟨(reapBatch_defers .leaseExpired hdb hreap).2, rfl⟩
  | marked hstage =>
    exact ⟨commit_timed db ⟨now, .markDeadWorkers p.reaper.workerDeadAfterS⟩ hdb, rfl⟩
  | woke hstage hgoing hlate => exact ⟨hdb, rfl⟩
  | ended => exact ⟨hdb, rfl⟩

/-- A step of a run in which the reaper is in time and its sweeps are thorough. -/
structure OnTime (o : Overdue) (l : Limits Time) (ttl : Int) (d : Deployment) (a : DeploymentAction)
    (d' : Deployment) : Prop where
  step : DeploymentStep d a d'
  timely : d.reaper.Timely l d.sys.clock
  thorough : d.Thorough o a
  leases : a.Leases ttl

theorem OnTime.of_check {o : Overdue} {l : Limits Time} {ttl : Int} {d d' : Deployment}
    {a : DeploymentAction} (h : d.step a = some d') (hcheck : d.onTime o l ttl a = true) :
    OnTime o l ttl d a d' := by
  unfold Deployment.onTime at hcheck
  simp only [Bool.and_eq_true, Bool.not_eq_true', decide_eq_true_eq] at hcheck
  obtain ⟨⟨⟨hgoing, hstill⟩, hthorough⟩, hleases⟩ := hcheck
  refine ⟨h, ⟨hgoing, hstill⟩, fun scan batches started ha hstage => ?_, fun w config ha => ?_⟩
  · subst ha
    rw [hstage] at hthorough
    simp only [bne_self_eq_false, Bool.false_or, Bool.and_eq_true, List.all_eq_true, Bool.or_eq_true,
      Bool.not_eq_true', bne_iff_ne, decide_eq_true_eq] at hthorough
    refine ⟨fun t ht hrun hov => ?_, fun hlast => hthorough.2.resolve_left fun hne => hne hlast⟩
    refine (hthorough.1 t ht).resolve_left fun hno => ?_
    rw [hrun, hov] at hno
    cases hno
  · subst ha
    exact beq_iff_eq.mp hleases

theorem OnTime.of_exec {o : Overdue} {l : Limits Time} {ttl : Int} {d d' : Deployment}
    {acts : List DeploymentAction}
    (h : exec (fun d a => if d.onTime o l ttl a = false then none else d.step a) d acts = some d') :
    Run (OnTime o l ttl) d acts d' :=
  (Run.of_exec h).mono fun {d a d'} hst => by
    split at hst
    · cases hst
    · rename_i hcheck
      exact .of_check hst (Bool.eq_true_of_not_eq_false hcheck)

theorem OnTime.onDuty {o : Overdue} {l : Limits Time} {ttl : Int} {d d' : Deployment}
    {a : DeploymentAction} (h : OnTime o l ttl d a d') (httl : 0 ≤ ttl) (hd : d.OnDuty o l ttl) :
    d'.OnDuty o l ttl := by
  rcases deployment_step h.step with ⟨b, rfl, hsys, hreaper⟩ | ⟨b, rfl, hmove, hclock, hworkers⟩
  · have hdefers := step_defers o hsys hd.leases httl hd.timed
    refine ⟨hreaper ▸ hd.batches, step_timed hsys hd.timed, ?_, fun x hx => ?_⟩
    · exact step_leases hsys hd.leases fun w config he => h.leases w config (he ▸ rfl)
    · exact (hd.current x (hreaper ▸ hx)).defers (step_clock hsys) hdefers
  · obtain ⟨htimed, hsame⟩ := hmove.kept hd.timed
    refine ⟨hsame ▸ hd.batches, htimed, ?_, ?_⟩
    · intro w p hp
      exact hd.leases w p (hworkers ▸ hp)
    · rw [hclock]
      exact hmove.current hd.batches h.timely hd.timed
        (fun scan batches started he => h.thorough scan batches started (he ▸ rfl)) hd.current

omit [PyText] in
theorem initial_onDuty (o : Overdue) (l : Limits Time) (ttl : Int) (p : ReaperProcess)
    (hmax : 1 ≤ p.reaper.maxBatchesPerSweep) (hwork : 0 ≤ l.work) (hrest : 0 ≤ l.rest) :
    (Deployment.initial p).OnDuty o l ttl where
  batches := hmax
  timed := empty_timed
  leases w q hq := by cases hq
  current x hx := by
    obtain ⟨batches, he⟩ := ReaperProcess.sweepFrom_eq (p := { p with stopping := false }) rfl hmax 0
    have hstage : (Deployment.initial p).reaper.stage = .sweeping .leaseExpired batches 0 := he
    rw [hstage] at hx
    obtain rfl := Option.some.inj hx
    refine ⟨le_refl _, 0, le_refl _, ?_, fun d hd => ?_⟩
    · show (0 : Time) ≤ 0 + l.work + l.rest
      linarith
    · obtain ⟨i, t, ht, -⟩ := hd
      cases ht

/-- **No task is RUNNING long past its deadline.** -/
theorem deadline_kept (o : Overdue) {l : Limits Time} (hwork : 0 ≤ l.work) (hrest : 0 ≤ l.rest)
    {ttl : Int} (httl : 0 ≤ ttl) {p : ReaperProcess} (hmax : 1 ≤ p.reaper.maxBatchesPerSweep)
    {acts : List DeploymentAction} {d : Deployment}
    (h : Run (OnTime o l ttl) (.initial p) acts d) (ht : d.reaper.Timely l d.sys.clock) {due : Time}
    (hdue : o.Pending d.sys.db due) : d.sys.clock ≤ due + l.latency := by
  have hduty : d.OnDuty o l ttl :=
    h.invariant (fun hd hst => hst.onDuty httl hd) (initial_onDuty o l ttl p hmax hwork hrest)
  obtain ⟨x, hx, hstill⟩ := ht.stage.pace o
  exact (hduty.current x hx).within hstill hwork hrest hdue

/-! ## Crashed workers and hung tasks -/

/-- A lease that a worker holds after a step it held before, or it has just written it. -/
theorem step_lease {s s' : System} {a : Action} (h : SystemStep s a s') {i : TaskId} {t' : Task}
    {w : WorkerId} (ht' : s'.db.task? i = some t') (hrun' : t'.state = .running)
    (hw : t'.leaseWorkerId = some w) :
    (∃ t, s.db.task? i = some t ∧ t.state = .running ∧ t.leaseWorkerId = some w ∧
        t.leaseExpiresAt = t'.leaseExpiresAt) ∨
      ∃ p b, a = .worker w b ∧ s.workers w = some p ∧
        t'.leaseExpiresAt = some (s.clock + seconds p.config.leaseTtlS) := by
  have hdb := step_db h
  split at hdb
  · exact .inl ⟨t', hdb ▸ ht', hrun', hw, rfl⟩
  rename_i op hop
  have hstep := commit_step s.db ⟨s.clock, op⟩ i
  rw [← hdb] at hstep
  generalize hv : s'.db.view i = v' at hstep
  have hrow' : v'.row = some t' := hv ▸ ht'
  cases hstep with
  | skip => exact .inl ⟨t', hrow', hrun', hw, rfl⟩
  | noted e => exact .inl ⟨t', hrow', hrun', hw, rfl⟩
  | submitted hsub hnone =>
    obtain rfl := Option.some.inj hrow'
    cases hrun'
  | @claimed args scans t hclaim hrow hc =>
    obtain rfl := Option.some.inj hrow'
    obtain rfl : op = .claimTasks args scans := hclaim
    obtain ⟨-, hext⟩ | ⟨v, capacity, caps, hreg⟩ | ⟨v, p, b, rfl, hp, hissues⟩ := step_issues h hop
    · cases hext
    · cases hreg
    · obtain ⟨-, rfl⟩ := hissues.claims
      obtain rfl : v = w := Option.some.inj hw
      exact .inr ⟨p, b, rfl, hp, rfl⟩
  | @renewed v n ttl t hrenew hrow hfence =>
    obtain rfl := Option.some.inj hrow'
    obtain rfl : op = .renewLease i v n ttl := hrenew
    obtain rfl : v = w := Option.some.inj (hfence.1.2.2.symm.trans hw)
    obtain ⟨-, hext⟩ | ⟨u, capacity, caps, hreg⟩ | ⟨u, p, b, rfl, hp, hissues⟩ := step_issues h hop
    · cases hext
    · cases hreg
    · obtain ⟨rfl, rfl⟩ := hissues.renewal
      exact .inr ⟨p, b, rfl, hp, rfl⟩
  | @completed e n v t hdone hrow hfence =>
    obtain rfl := Option.some.inj hrow'
    rw [(e.row_fields _ t).1] at hrun'
    exact absurd hrun' e.toState_not_running
  | @reaped o limit scan t hreap hrow hrun hov =>
    obtain rfl := Option.some.inj hrow'
    rw [(o.row_fields _ t).1] at hrun'
    exact absurd hrun' (reapToState_not_running _ _)
  | cancelled hcancel hrow hq hrow'' =>
    obtain rfl := Option.some.inj hrow'
    rw [(cancelled_fields hrow'').1] at hrun'
    cases hrun'
  | @flagged t e hcancel hrow hrun hf =>
    obtain rfl := Option.some.inj hrow'
    exact .inl ⟨t, hrow, hrun, hw, rfl⟩

/-- What the worker holds expires by then. -/
def System.LeasedUntil (s : System) (w : WorkerId) (limit : Time) : Prop :=
  ∀ i t e, s.db.task? i = some t → t.state = .running → t.leaseWorkerId = some w →
    t.leaseExpiresAt = some e → e ≤ limit

theorem step_leasedUntil {s s' : System} {a : Action} {ttl : Int} (h : SystemStep s a s')
    (hs : s.Each fun p => p.config.leaseTtlS = ttl) {w : WorkerId}
    (hle : s.LeasedUntil w (s.clock + seconds ttl)) : s'.LeasedUntil w (s'.clock + seconds ttl) := by
  have hclock : s.clock + seconds ttl ≤ s'.clock + seconds ttl := by
    have := step_clock h
    linarith
  intro i t' e ht' hrun' hw he
  rcases step_lease h ht' hrun' hw with ⟨t, ht, hrun, hwt, hsame⟩ | ⟨p, b, -, hp, hwritten⟩
  · exact (hle i t e ht hrun hwt (hsame.trans he)).trans hclock
  · rw [hwritten, hs w p hp] at he
    exact Option.some.inj he ▸ hclock

/-- Without a step of the worker its leases are not extended. -/
theorem step_silent {s s' : System} {a : Action} (h : SystemStep s a s') {w : WorkerId} {limit : Time}
    (hsilent : ∀ b, a ≠ .worker w b) (hle : s.LeasedUntil w limit) : s'.LeasedUntil w limit := by
  intro i t' e ht' hrun' hw he
  rcases step_lease h ht' hrun' hw with ⟨t, ht, hrun, hwt, hsame⟩ | ⟨p, b, ha, -, -⟩
  · exact hle i t e ht hrun hwt (hsame.trans he)
  · exact absurd ha (hsilent b)

theorem OnTime.leasedUntil {o : Overdue} {l : Limits Time} {ttl : Int} {d d' : Deployment}
    {a : DeploymentAction} (h : OnTime o l ttl d a d')
    (hd : d.sys.Each fun p => p.config.leaseTtlS = ttl) {w : WorkerId}
    (hle : d.sys.LeasedUntil w (d.sys.clock + seconds ttl)) :
    d'.sys.LeasedUntil w (d'.sys.clock + seconds ttl) := by
  rcases deployment_sys h.step with ⟨b, rfl, hsys⟩ | hsame | ⟨op, hsys⟩
  · exact step_leasedUntil hsys hd hle
  · exact hsame ▸ hle
  · exact step_leasedUntil hsys hd hle

theorem OnTime.silent {o : Overdue} {l : Limits Time} {ttl : Int} {d d' : Deployment}
    {a : DeploymentAction} (h : OnTime o l ttl d a d') {w : WorkerId} {limit : Time}
    (hsilent : ∀ b, a ≠ .system (.worker w b)) (hle : d.sys.LeasedUntil w limit) :
    d'.sys.LeasedUntil w limit := by
  rcases deployment_sys h.step with ⟨b, rfl, hsys⟩ | hsame | ⟨op, hsys⟩
  · exact step_silent hsys (fun c hc => hsilent c (congrArg _ hc)) hle
  · exact hsame ▸ hle
  · exact step_silent hsys (fun c hc => by cases hc) hle

/-- **A crashed worker's tasks are recovered within the lease, the pause and twice the
sweep.** From a state on a worker takes no more steps, whatever the others do, the
reaper's sweeps and pauses are no longer than the limits, none of them passes over an
expired lease or stops at its cap: then, that long after the state, no task is RUNNING
under the worker. -/
theorem crashed_worker_recovered {l : Limits Time} (hwork : 0 ≤ l.work) (hrest : 0 ≤ l.rest)
    {ttl : Int} (httl : 0 ≤ ttl) {p : ReaperProcess} (hmax : 1 ≤ p.reaper.maxBatchesPerSweep)
    {before after : List DeploymentAction} {d d' : Deployment}
    (h : Run (OnTime .leaseExpired l ttl) (.initial p) before d)
    (h' : Run (OnTime .leaseExpired l ttl) d after d') (ht : d'.reaper.Timely l d'.sys.clock)
    {w : WorkerId} (hsilent : ∀ b, .system (.worker w b) ∉ after)
    (hlate : d.sys.clock + seconds ttl + l.latency < d'.sys.clock) {i : TaskId} {t : Task}
    (hrow : d'.sys.db.task? i = some t) (hrun : t.state = .running) : t.leaseWorkerId ≠ some w := by
  intro hw
  have hbefore : d.OnDuty .leaseExpired l ttl ∧ d.sys.LeasedUntil w (d.sys.clock + seconds ttl) := by
    refine h.invariant (I := fun u => u.OnDuty .leaseExpired l ttl ∧
      u.sys.LeasedUntil w (u.sys.clock + seconds ttl)) (fun hu hst => ?_) ⟨?_, ?_⟩
    · exact ⟨hst.onDuty httl hu.1, hst.leasedUntil hu.1.leases hu.2⟩
    · exact initial_onDuty _ l ttl p hmax hwork hrest
    · intro i t e ht
      cases ht
  have hafter : d'.sys.LeasedUntil w (d.sys.clock + seconds ttl) := by
    refine h'.labelled.invariant (I := fun u => u.sys.LeasedUntil w (d.sys.clock + seconds ttl))
      (fun hu hst => ?_) hbefore.2
    exact hst.2.silent (fun b hb => hsilent b (hb ▸ hst.1)) hu
  obtain ⟨e, he⟩ := Option.isSome_iff_exists.mp
    (((Task.checked_iff t).mp (Database.row_checked hrow)).2.2.2.2.mp hrun).2
  have hexpires : e ≤ d.sys.clock + seconds ttl := hafter i t e hrow hrun hw he
  have hkept := deadline_kept .leaseExpired hwork hrest httl hmax (h.append h') ht
    ⟨i, t, hrow, hrun, he⟩
  linarith

/-- Once a second the reaper sweeps, in no time. -/
def promptly : Limits Time := ⟨0, 1⟩

def sweepOnce : List DeploymentAction :=
  [.reaper (.batch {}), .reaper (.batch {}), .reaper .markDead]

/-- A worker claims a task, for two seconds, and is not heard of again. -/
def claimedAndGone : List DeploymentAction :=
  sweepOnce ++
  [.system (.external (.createTenant 1 "tenant" 10 1000)),
    .system (.external (.submitTask 7 { tenantId := 1, taskType := "demo", payload := [] })),
    .system (.start "gone" { capacity := 1, capabilities := [], leaseTtlS := 2 }),
    .system (.worker "gone" .poll), .system (.worker "gone" (.claim fun _ => {}))]

/-- The third sweep takes it back, and another worker claims it. -/
def claimedByAnother : List DeploymentAction :=
  [.system (.advance 1), .reaper .wake] ++ sweepOnce ++
  [.system (.advance 1), .reaper .wake] ++ sweepOnce ++
  [.system (.advance 1), .reaper .wake] ++ sweepOnce ++
  [.system (.start "other" { capacity := 1, capabilities := [], leaseTtlS := 2 }),
    .system (.worker "other" .poll), .system (.worker "other" (.claim fun _ => {})),
    .system (.advance (1 / 2))]

def reaperOnce : ReaperProcess := { stage := .exited }

omit [PyText] in
theorem crashed_worker_recovered_claimedByAnother : ∃ d d' t,
    Run (@OnTime PyText.plain .leaseExpired promptly 2) (.initial reaperOnce) claimedAndGone d ∧
    Run (@OnTime PyText.plain .leaseExpired promptly 2) d claimedByAnother d' ∧
    d'.sys.db.task? 7 = some t ∧ t.state = .running ∧ t.leaseWorkerId ≠ some "gone" := by
  have hrun : ((exec (fun (d : Deployment) a => if d.onTime .leaseExpired promptly 2 a = false then none
      else @Deployment.step PyText.plain d a) (.initial reaperOnce) claimedAndGone).bind fun d =>
      (exec (fun (d : Deployment) a => if d.onTime .leaseExpired promptly 2 a = false then none
        else @Deployment.step PyText.plain d a) d claimedByAnother).bind fun d' =>
        (d'.sys.db.task? 7).map fun t => (t.state, !d'.reaper.stopping,
          decide (d'.reaper.stage.Timely promptly d'.sys.clock),
          decide (d.sys.clock + seconds (2 : Int) + promptly.latency < d'.sys.clock))) =
      some (.running, true, true, true) := by decide +kernel
  obtain ⟨d, hd, hrun⟩ := Option.bind_eq_some_iff.mp hrun
  obtain ⟨d', hd', hrun⟩ := Option.bind_eq_some_iff.mp hrun
  obtain ⟨t, ht, hseen⟩ := Option.map_eq_some_iff.mp hrun
  obtain ⟨hstate, hseen⟩ := Prod.mk.inj hseen
  obtain ⟨hgoing, hseen⟩ := Prod.mk.inj hseen
  obtain ⟨hstill, hlate⟩ := Prod.mk.inj hseen
  have h := @OnTime.of_exec PyText.plain _ _ _ _ _ _ hd
  have h' := @OnTime.of_exec PyText.plain _ _ _ _ _ _ hd'
  refine ⟨d, d', t, h, h', ht, hstate, ?_⟩
  exact @crashed_worker_recovered PyText.plain promptly (by decide +kernel) (by decide +kernel) 2
    (by decide) reaperOnce (by decide) _ _ d d' h h' ⟨by simpa using hgoing, of_decide_eq_true hstill⟩
    "gone" (by simp [claimedByAnother, sweepOnce]) (of_decide_eq_true hlate) 7 t ht hstate

/-- **A hung task is ended within the pause and twice the sweep** after its execution
time is over, counted from its first attempt, or after its present attempt began, if
that is later: under the same conditions on the sweeps for hung tasks. -/
theorem hung_task_ended {l : Limits Time} (hwork : 0 ≤ l.work) (hrest : 0 ≤ l.rest)
    {ttl : Int} (httl : 0 ≤ ttl) {p : ReaperProcess} (hmax : 1 ≤ p.reaper.maxBatchesPerSweep)
    {acts : List DeploymentAction} {d : Deployment}
    (h : Run (OnTime .executionTimeExceeded l ttl) (.initial p) acts d)
    (ht : d.reaper.Timely l d.sys.clock) {i : TaskId} {t : Task}
    (hrow : d.sys.db.task? i = some t) (hrun : t.state = .running) :
    ∃ first r, t.firstStartedAt = some first ∧ d.sys.db.attempt? i t.attempt = some r ∧
      d.sys.clock ≤ max (first + seconds t.maxExecutionTimeS) r.startedAt + l.latency := by
  obtain ⟨acts', hsys⟩ := deployment_run (h.mono fun hst => hst.step)
  obtain ⟨calls, hcalls⟩ := system_history hsys
  have htimed : Timed d.sys.db :=
    hcalls ▸ history_invariant commit_timed empty_timed calls
  have hshaped : d.sys.db.Shaped :=
    hcalls ▸ history_invariant commit_shaped empty_shaped calls
  obtain ⟨r, hr, -⟩ := htimed.started hrow hrun
  have hshape := hshaped i t hrow
  have hstarted : t.firstStartedAt ≠ none := by
    intro hnone
    rcases hshape.unstarted (hshape.started.mp hnone) with hq | hc
    · rw [hrun] at hq; cases hq
    · rw [hrun] at hc; cases hc
  obtain ⟨first, hfirst⟩ := Option.ne_none_iff_exists'.mp hstarted
  obtain ⟨hmem, ha⟩ := Database.attempt?_eq_some.mp hr
  exact ⟨first, r, hfirst, hr, deadline_kept .executionTimeExceeded hwork hrest httl hmax h ht
    ⟨i, t, hrow, hrun, first, r, hmem, hfirst, ha, rfl⟩⟩

omit [PyText] in
theorem hung_task_ended_claimed : ∃ d t first,
    Run (@OnTime PyText.plain .executionTimeExceeded promptly 2) (.initial reaperOnce) claimedAndGone d ∧
    d.sys.db.task? 7 = some t ∧ t.firstStartedAt = some first ∧
    ∃ r, d.sys.db.attempt? 7 t.attempt = some r ∧
      d.sys.clock ≤ max (first + seconds t.maxExecutionTimeS) r.startedAt + promptly.latency := by
  have hrun : ((exec (fun (d : Deployment) a =>
      if d.onTime .executionTimeExceeded promptly 2 a = false then none
      else @Deployment.step PyText.plain d a) (.initial reaperOnce) claimedAndGone).bind fun d =>
        (d.sys.db.task? 7).map fun t => (t.state, !d.reaper.stopping,
          decide (d.reaper.stage.Timely promptly d.sys.clock))) = some (.running, true, true) := by
    decide +kernel
  obtain ⟨d, hd, hrun⟩ := Option.bind_eq_some_iff.mp hrun
  obtain ⟨t, ht, hseen⟩ := Option.map_eq_some_iff.mp hrun
  obtain ⟨hstate, hseen⟩ := Prod.mk.inj hseen
  obtain ⟨hgoing, hstill⟩ := Prod.mk.inj hseen
  have h := @OnTime.of_exec PyText.plain _ _ _ _ _ _ hd
  obtain ⟨first, r, hfirst, hr, hle⟩ := @hung_task_ended PyText.plain promptly (by decide +kernel)
    (by decide +kernel) 2 (by decide) reaperOnce (by decide) _ d h
    ⟨by simpa using hgoing, of_decide_eq_true hstill⟩ 7 t ht hstate
  exact ⟨d, t, first, h, ht, hfirst, r, hr, hle⟩

end Duty

end ControlPlane
