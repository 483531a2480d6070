import ControlPlane.Reaper.Loop
import ControlPlane.Worker.Fleet

/-! # The reaper beside the system

`run_forever` as a process of its own: a step takes one batch, marks the silent
workers, or goes to sleep and wakes. It runs beside the API, the workers and other
reapers, whose steps come in any order between its own. Undisturbed, it does what
`Reaper.sweep` does (`sweep_run`). -/

namespace ControlPlane
open Keyed Fallible Runs

/-- Where the reaper waits. -/
inductive ReaperStage where
  /-- past the check of `_stopping`, before the commit of a batch; so many may follow it -/
  | sweeping (o : Overdue) (batches : Nat) (started : Time)
  | marking (started : Time)
  /-- in `wait_for(self._stopping.wait(), reaper_period_s)` -/
  | sleeping (since : Time)
  | exited

structure ReaperProcess where
  reaper : Reaper := {}
  /-- `settings.reaper_period_s` -/
  periodS : Int := 1
  stopping : Bool := false
  stage : ReaperStage

namespace ReaperProcess

/-- `for _ in range(max_batches_per_sweep)`, the second, with so many rounds left. -/
def hungFrom (p : ReaperProcess) (started : Time) : Nat → ReaperStage
  | 0 => .marking started
  | batches + 1 =>
    if p.stopping then .marking started else .sweeping .executionTimeExceeded batches started

def afterLeases (p : ReaperProcess) (started : Time) : ReaperStage :=
  p.hungFrom started p.reaper.maxBatchesPerSweep.toNat

/-- The first of the two loops. -/
def leasesFrom (p : ReaperProcess) (started : Time) : Nat → ReaperStage
  | 0 => p.afterLeases started
  | batches + 1 =>
    if p.stopping then p.afterLeases started else .sweeping .leaseExpired batches started

/-- The next round of the loop it is in. -/
def resume (p : ReaperProcess) : Overdue → Time → Nat → ReaperStage
  | .leaseExpired => p.leasesFrom
  | .executionTimeExceeded => p.hungFrom

/-- What follows the loop. -/
def after (p : ReaperProcess) : Overdue → Time → ReaperStage
  | .leaseExpired => p.afterLeases
  | .executionTimeExceeded => .marking

def sweepFrom (p : ReaperProcess) (started : Time) : ReaperStage :=
  p.leasesFrom started p.reaper.maxBatchesPerSweep.toNat

end ReaperProcess

inductive ReaperAction where
  | batch (scan : Scan)
  | markDead
  | wake
  | stop
  /-- a transaction fails before it reaches the database -/
  | connectionFails

/-- `Reaper.run_forever` and `_sweep`. -/
def runReaper (p : ReaperProcess) (now : Time) (a : ReaperAction) : Option (Move ReaperProcess) :=
  match p.stage, a with
  | _, .stop => some (.silent { p with stopping := true })
  | .sweeping o batches started, .batch scan =>
    some (.transact (.reap o p.reaper.batchSize scan) fun
      | .ok (.reaped result) =>
        { p with stage := if (result.reaped : Int) < p.reaper.batchSize then p.after o started
                          else p.resume o started batches }
      | _ => { p with stage := .exited })
  | .marking _, .markDead =>
    some (.transact (.markDeadWorkers p.reaper.workerDeadAfterS) fun
      | .ok _ => { p with stage := .sleeping now }
      | .error _ => { p with stage := .exited })
  | .sleeping since, .wake =>
    if p.stopping then some (.silent { p with stage := .exited })
    else if since + seconds p.periodS ≤ now then some (.silent { p with stage := p.sweepFrom now })
    else none
  -- nothing catches what a transaction raises
  | .sweeping .., .connectionFails => some (.silent { p with stage := .exited })
  | .marking _, .connectionFails => some (.silent { p with stage := .exited })
  | _, _ => none

structure Deployment where
  sys : System
  reaper : ReaperProcess

inductive DeploymentAction where
  | system (a : Action)
  | reaper (a : ReaperAction)

variable [PyText]

def Deployment.step (d : Deployment) : DeploymentAction → Option Deployment
  | .system a => (ControlPlane.step d.sys a).map fun sys => { d with sys }
  | .reaper a => (runReaper d.reaper d.sys.clock a).map fun m =>
      ⟨{ d.sys with db := (m.run d.sys.db d.sys.clock).1 }, (m.run d.sys.db d.sys.clock).2⟩

def DeploymentStep (d : Deployment) (a : DeploymentAction) (d' : Deployment) : Prop :=
  d.step a = some d'

omit [PyText] in
/-- The reaper starts beside an empty system. -/
def Deployment.initial (p : ReaperProcess) : Deployment :=
  ⟨.initial, { p with stopping := false, stage := { p with stopping := false }.sweepFrom 0 }⟩

/-! ## One step -/

/-- The steps of the reaper. -/
inductive ReaperMove (db : Database) (now : Time) (p : ReaperProcess) :
    ReaperAction → Database → ReaperProcess → Prop
  | stopped : ReaperMove db now p .stop db { p with stopping := true }
  | batch {o : Overdue} {batches : Nat} {started : Time} {scan : Scan} {db' : Database}
      {result : ReapResult} (hstage : p.stage = .sweeping o batches started)
      (hreap : reapBatch db now o p.reaper.batchSize scan = .ok (db', result)) :
      ReaperMove db now p (.batch scan) db'
        { p with stage := if (result.reaped : Int) < p.reaper.batchSize then p.after o started
                          else p.resume o started batches }
  | marked {started : Time} (hstage : p.stage = .marking started) :
      ReaperMove db now p .markDead (markDeadWorkers db now p.reaper.workerDeadAfterS).1
        { p with stage := .sleeping now }
  | woke {since : Time} (hstage : p.stage = .sleeping since) (hgoing : p.stopping = false)
      (hlate : since + seconds p.periodS ≤ now) :
      ReaperMove db now p .wake db { p with stage := p.sweepFrom now }
  | ended {a : ReaperAction} : ReaperMove db now p a db { p with stage := .exited }

theorem runReaper_move {p : ReaperProcess} {now : Time} {a : ReaperAction} {m : Move ReaperProcess}
    (h : runReaper p now a = some m) (db : Database) :
    ReaperMove db now p a (m.run db now).1 (m.run db now).2 := by
  unfold runReaper at h
  split at h
  · cases h
    exact .stopped
  · rename_i o batches started scan hstage
    cases h
    dsimp only [Move.run]
    cases hreap : reapBatch db now o p.reaper.batchSize scan with
    | ok x =>
      obtain ⟨db', result⟩ := x
      have hperf : perform db now (.reap o p.reaper.batchSize scan) = .ok (db', .reaped result) := by
        show (reapBatch db now o p.reaper.batchSize scan).map _ = _
        rw [hreap]
        rfl
      rw [hperf, commit_of_ok (c := ⟨now, .reap o p.reaper.batchSize scan⟩) hperf]
      exact .batch hstage hreap
    | error e =>
      have hperf : perform db now (.reap o p.reaper.batchSize scan) = .error e := by
        show (reapBatch db now o p.reaper.batchSize scan).map _ = _
        rw [hreap]
        rfl
      rw [hperf, commit_of_error (c := ⟨now, .reap o p.reaper.batchSize scan⟩) hperf]
      exact .ended
  · rename_i started hstage
    cases h
    exact .marked hstage
  · rename_i since hstage
    split at h
    · cases h
      exact .ended
    · rename_i hgoing
      split at h <;> cases h
      rename_i hlate
      exact .woke hstage (Bool.eq_false_iff.mpr hgoing) hlate
  · cases h
    exact .ended
  · cases h
    exact .ended
  · cases h

theorem deployment_step {d d' : Deployment} {a : DeploymentAction} (h : DeploymentStep d a d') :
    (∃ b, a = .system b ∧ SystemStep d.sys b d'.sys ∧ d'.reaper = d.reaper) ∨
      ∃ b, a = .reaper b ∧ ReaperMove d.sys.db d.sys.clock d.reaper b d'.sys.db d'.reaper ∧
        d'.sys.clock = d.sys.clock ∧ d'.sys.workers = d.sys.workers := by
  unfold DeploymentStep Deployment.step at h
  cases a with
  | system b =>
    obtain ⟨sys, hsys, rfl⟩ := Option.map_eq_some_iff.mp h
    exact .inl ⟨b, rfl, hsys, rfl⟩
  | reaper b =>
    obtain ⟨m, hm, rfl⟩ := Option.map_eq_some_iff.mp h
    exact .inr ⟨b, rfl, runReaper_move hm d.sys.db, rfl, rfl⟩

omit [PyText] in
/-- What the reaper commits the system allows anybody. -/
theorem runReaper_external {p : ReaperProcess} {now : Time} {a : ReaperAction}
    {m : Move ReaperProcess} {op : Op} (h : runReaper p now a = some m) (hop : m.op? = some op) :
    op.external = true := by
  unfold runReaper at h
  split at h
  · cases h; cases hop
  · cases h; cases hop; rfl
  · cases h; cases hop; rfl
  · split at h
    · cases h; cases hop
    · split at h <;> cases h
      cases hop
  · cases h; cases hop
  · cases h; cases hop
  · cases h

/-- For the system, a step of the reaper is nothing or a transaction from outside. -/
theorem deployment_sys {d d' : Deployment} {a : DeploymentAction} (h : DeploymentStep d a d') :
    (∃ b, a = .system b ∧ SystemStep d.sys b d'.sys) ∨ d'.sys = d.sys ∨
      ∃ op, SystemStep d.sys (.external op) d'.sys := by
  unfold DeploymentStep Deployment.step at h
  cases a with
  | system b =>
    obtain ⟨sys, hsys, rfl⟩ := Option.map_eq_some_iff.mp h
    exact .inl ⟨b, rfl, hsys⟩
  | reaper b =>
    obtain ⟨m, hm, rfl⟩ := Option.map_eq_some_iff.mp h
    refine .inr ?_
    cases m with
    | silent next => exact .inl rfl
    | transact op next =>
      refine .inr ⟨op, ?_⟩
      unfold SystemStep ControlPlane.step
      dsimp only
      rw [if_pos (runReaper_external hm rfl)]
      rfl

/-- **The reaper is one of the system's parties**, so what holds of every run of the
system holds beside it. -/
theorem deployment_run {p : ReaperProcess} {acts : List DeploymentAction} {d : Deployment}
    (h : Run DeploymentStep (.initial p) acts d) : ∃ acts', Run SystemStep .initial acts' d.sys := by
  refine Run.simulate (f := Deployment.sys) (fun {d a d'} hst => ?_) h
  rcases deployment_sys hst with ⟨b, -, hsys⟩ | hsame | ⟨op, hsys⟩
  · exact ⟨[b], .single hsys⟩
  · exact ⟨[], hsame ▸ .nil _⟩
  · exact ⟨[.external op], .single hsys⟩

/-! ## Undisturbed -/

/-- A step of the reaper with nobody beside it. -/
def AloneStep (s : Database × ReaperProcess) (e : Time × ReaperAction)
    (s' : Database × ReaperProcess) : Prop :=
  ∃ m, runReaper s.2 e.1 e.2 = some m ∧ s' = m.run s.1 e.1

omit [PyText] in
theorem ReaperProcess.resume_stopping {p : ReaperProcess} (hstop : p.stopping = true) (o : Overdue)
    (started : Time) (batches : Nat) : p.resume o started batches = p.after o started := by
  cases o <;> cases batches <;>
    simp [resume, after, leasesFrom, hungFrom, afterLeases, hstop]

omit [PyText] in
theorem ReaperProcess.resume_going {p : ReaperProcess} (hgoing : p.stopping = false) (o : Overdue)
    (started : Time) (batches : Nat) :
    p.resume o started (batches + 1) = .sweeping o batches started := by
  cases o <;> simp [resume, leasesFrom, hungFrom, hgoing]

omit [PyText] in
theorem ReaperProcess.resume_done (p : ReaperProcess) (o : Overdue) (started : Time) :
    p.resume o started 0 = p.after o started := by
  cases o <;> rfl

/-- A loop of the sweep, batch by batch. -/
theorem drain_run {p : ReaperProcess} {o : Overdue} {rounds : Nat → Round}
    (hstop : ∀ k, (rounds k).stopping = p.stopping) (started : Time) (batches : Nat) :
    ∀ {k : Nat} {db : Database} {n : Tally} {k' : Nat} {db' : Database} {n' : Tally},
      drain o p.reaper.batchSize rounds batches k db n = .ok (k', db', n') →
      ∃ events, Run AloneStep (db, { p with stage := p.resume o started batches }) events
        (db', { p with stage := p.after o started }) := by
  induction batches with
  | zero =>
    intro k db n k' db' n' h
    cases h
    rw [p.resume_done]
    exact ⟨[], .nil _⟩
  | succ batches ih =>
    intro k db n k' db' n' h
    rw [drain, hstop k] at h
    split at h
    · rename_i hstopped
      cases h
      rw [p.resume_stopping hstopped]
      exact ⟨[], .nil _⟩
    rename_i hgoing
    rw [p.resume_going (Bool.eq_false_iff.mpr hgoing)]
    obtain ⟨⟨db₁, r⟩, hreap, h⟩ := bind_ok.mp h
    have hstep : AloneStep (db, { p with stage := .sweeping o batches started })
        ((rounds k).now, .batch (rounds k).scan)
        (db₁, { p with stage := if (r.reaped : Int) < p.reaper.batchSize then p.after o started
                                else p.resume o started batches }) := by
      have hperf : perform db (rounds k).now (.reap o p.reaper.batchSize (rounds k).scan) =
          .ok (db₁, .reaped r) := by
        show (reapBatch db (rounds k).now o p.reaper.batchSize (rounds k).scan).map _ = _
        rw [hreap]
        rfl
      refine ⟨_, rfl, ?_⟩
      dsimp only [Move.run]
      rw [hperf, commit_of_ok (c := ⟨_, .reap o p.reaper.batchSize (rounds k).scan⟩) hperf]
      rfl
    dsimp only at h
    split at h
    · rename_i hshort
      cases h
      rw [if_pos hshort] at hstep
      exact ⟨_, .single hstep⟩
    · rename_i hfull
      rw [if_neg hfull] at hstep
      obtain ⟨events, hrest⟩ := ih h
      exact ⟨_, .cons hstep hrest⟩

/-- **Undisturbed, the process does one sweep after another**: from the start of a sweep
it goes to sleep with what `Reaper.sweep` leaves. -/
theorem sweep_run {p : ReaperProcess} {rounds : Nat → Round} {db db' : Database}
    {report : SweepReport} (hstop : ∀ k, (rounds k).stopping = p.stopping) (started : Time)
    (h : p.reaper.sweep rounds db = .ok (db', report)) :
    ∃ now events, Run AloneStep (db, { p with stage := p.sweepFrom started }) events
      (db', { p with stage := .sleeping now }) := by
  unfold Reaper.sweep at h
  obtain ⟨⟨k₁, db₁, n₁⟩, hleases, h⟩ := bind_ok.mp h
  obtain ⟨⟨k₂, db₂, n₂⟩, hhung, h⟩ := bind_ok.mp h
  obtain ⟨rfl, -⟩ := Prod.mk.inj (pure_ok.mp h)
  obtain ⟨first, hfirst⟩ := drain_run hstop started _ hleases
  obtain ⟨second, hsecond⟩ := drain_run hstop started _ hhung
  have hmark : AloneStep (db₂, { p with stage := .marking started }) ((rounds k₂).now, .markDead)
      ((markDeadWorkers db₂ (rounds k₂).now p.reaper.workerDeadAfterS).1,
        { p with stage := .sleeping (rounds k₂).now }) := ⟨_, rfl, rfl⟩
  exact ⟨(rounds k₂).now, _, (hfirst.append hsecond).snoc hmark⟩

end ControlPlane
