import ControlPlane.Lib.Grouping
import ControlPlane.Server.History

/-! # The gauges of the API process

A refresher reads the levels of the queue with four statements of one transaction and
only then replaces what the process exposes. Other transactions commit between the
statements, each of which sees its own snapshot; `now()` is the same in all four. A
failure on the way leaves the gauges, and the depth that admission reads, as they were. -/

namespace ControlPlane
open Keyed Fallible Grouping Runs

/-! ## The four statements -/

/-- A row of `_QUEUE_SQL`. -/
structure QueueRow where
  tenant : String
  runnable : Nat
  running : Nat

/-- The tasks joined to the tenants of a name. The row a tenant without tasks is
extended by has no state, and no filter counts it. -/
def joinedTasks (db : Database) (name : String) : List Task :=
  (db.tenants.rows.filter fun te => te.name = name).flatMap fun te =>
    db.tasks.rows.filter fun t => t.tenantId = te.id

/-- `_QUEUE_SQL`: a row for each tenant's name. -/
def queueRows (db : Database) (now : Time) : List QueueRow :=
  (db.tenants.rows.map Tenant.name).dedup.map fun name =>
    ⟨name, (joinedTasks db name).countP fun t => t.state == .queued && decide (t.availableAt ≤ now),
      (joinedTasks db name).countP fun t => t.state == .running⟩

/-- `_BACKLOG_SQL`. -/
def backlogCount (db : Database) (now : Time) : Nat :=
  db.tasks.rows.countP fun t => t.state == .queued && decide (now < t.availableAt)

/-- `_WORKERS_SQL`: a row for each status some worker has. -/
def statusRows (db : Database) : List (WorkerStatus × Nat) :=
  (db.workers.rows.map WorkerRow.status).dedup.map fun status =>
    (status, db.workers.rows.countP fun r => r.status == status)

/-- `_PENDING_SQL`. -/
def pendingCount (db : Database) (now : Time) : Nat :=
  db.tasks.rows.countP fun t => t.state == .running && t.leaseExpired now

/-! ## The refresher -/

/-- What the process exposes, and `_global_queued`. -/
structure Gauges where
  queueDepth : Dict String Nat := ∅
  tasksRunning : Dict String Nat := ∅
  workersByStatus : Dict WorkerStatus Nat := ∅
  tasksBacklogged : Nat := 0
  leasesExpiredPending : Nat := 0
  globalQueued : Nat := 0

/-- What the statements returned. -/
structure Observation where
  rows : List QueueRow
  backlog : Nat
  workerRows : List (WorkerStatus × Nat)
  pending : Nat

/-- The labelled gauges are cleared before they are set. -/
def Gauges.of (o : Observation) : Gauges where
  queueDepth := index QueueRow.tenant QueueRow.runnable o.rows ∅
  tasksRunning := index QueueRow.tenant QueueRow.running o.rows ∅
  workersByStatus := index Prod.fst Prod.snd o.workerRows ∅
  tasksBacklogged := o.backlog
  leasesExpiredPending := o.pending
  globalQueued := (o.rows.map QueueRow.runnable).sum

/-- Where `run_refresher` waits: between two refreshes, after each of the statements, the
last of which leaves the connection to be closed. -/
inductive RefreshStage where
  | resting
  | queueRead (now : Time) (rows : List QueueRow)
  | backlogRead (now : Time) (rows : List QueueRow) (backlog : Nat)
  | workersRead (now : Time) (rows : List QueueRow) (backlog : Nat)
      (workerRows : List (WorkerStatus × Nat))
  | closing (o : Observation)
  | stopped

structure Refresher where
  stage : RefreshStage := .resting
  gauges : Gauges := {}

/-- `run_refresher` goes on to its next wait. -/
def Refresher.resume (r : Refresher) (db : Database) (now : Time) : Refresher :=
  match r.stage with
  | .resting => { r with stage := .queueRead now (queueRows db now) }
  | .queueRead began rows => { r with stage := .backlogRead began rows (backlogCount db began) }
  | .backlogRead began rows backlog =>
    { r with stage := .workersRead began rows backlog (statusRows db) }
  | .workersRead began rows backlog workerRows =>
    { r with stage := .closing ⟨rows, backlog, workerRows, pendingCount db began⟩ }
  | .closing o => { stage := .resting, gauges := .of o }
  | .stopped => r

/-- What it waits for raises: logged, and tried again after the interval. -/
def Refresher.fail (r : Refresher) : Refresher :=
  match r.stage with
  | .stopped => r
  | _ => { r with stage := .resting }

structure Monitored where
  db : Database := .empty
  refresher : Refresher := {}

inductive MonitorAction where
  | commit (c : Call)
  | resume (now : Time)
  | fail
  | stop

variable [PyText]

def Monitored.step (s : Monitored) : MonitorAction → Monitored
  | .commit c => { s with db := ControlPlane.commit s.db c }
  | .resume now => { s with refresher := s.refresher.resume s.db now }
  | .fail => { s with refresher := s.refresher.fail }
  | .stop => { s with refresher := { s.refresher with stage := .stopped } }

/-! ## What a refresh reads -/

section Levels
omit [PyText]

/-- No two tenants have one name: the queue's rows are one for each tenant. -/
def Database.NamesUnique (db : Database) : Prop := db.tenants.UniqueOn Tenant.name

theorem Database.NamesUnique.names_nodup {db : Database} (h : db.NamesUnique) :
    (db.tenants.rows.map Tenant.name).Nodup :=
  List.Nodup.map_on (fun _ hr _ hs he => h.eq hr hs he) db.tenants.rows_nodup

theorem joinedTasks_eq {db : Database} (h : db.NamesUnique) {te : Tenant}
    (hte : te ∈ db.tenants.rows) :
    joinedTasks db te.name = db.tasks.rows.filter fun t => t.tenantId = te.id := by
  have hone : (db.tenants.rows.filter fun n => n.name = te.name) = [te] := by
    refine List.perm_singleton.mp ?_
    refine (List.perm_ext_iff_of_nodup (db.tenants.rows_nodup.filter _)
      (List.nodup_singleton te)).mpr fun n => ?_
    rw [List.mem_filter, List.mem_singleton, decide_eq_true_eq]
    constructor
    · rintro ⟨hn, hname⟩
      exact h.eq hn hte hname
    · rintro rfl
      exact ⟨hte, rfl⟩
  rw [joinedTasks, hone, List.flatMap_singleton]

/-- How many of a tenant's tasks satisfy a condition. -/
def Tenant.count (te : Tenant) (db : Database) (p : Task → Bool) : Nat :=
  db.tasks.rows.countP fun t => t.tenantId == te.id && p t

theorem queueRows_eq {db : Database} (h : db.NamesUnique) (now : Time) :
    queueRows db now = db.tenants.rows.map fun te =>
      ⟨te.name, te.count db fun t => t.state == .queued && decide (t.availableAt ≤ now),
        te.count db fun t => t.state == .running⟩ := by
  unfold queueRows
  rw [h.names_nodup.dedup, List.map_map]
  refine List.map_congr_left fun te hte => ?_
  simp only [Function.comp_apply, joinedTasks_eq h hte, List.countP_filter, Tenant.count,
    Bool.and_comm, beq_eq_decide]

/-- Every task is some tenant's. -/
theorem sum_tenant_count (db : Database) (p : Task → Bool) :
    (db.tenants.rows.map fun te => te.count db p).sum = db.tasks.rows.countP p :=
  db.tenants.sum_countP_ref Task.tenantId p db.tasks_tenant

/-- What the gauges say, of the states the four statements saw. -/
structure Gauges.Tell (g : Gauges) (now : Time) (s₁ s₂ s₃ s₄ : Database) : Prop where
  tenants : ∀ te ∈ s₁.tenants.rows,
    g.queueDepth.lookup te.name =
        some (te.count s₁ fun t => t.state == .queued && decide (t.availableAt ≤ now)) ∧
      g.tasksRunning.lookup te.name = some (te.count s₁ fun t => t.state == .running)
  others : ∀ name, (∀ te ∈ s₁.tenants.rows, te.name ≠ name) →
    g.queueDepth.lookup name = none ∧ g.tasksRunning.lookup name = none
  global : g.globalQueued =
    s₁.tasks.rows.countP fun t => t.state == .queued && decide (t.availableAt ≤ now)
  backlogged : g.tasksBacklogged =
    s₂.tasks.rows.countP fun t => t.state == .queued && decide (now < t.availableAt)
  /-- a status no worker has is not shown at all -/
  workers : ∀ status, g.workersByStatus.lookup status =
    if (s₃.workers.rows.countP fun r => r.status == status) = 0 then none
    else some (s₃.workers.rows.countP fun r => r.status == status)
  pending : g.leasesExpiredPending =
    s₄.tasks.rows.countP fun t => t.state == .running && t.leaseExpired now

theorem workersByStatus_lookup (db : Database) (status : WorkerStatus) :
    (index Prod.fst Prod.snd (statusRows db) ∅).lookup status =
      if (db.workers.rows.countP fun r => r.status == status) = 0 then none
      else some (db.workers.rows.countP fun r => r.status == status) := by
  have hrow : ∀ p ∈ statusRows db, p.2 = db.workers.rows.countP fun r => r.status == p.1 := by
    intro p hp
    obtain ⟨st, -, rfl⟩ := List.mem_map.mp hp
    rfl
  by_cases hnone : (db.workers.rows.countP fun r => r.status == status) = 0
  · rw [if_pos hnone, lookup_index_absent]
    · rfl
    rintro p hp rfl
    obtain ⟨st, hst, rfl⟩ := List.mem_map.mp hp
    obtain ⟨r, hr, rfl⟩ := List.mem_map.mp (List.mem_dedup.mp hst)
    exact List.countP_eq_zero.mp hnone r hr (by simp)
  · obtain ⟨r, hr, hstatus⟩ := List.countP_pos_iff.mp (Nat.pos_of_ne_zero hnone)
    obtain rfl : r.status = status := by simpa using hstatus
    have hmem : (r.status, db.workers.rows.countP fun s => s.status == r.status) ∈ statusRows db :=
      List.mem_map.mpr ⟨r.status, List.mem_dedup.mpr (List.mem_map_of_mem hr), rfl⟩
    rw [if_neg hnone]
    refine @lookup_index _ _ _ _ Prod.fst Prod.snd _ _ ∅ hmem fun p hp he => ?_
    rw [hrow p hp]
    exact congrArg (fun st => db.workers.rows.countP fun s => s.status == st) he

/-- The levels of one refresh. -/
theorem gauges_of {s₁ : Database} (h : s₁.NamesUnique) (now : Time) (s₂ s₃ s₄ : Database) :
    (Gauges.of ⟨queueRows s₁ now, backlogCount s₂ now, statusRows s₃, pendingCount s₄ now⟩).Tell
      now s₁ s₂ s₃ s₄ := by
  have hrows := queueRows_eq h now
  constructor
  · intro te hte
    have hmem : _ ∈ queueRows s₁ now := hrows ▸ List.mem_map_of_mem hte
    have hsame : ∀ r ∈ queueRows s₁ now, r.tenant = te.name →
        r = ⟨te.name, te.count s₁ fun t => t.state == .queued && decide (t.availableAt ≤ now),
          te.count s₁ fun t => t.state == .running⟩ := by
      intro r hr hname
      rw [hrows] at hr
      obtain ⟨n, hn, rfl⟩ := List.mem_map.mp hr
      rw [h.eq hn hte hname]
    exact ⟨lookup_index ∅ hmem fun r hr he => by rw [hsame r hr he],
      lookup_index ∅ hmem fun r hr he => by rw [hsame r hr he]⟩
  · intro name hname
    have habsent : ∀ r ∈ queueRows s₁ now, r.tenant ≠ name := by
      intro r hr
      rw [hrows] at hr
      obtain ⟨n, hn, rfl⟩ := List.mem_map.mp hr
      exact hname n hn
    exact ⟨lookup_index_absent ∅ habsent, lookup_index_absent ∅ habsent⟩
  · show ((queueRows s₁ now).map QueueRow.runnable).sum = _
    rw [hrows, List.map_map, ← sum_tenant_count s₁]
    rfl
  · rfl
  · exact workersByStatus_lookup s₃
  · rfl

end Levels

theorem commit_namesUnique {db : Database} (h : db.NamesUnique) (c : Call) :
    (commit db c).NamesUnique := by
  by_cases hop : ∃ newId name m q, c.op = .createTenant newId name m q
  · obtain ⟨newId, name, m, q, hop⟩ := hop
    rcases commit_eq db c with ⟨r, hr⟩ | hsame
    · generalize commit db c = db' at hr
      rw [hop] at hr
      obtain ⟨te, hte, -⟩ := mapSnd_ok hr
      refine h.insert (createTenant_ok hte).1 fun s hs he => ?_
      simp only [createTenant] at hte
      split at hte
      · cases hte
      · rename_i hfree
        exact hfree (List.any_eq_true.mpr ⟨s, hs, beq_iff_eq.mpr he⟩)
    · rw [hsame]
      exact h
  · have hkept : (commit db c).tenants = db.tenants := commit_tenants fun newId name m q he =>
      hop ⟨newId, name, m, q, he⟩
    unfold Database.NamesUnique
    rw [hkept]
    exact h

/-! ## Runs of the refresher -/

/-- After a run. -/
def Monitored.after (acts : List MonitorAction) : Monitored := acts.foldl Monitored.step {}

omit [PyText] in
/-- The run `r`, a step of the refresher, and then only transactions of the others. -/
def Resumed (now : Time) (r s : List MonitorAction) : Prop :=
  ∃ calls : List Call, s = r ++ .resume now :: calls.map .commit

/-- The run ends with a refresh that has come to its end: it began at rest after `r₁`, its
four statements ran after `r₁`, `r₂`, `r₃` and `r₄`, and then the connection was closed. -/
structure Refreshed (acts : List MonitorAction) (now : Time) (r₁ r₂ r₃ r₄ : List MonitorAction) :
    Prop where
  rested : (Monitored.after r₁).refresher.stage = .resting
  queue : Resumed now r₁ r₂
  backlog : ∃ t, Resumed t r₂ r₃
  workers : ∃ t, Resumed t r₃ r₄
  pending : ∃ t t' r₅, Resumed t r₄ r₅ ∧ acts = r₅ ++ [.resume t']

theorem after_snoc (acts : List MonitorAction) (a : MonitorAction) :
    Monitored.after (acts ++ [a]) = (Monitored.after acts).step a :=
  List.foldl_concat ..

theorem after_namesUnique (acts : List MonitorAction) : (Monitored.after acts).db.NamesUnique := by
  induction acts using List.reverseRecOn with
  | nil => exact fun _ hr => by cases hr
  | append_singleton acts a ih =>
    rw [after_snoc]
    cases a with
    | commit c => exact commit_namesUnique ih c
    | resume now => exact ih
    | fail => exact ih
    | stop => exact ih

/-- The transactions of the others leave the refresher as its step has left it. -/
theorem Resumed.refresher {now : Time} {r s : List MonitorAction} (h : Resumed now r s) :
    (Monitored.after s).refresher =
      (Monitored.after r).refresher.resume (Monitored.after r).db now := by
  obtain ⟨calls, rfl⟩ := h
  induction calls using List.reverseRecOn with
  | nil => rw [List.map_nil, after_snoc]; rfl
  | append_singleton calls c ih =>
    rw [List.map_append, ← List.cons_append, ← List.append_assoc, List.map_singleton, after_snoc]
    exact ih

omit [PyText] in
theorem Resumed.beside {now : Time} {r s : List MonitorAction} (h : Resumed now r s) (c : Call) :
    Resumed now r (s ++ [.commit c]) := by
  obtain ⟨calls, rfl⟩ := h
  exact ⟨calls ++ [c], by simp⟩

omit [PyText] in
theorem Resumed.now (now : Time) (r : List MonitorAction) : Resumed now r (r ++ [.resume now]) :=
  ⟨[], rfl⟩

/-- Where the refresher waits when a refresh has run its statements, with what they returned. -/
theorem Refreshed.closing {acts : List MonitorAction} {now : Time} {r₁ r₂ r₃ r₄ : List MonitorAction}
    (h : Refreshed acts now r₁ r₂ r₃ r₄) : ∃ r₅ t, acts = r₅ ++ [.resume t] ∧
      (Monitored.after r₅).refresher.stage = .closing
        ⟨queueRows (Monitored.after r₁).db now, backlogCount (Monitored.after r₂).db now,
          statusRows (Monitored.after r₃).db, pendingCount (Monitored.after r₄).db now⟩ := by
  obtain ⟨t₂, h₂⟩ := h.backlog
  obtain ⟨t₃, h₃⟩ := h.workers
  obtain ⟨t₄, t₅, r₅, h₄, rfl⟩ := h.pending
  refine ⟨r₅, t₅, rfl, ?_⟩
  rw [h₄.refresher, h₃.refresher, h₂.refresher, h.queue.refresher]
  simp only [Refresher.resume, h.rested]

/-- How far a refresh has come. -/
def RefreshStage.Underway (acts : List MonitorAction) : RefreshStage → Prop
  | .resting => True
  | .queueRead now _ => ∃ r₁, (Monitored.after r₁).refresher.stage = .resting ∧ Resumed now r₁ acts
  | .backlogRead now _ _ => ∃ r₁ r₂, (Monitored.after r₁).refresher.stage = .resting ∧
      Resumed now r₁ r₂ ∧ ∃ t, Resumed t r₂ acts
  | .workersRead now _ _ _ => ∃ r₁ r₂ r₃, (Monitored.after r₁).refresher.stage = .resting ∧
      Resumed now r₁ r₂ ∧ (∃ t, Resumed t r₂ r₃) ∧ ∃ t, Resumed t r₃ acts
  | .closing _ => ∀ t, ∃ now r₁ r₂ r₃ r₄, Refreshed (acts ++ [.resume t]) now r₁ r₂ r₃ r₄
  | .stopped => True

theorem Underway.resume {acts : List MonitorAction}
    (h : (Monitored.after acts).refresher.stage.Underway acts) (now : Time) :
    (Monitored.after (acts ++ [.resume now])).refresher.stage.Underway (acts ++ [.resume now]) := by
  have hnow := Resumed.now now acts
  rw [hnow.refresher]
  unfold Refresher.resume
  split
  · rename_i hstage
    exact ⟨acts, hstage, hnow⟩
  · rename_i hstage
    rw [hstage] at h
    obtain ⟨r₁, hrest, h₁⟩ := h
    exact ⟨r₁, acts, hrest, h₁, now, hnow⟩
  · rename_i hstage
    rw [hstage] at h
    obtain ⟨r₁, r₂, hrest, h₁, h₂⟩ := h
    exact ⟨r₁, r₂, acts, hrest, h₁, h₂, now, hnow⟩
  · rename_i hstage
    rw [hstage] at h
    obtain ⟨r₁, r₂, r₃, hrest, h₁, h₂, h₃⟩ := h
    exact fun t => ⟨_, r₁, r₂, r₃, acts, hrest, h₁, h₂, h₃, now, t, _, hnow, rfl⟩
  · trivial
  · rename_i hstage
    rw [hstage]
    trivial

theorem Underway.beside {st : RefreshStage} {acts : List MonitorAction} (h : st.Underway acts)
    (c : Call) : st.Underway (acts ++ [.commit c]) := by
  cases st with
  | resting => trivial
  | queueRead now rows =>
    obtain ⟨r₁, hrest, h₁⟩ := h
    exact ⟨r₁, hrest, h₁.beside c⟩
  | backlogRead now rows backlog =>
    obtain ⟨r₁, r₂, hrest, h₁, t, h₂⟩ := h
    exact ⟨r₁, r₂, hrest, h₁, t, h₂.beside c⟩
  | workersRead now rows backlog statuses =>
    obtain ⟨r₁, r₂, r₃, hrest, h₁, h₂, t, h₃⟩ := h
    exact ⟨r₁, r₂, r₃, hrest, h₁, h₂, t, h₃.beside c⟩
  | closing o =>
    intro t
    obtain ⟨now, r₁, r₂, r₃, r₄, hrest, h₁, h₂, h₃, t₄, t₅, r₅, h₄, he⟩ := h t
    obtain ⟨rfl, -⟩ := List.append_inj' he rfl
    exact ⟨now, r₁, r₂, r₃, r₄, hrest, h₁, h₂, h₃, t₄, t, _, h₄.beside c, rfl⟩
  | stopped => trivial

theorem after_underway (acts : List MonitorAction) :
    (Monitored.after acts).refresher.stage.Underway acts := by
  induction acts using List.reverseRecOn with
  | nil => trivial
  | append_singleton acts a ih =>
    cases a with
    | commit c =>
      rw [after_snoc]
      exact Underway.beside ih c
    | resume now => exact Underway.resume ih now
    | fail =>
      rw [after_snoc]
      show (Refresher.fail _).stage.Underway _
      unfold Refresher.fail
      split
      · rename_i hstage
        rw [hstage]
        trivial
      · trivial
    | stop =>
      rw [after_snoc]
      trivial

/-- The gauges change when a refresh comes to its end, and only then. -/
theorem gauges_change (acts : List MonitorAction) (a : MonitorAction) :
    (∃ now r₁ r₂ r₃ r₄, Refreshed (acts ++ [a]) now r₁ r₂ r₃ r₄) ∨
      (Monitored.after (acts ++ [a])).refresher.gauges = (Monitored.after acts).refresher.gauges ∧
      ∀ now r₁ r₂ r₃ r₄, ¬ Refreshed (acts ++ [a]) now r₁ r₂ r₃ r₄ := by
  by_cases hends : ∃ now r₁ r₂ r₃ r₄, Refreshed (acts ++ [a]) now r₁ r₂ r₃ r₄
  · exact .inl hends
  refine .inr ⟨?_, fun now r₁ r₂ r₃ r₄ h => hends ⟨now, r₁, r₂, r₃, r₄, h⟩⟩
  rw [after_snoc]
  cases a with
  | commit c => rfl
  | stop => rfl
  | fail =>
    show (Refresher.fail _).gauges = _
    unfold Refresher.fail
    split <;> rfl
  | resume now =>
    have hway := after_underway acts
    show (Refresher.resume _ _ now).gauges = _
    unfold Refresher.resume
    split
    case h_5 o hstage =>
      rw [hstage] at hway
      exact absurd (hway now) hends
    all_goals rfl

/-- What the gauges say when a refresh has just come to its end. -/
theorem Refreshed.tell {acts : List MonitorAction} {now : Time} {r₁ r₂ r₃ r₄ : List MonitorAction}
    (h : Refreshed acts now r₁ r₂ r₃ r₄) :
    (Monitored.after acts).refresher.gauges.Tell now (Monitored.after r₁).db (Monitored.after r₂).db
      (Monitored.after r₃).db (Monitored.after r₄).db := by
  obtain ⟨r₅, t, rfl, hstage⟩ := h.closing
  rw [after_snoc]
  show (Refresher.resume _ _ t).gauges.Tell _ _ _ _ _
  simp only [Refresher.resume, hstage]
  exact gauges_of (after_namesUnique r₁) now _ _ _

/-- **The gauges tell the levels of the last refresh that came to its end.** In every run of
the refresher beside the transactions of the others they are the initial ones as long as
no refresh has; afterwards each level is exact in the state its own statement saw in the
last of them, with one `now()`; no label of a tenant or a status that was gone by then is
left; and the depth admission reads is the number of runnable tasks of all tenants. -/
theorem gauges_tell (acts : List MonitorAction) :
    (Monitored.after acts).refresher.gauges = {} ∧
        (∀ done, done <+: acts → ∀ now r₁ r₂ r₃ r₄, ¬ Refreshed done now r₁ r₂ r₃ r₄) ∨
      ∃ done now r₁ r₂ r₃ r₄, done <+: acts ∧ Refreshed done now r₁ r₂ r₃ r₄ ∧
        (∀ other, other <+: acts → ∀ t q₁ q₂ q₃ q₄, Refreshed other t q₁ q₂ q₃ q₄ →
          other <+: done) ∧
        (Monitored.after acts).refresher.gauges.Tell now (Monitored.after r₁).db
          (Monitored.after r₂).db (Monitored.after r₃).db (Monitored.after r₄).db := by
  induction acts using List.reverseRecOn with
  | nil =>
    refine .inl ⟨rfl, fun done hdone now r₁ r₂ r₃ r₄ h => ?_⟩
    obtain ⟨r₅, t, he, -⟩ := h.closing
    rw [List.prefix_nil.mp hdone] at he
    simp at he
  | append_singleton acts a ih =>
    rcases gauges_change acts a with ⟨now, r₁, r₂, r₃, r₄, h⟩ | ⟨hsame, hnone⟩
    · exact .inr ⟨_, now, r₁, r₂, r₃, r₄, List.prefix_rfl, h, fun other hother _ _ _ _ _ _ => hother,
        h.tell⟩
    rw [hsame]
    rcases ih with ⟨hinitial, hbefore⟩ | ⟨done, now, r₁, r₂, r₃, r₄, hdone, h, hlast, htell⟩
    · refine .inl ⟨hinitial, fun done hdone => ?_⟩
      rcases List.prefix_concat_iff.mp hdone with rfl | hdone
      · exact hnone
      · exact hbefore done hdone
    · refine .inr ⟨done, now, r₁, r₂, r₃, r₄, hdone.trans (List.prefix_append ..), h,
        fun other hother t q₁ q₂ q₃ q₄ hends => ?_, htell⟩
      rcases List.prefix_concat_iff.mp hother with rfl | hother
      · exact absurd hends (hnone t q₁ q₂ q₃ q₄)
      · exact hlast other hother t q₁ q₂ q₃ q₄ hends

/-- A refresh in whose midst a task begins to wait; the next one fails after two statements. -/
def submittedMeanwhile : List MonitorAction :=
  [.commit ⟨0, .createTenant 1 "acme" 10 1000⟩,
    .commit ⟨0, .submitTask 1 { tenantId := 1, taskType := "demo", payload := [] }⟩, .resume 1,
    .commit ⟨2, .submitTask 2 { tenantId := 1, taskType := "demo", payload := [] }⟩, .resume 3,
    .resume 4, .resume 5, .resume 6, .resume 7, .resume 8, .fail]

omit [PyText] in
/-- The depth is that of the refresh, without the second task; that task's `available_at` is
after the `now()` of the refresh, and the later statement shows it. -/
theorem gauges_tell_submittedMeanwhile : ∃ done now r₁ r₂ r₃ r₄,
    done <+: submittedMeanwhile ∧ @Refreshed PyText.plain done now r₁ r₂ r₃ r₄ ∧
    (@Monitored.after PyText.plain submittedMeanwhile).refresher.gauges.globalQueued = 1 ∧
    (@Monitored.after PyText.plain submittedMeanwhile).refresher.gauges.tasksBacklogged = 1 ∧
    (@Monitored.after PyText.plain submittedMeanwhile).refresher.gauges.Tell now
      (@Monitored.after PyText.plain r₁).db (@Monitored.after PyText.plain r₂).db
      (@Monitored.after PyText.plain r₃).db (@Monitored.after PyText.plain r₄).db := by
  have hshown : (@Monitored.after PyText.plain submittedMeanwhile).refresher.gauges.globalQueued = 1 ∧
      (@Monitored.after PyText.plain submittedMeanwhile).refresher.gauges.tasksBacklogged = 1 := by
    decide +kernel
  rcases @gauges_tell PyText.plain submittedMeanwhile with
    ⟨hinitial, -⟩ | ⟨done, now, r₁, r₂, r₃, r₄, hdone, h, -, htell⟩
  · rw [hinitial] at hshown
    cases hshown.1
  · exact ⟨done, now, r₁, r₂, r₃, r₄, hdone, h, hshown.1, hshown.2, htell⟩

end ControlPlane
