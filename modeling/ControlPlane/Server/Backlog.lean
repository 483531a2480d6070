import ControlPlane.Server.Serving
import ControlPlane.Server.Slack

/-! # The bound on a tenant's backlog

Admission looks at the QUEUED tasks alone, and retries, hand-backs and recoveries
put tasks back into QUEUED without it. What is bounded is QUEUED and RUNNING
together: a requeue moves a task from the one to the other, a claim moves it back
and stays below the tenant's concurrency limit, and a submission adds one task
only while QUEUED is below its own limit. -/

namespace ControlPlane
open Keyed Fallible Transactions

/-! ## Tasks that have not ended -/

/-- How many tasks of a tenant are QUEUED or RUNNING. -/
def liveCount (db : Database) (o : TenantId) : Nat :=
  db.tasks.rows.countP fun t => t.tenantId == o && !t.state.isTerminal

theorem queued_add_running (db : Database) (o : TenantId) :
    queuedCountForTenant db o + runningCount db o = liveCount db o := by
  unfold queuedCountForTenant runningCount liveCount
  induction db.tasks.rows with
  | nil => rfl
  | cons t rows ih =>
    have hhead : (if (t.tenantId == o && t.state == .queued) = true then 1 else 0) +
        (if (t.tenantId == o && t.state == .running) = true then 1 else 0) =
        if (t.tenantId == o && !t.state.isTerminal) = true then 1 else 0 := by
      cases t.tenantId == o <;> cases t.state <;> rfl
    simp only [List.countP_cons]
    omega

theorem liveCount_absent {db : Database} {o : TenantId} (h : db.tenants.find? o = none) :
    liveCount db o = 0 := by
  refine List.countP_eq_zero.mpr fun t ht hsel => ?_
  simp only [Bool.and_eq_true, beq_iff_eq] at hsel
  have hknown := db.tasks_tenant t ht
  rw [hsel.1, h] at hknown
  cases hknown

theorem runningCount_le_liveCount (db : Database) (o : TenantId) :
    runningCount db o ≤ liveCount db o := by
  rw [← queued_add_running]
  exact Nat.le_add_left ..

/-- No tenant has more tasks QUEUED and RUNNING than both its limits together. -/
def BacklogBounded (db : Database) : Prop :=
  ∀ o n, db.tenants.find? o = some n →
    (liveCount db o : Int) ≤ n.maxQueuedTasks + n.maxConcurrentTasks

/-! ## A submission adds one task -/

variable [PyText]

theorem submitTask_rows {db db' : Database} {now : Time} {newId : TaskId} {args : SubmitArgs}
    {res : SubmitResult} (h : submitTask db now newId args = .ok (db', res)) :
    db'.tasks.rows = db.tasks.rows ∨
      db'.tasks.rows = db.tasks.rows ++ [submittedTask now newId args] := by
  unfold submitTask at h
  obtain ⟨inserted, hins, h⟩ := bind_ok.mp h
  cases inserted with
  | some db₁ =>
    obtain ⟨db₂, hev, h⟩ := bind_ok.mp h
    obtain ⟨rfl, -⟩ := Prod.mk.inj (pure_ok.mp h)
    refine Or.inr ?_
    rw [(insertEvent_ok hev).2.1, Table.insert?_rows (insertTask_some hins).1]
  | none =>
    dsimp only at h
    split at h
    · cases h
    · obtain ⟨_, -, h⟩ := bind_ok.mp h
      obtain ⟨rfl, -⟩ := Prod.mk.inj (pure_ok.mp h)
      exact Or.inl rfl

theorem commit_submitted (db : Database) (now : Time) (newId : TaskId) (args : SubmitArgs)
    (o : TenantId) : liveCount (commit db ⟨now, .submitTask newId args⟩) o ≤
      liveCount db o + if o = args.tenantId then 1 else 0 := by
  rcases commit_eq db ⟨now, .submitTask newId args⟩ with ⟨r, h⟩ | h
  · obtain ⟨res, hsub, -⟩ := mapSnd_ok h
    unfold liveCount
    rcases submitTask_rows hsub with hrows | hrows
    · rw [hrows]
      exact Nat.le_add_right ..
    · rw [hrows, List.countP_append]
      refine Nat.add_le_add_left ?_ _
      rw [List.countP_singleton]
      split
      · rename_i hsel
        simp only [Bool.and_eq_true, beq_iff_eq] at hsel
        rw [if_pos (show o = args.tenantId from hsel.1.symm)]
      · exact Nat.zero_le _
  · rw [h]
    exact Nat.le_add_right ..

/-! ## Nothing else does -/

/-- The transaction submits nothing. -/
def Op.submitsNothing (op : Op) : Prop := ∀ newId args, op ≠ .submitTask newId args

/-- A task that has not ended after a transaction had not ended before it. -/
theorem commit_liveCount {db : Database} {c : Call} (hop : c.op.submitsNothing) (o : TenantId) :
    liveCount (commit db c) o ≤ liveCount db o := by
  refine Table.countP_le fun t' ht' hsel => ?_
  simp only [Bool.and_eq_true, beq_iff_eq, Bool.not_eq_true'] at hsel
  have hrow : ((commit db c).view t'.id).row = some t' := Table.find?_key ht'
  have hstep := commit_step db c t'.id
  cases hold : (db.view t'.id).row with
  | none =>
    obtain ⟨args, hsub, -⟩ := hstep.row_new hold hrow
    exact absurd hsub (hop _ _)
  | some t =>
    obtain ⟨u, hu, -, hended⟩ := hstep.legal hold
    obtain rfl := Option.eq_some_unique hu hrow
    obtain ⟨w, hw, hpinned⟩ := hstep.row_pinned hold
    obtain rfl := Option.eq_some_unique hw hrow
    have hlive : t.state.isTerminal = false := by
      by_contra hterm
      rw [Bool.not_eq_false] at hterm
      rw [← hended hterm, hsel.2] at hterm
      cases hterm
    have ho : w.tenantId = t.tenantId := congrArg Task.Pinned.tenantId hpinned
    have hid : w.id = t.id := congrArg Task.Pinned.id hpinned
    exact ⟨t, Table.mem_of_find? hold, hid.symm, by simp [← ho, hsel.1, hlive]⟩

/-! ## A claim that nobody interrupts -/

/-- Nobody else takes a lock. -/
def lockedByClaim : TenantId → Option Nat := fun _ => some 0

theorem LoopSafe.round {db : Database} (hcaps : CapsRespected db) {now : Time} {args : ClaimArgs}
    {scan : Scan} {s s' : LoopState} (h : LoopSafe db lockedByClaim 0 s)
    (hround : claimRound db now args scan s = some s') : LoopSafe db lockedByClaim 0 s' := by
  unfold claimRound at hround
  dsimp only at hround
  split at hround
  · cases hround
  split at hround
  · cases hround
  rw [learnSlack_eq] at hround
  obtain rfl := Option.some.inj hround
  refine ((h.seen _ _).recordSlack fun o r ho => ?_).spendBatch _
    (fetchCandidates_known db now args.workerCapabilities args.policy _ s.seenIds scan)
  have hout := slackRows_output hcaps (h.seen _ _) _ ho
  exact ⟨hout.new, hout.fresh, hout.nonneg, hout.room, Or.inr rfl⟩

theorem LoopSafe.rounds {db : Database} (hcaps : CapsRespected db) {now : Time} {args : ClaimArgs}
    {scans : Nat → Scan} (n : Nat) : ∀ {s : LoopState}, LoopSafe db lockedByClaim 0 s →
    LoopSafe db lockedByClaim 0 (claimRounds db now args scans n s) := by
  induction n with
  | zero => exact fun h => h
  | succ n ih =>
    intro s h
    unfold claimRounds
    cases hround : claimRound db now args (scans s.rounds) s with
    | none => exact h
    | some s' => exact ih (h.round hcaps hround)

/-- **A claim on its own keeps the concurrency limits.** -/
theorem commit_claim_caps {db : Database} (hcaps : CapsRespected db) (now : Time) (args : ClaimArgs)
    (scans : Nat → Scan) : CapsRespected (commit db ⟨now, .claimTasks args scans⟩) := by
  intro o n hn
  rw [commit_tenants (by simp)] at hn
  rw [commit_claimTasks]
  have hloop : LoopSafe db lockedByClaim 0 (claimLoop db now args scans) :=
    (LoopSafe.start db lockedByClaim 0).rounds hcaps maxRounds
  have hgrant : runningCount (grantChosen db
      { now, args, loop := claimLoop db now args scans, stmt := .granting }) o ≤
      runningCount db o + chosenCount db (claimLoop db now args scans).claimedIds o :=
    grantChosen_runningCount ..
  have hcap := hcaps o n hn
  cases hslack : (claimLoop db now args scans).slack o with
  | none =>
    have hnone : chosenCount db (claimLoop db now args scans).claimedIds o = 0 :=
      hloop.unread o hslack
    omega
  | some r =>
    obtain ⟨-, hr, hroom⟩ := hloop.room o r hslack
    have hfits := hroom n hn
    omega

/-! ## Requests one after another -/

/-- The bounds of the limits in the schema of a tenant. -/
def Request.limitsValid (r : Request) : Bool :=
  match r.op with
  | .call (.createTenant _ _ maxConcurrentTasks maxQueuedTasks) =>
    decide (1 ≤ maxConcurrentTasks ∧ maxConcurrentTasks ≤ 10000 ∧ 1 ≤ maxQueuedTasks ∧
      maxQueuedTasks ≤ 1000000)
  | _ => true

/-- What the API lets through: submissions come from its endpoint, and the limits
of a tenant are as the schema says. -/
abbrev Request.Validated (r : Request) : Prop := r.Governed ∧ r.limitsValid = true

/-- **The invariant**: neither bound is kept without the other. -/
structure Bounded (db : Database) : Prop where
  running : CapsRespected db
  backlog : BacklogBounded db

omit [PyText] in
theorem Bounded.empty : Bounded .empty where
  running _ _ h := by cases h
  backlog _ _ h := by cases h

/-- A transaction that starts no task, adds none and leaves the tenants. -/
theorem Bounded.beside {db : Database} {c : Call} (h : Bounded db) (hop : c.op.besideClaims = true)
    (hnone : c.op.submitsNothing) : Bounded (commit db c) := by
  have htenants : (commit db c).tenants = db.tenants := (commit_evolves hop).tenants
  constructor
  · intro o n hn
    have hcap := h.running o n (htenants ▸ hn)
    have hle : runningCount (commit db c) o ≤ runningCount db o := commit_runningCount hop o
    omega
  · intro o n hn
    have hbound := h.backlog o n (htenants ▸ hn)
    have hle : liveCount (commit db c) o ≤ liveCount db o := commit_liveCount hnone o
    omega

theorem Bounded.claim {db : Database} (h : Bounded db) (now : Time) (args : ClaimArgs)
    (scans : Nat → Scan) : Bounded (commit db ⟨now, .claimTasks args scans⟩) := by
  refine ⟨commit_claim_caps h.running now args scans, fun o n hn => ?_⟩
  rw [commit_tenants (by simp)] at hn
  have hbound := h.backlog o n hn
  have hle : liveCount (commit db ⟨now, .claimTasks args scans⟩) o ≤ liveCount db o :=
    commit_liveCount (by simp [Op.submitsNothing]) o
  omega

/-- A new tenant has no task. -/
theorem Bounded.tenant {db : Database} (h : Bounded db) {now : Time} {newId : TenantId}
    {name : String} {c q : Int} (hc : 1 ≤ c) (hq : 1 ≤ q) :
    Bounded (commit db ⟨now, .createTenant newId name c q⟩) := by
  rcases commit_eq db ⟨now, .createTenant newId name c q⟩ with ⟨r, hperf⟩ | hsame
  swap
  · rw [hsame]
    exact h
  obtain ⟨row, hcreate, -⟩ := mapSnd_ok hperf
  generalize commit db ⟨now, .createTenant newId name c q⟩ = db' at hcreate
  obtain ⟨hins, htasks⟩ := createTenant_ok hcreate
  have hrunning : ∀ o, runningCount db' o = runningCount db o := by
    intro o
    unfold runningCount
    rw [htasks]
  have hlive : ∀ o, liveCount db' o = liveCount db o := by
    intro o
    unfold liveCount
    rw [htasks]
  have hrow : ∀ o n, db'.tenants.find? o = some n → db.tenants.find? o = some n ∨
      (liveCount db o = 0 ∧ n = ⟨newId, name, c, q⟩) := by
    intro o n hn
    rw [Table.find?_insert? hins] at hn
    split at hn
    · rename_i hid
      refine Or.inr ⟨liveCount_absent ?_, (Option.some.inj hn).symm⟩
      rw [← hid]
      exact Table.insert?_fresh hins
    · exact Or.inl hn
  constructor
  · intro o n hn
    rw [hrunning]
    rcases hrow o n hn with hold | ⟨hzero, rfl⟩
    · exact h.running o n hold
    · have hle := runningCount_le_liveCount db o
      dsimp only
      omega
  · intro o n hn
    rw [hlive]
    rcases hrow o n hn with hold | ⟨hzero, rfl⟩
    · exact h.backlog o n hold
    · dsimp only
      omega

/-- An admitted submission finds room in QUEUED, and RUNNING is below its limit. -/
theorem Bounded.submit {s : Store} (h : Bounded s.db) {now : Time} {newId : TaskId}
    {body : TaskCreate} {env : Surroundings} {tenant : Tenant} {args : SubmitArgs}
    (htenant : s.db.tenants.find? body.tenantId = some tenant)
    (hgate : (s.verdict tenant body env).gate = .ok ())
    (hargs : submissionArgs s.reg body env.carrier = .ok args) :
    Bounded (commit s.db ⟨now, .submitTask newId args⟩) := by
  have hroom := ((Admission.decide_admitted_iff ..).mp (Verdict.gate_iff.mp hgate)).1
  have htenants : (commit s.db ⟨now, .submitTask newId args⟩).tenants = s.db.tenants :=
    commit_tenants (by simp)
  constructor
  · intro o n hn
    have hcap := h.running o n (htenants ▸ hn)
    have hle : runningCount (commit s.db ⟨now, .submitTask newId args⟩) o ≤ runningCount s.db o :=
      commit_runningCount rfl o
    omega
  · intro o n hn
    have hold : s.db.tenants.find? o = some n := htenants ▸ hn
    have hadded := commit_submitted s.db now newId args o
    split at hadded
    · rename_i ho
      rw [(submissionArgs_ok hargs).1] at ho
      subst ho
      obtain rfl := Option.eq_some_unique hold htenant
      have hcap := h.running _ n hold
      have hsum := queued_add_running s.db body.tenantId
      omega
    · have hbound := h.backlog o n hold
      omega

/-- One case for each thing a request can do to the tasks. -/
theorem Bounded.served {s : Store} {r : Request} {db : Database} (h : Bounded s.db)
    (hr : r.Validated) (hs : Served s r db) : Bounded db := by
  cases hs with
  | idle => exact h
  | @call op hop =>
    cases op with
    | submitTask newId args => exact absurd hop (hr.1 newId args)
    | createTenant newId name c q =>
      have hlimits := hr.2
      unfold Request.limitsValid at hlimits
      rw [hop] at hlimits
      have hlimits := of_decide_eq_true hlimits
      exact h.tenant hlimits.1 hlimits.2.2.1
    | claimTasks args scans => exact h.claim r.now args scans
    | _ => exact h.beside rfl (by simp [Op.submitsNothing])
  | swept hop => exact h.beside rfl (by simp [Op.submitsNothing])
  | submitted hop htenant hgate hargs => exact h.submit htenant hgate hargs

theorem served_bounded (rs : List Request) (hrs : ∀ r ∈ rs, r.Validated) :
    Bounded (served rs).db := by
  induction rs using List.reverseRecOn with
  | nil => exact .empty
  | append_singleton rs r ih =>
    have hr : r.Validated := hrs r (by simp)
    rw [served_snoc]
    exact (ih fun r hr => hrs r (by simp [hr])).served hr (serve_served hr.1)

/-- **The backlog is bounded**: after any requests served one after another, no
tenant has more tasks QUEUED and RUNNING than both its limits together, nor more
RUNNING than its concurrency limit. -/
theorem backlog_bounded (rs : List Request) (hrs : ∀ r ∈ rs, r.Validated) (o : TenantId) (n : Tenant)
    (hn : (served rs).db.tenants.find? o = some n) :
    (queuedCountForTenant (served rs).db o + runningCount (served rs).db o : Int) ≤
        n.maxQueuedTasks + n.maxConcurrentTasks ∧
      (runningCount (served rs).db o : Int) ≤ n.maxConcurrentTasks := by
  have hbounded := served_bounded rs hrs
  have hsum := queued_add_running (served rs).db o
  have hbacklog := hbounded.backlog o n hn
  exact ⟨by omega, hbounded.running o n hn⟩

/-- A tenant that may run one task and queue one. The task it runs is returned to
QUEUED when another is QUEUED already, and a third is refused. -/
def requeuedOverTheLimit : List Request :=
  [⟨0, .call (.createTenant 1 "acme" 1 1)⟩, ⟨0, .call (.registerWorker "worker" 5 [])⟩,
    ⟨1, .api (.submit 1 { tenantId := 1, target := .direct "demo" } {})⟩,
    ⟨2, .call (.claimTasks { workerId := "worker", limit := 5, leaseTtlS := 30 } fun _ => {})⟩,
    ⟨3, .api (.submit 2 { tenantId := 1, target := .direct "demo" } {})⟩,
    ⟨4, .call (.complete (.retry "TRANSIENT" "boom" 0) 1 1 "worker")⟩,
    ⟨5, .api (.submit 3 { tenantId := 1, target := .direct "demo" } {})⟩]

omit [PyText] in
theorem backlog_bounded_requeued : ∃ n,
    (@served PyText.plain requeuedOverTheLimit).db.tenants.find? 1 = some n ∧
    queuedCountForTenant (@served PyText.plain requeuedOverTheLimit).db 1 = n.maxQueuedTasks + 1 ∧
    (queuedCountForTenant (@served PyText.plain requeuedOverTheLimit).db 1 +
        runningCount (@served PyText.plain requeuedOverTheLimit).db 1 : Int) ≤
        n.maxQueuedTasks + n.maxConcurrentTasks ∧
      (runningCount (@served PyText.plain requeuedOverTheLimit).db 1 : Int) ≤
        n.maxConcurrentTasks := by
  have hrow : ((@served PyText.plain requeuedOverTheLimit).db.tenants.find? 1).map
      (fun n => (queuedCountForTenant (@served PyText.plain requeuedOverTheLimit).db 1,
        n.maxQueuedTasks)) = some (2, 1) := by decide +kernel
  obtain ⟨n, hn, hlimit⟩ := Option.map_eq_some_iff.mp hrow
  obtain ⟨hcount, hlimit⟩ := Prod.mk.inj hlimit
  refine ⟨n, hn, ?_, @backlog_bounded PyText.plain requeuedOverTheLimit (by decide) 1 n hn⟩
  rw [hcount, hlimit]
  rfl

end ControlPlane
