import ControlPlane.Lib.Selection
import ControlPlane.Domain.Agents
import ControlPlane.Db.Reap
import ControlPlane.Scheduling.Policy

/-! # Claiming tasks

A claim works in rounds. Each round fetches as many candidates as are still
needed, reads the slack of the tenants it meets for the first time, and spends
it in the order of the candidates. What the rounds chose is then granted in one
`UPDATE`, whose only predicate is the list of ids, and written to the event log
and the attempt ledger. -/

namespace ControlPlane
open Keyed Fallible Selection

structure ClaimArgs where
  workerId : WorkerId
  limit : Int
  leaseTtlS : Int
  policy : ClaimPolicy := defaultPolicy
  workerCapabilities : List String := []

def maxRounds : Nat := 4

/-! ## Candidates -/

/-- A row of the candidate queries. -/
structure Candidate where
  id : TaskId
  tenantId : TenantId
  priority : Int
  availableAt : Time
  deriving DecidableEq

def Task.candidate (t : Task) : Candidate := ⟨t.id, t.tenantId, t.priority, t.availableAt⟩

/-- `(r.priority, r.available_at, r.id)`. -/
def Candidate.sortKey (c : Candidate) : List ℚ := [(c.priority : ℚ), c.availableAt, (c.id : ℚ)]

/-- `state = 'QUEUED' AND available_at <= now()`. -/
def Task.claimable (t : Task) (now : Time) : Bool :=
  t.state == .queued && decide (t.availableAt ≤ now)

/-- The rows a locking read may return: not excluded, not locked by another. -/
def Scan.offers (scan : Scan) (seenIds : List TaskId) (t : Task) : Bool :=
  !seenIds.contains t.id && !scan.locked t.id

/-- One LATERAL branch of the keyed query. -/
def keyedBranch (db : Database) (now : Time) (key : String) (need : Nat) (seenIds : List TaskId)
    (scan : Scan) : List Task :=
  (sortBy (fun t => t.candidate.sortKey) (db.tasks.rows.filter fun t =>
    decide (t.capabilityKey = key) && (t.claimable now && scan.offers seenIds t))).take need

/-- Rows the fallback query's ORDER BY leaves tied come in heap order. -/
def ClaimPolicy.scanKey (p : ClaimPolicy) (scan : Scan) (t : Task) : List ℚ :=
  p.sortKey t ++ [(scan.ctid t.id : ℚ), (t.id : ℚ)]

/-- `required_capabilities <@ worker_capabilities`. -/
def Task.containedBy (t : Task) (workerCapabilities : List String) : Bool :=
  t.requiredCapabilities.all fun c => workerCapabilities.contains c

/-- The branches of a list of keys, merged and cut. -/
def mergedBranches (db : Database) (now : Time) (keys : List String) (need : Nat)
    (seenIds : List TaskId) (scan : Scan) : List Candidate :=
  let rows := keys.flatMap fun key =>
    (keyedBranch db now key need seenIds scan).map Task.candidate
  (sortBy Candidate.sortKey rows).take need

/-- The branch for a worker of few capabilities: one ordered, cut scan for each
key it can claim, merged and sorted. -/
def keyedCandidates [PyText] (db : Database) (now : Time) (workerCapabilities : List String)
    (need : Nat) (seenIds : List TaskId) (scan : Scan) : List Candidate :=
  mergedBranches db now (satisfiableCapabilityKeys (normalised workerCapabilities)) need seenIds scan

/-- The branch for a worker of many capabilities: the stored lists, filtered by
containment in the list as the worker sent it. -/
def containmentCandidates (db : Database) (now : Time) (workerCapabilities : List String)
    (policy : ClaimPolicy) (need : Nat) (seenIds : List TaskId) (scan : Scan) : List Candidate :=
  ((sortBy (policy.scanKey scan) (db.tasks.rows.filter fun t =>
    (t.claimable now && scan.offers seenIds t) && t.containedBy workerCapabilities)).take
      need).map Task.candidate

def fetchCandidates [PyText] (db : Database) (now : Time) (workerCapabilities : List String)
    (policy : ClaimPolicy) (need : Nat) (seenIds : List TaskId) (scan : Scan) : List Candidate :=
  if (normalised workerCapabilities).length ≤ maxKeyedClaimCapabilities then
    keyedCandidates db now workerCapabilities need seenIds scan
  else containmentCandidates db now workerCapabilities policy need seenIds scan

/-- The rows the query locks. Every branch of the keyed query locks what it
scans, before the merge is cut; the fallback query locks what it returns. -/
def fetchLocks [PyText] (db : Database) (now : Time) (workerCapabilities : List String)
    (policy : ClaimPolicy) (need : Nat) (seenIds : List TaskId) (scan : Scan) : List TaskId :=
  let normalisedCaps := normalised workerCapabilities
  if normalisedCaps.length ≤ maxKeyedClaimCapabilities then
    (satisfiableCapabilityKeys normalisedCaps).flatMap fun key =>
      (keyedBranch db now key need seenIds scan).map Task.id
  else
    (containmentCandidates db now workerCapabilities policy need seenIds scan).map Candidate.id

/-! ## Slack -/

def runningCount (db : Database) (tenantId : TenantId) : Nat :=
  db.tasks.rows.countP fun t => t.tenantId == tenantId && t.state == .running

/-- `max_concurrent_tasks - (SELECT count(*) …)` for each of the tenants. -/
def slackRows (db : Database) (tenantIds : List TenantId) : List (TenantId × Int) :=
  (db.tenants.rows.filter fun t => tenantIds.contains t.id).map fun t =>
    (t.id, t.maxConcurrentTasks - runningCount db t.id)

/-- The local variables of the round loop. -/
structure LoopState where
  claimedIds : List TaskId := []
  seenIds : List TaskId := []
  slack : TenantId → Option Int := fun _ => none
  slackKnown : List TenantId := []
  rounds : Nat := 0

/-- Consider one row of a batch. Past the limit the source breaks, which leaves
every later row of the batch alone as well. -/
def spend (limit : Int) (s : LoopState) (row : Candidate) : LoopState :=
  if limit ≤ s.claimedIds.length then s
  else
    let remaining := (s.slack row.tenantId).getD 0
    if remaining ≤ 0 then s
    else { s with
      slack := Function.update s.slack row.tenantId (some (remaining - 1))
      claimedIds := s.claimedIds ++ [row.id] }

/-- The tenants of a batch whose slack has not been read. -/
def newTenantIds (s : LoopState) (batch : List Candidate) : List TenantId :=
  ((batch.map Candidate.tenantId).dedup).filter fun t => !s.slackKnown.contains t

/-- `slack.update(rows)` and `slack_known.update(new)`. -/
def recordSlack (s : LoopState) (new : List TenantId) (rows : List (TenantId × Int)) : LoopState :=
  { s with
    slack := fun t => (rows.lookup t).or (s.slack t)
    slackKnown := s.slackKnown ++ new }

/-- Read the slack of the tenants that are new in a batch. -/
def learnSlack (db : Database) (s : LoopState) (batch : List Candidate) : LoopState :=
  let new := newTenantIds s batch
  if new = [] then s else recordSlack s new (slackRows db new)

theorem learnSlack_eq (db : Database) (s : LoopState) (batch : List Candidate) :
    learnSlack db s batch =
      recordSlack s (newTenantIds s batch) (slackRows db (newTenantIds s batch)) := by
  unfold learnSlack
  dsimp only
  split
  · rename_i hnil
    rw [hnil]
    simp [recordSlack, slackRows]
  · rfl

/-- One round; `none` when the loop breaks. -/
def claimRound [PyText] (db : Database) (now : Time) (args : ClaimArgs) (scan : Scan)
    (s : LoopState) : Option LoopState :=
  let need := args.limit - s.claimedIds.length
  if need ≤ 0 then none
  else
    let batch := fetchCandidates db now args.workerCapabilities args.policy need.toNat s.seenIds scan
    if batch = [] then none
    else
      let s := { s with seenIds := s.seenIds ++ batch.map Candidate.id, rounds := s.rounds + 1 }
      some (batch.foldl (spend args.limit) (learnSlack db s batch))

/-- Up to `n` further rounds. -/
def claimRounds [PyText] (db : Database) (now : Time) (args : ClaimArgs) (scans : Nat → Scan) :
    Nat → LoopState → LoopState
  | 0, s => s
  | n + 1, s =>
    match claimRound db now args (scans s.rounds) s with
    | none => s
    | some s' => claimRounds db now args scans n s'

def claimLoop [PyText] (db : Database) (now : Time) (args : ClaimArgs) (scans : Nat → Scan) :
    LoopState :=
  claimRounds db now args scans maxRounds {}

/-! ## Granting the leases -/

def claimWrite (now : Time) (workerId : WorkerId) (leaseTtlS : Int) : TaskWrite where
  row t := { t with
    state := .running
    attempt := t.attempt + 1
    leaseWorkerId := some workerId
    leaseExpiresAt := some (now + seconds leaseTtlS)
    firstStartedAt := some (t.firstStartedAt.getD now)
    updatedAt := now }
  pinned _ := rfl

def claimedEvent (now : Time) (workerId : WorkerId) (t : Task) : TaskEvent :=
  ⟨t.id, some t.attempt, .taskClaimed, some workerId, .obj [], now⟩

/-- The ledger row of a claimed attempt. -/
def startedAttempt (now : Time) (workerId : WorkerId) (t : Task) : AttemptRow where
  taskId := t.id
  attempt := t.attempt
  workerId := workerId
  startedAt := now

def grantLeases (db : Database) (now : Time) (workerId : WorkerId) (leaseTtlS : Int)
    (claimedIds : List TaskId) : Except Raised (Database × List Task) := do
  let (db, returned) ← updateTasks db (fun t => claimedIds.contains t.id)
    (claimWrite now workerId leaseTtlS)
  -- RETURNING carries no order: the order of the candidates is imposed again
  let rows := claimedIds.filterMap fun i => returned.find? fun t => t.id == i
  let db ← (rows.map (claimedEvent now workerId)).foldlM insertEvent db
  let db ← (rows.map (startedAttempt now workerId)).foldlM insertAttempt db
  pure (db, rows)

def claimTasks [PyText] (db : Database) (now : Time) (args : ClaimArgs) (scans : Nat → Scan) :
    Except Raised (Database × List Task) :=
  let s := claimLoop db now args scans
  if s.claimedIds = [] then pure (db, [])
  else grantLeases db now args.workerId args.leaseTtlS s.claimedIds

/-! ## What a grant does -/

theorem claimWrite_checked {now : Time} {w : WorkerId} {ttl : Int} {t : Task} (h : t.Checked) :
    ((claimWrite now w ttl).row t).Checked := by
  obtain ⟨hm, he, ha, hp, -⟩ := t.checked_iff.mp h
  refine (Task.checked_iff _).mpr ⟨hm, he, ?_, hp, by simp [claimWrite]⟩
  show 0 ≤ t.attempt + 1
  omega

/-- What a claim does to the share of the database of a task it grants. -/
def claimView (now : Time) (w : WorkerId) (ttl : Int) (t : Task) (v : TaskView) : TaskView where
  row := some ((claimWrite now w ttl).row t)
  attempts := v.attempts ++ [startedAttempt now w ((claimWrite now w ttl).row t)]
  events := v.events ++ [claimedEvent now w ((claimWrite now w ttl).row t)]

/-- The rows a grant returns. -/
def grantedRows (db : Database) (now : Time) (w : WorkerId) (ttl : Int) (ids : List TaskId) :
    List Task :=
  ids.filterMap fun i => (db.task? i).map (claimWrite now w ttl).row

theorem grantedRows_eq {db : Database} {now : Time} {w : WorkerId} {ttl : Int} {ids : List TaskId} :
    (ids.filterMap fun i => (db.tasks.modified (fun t => ids.contains t.id)
      (claimWrite now w ttl).row).find? fun t => t.id == i) = grantedRows db now w ttl ids := by
  refine List.filterMap_congr fun i hi => ?_
  have hat := Table.modified_at (t := db.tasks) (p := fun t => ids.contains t.id)
    (claimWrite now w ttl).id i
  rw [← List.head?_filter]
  simp only [beq_eq_decide] at hat ⊢
  rw [hat, show db.tasks.find? i = db.task? i from rfl]
  cases hr : db.task? i with
  | none => rfl
  | some t =>
    have hid : t.id = i := Database.row_id hr
    simp [Option.filter, hid, hi]

theorem grantedRows_id {db : Database} {now : Time} {w : WorkerId} {ttl : Int} {i : TaskId}
    {r : Task} (h : (db.task? i).map (claimWrite now w ttl).row = some r) : r.id = i := by
  obtain ⟨t, ht, rfl⟩ := Option.map_eq_some_iff.mp h
  exact ((claimWrite now w ttl).id t).trans (Database.row_id ht)

theorem mem_grantedRows {db : Database} {now : Time} {w : WorkerId} {ttl : Int}
    {ids : List TaskId} {r : Task} : r ∈ grantedRows db now w ttl ids ↔
      ∃ t, t.id ∈ ids ∧ db.task? t.id = some t ∧ r = (claimWrite now w ttl).row t := by
  simp only [grantedRows, List.mem_filterMap, Option.map_eq_some_iff]
  constructor
  · rintro ⟨i, hi, t, ht, rfl⟩
    have hid : t.id = i := Database.row_id ht
    exact ⟨t, hid ▸ hi, hid ▸ ht, rfl⟩
  · rintro ⟨t, hi, ht, rfl⟩
    exact ⟨t.id, hi, t, ht, rfl⟩

theorem grantedRows_ids {db : Database} {now : Time} {w : WorkerId} {ttl : Int}
    {ids : List TaskId} (hall : ∀ i ∈ ids, (db.task? i).isSome = true) :
    (grantedRows db now w ttl ids).map Task.id = ids := by
  induction ids with
  | nil => rfl
  | cons i ids ih =>
    obtain ⟨t, ht⟩ := Option.isSome_iff_exists.mp (hall i (by simp))
    have hrow : (db.task? i).map (claimWrite now w ttl).row = some ((claimWrite now w ttl).row t) := by
      rw [ht]; rfl
    have hcons : grantedRows db now w ttl (i :: ids) =
        (claimWrite now w ttl).row t :: grantedRows db now w ttl ids := by
      simp only [grantedRows, List.filterMap_cons, hrow]
    rw [hcons, List.map_cons, grantedRows_id hrow, ih fun j hj => hall j (by simp [hj])]

/-- The granted rows of one task. -/
theorem grantedRows_filter {db : Database} {now : Time} {w : WorkerId} {ttl : Int}
    {ids : List TaskId} (hnd : ids.Nodup) (i : TaskId) :
    ((grantedRows db now w ttl ids).filter fun r => r.id = i) =
      if i ∈ ids then ((db.task? i).map (claimWrite now w ttl).row).toList else [] := by
  have hone : ((grantedRows db now w ttl ids).filter fun r => r.id = i) =
      grantedRows db now w ttl (ids.filter fun j => j = i) := by
    unfold grantedRows
    rw [List.filter_filterMap, List.filterMap_filter]
    refine List.filterMap_congr fun j _ => ?_
    by_cases hj : j = i
    · subst hj
      cases h : (db.task? j).map (claimWrite now w ttl).row with
      | none => simp
      | some r => simp [Option.filter, grantedRows_id h]
    · cases h : (db.task? j).map (claimWrite now w ttl).row with
      | none => simp
      | some r => simp [Option.filter, grantedRows_id h, hj]
  rw [hone]
  by_cases hi : i ∈ ids
  · have hsingle : (ids.filter fun j => j = i) = [i] := by
      rw [List.filter_eq, List.count_eq_one_of_mem hnd hi]
      rfl
    rw [if_pos hi, hsingle]
    unfold grantedRows
    rw [List.filterMap_cons, List.filterMap_nil]
    cases (db.task? i).map (claimWrite now w ttl).row <;> rfl
  · rw [if_neg hi, List.filter_eq_nil_iff.mpr]
    · rfl
    · intro j hj he
      exact hi (of_decide_eq_true he ▸ hj)

/-- **A grant that returned**: every task of the list is claimed, no other is touched. -/
theorem grantLeases_ok {db db' : Database} {now : Time} {w : WorkerId} {ttl : Int}
    {ids : List TaskId} {rows : List Task} (hnd : ids.Nodup)
    (h : grantLeases db now w ttl ids = .ok (db', rows)) :
    SameParties db db' ∧ rows = grantedRows db now w ttl ids ∧
      (∀ t, t.id ∈ ids → db.task? t.id = some t →
        db'.view t.id = claimView now w ttl t (db.view t.id)) ∧
      ∀ i, i ∉ ids → db'.view i = db.view i := by
  unfold grantLeases at h
  obtain ⟨⟨db₁, returned⟩, h₁, h⟩ := bind_ok.mp h
  obtain ⟨db₂, h₂, h⟩ := bind_ok.mp h
  obtain ⟨db₃, h₃, h⟩ := bind_ok.mp h
  obtain ⟨rfl, rfl⟩ := Prod.mk.inj (pure_ok.mp h)
  obtain ⟨-, rfl, -⟩ := updateTasks_ok h₁
  rw [grantedRows_eq] at h₂ h₃ ⊢
  obtain ⟨hp₂, hv₂⟩ := insertEvents_view h₂
  obtain ⟨hp₃, hv₃⟩ := insertAttempts_view h₃
  have hev : ∀ i, (((grantedRows db now w ttl ids).map (claimedEvent now w)).filter
      fun e => e.taskId = i) =
      ((grantedRows db now w ttl ids).filter fun r => r.id = i).map (claimedEvent now w) := by
    intro i; rw [List.filter_map]; rfl
  have hat : ∀ i, (((grantedRows db now w ttl ids).map (startedAttempt now w)).filter
      fun r => r.taskId = i) =
      ((grantedRows db now w ttl ids).filter fun r => r.id = i).map (startedAttempt now w) := by
    intro i; rw [List.filter_map]; rfl
  refine ⟨(updateTasks_parties h₁).trans (hp₂.trans hp₃), rfl, ?_, ?_⟩
  · intro t ht hr
    simp [hv₃, hv₂, updateTasks_view h₁, hev, hat, grantedRows_filter hnd, ht, hr,
      Database.view_row, claimView]
  · intro i hi
    have hrow : ((db.task? i).map fun t =>
        if ids.contains t.id = true then (claimWrite now w ttl).row t else t) = db.task? i := by
      cases hr : db.task? i with
      | none => rfl
      | some t =>
        have hid : t.id = i := Database.row_id hr
        simp [hid, hi]
    simp only [hv₃, hv₂, updateTasks_view h₁, hev, hat, grantedRows_filter hnd, if_neg hi,
      Database.view_row, hrow, List.map_nil, List.append_nil]
    rfl

/-- Of the tasks and the tenants, a grant rewrites the tasks of the list. -/
theorem grantLeases_tasks {db db' : Database} {now : Time} {w : WorkerId} {ttl : Int}
    {ids : List TaskId} {rows : List Task} (h : grantLeases db now w ttl ids = .ok (db', rows)) :
    db'.tasks = db.tasksAfter (fun t => ids.contains t.id) (claimWrite now w ttl) ∧
      db'.tenants = db.tenants := by
  unfold grantLeases at h
  obtain ⟨⟨db₁, returned⟩, h₁, h⟩ := bind_ok.mp h
  obtain ⟨db₂, h₂, h⟩ := bind_ok.mp h
  obtain ⟨db₃, h₃, h⟩ := bind_ok.mp h
  obtain ⟨rfl, rfl⟩ := Prod.mk.inj (pure_ok.mp h)
  obtain ⟨htasks, -, -, -, htenants, -⟩ := updateTasks_ok h₁
  have hevents : db₂.tasks = db₁.tasks ∧ db₂.tenants = db₁.tenants := by
    refine foldlM_invariant (I := fun d : Database => d.tasks = db₁.tasks ∧
      d.tenants = db₁.tenants) ?_ h₂ ⟨rfl, rfl⟩
    intro d e d' hd he
    obtain ⟨-, ht, -, htn, -⟩ := insertEvent_ok he
    exact ⟨ht.trans hd.1, htn.trans hd.2⟩
  have hledger : db₃.tasks = db₂.tasks ∧ db₃.tenants = db₂.tenants := by
    refine foldlM_invariant (I := fun d : Database => d.tasks = db₂.tasks ∧
      d.tenants = db₂.tenants) ?_ h₃ ⟨rfl, rfl⟩
    intro d a d' hd ha
    obtain ⟨-, -, ht, -, htn, -⟩ := insertAttempt_ok ha
    exact ⟨ht.trans hd.1, htn.trans hd.2⟩
  exact ⟨hledger.1.trans (hevents.1.trans htasks), hledger.2.trans (hevents.2.trans htenants)⟩

/-- A grant of attempts the ledger does not know yet fails on the worker only. -/
theorem grantLeases_fresh {db : Database} (now : Time) (w : WorkerId) (ttl : Int)
    {ids : List TaskId} (hnd : ids.Nodup) (hall : ∀ i ∈ ids, (db.task? i).isSome = true)
    (hfree : ∀ t, t.id ∈ ids → db.task? t.id = some t → db.attempt? t.id (t.attempt + 1) = none) :
    (∃ db', grantLeases db now w ttl ids = .ok (db', grantedRows db now w ttl ids)) ∨
      (grantLeases db now w ttl ids =
          .error (.integrity (.foreignKeyViolation "task_attempts_worker_id_fkey")) ∧
        db.workers.find? w = none) := by
  obtain ⟨db₁, h₁⟩ := updateTasks_succeeds db (fun t => ids.contains t.id)
    (claimWrite now w ttl) fun t ht _ => claimWrite_checked (db.tasks_checked t ht)
  obtain ⟨htasks, -, hatt, -, -, hwk⟩ := updateTasks_ok h₁
  have hexists : ∀ r ∈ grantedRows db now w ttl ids, (db₁.task? r.id).isSome = true := by
    intro r hr
    obtain ⟨t, -, ht, rfl⟩ := mem_grantedRows.mp hr
    rw [(claimWrite now w ttl).id, task?_of_tasks htasks, ht]
    rfl
  obtain ⟨db₂, h₂⟩ := insertEvents_succeed
    ((grantedRows db now w ttl ids).map (claimedEvent now w)) db₁ fun e he => by
      obtain ⟨r, hr, rfl⟩ := List.mem_map.mp he
      exact hexists r hr
  have hsame : db₂.tasks = db₁.tasks ∧ db₂.attempts = db₁.attempts ∧ db₂.workers = db₁.workers := by
    refine foldlM_invariant (I := fun d : Database =>
      d.tasks = db₁.tasks ∧ d.attempts = db₁.attempts ∧ d.workers = db₁.workers) ?_ h₂
      ⟨rfl, rfl, rfl⟩
    intro d e d' hd he
    obtain ⟨-, ht, ha, -, hw⟩ := insertEvent_ok he
    exact ⟨ht.trans hd.1, ha.trans hd.2.1, hw.trans hd.2.2⟩
  have hkeys : (((grantedRows db now w ttl ids).map (startedAttempt now w)).map
      AttemptRow.key).Nodup := by
    have hids : (((grantedRows db now w ttl ids).map (startedAttempt now w)).map
        AttemptRow.taskId).Nodup := by
      rw [List.map_map]
      exact (grantedRows_ids hall).symm ▸ hnd
    rw [show AttemptRow.taskId = Prod.fst ∘ AttemptRow.key from rfl, ← List.map_map] at hids
    exact hids.of_map _
  unfold grantLeases
  simp only [h₁, ok_bind, grantedRows_eq, h₂]
  rcases insertAttempts_fresh _ db₂ hkeys
    (fun a ha => by
      obtain ⟨r, hr, rfl⟩ := List.mem_map.mp ha
      obtain ⟨t, hi, ht, rfl⟩ := mem_grantedRows.mp hr
      unfold Database.attempt?
      rw [hsame.2.1, hatt]
      exact hfree t hi ht)
    (fun a ha => by
      obtain ⟨r, hr, rfl⟩ := List.mem_map.mp ha
      unfold Database.task?
      rw [hsame.1]
      exact hexists r hr) with ⟨db₃, h₃⟩ | ⟨h₃, a, ha, hw⟩
  · simp only [h₃, ok_bind]
    exact Or.inl ⟨db₃, rfl⟩
  · obtain ⟨r, -, rfl⟩ := List.mem_map.mp ha
    simp only [h₃, error_bind]
    exact Or.inr ⟨trivial, by rw [← hwk, ← hsame.2.2]; exact hw⟩

end ControlPlane
