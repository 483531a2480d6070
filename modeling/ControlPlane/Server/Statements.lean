import ControlPlane.Db.Agents
import ControlPlane.Db.Store
import ControlPlane.Lib.Transactions
import ControlPlane.Server.Calls

/-! # The task queries, statement by statement

Each query as the program of its statements: what each sees, which rows it waits
for and locks, and what the transaction writes when it commits. An `UPDATE` of
one row waits for that row; the locking reads of claims and sweeps pass over the
rows others hold; an insert under an idempotency key waits for an insert of the
same key that is in flight. Alone, a program does what the query does in one
step (`callTx_alone`). -/

namespace ControlPlane
open Keyed Fallible Transactions

/-- What a transaction can hold until it ends. -/
inductive Lock where
  | agent (i : AgentId)
  | version (i : VersionId)
  | task (i : TaskId)
  | tenant (i : TenantId)
  /-- an insert under an idempotency key -/
  | idem (key : TenantId × String)
  deriving DecidableEq

/-- Where a program stands, as far as its statements are told apart. -/
inductive Point where
  | other
  /-- the second `UPDATE` of a bulk cancellation; the first wrote `cancelled` -/
  | updateRunning (versions : List VersionId) (cancelled : List TaskId)

/-! ## How a transaction ends -/

inductive ErrorKind where
  | notFound | conflict | quotaExceeded | overloaded
  deriving DecidableEq, Repr

def ErrorKind.statusCode : ErrorKind → Nat
  | notFound => 404
  | conflict => 409
  | quotaExceeded => 429
  | overloaded => 503

def ErrorKind.code : ErrorKind → String
  | notFound => "not_found"
  | conflict => "conflict"
  | quotaExceeded => "quota_exceeded"
  | overloaded => "overloaded"

structure ApiError where
  kind : ErrorKind
  message : String
  details : JsonObject := []

inductive Failure where
  | raised (e : Raised)
  | registry (e : RegistryError)
  | api (e : ApiError)
  /-- any other exception: the request ends with status 500 -/
  | internal

inductive Answer where
  | reply (r : Reply)
  | agent (row : Agent)
  | disabled (row : Agent) (tasksCancelledOrCancelling : Nat)
  | version (row : AgentVersion)
  | route (row : AgentRoute)
  | tool (row : Tool)
  | granted (agentVersionId : VersionId) (toolId : ToolId)
  | done
  | task (created : Bool) (row : Task)

abbrev Program := Tx Store Lock Failure Answer Point

/-- A row of the committed tasks that an `UPDATE` selects. -/
def Store.matches (s : Store) (p : Task → Bool) (i : TaskId) : Bool := (s.db.task? i).any p

theorem Store.matches_iff {s : Store} {p : Task → Bool} {i : TaskId} :
    s.matches p i = true ↔ ∃ t, s.db.task? i = some t ∧ p t = true :=
  Option.any_eq_true _ _

/-- What a locking read passes over: what the scan meets locked and what other
transactions hold. -/
def Scan.beside (scan : Scan) (other : Lock → Bool) : Scan :=
  { scan with locked := fun i => scan.locked i || other (.task i) }

/-! ## Bulk cancellation -/

/-- An `UPDATE` visits the rows its snapshot selected. It waits for each, looks
at it again as committed by then, and locks it if it is still selected. -/
def visitTx (p : Task → Bool) (k : List TaskId → Program) : List TaskId → List TaskId → Program
  | [], taken => k taken
  | i :: todo, taken =>
    .stmt .other [.task i] (fun s _ => if s.matches p i then [.task i] else []) fun s _ =>
      visitTx p k todo (if s.matches p i then taken ++ [i] else taken)

/-- The rows an `UPDATE` selects when it begins, in the order of its scan. -/
def Store.selected (s : Store) (p : Task → Bool) (scan : Scan) : List TaskId :=
  ((s.db.tasks.rows.filter p).insertionSort fun t u => scan.ctid t.id ≤ scan.ctid u.id).map Task.id

/-- `UPDATE tasks … WHERE p`; its writes follow at the commit, to the rows it locked. -/
def updateTx (point : Point) (p : Task → Bool) (scan : Scan) (k : List TaskId → Program) : Program :=
  .stmt point [] (fun _ _ => []) fun s _ => visitTx p k (s.selected p scan) []

/-- What the two `UPDATE`s of a bulk cancellation wrote and the events after them. -/
def writeSweep (db : Database) (now : Time) (agentVersionIds : List VersionId) (reason : String)
    (queued running : List TaskId) : Except Raised (Database × Nat) :=
  if agentVersionIds = [] then pure (db, 0)
  else cancelSelected db now reason
    (fun t => queued.contains t.id && agentQueued agentVersionIds t)
    (fun t => running.contains t.id && agentRunning agentVersionIds t)

/-- The two `UPDATE`s of a bulk cancellation, each with its own snapshot. -/
def sweepTx (agentVersionIds : List VersionId) (scan : Scan)
    (k : List TaskId → List TaskId → Program) : Program :=
  if agentVersionIds = [] then k [] []
  else
    updateTx .other (agentQueued agentVersionIds) scan fun queued =>
      updateTx (.updateRunning agentVersionIds queued) (agentRunning agentVersionIds) scan
        fun running => k queued running

variable [PyText]

/-- A query in one step. -/
def performOn (c : Call) (s : Store) : Except Failure (Store × Answer) :=
  match perform s.db c.now c.op with
  | .ok (db, r) => .ok ({ s with db := db }, .reply r)
  | .error e => .error (.raised e)

/-- An `UPDATE` of one row and what follows it. -/
def rowTx (i : TaskId) (c : Call) : Program :=
  .stmt .other [.task i] (fun _ _ => [.task i]) fun _ _ => .commit .other (performOn c)

/-- What a cancellation writes, decided on the row its first statement has read. -/
def cancelOn (now : Time) (i : TaskId) (row : Task) (s : Store) :
    Except Failure (Store × Answer) :=
  match cancelSeen s.db now i row with
  | .ok (db, res) => .ok ({ s with db := db }, .reply (.cancelled res))
  | .error e => .error (.raised e)

/-- While the row is what was read, these are the writes of the query. -/
theorem cancelOn_eq {now : Time} {i : TaskId} {row : Task} {s : Store}
    (h : s.db.task? i = some row) : cancelOn now i row s = performOn ⟨now, .cancelTask i⟩ s := by
  have hcall : perform s.db now (.cancelTask i) =
      (cancelSeen s.db now i row).map (Prod.map id .cancelled) :=
    congrArg (Except.map _) (cancelTask_seen h)
  unfold cancelOn performOn
  rw [hcall]
  cases cancelSeen s.db now i row <;> rfl

/-- `cancel_task`: a locking read of the row, and what follows from what it has read. -/
def cancelTx (now : Time) (i : TaskId) : Program :=
  .stmt .other [.task i] (fun s _ => if (s.db.task? i).isSome then [.task i] else []) fun s _ =>
    match s.db.task? i with
    | none => .commit .other fun s => .ok (s, .reply (.cancelled ⟨.notFound, none⟩))
    | some row => .commit .other (cancelOn now i row)

/-- The recovery of the rows a sweep of the reaper locked. -/
def recoverOn (now : Time) (o : Overdue) (rows : List Task) (s : Store) :
    Except Failure (Store × Answer) :=
  match (rows.map (o.reapRow now)).foldlM (reapRow now o) (s.db, {}) with
  | .ok (db, r) => .ok ({ s with db := db }, .reply (.reaped r))
  | .error e => .error (.raised e)

/-- A sweep of the reaper: the locking read, then the recovery of what it locked. -/
def reapTx (now : Time) (o : Overdue) (limit : Int) (scan : Scan) : Program :=
  .stmt .other []
    (fun s other => (overdueTasks s.db now o limit (scan.beside other)).map fun t => .task t.id)
    fun s other =>
      if limit < 0 then .fail (.raised (.integrity .invalidRowCount))
      else .commit .other (recoverOn now o (overdueTasks s.db now o limit (scan.beside other)))

/-! ## Claims -/

def grantOn (now : Time) (args : ClaimArgs) (claimedIds : List TaskId) (s : Store) :
    Except Failure (Store × Answer) :=
  if claimedIds = [] then .ok (s, .reply (.claimed []))
  else match grantLeases s.db now args.workerId args.leaseTtlS claimedIds with
  | .ok (db, rows) => .ok ({ s with db := db }, .reply (.claimed rows))
  | .error e => .error (.raised e)

/-- What a round returns; nothing when the limit is reached. -/
def claimBatch (now : Time) (args : ClaimArgs) (scan : Scan) (loop : LoopState) (s : Store)
    (other : Lock → Bool) : List Candidate :=
  let need := args.limit - loop.claimedIds.length
  if need ≤ 0 then []
  else fetchCandidates s.db now args.workerCapabilities args.policy need.toNat loop.seenIds
    (scan.beside other)

/-- What a round locks, which its branches do before their merge is cut. -/
def claimLocks (now : Time) (args : ClaimArgs) (scan : Scan) (loop : LoopState) (s : Store)
    (other : Lock → Bool) : List TaskId :=
  let need := args.limit - loop.claimedIds.length
  if need ≤ 0 then []
  else fetchLocks s.db now args.workerCapabilities args.policy need.toNat loop.seenIds
    (scan.beside other)

/-- `n` further rounds, then the grant. The slack statement takes its snapshot
when it begins, and waits for the tenants' rows after that. -/
def claimTx (now : Time) (args : ClaimArgs) (scans : Nat → Scan) : Nat → LoopState → Program
  | 0, loop => .commit .other (grantOn now args loop.claimedIds)
  | n + 1, loop =>
    .stmt .other []
      (fun s other => (claimLocks now args (scans loop.rounds) loop s other).map .task)
      fun s other =>
        let batch := claimBatch now args (scans loop.rounds) loop s other
        if batch = [] then .commit .other (grantOn now args loop.claimedIds)
        else
          let loop := { loop with
            seenIds := loop.seenIds ++ batch.map Candidate.id
            rounds := loop.rounds + 1 }
          .read .other fun s =>
            let new := newTenantIds loop batch
            let rows := slackRows s.db new
            let tenants := rows.map fun r => Lock.tenant r.1
            .stmt .other tenants (fun _ _ => tenants) fun _ _ =>
              claimTx now args scans n (batch.foldl (spend args.limit) (recordSlack loop new rows))

/-! ## Submission -/

def SubmitArgs.idemKey (args : SubmitArgs) : Option (TenantId × String) :=
  args.idempotencyKey.map fun k => (args.tenantId, k)

def SubmitArgs.idemLocks (args : SubmitArgs) : List Lock := args.idemKey.toList.map Lock.idem

/-- The pinned version of a submission exists. -/
def SubmitArgs.versionKnown (args : SubmitArgs) (reg : Registry) : Bool :=
  args.agentVersionId.all fun v => (reg.version? v).isSome

/-- The row and its event, once the insert went through. -/
def insertOn (now : Time) (newId : TaskId) (args : SubmitArgs) (s : Store) :
    Except Raised (Store × SubmitResult) :=
  if args.versionKnown s.reg then
    (submitTask s.db now newId args).map fun r => ({ s with db := r.1 }, r.2)
  else .error (.integrity (.foreignKeyViolation "fk_tasks_agent_version"))

/-- The follow-up `SELECT` of an insert that did nothing, and what comes of it. -/
def existingSubmission (db : Database) (args : SubmitArgs) : Except Raised SubmitResult :=
  match db.tasks.rows.find? fun t =>
    t.tenantId == args.tenantId && t.idempotencyKey == args.idempotencyKey with
  | none => .error (.lookupError "insert conflicted but no row is visible; retry the submission")
  | some existing =>
    if Json.pyEq (.obj (withoutTrace existing.payload)) (.obj (withoutTrace args.payload)) then
      .ok ⟨false, existing⟩
    else .error (.payloadMismatch existing.id)

/-- The program after an insert that did nothing. -/
def existingTx (args : SubmitArgs) (answer : SubmitResult → Answer) (refuse : Raised → Failure) :
    Program :=
  .read .other fun s =>
    match existingSubmission s.db args with
    | .error e => .fail (refuse e)
    | .ok res => .commit .other fun s => .ok (s, answer res)

/-- `submit_task`; `answer` and `refuse` are what its caller makes of the result. -/
def submitTx (now : Time) (newId : TaskId) (args : SubmitArgs) (answer : SubmitResult → Answer)
    (refuse : Raised → Failure) : Program :=
  .stmt .other args.idemLocks
    (fun s _ => match insertTask s.db (submittedTask now newId args) with
      | .ok (some _) => args.idemLocks
      | _ => [])
    fun s _ => match insertTask s.db (submittedTask now newId args) with
      | .error e => .fail (refuse e)
      | .ok (some _) => .commit .other fun s =>
        match insertOn now newId args s with
        | .ok (s, res) => .ok (s, answer res)
        | .error e => .error (refuse e)
      | .ok none => existingTx args answer refuse

def submitAnswer (res : SubmitResult) : Answer := .reply (.submitted res)

/-! ## Every query -/

/-- What a bulk cancellation called on its own commits. -/
def sweepOn (now : Time) (agentVersionIds : List VersionId) (reason : String)
    (queued running : List TaskId) (s : Store) : Except Failure (Store × Answer) :=
  match writeSweep s.db now agentVersionIds reason queued running with
  | .ok (db, n) => .ok ({ s with db := db }, .reply (.count n))
  | .error e => .error (.raised e)

def callTx (c : Call) : Program :=
  match c.op with
  | .submitTask newId args => submitTx c.now newId args submitAnswer .raised
  | .claimTasks args scans => claimTx c.now args scans maxRounds {}
  | .renewLease i _ _ _ => rowTx i c
  | .complete _ i _ _ => rowTx i c
  | .cancelTask i => cancelTx c.now i
  | .reap o limit scan => reapTx c.now o limit scan
  | .cancelAgentTasks versions reason =>
    sweepTx versions {} fun queued running => .commit .other (sweepOn c.now versions reason queued running)
  | _ => .commit .other (performOn c)

/-! ## A program alone -/

section
omit [PyText]

theorem mem_selected {s : Store} {p : Task → Bool} {scan : Scan} {i : TaskId} :
    i ∈ s.selected p scan ↔ s.matches p i = true := by
  unfold Store.selected Store.matches Database.task?
  simp only [List.mem_map, List.mem_insertionSort, List.mem_filter, Option.any_eq_true,
    Table.find?_eq_some]
  constructor
  · rintro ⟨t, ⟨ht, hp⟩, rfl⟩
    exact ⟨t, ⟨ht, rfl⟩, hp⟩
  · rintro ⟨t, ⟨ht, rfl⟩, hp⟩
    exact ⟨t, ⟨ht, hp⟩, rfl⟩

theorem visitTx_alone (p : Task → Bool) (k : List TaskId → Program) (s : Store)
    (todo taken : List TaskId) (h : ∀ i ∈ todo, s.matches p i = true) :
    (visitTx p k todo taken).alone s = (k (taken ++ todo)).alone s := by
  induction todo generalizing taken with
  | nil => rw [List.append_nil, visitTx]
  | cons i todo ih =>
    rw [visitTx]
    show (visitTx p k todo (if s.matches p i = true then taken ++ [i] else taken)).alone s = _
    rw [if_pos (h i (by simp)), ih _ fun j hj => h j (by simp [hj]), List.append_assoc]
    rfl

theorem updateTx_alone (point : Point) (p : Task → Bool) (scan : Scan) (k : List TaskId → Program)
    (s : Store) : (updateTx point p scan k).alone s = (k (s.selected p scan)).alone s := by
  unfold updateTx
  show (visitTx p k (s.selected p scan) []).alone s = _
  rw [visitTx_alone p k s _ _ fun i hi => mem_selected.mp hi, List.nil_append]

/-- An `UPDATE` depends on its predicate only at the rows of the table. -/
theorem updateTasks_congr {db : Database} {p q : Task → Bool} (w : TaskWrite)
    (h : ∀ t ∈ db.tasks.rows, p t = q t) : updateTasks db p w = updateTasks db q w := by
  have hafter : db.tasksAfter p w = db.tasksAfter q w := by
    refine Table.ext (List.map_congr_left fun t ht => ?_)
    rw [h t ht]
  have hmodified : db.tasks.modified p w.row = db.tasks.modified q w.row := by
    unfold Table.modified
    rw [List.filter_congr h]
  unfold updateTasks
  split
  · rename_i c hc
    rw [hafter] at hc
    split
    · rename_i c' hc'
      rw [Option.eq_some_unique hc hc']
    · rename_i hn
      rw [hc] at hn
      cases hn
  · rename_i hn
    rw [hafter] at hn
    split
    · rename_i c' hc'
      rw [hn] at hc'
      cases hc'
    · simp only [hafter, hmodified]

/-- When the lists hold what the predicates select, the writes are the query's. -/
theorem writeSweep_alone {db : Database} {now : Time} {versions : List VersionId} {reason : String}
    {queued running : List TaskId}
    (hq : ∀ t ∈ db.tasks.rows, agentQueued versions t = true → t.id ∈ queued)
    (hr : ∀ t ∈ db.tasks.rows, agentRunning versions t = true → t.id ∈ running) :
    writeSweep db now versions reason queued running = cancelAgentTasks db now versions reason := by
  have hfirst : updateTasks db (fun t => queued.contains t.id && agentQueued versions t)
      (agentDisabledWrite now reason) =
      updateTasks db (agentQueued versions) (agentDisabledWrite now reason) := by
    refine updateTasks_congr _ fun t ht => ?_
    cases hp : agentQueued versions t with
    | false => exact Bool.and_false _
    | true => simp [hq t ht hp]
  have hsecond : ∀ db₁ rows, updateTasks db (agentQueued versions) (agentDisabledWrite now reason) =
      .ok (db₁, rows) →
      updateTasks db₁ (fun t => running.contains t.id && agentRunning versions t) (flagWrite now) =
        updateTasks db₁ (agentRunning versions) (flagWrite now) := by
    intro db₁ rows h₁
    refine updateTasks_congr _ fun t ht => ?_
    cases hp : agentRunning versions t with
    | false => exact Bool.and_false _
    | true =>
      -- a row the first UPDATE wrote is CANCELLED
      rw [(updateTasks_ok h₁).1] at ht
      obtain ⟨u, hu, rfl⟩ := Table.mem_modify.mp ht
      split at hp
      · simp [agentRunning, agentDisabledWrite] at hp
      · rename_i hno
        rw [if_neg hno]
        simp [hr u hu hp]
  unfold cancelAgentTasks
  unfold writeSweep
  split
  · rfl
  unfold cancelSelected
  rw [hfirst]
  cases h₁ : updateTasks db (agentQueued versions) (agentDisabledWrite now reason) with
  | error e => rfl
  | ok r =>
    rw [ok_bind, ok_bind]
    dsimp only
    rw [hsecond r.1 r.2 h₁]

theorem ofVersions_nil (t : Task) : t.ofVersions [] = false := by
  unfold Task.ofVersions
  cases t.agentVersionId <;> rfl

theorem sweepTx_alone (versions : List VersionId) (scan : Scan)
    (k : List TaskId → List TaskId → Program) (s : Store) :
    (sweepTx versions scan k).alone s =
      (k (s.selected (agentQueued versions) scan) (s.selected (agentRunning versions) scan)).alone s := by
  unfold sweepTx
  split
  · rename_i hnil
    subst hnil
    have hnone : ∀ p : Task → Bool, (∀ t, p t = false) → s.selected p scan = [] := by
      intro p hp
      refine List.eq_nil_iff_forall_not_mem.mpr fun i hi => ?_
      obtain ⟨t, -, ht⟩ := Store.matches_iff.mp (mem_selected.mp hi)
      rw [hp t] at ht
      cases ht
    rw [hnone, hnone]
    · intro t
      simp [agentRunning, ofVersions_nil]
    · intro t
      simp [agentQueued, ofVersions_nil]
  · rw [updateTx_alone, updateTx_alone]

theorem selected_agentTasks {s : Store} {p : Task → Bool} (scan : Scan) :
    ∀ t ∈ s.db.tasks.rows, p t = true → t.id ∈ s.selected p scan := by
  intro t ht hp
  refine mem_selected.mpr ?_
  exact Store.matches_iff.mpr ⟨t, Table.find?_key ht, hp⟩

theorem Scan.beside_none (scan : Scan) : scan.beside (fun _ => false) = scan := by
  unfold Scan.beside
  simp

end

theorem claimTx_alone (now : Time) (args : ClaimArgs) (scans : Nat → Scan) (s : Store) (n : Nat)
    (loop : LoopState) : (claimTx now args scans n loop).alone s =
      grantOn now args (claimRounds s.db now args scans n loop).claimedIds s := by
  induction n generalizing loop with
  | zero => rfl
  | succ n ih =>
    unfold claimTx claimRounds
    show (if claimBatch now args (scans loop.rounds) loop s (fun _ => false) = [] then _
      else _ : Program).alone s = _
    unfold claimRound claimBatch
    rw [Scan.beside_none]
    dsimp only
    split
    · rw [if_pos rfl]
      rfl
    · split
      · rfl
      · dsimp only
        rw [learnSlack_eq]
        exact ih _

theorem existingSubmission_eq {db : Database} {now : Time} {newId : TaskId} {args : SubmitArgs}
    (h : insertTask db (submittedTask now newId args) = .ok none) :
    submitTask db now newId args = (existingSubmission db args).map fun res => (db, res) := by
  unfold submitTask existingSubmission
  dsimp only
  rw [h, ok_bind]
  dsimp only
  cases db.tasks.rows.find? fun t =>
    t.tenantId == args.tenantId && t.idempotencyKey == args.idempotencyKey with
  | none => rfl
  | some existing =>
    dsimp only
    unfold ensure
    split <;> rfl

theorem submitTx_alone {now : Time} {newId : TaskId} {args : SubmitArgs} {s : Store}
    {answer : SubmitResult → Answer} {refuse : Raised → Failure}
    (hknown : args.versionKnown s.reg = true) :
    (submitTx now newId args answer refuse).alone s =
      match submitTask s.db now newId args with
      | .ok (db, res) => .ok ({ s with db := db }, answer res)
      | .error e => .error (refuse e) := by
  unfold submitTx
  show (match insertTask s.db (submittedTask now newId args) with
    | .error e => _
    | .ok (some _) => _
    | .ok none => _ : Program).alone s = _
  cases hins : insertTask s.db (submittedTask now newId args) with
  | error e =>
    unfold submitTask
    dsimp only
    rw [hins]
    rfl
  | ok inserted =>
    cases inserted with
    | none =>
      rw [existingSubmission_eq hins]
      show (match existingSubmission s.db args with
        | .error e => _
        | .ok res => _ : Program).alone s = _
      cases existingSubmission s.db args <;> rfl
    | some db =>
      show (match insertOn now newId args s with
        | .ok (s, res) => _
        | .error e => _) = _
      unfold insertOn
      rw [if_pos hknown]
      cases submitTask s.db now newId args <;> rfl

/-- A call names no version that does not exist. -/
def Op.versionKnown (op : Op) (reg : Registry) : Prop :=
  ∀ newId args, op = .submitTask newId args → args.versionKnown reg = true

/-- **A program alone is the query.** -/
theorem callTx_alone (c : Call) (s : Store) (hknown : c.op.versionKnown s.reg) :
    (callTx c).alone s = performOn c s := by
  obtain ⟨now, op⟩ := c
  cases op with
  | submitTask newId args =>
    show (submitTx now newId args submitAnswer .raised).alone s = _
    rw [submitTx_alone (hknown newId args rfl)]
    show _ = (match (submitTask s.db now newId args).map (Prod.map id Reply.submitted) with
      | .ok (db, r) => _
      | .error e => _)
    cases submitTask s.db now newId args <;> rfl
  | claimTasks args scans =>
    show (claimTx now args scans maxRounds {}).alone s = _
    rw [claimTx_alone]
    show grantOn now args (claimLoop s.db now args scans).claimedIds s =
      (match (claimTasks s.db now args scans).map (Prod.map id Reply.claimed) with
      | .ok (db, r) => _
      | .error e => _)
    unfold grantOn claimTasks
    dsimp only
    split
    · rfl
    · cases grantLeases s.db now args.workerId args.leaseTtlS
        (claimLoop s.db now args scans).claimedIds <;> rfl
  | reap o limit scan =>
    show (if limit < 0 then Tx.fail (.raised (.integrity .invalidRowCount))
      else .commit .other (recoverOn now o (overdueTasks s.db now o limit
        (scan.beside fun _ => false))) : Program).alone s =
      (match (reapBatch s.db now o limit scan).map (Prod.map id Reply.reaped) with
      | .ok (db, r) => _
      | .error e => _)
    rw [Scan.beside_none]
    unfold reapBatch findOverdue
    split
    · rfl
    · rw [ok_bind]
      show recoverOn now o (overdueTasks s.db now o limit scan) s = _
      unfold recoverOn
      cases ((overdueTasks s.db now o limit scan).map (o.reapRow now)).foldlM (reapRow now o)
        (s.db, {}) <;> rfl
  | cancelAgentTasks versions reason =>
    show (sweepTx versions {} fun queued running =>
      .commit .other (sweepOn now versions reason queued running) : Program).alone s =
      (match (cancelAgentTasks s.db now versions reason).map (Prod.map id Reply.count) with
      | .ok (db, r) => _
      | .error e => _)
    rw [sweepTx_alone versions {} _ s]
    show sweepOn now versions reason _ _ s = _
    unfold sweepOn
    rw [writeSweep_alone (selected_agentTasks {}) (selected_agentTasks {})]
    cases cancelAgentTasks s.db now versions reason <;> rfl
  | cancelTask i =>
    show (cancelTx now i).alone s = _
    unfold cancelTx
    rw [Tx.alone_stmt]
    cases hr : s.db.task? i with
    | none =>
      have hnothing : cancelTask s.db now i = .ok (s.db, ⟨.notFound, none⟩) := by
        unfold cancelTask
        rw [hr]
        rfl
      show _ = (match (cancelTask s.db now i).map (Prod.map id Reply.cancelled) with
        | .ok (db, r) => _
        | .error e => _)
      rw [hnothing]
      rfl
    | some row => exact cancelOn_eq hr
  | _ => rfl

end ControlPlane
