import ControlPlane.Domain.Agents
import ControlPlane.Db.Transitions

/-! # Submission and cancellation

A submission inserts once for each idempotency key of a tenant and answers a
repeat with the task that is there. A cancellation ends a QUEUED task at once
and leaves a flag on a RUNNING one; the bulk form, for the versions of a
disabled agent, does the same in two `UPDATE`s that do not go through
`transition`. -/

namespace ControlPlane
open Keyed Fallible

structure SubmitArgs where
  tenantId : TenantId
  taskType : String
  payload : JsonObject
  idempotencyKey : Option String := none
  priority : Int := 100
  maxAttempts : Int := 3
  maxExecutionTimeS : Int := 300
  availableAt : Option Time := none
  agentVersionId : Option VersionId := none
  requiredCapabilities : List String := []

structure SubmitResult where
  created : Bool
  task : Task

def withoutTrace (payload : JsonObject) : JsonObject := payload.filter fun kv => kv.1 != "_trace"

theorem withoutTrace_jsonb (payload : JsonObject) :
    withoutTrace (Json.jsonbFields payload) = Json.jsonbFields (withoutTrace payload) :=
  Json.jsonbFields_filter (fun k => k != "_trace") payload

/-- The row of a submission, as it is read back, with the defaults of the columns it
leaves out. -/
def submittedTask [PyText] (now : Time) (newId : TaskId) (args : SubmitArgs) : Task where
  id := newId
  tenantId := args.tenantId
  taskType := args.taskType
  payload := Json.jsonbFields args.payload
  idempotencyKey := args.idempotencyKey
  priority := args.priority
  maxAttempts := args.maxAttempts
  maxExecutionTimeS := args.maxExecutionTimeS
  state := .queued
  agentVersionId := args.agentVersionId
  requiredCapabilities := args.requiredCapabilities
  capabilityKey := capabilityKey args.requiredCapabilities
  availableAt := args.availableAt.getD now
  createdAt := now
  updatedAt := now

def createdEvent (now : Time) (newId : TaskId) (args : SubmitArgs) : TaskEvent where
  taskId := newId
  attempt := some 0
  eventType := .taskCreated
  workerId := none
  data := .obj [("task_type", .str args.taskType), ("priority", .int args.priority)]
  createdAt := now

/-- The same event, read off the row. -/
def Task.creationEvent (t : Task) : TaskEvent where
  taskId := t.id
  attempt := some 0
  eventType := .taskCreated
  workerId := none
  data := .obj [("task_type", .str t.taskType), ("priority", .int t.priority)]
  createdAt := t.createdAt

/-- `newId` is the id the server draws for the row. -/
def submitTask [PyText] (db : Database) (now : Time) (newId : TaskId) (args : SubmitArgs) :
    Except Raised (Database × SubmitResult) := do
  let row := submittedTask now newId args
  match ← insertTask db row with
  | some db =>
    let db ← insertEvent db (createdEvent now newId args)
    pure (db, ⟨true, row⟩)
  | none =>
    match db.tasks.rows.find? fun t =>
      t.tenantId == args.tenantId && t.idempotencyKey == args.idempotencyKey with
    | none =>
      .error (.lookupError "insert conflicted but no row is visible; retry the submission")
    | some existing =>
      -- `_trace` differs on every request, also on an honest repeat of one
      ensure (Json.pyEq (.obj (withoutTrace existing.payload))
        (.obj (withoutTrace args.payload)) = true) (.payloadMismatch existing.id)
      pure (db, ⟨false, existing⟩)

/-- What a submission that inserted does to its task's share of the database. -/
def submittedView [PyText] (now : Time) (newId : TaskId) (args : SubmitArgs) : TaskView where
  row := some (submittedTask now newId args)
  attempts := []
  events := [createdEvent now newId args]

/-- **A submission that returned** either created a task under a new id or found
the one that holds its key and changed nothing. -/
theorem submitTask_ok [PyText] {db db' : Database} {now : Time} {newId : TaskId} {args : SubmitArgs}
    {res : SubmitResult} (h : submitTask db now newId args = .ok (db', res)) :
    SameParties db db' ∧
    ((res = ⟨true, submittedTask now newId args⟩ ∧ db.task? newId = none ∧
        db'.view = Function.update db.view newId (submittedView now newId args)) ∨
      (res.created = false ∧ res.task ∈ db.tasks.rows ∧
        res.task.tenantId = args.tenantId ∧ res.task.idempotencyKey = args.idempotencyKey ∧
        db' = db)) := by
  unfold submitTask at h
  obtain ⟨inserted, hins, h⟩ := bind_ok.mp h
  cases inserted with
  | some db₁ =>
    obtain ⟨db₂, hev, h⟩ := bind_ok.mp h
    obtain ⟨rfl, rfl⟩ := Prod.mk.inj (pure_ok.mp h)
    obtain ⟨hrow, -, -, ha, he, ht, hw⟩ := insertTask_some hins
    have hfresh : db.task? newId = none := Table.insert?_fresh hrow
    refine ⟨SameParties.trans ⟨ht, hw⟩ (insertEvent_parties hev), Or.inl ⟨rfl, hfresh, ?_⟩⟩
    funext j
    rw [insertEvent_view hev]
    simp only [Database.view, ha, he]
    rw [show db₁.task? j = if newId = j then some (submittedTask now newId args) else db.task? j
      from Table.find?_insert? hrow j]
    by_cases hj : j = newId
    · subst hj
      -- nothing could refer to the task before it existed
      have hempty := Database.view_absent hfresh
      simp only [Database.view, TaskView.mk.injEq] at hempty
      rw [Function.update_self, if_pos rfl, hempty.2.1, hempty.2.2]
      simp [submittedView, createdEvent]
    · have hj' : newId ≠ j := Ne.symm hj
      rw [Function.update_of_ne hj, if_neg hj']
      simp [createdEvent, hj', Database.view]
  | none =>
    dsimp only at h
    split at h
    · cases h
    · rename_i existing hfind
      obtain ⟨_, -, h⟩ := bind_ok.mp h
      obtain ⟨rfl, rfl⟩ := Prod.mk.inj (pure_ok.mp h)
      have hsel := List.find?_some hfind
      simp only [Bool.and_eq_true, beq_iff_eq] at hsel
      exact ⟨.refl db, Or.inr ⟨rfl, List.mem_of_find?_eq_some hfind, hsel.1, hsel.2, rfl⟩⟩

/-- PostgreSQL reads and checks the values of a row before it looks for its key. -/
theorem submitTask_refused [PyText] {db : Database} {now : Time} {newId : TaskId}
    {args : SubmitArgs} {e : DbError} (h : (submittedTask now newId args).refused = some e) :
    submitTask db now newId args = .error (.integrity e) := by
  unfold submitTask
  dsimp only
  rw [insertTask_refused h]
  rfl

/-- A submission whose key is free creates its task or fails on a constraint. -/
theorem submitTask_free [PyText] {db : Database} {now : Time} {newId : TaskId} {args : SubmitArgs}
    (hfree : ∀ κ, (submittedTask now newId args).idemKey = some κ →
      ∀ u ∈ db.tasks.rows, u.idemKey ≠ some κ) :
    (∃ db', submitTask db now newId args = .ok (db', ⟨true, submittedTask now newId args⟩)) ∨
      ∃ e, submitTask db now newId args = .error (.integrity e) := by
  unfold submitTask
  dsimp only
  rcases insertTask_cases db (submittedTask now newId args) with ⟨c, -, hc⟩ |
    ⟨κ, hκ, ⟨u, hu, he⟩, -⟩ | ⟨-, ⟨db₁, hins⟩ | ⟨e, hins⟩⟩
  · rw [hc]
    exact Or.inr ⟨_, rfl⟩
  · exact absurd he (hfree κ hκ u hu)
  · rw [hins, ok_bind]
    dsimp only
    unfold insertEvent
    split
    · exact Or.inl ⟨_, rfl⟩
    · exact Or.inr ⟨_, rfl⟩
  · rw [hins]
    exact Or.inr ⟨_, rfl⟩

/-- The database has one more task, with its event, and is otherwise as it was. -/
structure Database.Inserted (db : Database) (t : Task) (db' : Database) : Prop where
  tasks : db'.tasks.rows = db.tasks.rows ++ [t]
  events : db'.events = db.events ++ [t.creationEvent]
  attempts : db'.attempts = db.attempts
  tenants : db'.tenants = db.tenants
  workers : db'.workers = db.workers

/-- A submission under a new id and a free key, with values the table accepts, appends
its row and the event of it. -/
theorem submitTask_creates [PyText] {db : Database} {now : Time} {newId : TaskId}
    {args : SubmitArgs} (haccepted : (submittedTask now newId args).refused = none)
    (hfree : (submittedTask now newId args).idemKey.isSome = true →
      ∀ u ∈ db.tasks.rows, u.idemKey ≠ (submittedTask now newId args).idemKey)
    (hfresh : db.task? newId = none) (ht : (db.tenants.find? args.tenantId).isSome = true) :
    ∃ db', submitTask db now newId args = .ok (db', ⟨true, submittedTask now newId args⟩) ∧
      db.Inserted (submittedTask now newId args) db' := by
  obtain ⟨db₁, h₁⟩ : ∃ db₁, insertTask db (submittedTask now newId args) = .ok (some db₁) :=
    insertTask_fresh haccepted hfree hfresh ht
  obtain ⟨hrow, -, -, hattempts, hevents, htenants, hworkers⟩ := insertTask_some h₁
  have hthere : (db₁.task? newId).isSome = true := by
    unfold Database.task?
    rw [Table.find?_insert? hrow, if_pos (show (submittedTask now newId args).id = newId from rfl)]
    rfl
  obtain ⟨db₂, h₂⟩ : ∃ db₂, insertEvent db₁ (createdEvent now newId args) = .ok db₂ :=
    insertEvent_succeeds hthere
  obtain ⟨hevents₂, htasks₂, hattempts₂, htenants₂, hworkers₂⟩ := insertEvent_ok h₂
  refine ⟨db₂, ?_, ?_, ?_, hattempts₂.trans hattempts, htenants₂.trans htenants,
    hworkers₂.trans hworkers⟩
  · unfold submitTask
    dsimp only
    rw [h₁, ok_bind]
    dsimp only
    rw [h₂, ok_bind]
    rfl
  · rw [htasks₂, Table.insert?_rows hrow]
  · rw [hevents₂, hevents]
    rfl

/-- Without a key there is none that could be taken. -/
theorem submitTask_keyless [PyText] {db : Database} {now : Time} {newId : TaskId}
    {args : SubmitArgs} (hkey : args.idempotencyKey = none)
    (haccepted : (submittedTask now newId args).refused = none) (hfresh : db.task? newId = none)
    (ht : (db.tenants.find? args.tenantId).isSome = true) :
    ∃ db', submitTask db now newId args = .ok (db', ⟨true, submittedTask now newId args⟩) ∧
      db'.tasks.rows = db.tasks.rows ++ [submittedTask now newId args] ∧
      db'.tenants = db.tenants := by
  have hnone : (submittedTask now newId args).idemKey = none := by
    simp [Task.idemKey, submittedTask, hkey]
  obtain ⟨db', h, hins⟩ := submitTask_creates haccepted
    (fun hk => by rw [hnone] at hk; cases hk) hfresh ht
  exact ⟨db', h, hins.tasks, hins.tenants⟩

/-- How many tasks a tenant has waiting, deferred retries included. -/
def queuedCountForTenant (db : Database) (tenantId : TenantId) : Nat :=
  db.tasks.rows.countP fun t => t.tenantId == tenantId && t.state == .queued

/-! ## Cancelling one task -/

inductive CancelOutcome where
  | notFound | cancelled | requested | alreadyRequested | alreadyCancelled | alreadyTerminal
  deriving DecidableEq, Repr

structure CancelResult where
  outcome : CancelOutcome
  task : Option Task := none

/-- `SET cancel_requested = true, updated_at = now()`. -/
def flagWrite (now : Time) : TaskWrite where
  row t := { t with cancelRequested := true, updatedAt := now }
  pinned _ := rfl

def cancelFields (now : Time) : SetFields :=
  { cancelRequested := some true, finishedAt := some now }

/-- What a cancellation does once it has read and locked the row. -/
def cancelSeen (db : Database) (now : Time) (taskId : TaskId) (row : Task) :
    Except Raised (Database × CancelResult) :=
  if row.state = .cancelled then pure (db, ⟨.alreadyCancelled, db.task? taskId⟩)
  else if row.state.isTerminal then pure (db, ⟨.alreadyTerminal, db.task? taskId⟩)
  else if row.state = .queued then do
    let (db, res) ← transition db now taskId [.queued] .cancelled .taskCancelled {}
      (cancelFields now) (.obj [("reason", .str "cancelled_before_start")])
    match res with
    | .applied task => pure (db, ⟨.cancelled, some task⟩)
    | .rejected why _ =>
      .error (.assertionError ("cancel lost a race it holds the row lock for: " ++ why.value))
  else if row.cancelRequested then pure (db, ⟨.alreadyRequested, db.task? taskId⟩)
  else do
    let (db, _) ← updateTasks db (fun t => t.id == taskId) (flagWrite now)
    let db ← recordEvent db now taskId .cancelRequested (some row.attempt) none
      (.obj [("source", .str "api")])
    pure (db, ⟨.requested, db.task? taskId⟩)

def cancelTask (db : Database) (now : Time) (taskId : TaskId) :
    Except Raised (Database × CancelResult) :=
  match db.task? taskId with
  | none => pure (db, ⟨.notFound, none⟩)
  | some row => cancelSeen db now taskId row

/-- On the row that is there, the two steps of a cancellation are the whole of it. -/
theorem cancelTask_seen {db : Database} {now : Time} {i : TaskId} {row : Task}
    (h : db.task? i = some row) : cancelTask db now i = cancelSeen db now i row := by
  unfold cancelTask
  rw [h]

/-- The row a cancellation before the start leaves. -/
def cancelledTask (now : Time) (t : Task) : Task :=
  (transitionWrite now .cancelled (cancelFields now)).row t

/-- What a cancellation does to its task's share of the database. -/
def cancelView (now : Time) (v : TaskView) : TaskView :=
  match v.row with
  | none => v
  | some t =>
    match t.state with
    | .queued => ⟨some (cancelledTask now t), v.attempts, v.events ++
        [⟨t.id, some t.attempt, .taskCancelled, pyOr t.leaseWorkerId none,
          .obj [("reason", .str "cancelled_before_start")], now⟩]⟩
    | .running =>
      if t.cancelRequested then v
      else ⟨some ((flagWrite now).row t), v.attempts, v.events ++
        [⟨t.id, some t.attempt, .cancelRequested, none, .obj [("source", .str "api")], now⟩]⟩
    | _ => v

/-- **A cancellation that returned.** -/
theorem cancelTask_ok {db db' : Database} {now : Time} {i : TaskId} {res : CancelResult}
    (h : cancelTask db now i = .ok (db', res)) :
    SameParties db db' ∧ db'.view = Function.update db.view i (cancelView now (db.view i)) := by
  have hnop : cancelView now (db.view i) = db.view i →
      db.view = Function.update db.view i (cancelView now (db.view i)) := fun he => by
    rw [he, Function.update_eq_self]
  unfold cancelTask at h
  split at h
  · rename_i hr
    obtain ⟨rfl, rfl⟩ := Prod.mk.inj (pure_ok.mp h)
    exact ⟨.refl db, hnop (by simp [cancelView, Database.view, hr])⟩
  · rename_i row hr
    have hid : row.id = i := Database.row_id hr
    have hrow : (db.view i).row = some row := hr
    unfold cancelSeen at h
    split at h
    · rename_i hs
      obtain ⟨rfl, rfl⟩ := Prod.mk.inj (pure_ok.mp h)
      exact ⟨.refl db, hnop (by simp [cancelView, hrow, hs])⟩
    split at h
    · rename_i hs
      obtain ⟨rfl, rfl⟩ := Prod.mk.inj (pure_ok.mp h)
      refine ⟨.refl db, hnop ?_⟩
      unfold cancelView
      rw [hrow]
      cases hst : row.state <;> simp_all [State.isTerminal, State.terminal]
    split at h
    · rename_i hs
      obtain ⟨⟨db₁, res₁⟩, htr, h⟩ := bind_ok.mp h
      obtain ⟨hp, ⟨t, ht, -, -, -, rfl, hv⟩ | ⟨hno, -, -⟩⟩ := transition_ok htr
      · obtain ⟨rfl, rfl⟩ := Prod.mk.inj (pure_ok.mp h)
        obtain rfl : t = row := Option.eq_some_unique ht hr
        refine ⟨hp, hv.trans ?_⟩
        simp only [cancelView, hrow, hs, hid]
        rfl
      · exact absurd ⟨by simp [hs], by simp [Expect.matches]⟩ (hno row hr)
    rename_i hcan hterm hque
    have hrun : row.state = .running := by
      cases hst : row.state <;> simp_all [State.isTerminal, State.terminal]
    split at h
    · rename_i hf
      obtain ⟨rfl, rfl⟩ := Prod.mk.inj (pure_ok.mp h)
      exact ⟨.refl db, hnop (by simp [cancelView, hrow, hrun, hf])⟩
    · rename_i hf
      obtain ⟨⟨db₁, rows⟩, hup, h⟩ := bind_ok.mp h
      obtain ⟨db₂, hev, h⟩ := bind_ok.mp h
      obtain ⟨rfl, rfl⟩ := Prod.mk.inj (pure_ok.mp h)
      obtain ⟨hp, ⟨t, ht, -, -, hv⟩ | ⟨hno, -, -⟩⟩ :=
        updateTask_ok (i := i) (fun t ht => by simpa using ht) hup
      · obtain rfl : t = row := Option.eq_some_unique ht hr
        refine ⟨hp.trans (insertEvent_parties hev), ?_⟩
        funext j
        rw [insertEvent_view hev, hv]
        by_cases hj : j = i
        · subst hj
          simp only [Function.update_self, if_pos, cancelView, hrow, hrun, hf, hid]
          rfl
        · rw [Function.update_of_ne hj, Function.update_of_ne hj, if_neg (Ne.symm hj),
            List.append_nil]
      · have := hno row hr
        simp [hid] at this

/-! ## Cancelling the tasks of an agent -/

/-- The `SET` clause for the QUEUED tasks of a disabled agent. -/
def agentDisabledWrite (now : Time) (reason : String) : TaskWrite where
  row t := { t with
    state := .cancelled
    cancelRequested := true
    finishedAt := some now
    updatedAt := now
    errorClass := some "AgentDisabled"
    errorMessage := some reason }
  pinned _ := rfl

def Task.ofVersions (t : Task) (versions : List VersionId) : Bool :=
  t.agentVersionId.any fun v => versions.contains v

def agentQueued (versions : List VersionId) (t : Task) : Bool :=
  t.ofVersions versions && t.state == .queued

def agentRunning (versions : List VersionId) (t : Task) : Bool :=
  t.ofVersions versions && t.state == .running && !t.cancelRequested

def agentCancelledEvent (now : Time) (reason : String) (t : Task) : TaskEvent :=
  ⟨t.id, some t.attempt, .taskCancelled, none, .obj [("reason", .str reason)], now⟩

def agentFlaggedEvent (now : Time) (reason : String) (t : Task) : TaskEvent :=
  ⟨t.id, some t.attempt, .cancelRequested, none,
    .obj [("reason", .str reason), ("source", .str "agent_disabled")], now⟩

theorem agentCancelledEvent_taskId (now : Time) (reason : String) (t : Task) :
    (agentCancelledEvent now reason t).taskId = t.id := rfl

theorem agentFlaggedEvent_taskId (now : Time) (reason : String) (t : Task) :
    (agentFlaggedEvent now reason t).taskId = t.id := rfl

/-- Two `UPDATE`s, of the rows two predicates select, and their events. -/
def cancelSelected (db : Database) (now : Time) (reason : String) (queued running : Task → Bool) :
    Except Raised (Database × Nat) := do
  let (db, queuedRows) ← updateTasks db queued (agentDisabledWrite now reason)
  let (db, runningRows) ← updateTasks db running (flagWrite now)
  let db ← (queuedRows.map (agentCancelledEvent now reason)).foldlM insertEvent db
  let db ← (runningRows.map (agentFlaggedEvent now reason)).foldlM insertEvent db
  pure (db, queuedRows.length + runningRows.length)

def cancelAgentTasks (db : Database) (now : Time) (agentVersionIds : List VersionId)
    (reason : String) : Except Raised (Database × Nat) :=
  if agentVersionIds = [] then pure (db, 0)
  else cancelSelected db now reason (agentQueued agentVersionIds) (agentRunning agentVersionIds)

/-- What two such `UPDATE`s do to a task's share of the database. -/
def cancelSelectedView (now : Time) (reason : String) (queued running : Task → Bool)
    (v : TaskView) : TaskView :=
  match v.row with
  | none => v
  | some t =>
    if queued t then
      let t' := (agentDisabledWrite now reason).row t
      ⟨some t', v.attempts, v.events ++ [agentCancelledEvent now reason t']⟩
    else if running t then
      let t' := (flagWrite now).row t
      ⟨some t', v.attempts, v.events ++ [agentFlaggedEvent now reason t']⟩
    else v

/-- What the bulk cancellation does to a task's share of the database. -/
def cancelAgentView (now : Time) (versions : List VersionId) (reason : String) :
    TaskView → TaskView :=
  cancelSelectedView now reason (agentQueued versions) (agentRunning versions)

/-- The events written for the rows an `UPDATE` returned, at one task. -/
theorem modified_events {db : Database} {p : Task → Bool} {w : TaskWrite}
    {f : Task → TaskEvent} (hf : ∀ t, (f t).taskId = t.id) (i : TaskId) :
    (((db.tasks.modified p w.row).map f).filter fun e => e.taskId = i) =
      ((db.task? i).filter p).toList.map (fun t => f (w.row t)) := by
  rw [List.filter_map]
  have hsel : (fun e : TaskEvent => decide (e.taskId = i)) ∘ f = fun t => decide (t.id = i) := by
    funext t
    simp only [Function.comp_apply, hf]
  rw [hsel, Table.modified_at w.id i, List.map_map]
  rfl

/-- **Two `UPDATE`s that returned**, the second of which selects no row the first
has written. -/
theorem cancelSelected_ok {db db' : Database} {now : Time} {reason : String}
    {queued running : Task → Bool} {n : Nat}
    (hdone : ∀ t, running ((agentDisabledWrite now reason).row t) = false)
    (h : cancelSelected db now reason queued running = .ok (db', n)) :
    SameParties db db' ∧
      ∀ i, db'.view i = cancelSelectedView now reason queued running (db.view i) := by
  unfold cancelSelected at h
  obtain ⟨⟨db₁, queuedRows⟩, h₁, h⟩ := bind_ok.mp h
  obtain ⟨⟨db₂, runningRows⟩, h₂, h⟩ := bind_ok.mp h
  obtain ⟨db₃, h₃, h⟩ := bind_ok.mp h
  obtain ⟨db₄, h₄, h⟩ := bind_ok.mp h
  obtain ⟨rfl, rfl⟩ := Prod.mk.inj (pure_ok.mp h)
  obtain ⟨hp₃, hv₃⟩ := insertEvents_view h₃
  obtain ⟨hp₄, hv₄⟩ := insertEvents_view h₄
  refine ⟨((updateTasks_parties h₁).trans (updateTasks_parties h₂)).trans (hp₃.trans hp₄),
    fun i => ?_⟩
  obtain ⟨ht₁, rfl, -⟩ := updateTasks_ok h₁
  obtain ⟨-, rfl, -⟩ := updateTasks_ok h₂
  simp only [hv₄, hv₃, updateTasks_view h₂, updateTasks_view h₁,
    modified_events (agentCancelledEvent_taskId now reason),
    modified_events (agentFlaggedEvent_taskId now reason), task?_of_tasks ht₁]
  unfold cancelSelectedView
  rw [Database.view_row]
  cases hr : db.task? i with
  | none => simp [Database.view, hr]
  | some t =>
    by_cases hq : queued t = true
    · simp [hq, hdone, Option.filter]
    · by_cases hu : running t = true
      · simp [hq, hu, Option.filter]
      · simp [hq, hu, Option.filter, Database.view, hr]

theorem agentRunning_disabled (now : Time) (reason : String) (versions : List VersionId) (t : Task) :
    agentRunning versions ((agentDisabledWrite now reason).row t) = false := by
  simp [agentRunning, agentDisabledWrite]

/-- **A bulk cancellation that returned.** -/
theorem cancelAgentTasks_ok {db db' : Database} {now : Time} {versions : List VersionId}
    {reason : String} {n : Nat} (h : cancelAgentTasks db now versions reason = .ok (db', n)) :
    SameParties db db' ∧ ∀ i, db'.view i = cancelAgentView now versions reason (db.view i) := by
  unfold cancelAgentTasks at h
  split at h
  · rename_i hnil
    obtain ⟨rfl, rfl⟩ := Prod.mk.inj (pure_ok.mp h)
    refine ⟨.refl db, fun i => ?_⟩
    unfold cancelAgentView cancelSelectedView
    cases hr : (db.view i).row with
    | none => rfl
    | some t =>
      have hv : t.ofVersions versions = false := by
        cases hav : t.agentVersionId <;> simp [Task.ofVersions, hnil, hav]
      simp [agentQueued, agentRunning, hv]
  · exact cancelSelected_ok (agentRunning_disabled now reason versions) h

end ControlPlane
