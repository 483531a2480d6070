import ControlPlane.Lib.Fallible
import ControlPlane.Db.Models

/-! # Statements on a database whose constraints always hold

`Database` bundles the tables with the proofs of their constraints. The
statements below are the only ones the queries use: a guarded `UPDATE` of
`tasks` or `task_attempts`, and an `INSERT` into each table. Each checks the
constraint it could break and raises when it would, so none builds an invalid
database. -/

namespace ControlPlane
open Keyed Fallible

inductive DbError where
  /-- A value that its column's type does not hold. -/
  | dataError
  | checkViolation (constraint : String)
  | uniqueViolation (constraint : String)
  | foreignKeyViolation (constraint : String)
  | invalidRowCount
  deriving DecidableEq, Repr

/-- What can end a transaction before its commit. -/
inductive Raised where
  | integrity (e : DbError)
  | illegalTransition (frm dest : State)
  | valueError (message : String)
  | assertionError (message : String)
  | payloadMismatch (existing : TaskId)
  | lookupError (message : String)
  deriving DecidableEq, Repr

def AttemptRow.key (a : AttemptRow) : TaskId × Int := (a.taskId, a.attempt)

/-- The key of the partial unique index `idx_tasks_idem`. -/
def Task.idemKey (t : Task) : Option (TenantId × String) :=
  t.idempotencyKey.map fun k => (t.tenantId, k)

/-- The columns fixed at submission; no `UPDATE` of the program assigns them. -/
structure Task.Pinned where
  id : TaskId
  tenantId : TenantId
  taskType : String
  payload : JsonObject
  idempotencyKey : Option String
  priority : Int
  maxAttempts : Int
  maxExecutionTimeS : Int
  agentVersionId : Option VersionId
  requiredCapabilities : List String
  capabilityKey : String
  createdAt : Time

def Task.pinned (t : Task) : Pinned where
  id := t.id
  tenantId := t.tenantId
  taskType := t.taskType
  payload := t.payload
  idempotencyKey := t.idempotencyKey
  priority := t.priority
  maxAttempts := t.maxAttempts
  maxExecutionTimeS := t.maxExecutionTimeS
  agentVersionId := t.agentVersionId
  requiredCapabilities := t.requiredCapabilities
  capabilityKey := t.capabilityKey
  createdAt := t.createdAt

theorem Task.idemKey_of_pinned {t u : Task} (h : t.pinned = u.pinned) : t.idemKey = u.idemKey := by
  unfold Task.idemKey
  rw [show t.idempotencyKey = u.idempotencyKey from congrArg Task.Pinned.idempotencyKey h,
    show t.tenantId = u.tenantId from congrArg Task.Pinned.tenantId h]

/-- A value of a `SMALLINT` column. -/
def smallint (n : Int) : Bool := decide (-32768 ≤ n ∧ n ≤ 32767)

/-- A value of an `INTEGER` column. -/
def integer (n : Int) : Bool := decide (-2147483648 ≤ n ∧ n ≤ 2147483647)

/-- Each column's type holds its value. -/
def Task.Pinned.storable (p : Task.Pinned) : Bool :=
  smallint p.priority && integer p.maxAttempts && integer p.maxExecutionTimeS &&
    storableText p.taskType && p.idempotencyKey.all storableText &&
    p.requiredCapabilities.all storableText && storableText p.capabilityKey &&
    Json.storableFields p.payload

/-- Why the table does not accept the row, if it does not: PostgreSQL reads the values
before it checks them. -/
def Task.refused (t : Task) : Option DbError :=
  if t.pinned.storable then t.violation.map .checkViolation else some .dataError

theorem Task.refused_eq_none {t : Task} :
    t.refused = none ↔ t.pinned.storable = true ∧ t.Checked := by
  unfold refused Checked
  split
  · rename_i hs
    simp [hs]
  · rename_i hs
    simp [hs]

structure Database where
  tenants : Table Tenant Tenant.id
  workers : Table WorkerRow WorkerRow.id
  tasks : Table Task Task.id
  attempts : Table AttemptRow AttemptRow.key
  events : List TaskEvent
  tasks_storable : ∀ t ∈ tasks.rows, t.pinned.storable = true
  tasks_checked : ∀ t ∈ tasks.rows, t.Checked
  tasks_tenant : ∀ t ∈ tasks.rows, (tenants.find? t.tenantId).isSome = true
  tasks_idem : ∀ t ∈ tasks.rows, ∀ u ∈ tasks.rows, t.idemKey.isSome = true →
    t.idemKey = u.idemKey → t.id = u.id
  attempts_task : ∀ a ∈ attempts.rows, (tasks.find? a.taskId).isSome = true
  attempts_worker : ∀ a ∈ attempts.rows, (workers.find? a.workerId).isSome = true
  events_task : ∀ e ∈ events, (tasks.find? e.taskId).isSome = true

def Database.empty : Database where
  tenants := .empty
  workers := .empty
  tasks := .empty
  attempts := .empty
  events := []
  tasks_storable := by simp [Table.empty]
  tasks_checked := by simp [Table.empty]
  tasks_tenant := by simp [Table.empty]
  tasks_idem := by simp [Table.empty]
  attempts_task := by simp [Table.empty]
  attempts_worker := by simp [Table.empty]
  events_task := by simp

def Database.task? (db : Database) (i : TaskId) : Option Task := db.tasks.find? i

def Database.attempt? (db : Database) (i : TaskId) (a : Int) : Option AttemptRow :=
  db.attempts.find? (i, a)

/-! ## Writing `tasks` -/

/-- A `SET` clause of `UPDATE tasks`. -/
structure TaskWrite where
  row : Task → Task
  pinned : ∀ t, (row t).pinned = t.pinned

theorem TaskWrite.id (w : TaskWrite) (t : Task) : (w.row t).id = t.id :=
  congrArg Task.Pinned.id (w.pinned t)

theorem TaskWrite.tenantId (w : TaskWrite) (t : Task) : (w.row t).tenantId = t.tenantId :=
  congrArg Task.Pinned.tenantId (w.pinned t)

/-- The tasks table an `UPDATE` leaves. -/
def Database.tasksAfter (db : Database) (p : Task → Bool) (w : TaskWrite) : Table Task Task.id :=
  db.tasks.modify p w.row w.id

theorem Database.tasksAfter_row {db : Database} {p : Task → Bool} {w : TaskWrite} {t : Task}
    (h : t ∈ (db.tasksAfter p w).rows) :
    ∃ s ∈ db.tasks.rows, t.pinned = s.pinned := by
  obtain ⟨s, hs, rfl⟩ := Table.mem_modify.mp h
  refine ⟨s, hs, ?_⟩
  split
  · exact w.pinned s
  · rfl

theorem Database.tasksAfter_isSome {db : Database} {p : Task → Bool} {w : TaskWrite} {i : TaskId}
    (h : (db.tasks.find? i).isSome = true) : ((db.tasksAfter p w).find? i).isSome = true := by
  unfold tasksAfter
  rw [Table.find?_modify, Option.isSome_map]
  exact h

/-- `UPDATE tasks SET w WHERE p RETURNING *`. -/
def updateTasks (db : Database) (p : Task → Bool) (w : TaskWrite) :
    Except Raised (Database × List Task) :=
  match h : (db.tasksAfter p w).rows.findSome? Task.violation with
  | some c => .error (.integrity (.checkViolation c))
  | none => .ok ({ db with
      tasks := db.tasksAfter p w
      tasks_storable := fun t ht => by
        obtain ⟨s, hs, hpinned⟩ := Database.tasksAfter_row ht
        rw [hpinned]; exact db.tasks_storable s hs
      tasks_checked := List.findSome?_eq_none_iff.mp h
      tasks_tenant := fun t ht => by
        obtain ⟨s, hs, hpinned⟩ := Database.tasksAfter_row ht
        rw [show t.tenantId = s.tenantId from congrArg Task.Pinned.tenantId hpinned]
        exact db.tasks_tenant s hs
      tasks_idem := fun t ht u hu hk he => by
        obtain ⟨s, hs, hpinned⟩ := Database.tasksAfter_row ht
        obtain ⟨s', hs', hpinned'⟩ := Database.tasksAfter_row hu
        rw [show t.id = s.id from congrArg Task.Pinned.id hpinned,
          show u.id = s'.id from congrArg Task.Pinned.id hpinned']
        have hks := Task.idemKey_of_pinned hpinned
        have hks' := Task.idemKey_of_pinned hpinned'
        exact db.tasks_idem s hs s' hs' (hks ▸ hk) (hks ▸ hks' ▸ he)
      attempts_task := fun a ha => Database.tasksAfter_isSome (db.attempts_task a ha)
      events_task := fun e he => Database.tasksAfter_isSome (db.events_task e he) },
      db.tasks.modified p w.row)

/-- What an `UPDATE tasks` that returned did: the selected rows are rewritten
and returned, no other table changes. -/
theorem updateTasks_ok {db db' : Database} {p : Task → Bool} {w : TaskWrite} {rows : List Task}
    (h : updateTasks db p w = .ok (db', rows)) :
    db'.tasks = db.tasksAfter p w ∧ rows = db.tasks.modified p w.row ∧
      db'.attempts = db.attempts ∧ db'.events = db.events ∧ db'.tenants = db.tenants ∧
      db'.workers = db.workers := by
  unfold updateTasks at h
  split at h
  · cases h
  · cases h; exact ⟨rfl, rfl, rfl, rfl, rfl, rfl⟩

/-- An `UPDATE` that keeps the check constraints of the rows it selects succeeds. -/
theorem updateTasks_succeeds (db : Database) (p : Task → Bool) (w : TaskWrite)
    (h : ∀ t ∈ db.tasks.rows, p t = true → (w.row t).Checked) :
    ∃ db', updateTasks db p w = .ok (db', db.tasks.modified p w.row) := by
  have hall : (db.tasksAfter p w).rows.findSome? Task.violation = none := by
    rw [List.findSome?_eq_none_iff]
    intro t ht
    obtain ⟨s, hs, rfl⟩ := Table.mem_modify.mp ht
    split
    · rename_i hp; exact h s hs hp
    · exact db.tasks_checked s hs
  unfold updateTasks
  split
  · rename_i c hc; rw [hall] at hc; cases hc
  · exact ⟨_, rfl⟩

theorem task?_of_tasks {db db' : Database} {p : Task → Bool} {w : TaskWrite}
    (h : db'.tasks = db.tasksAfter p w) (i : TaskId) :
    db'.task? i = (db.task? i).map fun t => if p t then w.row t else t := by
  unfold Database.task?
  rw [h]
  exact Table.find?_modify _ _ _ _ _

/-- `INSERT INTO tasks … ON CONFLICT (tenant_id, idempotency_key) WHERE
idempotency_key IS NOT NULL DO NOTHING`; `none` when it did nothing. -/
def insertTask (db : Database) (t : Task) : Except Raised (Option Database) :=
  match hc : t.refused with
  | some e => .error (.integrity e)
  | none =>
    if hi : t.idemKey.isSome = true ∧ ∃ u ∈ db.tasks.rows, u.idemKey = t.idemKey then .ok none
    else match hp : db.tasks.insert? t with
    | none => .error (.integrity (.uniqueViolation "tasks_pkey"))
    | some tasks =>
      if ht : (db.tenants.find? t.tenantId).isSome = true then
        .ok (some { db with
          tasks := tasks
          tasks_storable := by
            rw [Table.insert?_rows hp]
            simpa [or_imp, forall_and] using
              And.intro db.tasks_storable (Task.refused_eq_none.mp hc).1
          tasks_checked := by
            rw [Table.insert?_rows hp]
            simpa [or_imp, forall_and] using
              And.intro db.tasks_checked (Task.refused_eq_none.mp hc).2
          tasks_tenant := by
            rw [Table.insert?_rows hp]
            simpa [or_imp, forall_and] using And.intro db.tasks_tenant ht
          tasks_idem := by
            rw [Table.insert?_rows hp]
            intro s hs u hu hk he
            simp only [List.mem_append, List.mem_singleton] at hs hu
            rcases hs with hs | rfl <;> rcases hu with hu | rfl
            · exact db.tasks_idem s hs u hu hk he
            · exact absurd ⟨he ▸ hk, s, hs, he⟩ hi
            · exact absurd ⟨hk, u, hu, he.symm⟩ hi
            · rfl
          attempts_task := fun a ha => by
            rw [Table.find?_insert? hp]
            split
            · rfl
            · exact db.attempts_task a ha
          events_task := fun e he => by
            rw [Table.find?_insert? hp]
            split
            · rfl
            · exact db.events_task e he })
      else .error (.integrity (.foreignKeyViolation "tasks_tenant_id_fkey"))

theorem insertTask_some {db db' : Database} {t : Task} (h : insertTask db t = .ok (some db')) :
    db.tasks.insert? t = some db'.tasks ∧ t.Checked ∧
      (db.tenants.find? t.tenantId).isSome = true ∧ db'.attempts = db.attempts ∧
      db'.events = db.events ∧ db'.tenants = db.tenants ∧ db'.workers = db.workers := by
  unfold insertTask at h
  split at h
  · cases h
  · rename_i hc
    split at h
    · cases h
    · split at h
      · cases h
      · rename_i tasks hp
        split at h
        · rename_i ht
          cases h
          exact ⟨hp, (Task.refused_eq_none.mp hc).2, ht, rfl, rfl, rfl, rfl⟩
        · cases h

/-- **What an insert does**: the row is refused, or the key is taken and it does nothing,
or it succeeds or fails on another constraint. -/
theorem insertTask_cases (db : Database) (t : Task) :
    (∃ e, t.refused = some e ∧ insertTask db t = .error (.integrity e)) ∨
      (∃ κ, t.idemKey = some κ ∧ (∃ u ∈ db.tasks.rows, u.idemKey = some κ) ∧
        insertTask db t = .ok none) ∨
      (∀ κ, t.idemKey = some κ → ∀ u ∈ db.tasks.rows, u.idemKey ≠ some κ) ∧
        ((∃ db', insertTask db t = .ok (some db')) ∨
          ∃ e, insertTask db t = .error (.integrity e)) := by
  unfold insertTask
  split
  · rename_i e he
    exact Or.inl ⟨e, he, rfl⟩
  · split
    · rename_i htaken
      obtain ⟨hkey, u, hu, he⟩ := htaken
      obtain ⟨κ, hκ⟩ := Option.isSome_iff_exists.mp hkey
      exact Or.inr (Or.inl ⟨κ, hκ, ⟨u, hu, he.trans hκ⟩, rfl⟩)
    · rename_i hfree
      refine Or.inr (Or.inr ⟨fun κ hκ u hu he => hfree ⟨?_, u, hu, he.trans hκ.symm⟩, ?_⟩)
      · rw [hκ]
        rfl
      · split
        · exact Or.inr ⟨_, rfl⟩
        · split
          · exact Or.inl ⟨_, rfl⟩
          · exact Or.inr ⟨_, rfl⟩

theorem insertTask_refused {db : Database} {t : Task} {e : DbError} (he : t.refused = some e) :
    insertTask db t = .error (.integrity e) := by
  unfold insertTask
  split
  · rename_i e' he'
    rw [he] at he'
    rw [Option.some.inj he']
  · rename_i hnone
    rw [he] at hnone
    cases hnone

/-- An insert of a row that is not refused, under a new id and a free key, succeeds. -/
theorem insertTask_fresh {db : Database} {t : Task} (hc : t.refused = none)
    (hkey : t.idemKey.isSome = true → ∀ u ∈ db.tasks.rows, u.idemKey ≠ t.idemKey)
    (hfresh : db.task? t.id = none) (ht : (db.tenants.find? t.tenantId).isSome = true) :
    ∃ db', insertTask db t = .ok (some db') := by
  have hfree : ¬ (t.idemKey.isSome = true ∧ ∃ u ∈ db.tasks.rows, u.idemKey = t.idemKey) := by
    intro h
    obtain ⟨hk, u, hu, he⟩ := h
    exact hkey hk u hu he
  unfold insertTask
  split
  · rename_i e hrefused
    rw [hc] at hrefused
    cases hrefused
  · rw [dif_neg hfree]
    split
    · rename_i hp
      have hsome := Table.insert?_eq_none.mp hp
      rw [show db.tasks.find? t.id = none from hfresh] at hsome
      cases hsome
    · rw [dif_pos ht]
      exact ⟨_, rfl⟩

/-! ## Writing `task_attempts` and `task_events` -/

/-- `INSERT INTO task_attempts`, one row. -/
def insertAttempt (db : Database) (a : AttemptRow) : Except Raised Database :=
  match hp : db.attempts.insert? a with
  | none => .error (.integrity (.uniqueViolation "pk_task_attempts"))
  | some attempts =>
    if ht : (db.tasks.find? a.taskId).isSome = true then
      if hw : (db.workers.find? a.workerId).isSome = true then
        .ok { db with
          attempts := attempts
          attempts_task := by
            rw [Table.insert?_rows hp]
            simpa [or_imp, forall_and] using And.intro db.attempts_task ht
          attempts_worker := by
            rw [Table.insert?_rows hp]
            simpa [or_imp, forall_and] using And.intro db.attempts_worker hw }
      else .error (.integrity (.foreignKeyViolation "task_attempts_worker_id_fkey"))
    else .error (.integrity (.foreignKeyViolation "task_attempts_task_id_fkey"))

theorem insertAttempt_ok {db db' : Database} {a : AttemptRow} (h : insertAttempt db a = .ok db') :
    db.attempts.insert? a = some db'.attempts ∧ (db.workers.find? a.workerId).isSome = true ∧
      db'.tasks = db.tasks ∧ db'.events = db.events ∧ db'.tenants = db.tenants ∧
      db'.workers = db.workers := by
  unfold insertAttempt at h
  split at h
  · cases h
  · rename_i attempts hp
    split at h
    · split at h
      · rename_i hw
        cases h
        exact ⟨hp, hw, rfl, rfl, rfl, rfl⟩
      · cases h
    · cases h

/-- `UPDATE task_attempts SET … WHERE task_id = … AND attempt = …`. -/
def updateAttempt (db : Database) (i : TaskId) (a : Int) (f : AttemptRow → AttemptRow)
    (hk : ∀ r, (f r).key = r.key) (hw : ∀ r, (f r).workerId = r.workerId) : Database :=
  { db with
    attempts := db.attempts.modify (fun r => r.taskId = i && r.attempt = a) f hk
    attempts_task := fun r hr => by
      obtain ⟨s, hs, rfl⟩ := Table.mem_modify.mp hr
      split
      · rw [show (f s).taskId = s.taskId from congrArg Prod.fst (hk s)]
        exact db.attempts_task s hs
      · exact db.attempts_task s hs
    attempts_worker := fun r hr => by
      obtain ⟨s, hs, rfl⟩ := Table.mem_modify.mp hr
      split
      · rw [hw]; exact db.attempts_worker s hs
      · exact db.attempts_worker s hs }

/-- `INSERT INTO task_events`, one row. -/
def insertEvent (db : Database) (e : TaskEvent) : Except Raised Database :=
  if h : (db.tasks.find? e.taskId).isSome = true then
    .ok { db with
      events := db.events ++ [e]
      events_task := by simpa [or_imp, forall_and] using And.intro db.events_task h }
  else .error (.integrity (.foreignKeyViolation "task_events_task_id_fkey"))

theorem insertEvent_ok {db db' : Database} {e : TaskEvent} (h : insertEvent db e = .ok db') :
    db'.events = db.events ++ [e] ∧ db'.tasks = db.tasks ∧ db'.attempts = db.attempts ∧
      db'.tenants = db.tenants ∧ db'.workers = db.workers := by
  unfold insertEvent at h
  split at h
  · cases h; exact ⟨rfl, rfl, rfl, rfl, rfl⟩
  · cases h

theorem insertEvent_succeeds {db : Database} {e : TaskEvent} (h : (db.task? e.taskId).isSome = true) :
    ∃ db', insertEvent db e = .ok db' := by
  unfold insertEvent
  rw [dif_pos (show (db.tasks.find? e.taskId).isSome = true from h)]
  exact ⟨_, rfl⟩

theorem insertEvents_succeed (es : List TaskEvent) (db : Database)
    (h : ∀ e ∈ es, (db.task? e.taskId).isSome = true) :
    ∃ db', es.foldlM insertEvent db = .ok db' := by
  induction es generalizing db with
  | nil => exact ⟨db, rfl⟩
  | cons e es ih =>
    obtain ⟨db₁, h₁⟩ := insertEvent_succeeds (h e (by simp))
    have htasks : db₁.tasks = db.tasks := (insertEvent_ok h₁).2.1
    obtain ⟨db₂, h₂⟩ := ih db₁ fun e' he' => by
      unfold Database.task?
      rw [htasks]
      exact h e' (by simp [he'])
    exact ⟨db₂, by rw [List.foldlM_cons]; exact bind_ok.mpr ⟨db₁, h₁, h₂⟩⟩

/-- A ledger insert under a free key of a task that exists fails on the worker only. -/
theorem insertAttempt_fresh {db : Database} {a : AttemptRow}
    (hfree : db.attempt? a.taskId a.attempt = none) (ht : (db.task? a.taskId).isSome = true) :
    (∃ db', insertAttempt db a = .ok db') ∨
      (insertAttempt db a = .error (.integrity (.foreignKeyViolation "task_attempts_worker_id_fkey")) ∧
        db.workers.find? a.workerId = none) := by
  unfold insertAttempt
  split
  · rename_i hp
    have hsome := Table.insert?_eq_none.mp hp
    rw [show db.attempts.find? a.key = db.attempt? a.taskId a.attempt from rfl, hfree] at hsome
    cases hsome
  · rw [dif_pos (show (db.tasks.find? a.taskId).isSome = true from ht)]
    split
    · exact Or.inl ⟨_, rfl⟩
    · rename_i hw
      exact Or.inr ⟨rfl, Option.not_isSome_iff_eq_none.mp hw⟩

theorem insertAttempts_fresh (rs : List AttemptRow) (db : Database)
    (hnd : (rs.map AttemptRow.key).Nodup) (hfree : ∀ r ∈ rs, db.attempt? r.taskId r.attempt = none)
    (ht : ∀ r ∈ rs, (db.task? r.taskId).isSome = true) :
    (∃ db', rs.foldlM insertAttempt db = .ok db') ∨
      (rs.foldlM insertAttempt db =
          .error (.integrity (.foreignKeyViolation "task_attempts_worker_id_fkey")) ∧
        ∃ r ∈ rs, db.workers.find? r.workerId = none) := by
  induction rs generalizing db with
  | nil => exact Or.inl ⟨db, rfl⟩
  | cons r rs ih =>
    rw [List.map_cons, List.nodup_cons] at hnd
    rw [List.foldlM_cons]
    rcases insertAttempt_fresh (hfree r (by simp)) (ht r (by simp)) with ⟨db₁, h₁⟩ | ⟨h₁, hw⟩
    · obtain ⟨hrows, -, htasks, -, -, hworkers⟩ := insertAttempt_ok h₁
      have hrest := ih db₁ hnd.2
        (fun s hs => by
          have hne : r.key ≠ (s.taskId, s.attempt) := fun (he : r.key = s.key) =>
            hnd.1 (he ▸ List.mem_map_of_mem hs)
          unfold Database.attempt?
          rw [Table.find?_insert? hrows, if_neg hne]
          exact hfree s (by simp [hs]))
        (fun s hs => by unfold Database.task?; rw [htasks]; exact ht s (by simp [hs]))
      rw [h₁]
      rcases hrest with ⟨db₂, h₂⟩ | ⟨h₂, s, hs, hw⟩
      · exact Or.inl ⟨db₂, h₂⟩
      · exact Or.inr ⟨h₂, s, by simp [hs], hworkers ▸ hw⟩
    · rw [h₁]
      exact Or.inr ⟨rfl, r, by simp, hw⟩

end ControlPlane
