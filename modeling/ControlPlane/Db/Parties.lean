import ControlPlane.Db.View

/-! # Tenants and workers

Tenants carry the limits, workers their identity and liveness. The queries here
write neither tasks nor ledger; a task's share of the database is the same
before and after each. -/

namespace ControlPlane
open Keyed Fallible

/-- `INSERT INTO tenants`, under the id the server draws. -/
def createTenant (db : Database) (newId : TenantId) (name : String)
    (maxConcurrentTasks maxQueuedTasks : Int) : Except Raised (Database × Tenant) :=
  let row : Tenant := ⟨newId, name, maxConcurrentTasks, maxQueuedTasks⟩
  if db.tenants.rows.any fun t => t.name == name then
    .error (.integrity (.uniqueViolation "tenants_name_key"))
  else match hp : db.tenants.insert? row with
  | none => .error (.integrity (.uniqueViolation "tenants_pkey"))
  | some tenants =>
    .ok ({ db with
      tenants := tenants
      tasks_tenant := fun t ht => by
        rw [Table.find?_insert? hp]
        split
        · rfl
        · exact db.tasks_tenant t ht }, row)

/-- `INSERT INTO workers`. -/
def registerWorker (db : Database) (now : Time) (workerId : WorkerId) (capacity : Int)
    (capabilities : List String) : Except Raised (Database × WorkerRow) :=
  let row : WorkerRow :=
    { id := workerId, capacity, capabilities, registeredAt := now, lastHeartbeatAt := now }
  if capacity < 1 then .error (.integrity (.checkViolation "ck_workers_capacity"))
  else match hp : db.workers.insert? row with
  | none => .error (.integrity (.uniqueViolation "workers_pkey"))
  | some workers =>
    .ok ({ db with
      workers := workers
      attempts_worker := fun a ha => by
        rw [Table.find?_insert? hp]
        split
        · rfl
        · exact db.attempts_worker a ha }, row)

/-- `UPDATE workers SET … WHERE p`. -/
def updateWorkers (db : Database) (p : WorkerRow → Bool) (f : WorkerRow → WorkerRow)
    (hf : ∀ r, (f r).id = r.id) : Database :=
  { db with
    workers := db.workers.modify p f hf
    attempts_worker := fun a ha => by
      rw [Table.find?_modify, Option.isSome_map]
      exact db.attempts_worker a ha }

/-- The worker's row, when it is not DEAD. -/
def beats (workerId : WorkerId) (r : WorkerRow) : Bool := r.id == workerId && r.status != .dead

/-- Record liveness; `false` once the worker has been declared DEAD. -/
def heartbeat (db : Database) (now : Time) (workerId : WorkerId) : Database × Bool :=
  (updateWorkers db (beats workerId) (fun r => { r with lastHeartbeatAt := now }) fun _ => rfl,
    db.workers.rows.any (beats workerId))

def setWorkerStatus (db : Database) (workerId : WorkerId) (status : WorkerStatus) : Database :=
  updateWorkers db (fun r => r.id == workerId) (fun r => { r with status := status }) fun _ => rfl

def stale (now : Time) (deadAfterS : Int) (r : WorkerRow) : Bool :=
  r.status != .dead && decide (r.lastHeartbeatAt < now - seconds deadAfterS)

def markDeadWorkers (db : Database) (now : Time) (deadAfterS : Int) : Database × List WorkerId :=
  (updateWorkers db (stale now deadAfterS) (fun r => { r with status := .dead }) fun _ => rfl,
    (db.workers.rows.filter (stale now deadAfterS)).map WorkerRow.id)

theorem createTenant_view {db db' : Database} {newId : TenantId} {name : String} {c q : Int}
    {t : Tenant} (h : createTenant db newId name c q = .ok (db', t)) : db'.view = db.view := by
  simp only [createTenant] at h
  split at h
  · cases h
  · split at h
    · cases h
    · cases h; rfl

theorem registerWorker_view {db db' : Database} {now : Time} {w : WorkerId} {c : Int}
    {caps : List String} {r : WorkerRow} (h : registerWorker db now w c caps = .ok (db', r)) :
    db'.view = db.view := by
  simp only [registerWorker] at h
  split at h
  · cases h
  · split at h
    · cases h
    · cases h; rfl

theorem registerWorker_tenants {db db' : Database} {now : Time} {w : WorkerId} {c : Int}
    {caps : List String} {r : WorkerRow} (h : registerWorker db now w c caps = .ok (db', r)) :
    db'.tenants = db.tenants := by
  simp only [registerWorker] at h
  split at h
  · cases h
  · split at h
    · cases h
    · cases h; rfl

/-- A creation adds a row for the tenant, and no task. -/
theorem createTenant_ok {db db' : Database} {newId : TenantId} {name : String} {c q : Int}
    {t : Tenant} (h : createTenant db newId name c q = .ok (db', t)) :
    db.tenants.insert? ⟨newId, name, c, q⟩ = some db'.tenants ∧ db'.tasks = db.tasks := by
  simp only [createTenant] at h
  split at h
  · cases h
  · split at h
    · cases h
    · rename_i hp
      cases h
      exact ⟨hp, rfl⟩

theorem createTenant_workers {db db' : Database} {newId : TenantId} {name : String} {c q : Int}
    {t : Tenant} (h : createTenant db newId name c q = .ok (db', t)) : db'.workers = db.workers := by
  simp only [createTenant] at h
  split at h
  · cases h
  · split at h
    · cases h
    · cases h; rfl

/-- A registration leaves the rows of the other workers as they are. -/
theorem registerWorker_kept {db db' : Database} {now : Time} {w v : WorkerId} {c : Int}
    {caps : List String} {r s : WorkerRow} (h : registerWorker db now w c caps = .ok (db', r))
    (hv : db.workers.find? v = some s) : db'.workers.find? v = some s := by
  simp only [registerWorker] at h
  split at h
  · cases h
  · split at h
    · cases h
    · rename_i hp
      cases h
      dsimp only
      rw [Table.find?_insert? hp, if_neg, hv]
      intro he
      dsimp only at he
      rw [← he, Table.insert?_fresh hp] at hv
      cases hv

/-- Death is one-way: no heartbeat changes a DEAD worker's row. -/
theorem heartbeat_dead {db : Database} {now : Time} {w : WorkerId} {r : WorkerRow}
    (h : db.workers.find? w = some r) (hd : r.status = .dead) :
    (heartbeat db now w).2 = false ∧ (heartbeat db now w).1.workers.find? w = some r := by
  have hid := Table.key_of_find? h
  constructor
  · refine List.any_eq_false.mpr fun s hs => ?_
    by_cases hw : s.id = w
    · have : s = r := Table.eq_of_key_eq hs (Table.mem_of_find? h) (hw.trans hid.symm)
      simp [beats, this, hd]
    · simp [beats, hw]
  · unfold heartbeat updateWorkers
    rw [Table.find?_modify, h]
    simp [beats, hd]

end ControlPlane
