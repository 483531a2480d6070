import ControlPlane.Db.Database

/-! # One task's share of the database

Everything the tables say about one task: its row, its rows in the attempt
ledger and its events, both in the order they were written. Each statement is
described by what it does to these views, so that a result about one task need
not look at the others. -/

namespace ControlPlane
open Keyed Fallible

structure TaskView where
  row : Option Task
  attempts : List AttemptRow
  events : List TaskEvent

def Database.view (db : Database) (i : TaskId) : TaskView where
  row := db.task? i
  attempts := db.attempts.rows.filter fun r => r.taskId = i
  events := db.events.filter fun e => e.taskId = i

/-- The tables no task operation writes. -/
structure SameParties (db db' : Database) : Prop where
  tenants : db'.tenants = db.tenants
  workers : db'.workers = db.workers

theorem SameParties.refl (db : Database) : SameParties db db := ⟨rfl, rfl⟩

theorem SameParties.trans {db db' db'' : Database} (h : SameParties db db')
    (h' : SameParties db' db'') : SameParties db db'' :=
  ⟨h'.tenants.trans h.tenants, h'.workers.trans h.workers⟩

theorem Database.view_row (db : Database) (i : TaskId) : (db.view i).row = db.task? i := rfl

theorem Database.row_id {db : Database} {i : TaskId} {t : Task} (h : (db.view i).row = some t) :
    t.id = i :=
  Table.key_of_find? h

theorem Database.row_checked {db : Database} {i : TaskId} {t : Task}
    (h : (db.view i).row = some t) : t.Checked :=
  db.tasks_checked t (Table.mem_of_find? h)

/-- A task that does not exist has no history. -/
theorem Database.view_absent {db : Database} {i : TaskId} (h : db.task? i = none) :
    db.view i = ⟨none, [], []⟩ := by
  have ha : db.attempts.rows.filter (fun r => r.taskId = i) = [] := by
    rw [List.filter_eq_nil_iff]
    intro r hr he
    have hs := db.attempts_task r hr
    rw [of_decide_eq_true he, show db.tasks.find? i = none from h] at hs
    cases hs
  have he : db.events.filter (fun e => e.taskId = i) = [] := by
    rw [List.filter_eq_nil_iff]
    intro e he' hi
    have hs := db.events_task e he'
    rw [of_decide_eq_true hi, show db.tasks.find? i = none from h] at hs
    cases hs
  simp [view, h, ha, he]

theorem Database.attempt?_eq_some {db : Database} {i : TaskId} {a : Int} {r : AttemptRow} :
    db.attempt? i a = some r ↔ r ∈ (db.view i).attempts ∧ r.attempt = a := by
  unfold attempt? view
  rw [Table.find?_eq_some]
  simp only [AttemptRow.key, Prod.mk.injEq, List.mem_filter, decide_eq_true_eq, and_assoc]

/-! ## Statements, seen through one task -/

theorem updateTasks_view {db db' : Database} {p : Task → Bool} {w : TaskWrite} {rows : List Task}
    (h : updateTasks db p w = .ok (db', rows)) (i : TaskId) :
    db'.view i = ⟨(db.view i).row.map fun t => if p t then w.row t else t, (db.view i).attempts,
      (db.view i).events⟩ := by
  obtain ⟨ht, -, ha, he, -⟩ := updateTasks_ok h
  simp only [Database.view, ha, he, task?_of_tasks ht]

theorem updateTasks_parties {db db' : Database} {p : Task → Bool} {w : TaskWrite} {rows : List Task}
    (h : updateTasks db p w = .ok (db', rows)) : SameParties db db' := by
  obtain ⟨-, -, -, -, ht, hw⟩ := updateTasks_ok h
  exact ⟨ht, hw⟩

/-- **An `UPDATE` of one row** that returned: it rewrote the row when its
predicate held there, and did nothing otherwise. -/
theorem updateTask_ok {db db' : Database} {i : TaskId} {p : Task → Bool} {w : TaskWrite}
    {rows : List Task} (hp : ∀ t, p t = true → t.id = i)
    (h : updateTasks db p w = .ok (db', rows)) :
    SameParties db db' ∧
    ((∃ t, db.task? i = some t ∧ p t = true ∧ rows = [w.row t] ∧
        db'.view = Function.update db.view i
          ⟨some (w.row t), (db.view i).attempts, (db.view i).events⟩) ∨
      ((∀ t, db.task? i = some t → p t = false) ∧ rows = [] ∧ db'.view = db.view)) := by
  refine ⟨updateTasks_parties h, ?_⟩
  have hview := updateTasks_view h
  obtain ⟨-, hrows, -⟩ := updateTasks_ok h
  rw [Table.modified_eq (k := i) fun t _ ht => hp t ht,
    show db.tasks.find? i = db.task? i from rfl] at hrows
  -- rows other than the task's are not selected
  have hother : ∀ j, j ≠ i → db'.view j = db.view j := by
    intro j hj
    rw [hview, Database.view_row]
    cases hr : db.task? j with
    | none => simp [Database.view, hr]
    | some t =>
      have hno : p t = false := by
        by_contra hpt
        exact hj ((Database.row_id hr).symm.trans (hp t (Bool.not_eq_false _ ▸ hpt)))
      simp [Database.view, hr, hno]
  by_cases hsel : ∃ t, db.task? i = some t ∧ p t = true
  · obtain ⟨t, hr, hpt⟩ := hsel
    refine Or.inl ⟨t, hr, hpt, by rw [hrows, hr]; simp [Option.filter, hpt], ?_⟩
    funext j
    by_cases hj : j = i
    · subst hj
      rw [Function.update_self, hview, Database.view_row, hr, Option.map_some, if_pos hpt]
    · rw [Function.update_of_ne hj, hother j hj]
  · have hno : ∀ t, db.task? i = some t → p t = false := fun t ht =>
      Bool.eq_false_iff.mpr fun hpt => hsel ⟨t, ht, hpt⟩
    refine Or.inr ⟨hno, ?_, ?_⟩
    · rw [hrows]
      cases hr : db.task? i with
      | none => rfl
      | some t => simp [Option.filter, hno t hr]
    · funext j
      by_cases hj : j = i
      · subst hj
        rw [hview, Database.view_row]
        cases hr : db.task? j with
        | none => simp [Database.view, hr]
        | some t => simp [Database.view, hr, hno t hr]
      · exact hother j hj

theorem insertEvent_view {db db' : Database} {e : TaskEvent} (h : insertEvent db e = .ok db')
    (i : TaskId) : db'.view i = ⟨(db.view i).row, (db.view i).attempts,
      (db.view i).events ++ (if e.taskId = i then [e] else [])⟩ := by
  obtain ⟨he, ht, ha, -⟩ := insertEvent_ok h
  simp only [Database.view, Database.task?, he, ht, ha, List.filter_append]
  congr 2
  split
  · rename_i hi; simp [hi]
  · rename_i hi; simp [hi]

theorem insertEvent_parties {db db' : Database} {e : TaskEvent} (h : insertEvent db e = .ok db') :
    SameParties db db' := by
  obtain ⟨-, -, -, ht, hw⟩ := insertEvent_ok h
  exact ⟨ht, hw⟩

/-- A loop of event inserts appends, to each task's history, its own events in order. -/
theorem insertEvents_view {es : List TaskEvent} {db db' : Database}
    (h : es.foldlM insertEvent db = .ok db') : SameParties db db' ∧
      ∀ i, db'.view i = ⟨(db.view i).row, (db.view i).attempts,
        (db.view i).events ++ es.filter fun e => e.taskId = i⟩ := by
  induction es generalizing db with
  | nil =>
    obtain rfl := pure_ok.mp h
    exact ⟨.refl db, fun i => by simp⟩
  | cons e es ih =>
    rw [List.foldlM_cons] at h
    obtain ⟨db₁, he, h⟩ := bind_ok.mp h
    obtain ⟨hp, hv⟩ := ih h
    refine ⟨(insertEvent_parties he).trans hp, fun i => ?_⟩
    rw [hv, insertEvent_view he, List.filter_cons, List.append_assoc]
    congr 2
    by_cases hi : e.taskId = i <;> simp [hi]

theorem insertAttempt_view {db db' : Database} {a : AttemptRow} (h : insertAttempt db a = .ok db')
    (i : TaskId) : db'.view i = ⟨(db.view i).row,
      (db.view i).attempts ++ (if a.taskId = i then [a] else []), (db.view i).events⟩ := by
  obtain ⟨ha, -, ht, he, -⟩ := insertAttempt_ok h
  simp only [Database.view, Database.task?, Table.insert?_rows ha, he, ht, List.filter_append]
  congr 2
  split
  · rename_i hi; simp [hi]
  · rename_i hi; simp [hi]

theorem insertAttempt_parties {db db' : Database} {a : AttemptRow}
    (h : insertAttempt db a = .ok db') : SameParties db db' := by
  obtain ⟨-, -, -, -, ht, hw⟩ := insertAttempt_ok h
  exact ⟨ht, hw⟩

/-- A loop of ledger inserts appends, to each task's ledger, its own rows in order. -/
theorem insertAttempts_view {rs : List AttemptRow} {db db' : Database}
    (h : rs.foldlM insertAttempt db = .ok db') : SameParties db db' ∧
      ∀ i, db'.view i = ⟨(db.view i).row,
        (db.view i).attempts ++ rs.filter fun r => r.taskId = i, (db.view i).events⟩ := by
  induction rs generalizing db with
  | nil =>
    obtain rfl := pure_ok.mp h
    exact ⟨.refl db, fun i => by simp⟩
  | cons r rs ih =>
    rw [List.foldlM_cons] at h
    obtain ⟨db₁, hr, h⟩ := bind_ok.mp h
    obtain ⟨hp, hv⟩ := ih h
    refine ⟨(insertAttempt_parties hr).trans hp, fun i => ?_⟩
    rw [hv, insertAttempt_view hr, List.filter_cons, List.append_assoc]
    congr 2
    by_cases hi : r.taskId = i <;> simp [hi]

theorem updateAttempt_view (db : Database) (i : TaskId) (a : Int) (f : AttemptRow → AttemptRow)
    (hk : ∀ r, (f r).key = r.key) (hw : ∀ r, (f r).workerId = r.workerId) (j : TaskId) :
    (updateAttempt db i a f hk hw).view j = ⟨(db.view j).row,
      (db.view j).attempts.map fun r => if r.taskId = i ∧ r.attempt = a then f r else r,
      (db.view j).events⟩ := by
  have hid : ∀ r, (f r).taskId = r.taskId := fun r => congrArg Prod.fst (hk r)
  simp only [Database.view, Database.task?, updateAttempt, Table.modify]
  congr 1
  rw [List.filter_map]
  congr 1
  · funext r; simp only [Bool.and_eq_true, decide_eq_true_eq]
  · congr 1
    funext r
    simp only [Function.comp_apply]
    split
    · rw [hid]
    · rfl

end ControlPlane
