import ControlPlane.Server.Contention

/-! # What a claim knows of its tenants

A claim that holds a tenant's lock knows a slack that no other claim can use up:
what the tenant runs, what the claim has chosen and what it may still choose fit
under the limit. While it waits for the lock it only knows that there was room
when its statement began. -/

namespace ControlPlane
open Keyed Fallible Runs

/-- No tenant runs more than it may. -/
def CapsRespected (db : Database) : Prop :=
  ∀ o n, db.tenants.find? o = some n → (runningCount db o : Int) ≤ n.maxConcurrentTasks

/-- There is room for so many more tasks of the tenant. -/
def Room (db : Database) (o : TenantId) (m : Int) : Prop :=
  ∀ n, db.tenants.find? o = some n → (runningCount db o : Int) + m ≤ n.maxConcurrentTasks

/-- How many tasks of the tenant are among the ids. -/
def chosenCount (db : Database) (ids : List TaskId) (o : TenantId) : Nat :=
  db.tasks.rows.countP fun t => t.tenantId == o && ids.contains t.id

/-- The transaction has begun to read the slack of the tenant and waits for its lock. -/
def ClaimTx.waitsFor (x : ClaimTx) (o : TenantId) : Bool :=
  match x.stmt with
  | .waiting _ _ _ rest => rest.contains o
  | _ => false

/-! ## What other transactions leave -/

/-- Tasks stay with their tenants, and the tenants stay as they are. -/
structure Evolves (db db' : Database) : Prop where
  tenants : db'.tenants = db.tenants
  kept : ∀ i t, db.task? i = some t → ∃ t', db'.task? i = some t' ∧ t'.tenantId = t.tenantId

theorem Evolves.refl (db : Database) : Evolves db db := ⟨rfl, fun _ t ht => ⟨t, ht, rfl⟩⟩

theorem Evolves.chosenCount_le {db db' : Database} (h : Evolves db db') {ids : List TaskId}
    (hids : ∀ i ∈ ids, (db.task? i).isSome = true) (o : TenantId) :
    chosenCount db' ids o ≤ chosenCount db ids o := by
  refine Table.countP_le fun r' hr' hp => ?_
  simp only [Bool.and_eq_true, beq_iff_eq, List.contains_eq_mem, decide_eq_true_eq] at hp
  obtain ⟨t, ht⟩ := Option.isSome_iff_exists.mp (hids _ hp.2)
  obtain ⟨t', ht', ho⟩ := h.kept _ t ht
  obtain rfl : t' = r' := Option.eq_some_unique ht' (Table.find?_key hr')
  have hid : t.id = t'.id := Database.row_id ht
  exact ⟨t, Table.mem_of_find? ht, hid, by simp [← ho, hp.1, hid, hp.2]⟩

theorem Room.evolve {db db' : Database} {o : TenantId} {m m' : Int} (h : Room db o m)
    (he : Evolves db db') (hrun : runningCount db' o ≤ runningCount db o) (hm : m' ≤ m) :
    Room db' o m' := by
  intro n hn
  rw [he.tenants] at hn
  have := h n hn
  omega

/-! ## What a claim knows -/

/-- The slack of a claim: for the tenants it has locked, the room under the limit. -/
structure LoopSafe (db : Database) (lock : TenantId → Option Nat) (k : Nat) (s : LoopState) :
    Prop where
  existing : ∀ i ∈ s.claimedIds, (db.task? i).isSome = true
  known : ∀ o, s.slack o ≠ none → o ∈ s.slackKnown
  unread : ∀ o, s.slack o = none → chosenCount db s.claimedIds o = 0
  room : ∀ o r, s.slack o = some r → lock o = some k ∧ 0 ≤ r ∧
    Room db o (chosenCount db s.claimedIds o + r)

/-- A line of the slack statement's output: the room there was, for a tenant that
is locked or about to be. -/
structure OutputSafe (db : Database) (lock : TenantId → Option Nat) (k : Nat) (s : LoopState)
    (new rest : List TenantId) (o : TenantId) (r : Int) : Prop where
  new : o ∈ new
  fresh : s.slack o = none
  nonneg : 0 ≤ r
  room : Room db o r
  locked : o ∈ rest ∨ lock o = some k

/-- The candidates are rows of their tenants. -/
def BatchKnown (db : Database) (batch : List Candidate) : Prop :=
  ∀ c ∈ batch, ∃ t, db.task? c.id = some t ∧ t.tenantId = c.tenantId

def StmtSafe (db : Database) (lock : TenantId → Option Nat) (k : Nat) (s : LoopState) : Stmt → Prop
  | .counting batch => BatchKnown db batch
  | .waiting batch new rows rest => BatchKnown db batch ∧
      ∀ o r, (o, r) ∈ rows → OutputSafe db lock k s new rest o r
  | _ => True

structure TxSafe (db : Database) (lock : TenantId → Option Nat) (k : Nat) (x : ClaimTx) : Prop where
  loop : LoopSafe db lock k x.loop
  stmt : StmtSafe db lock k x.loop x.stmt

theorem LoopSafe.start (db : Database) (lock : TenantId → Option Nat) (k : Nat) :
    LoopSafe db lock k {} where
  existing i hi := by cases hi
  known o ho := absurd rfl ho
  unread o _ := by simp [chosenCount]
  room o r hr := by cases hr

theorem LoopSafe.seen {db : Database} {lock : TenantId → Option Nat} {k : Nat} {s : LoopState}
    (h : LoopSafe db lock k s) (seenIds : List TaskId) (rounds : Nat) :
    LoopSafe db lock k { s with seenIds := seenIds, rounds := rounds } :=
  ⟨h.existing, h.known, h.unread, h.room⟩

theorem BatchKnown.evolve {db db' : Database} {batch : List Candidate} (h : BatchKnown db batch)
    (he : Evolves db db') : BatchKnown db' batch := fun c hc => by
  obtain ⟨t, ht, ho⟩ := h c hc
  obtain ⟨t', ht', ho'⟩ := he.kept _ t ht
  exact ⟨t', ht', ho'.trans ho⟩

theorem LoopSafe.evolve {db db' : Database} {lock lock' : TenantId → Option Nat} {k : Nat}
    {s : LoopState} (h : LoopSafe db lock k s) (he : Evolves db db')
    (hlock : ∀ o, lock o = some k → lock' o = some k)
    (hrun : ∀ o, lock o = some k → runningCount db' o ≤ runningCount db o) :
    LoopSafe db' lock' k s where
  existing i hi := by
    obtain ⟨t, ht⟩ := Option.isSome_iff_exists.mp (h.existing i hi)
    obtain ⟨t', ht', -⟩ := he.kept i t ht
    rw [ht']
    rfl
  known := h.known
  unread o ho := Nat.le_zero.mp ((he.chosenCount_le h.existing o).trans_eq (h.unread o ho))
  room o r hr := by
    obtain ⟨hl, hr0, hroom⟩ := h.room o r hr
    have hle := he.chosenCount_le h.existing o
    exact ⟨hlock o hl, hr0, hroom.evolve he (hrun o hl) (by omega)⟩

/-- What a transaction knows survives what the others do, if they run no more
tasks of the tenants it has locked or waits for. -/
theorem TxSafe.evolve {db db' : Database} {lock lock' : TenantId → Option Nat} {k : Nat}
    {x : ClaimTx} (h : TxSafe db lock k x) (he : Evolves db db')
    (hlock : ∀ o, lock o = some k → lock' o = some k)
    (hrun : ∀ o, lock o = some k ∨ x.waitsFor o = true → runningCount db' o ≤ runningCount db o) :
    TxSafe db' lock' k x := by
  refine ⟨h.loop.evolve he hlock fun o ho => hrun o (Or.inl ho), ?_⟩
  have hstmt := h.stmt
  unfold ClaimTx.waitsFor at hrun
  cases hx : x.stmt with
  | fetching => trivial
  | granting => trivial
  | ended => trivial
  | counting batch =>
    rw [hx] at hstmt
    exact hstmt.evolve he
  | waiting batch new rows rest =>
    rw [hx] at hstmt hrun
    refine ⟨hstmt.1.evolve he, fun o r ho => ?_⟩
    obtain ⟨hnew, hfresh, h0, hroom, hl⟩ := hstmt.2 o r ho
    refine ⟨hnew, hfresh, h0, hroom.evolve he (hrun o ?_) (le_refl r), hl.imp_right (hlock o)⟩
    rcases hl with hl | hl
    · exact Or.inr (by simpa using hl)
    · exact Or.inl hl

/-! ## The statements of a claim -/

theorem fetchCandidates_known [PyText] (db : Database) (now : Time) (caps : List String)
    (policy : ClaimPolicy) (need : Nat) (seen : List TaskId) (scan : Scan) :
    BatchKnown db (fetchCandidates db now caps policy need seen scan) := by
  intro c hc
  rw [fetchCandidates_eq] at hc
  obtain ⟨t, ht, rfl⟩ := List.mem_map.mp hc
  exact ⟨t, (mem_claimQueue (List.mem_filter.mp (List.mem_of_mem_take ht)).1).1, rfl⟩

/-- What the slack statement computes is room, as long as it waits for locks. -/
theorem slackRows_output {db : Database} (hcaps : CapsRespected db) {lock : TenantId → Option Nat}
    {k : Nat} {s : LoopState} (h : LoopSafe db lock k s) (batch : List Candidate) {o : TenantId}
    {r : Int} (hmem : (o, r) ∈ slackRows db (newTenantIds s batch)) :
    OutputSafe db lock k s (newTenantIds s batch)
      ((slackRows db (newTenantIds s batch)).map Prod.fst) o r := by
  have hrest : o ∈ (slackRows db (newTenantIds s batch)).map Prod.fst :=
    List.mem_map.mpr ⟨_, hmem, rfl⟩
  obtain ⟨n, hn, he⟩ := List.mem_map.mp hmem
  obtain ⟨rfl, rfl⟩ := Prod.mk.inj he
  obtain ⟨hn, hnew⟩ := List.mem_filter.mp hn
  have hfind : db.tenants.find? n.id = some n := Table.find?_key hn
  have hnew' : n.id ∈ newTenantIds s batch := by simpa using hnew
  have hcap := hcaps n.id n hfind
  refine ⟨hnew', ?_, by omega, fun m hm => ?_, Or.inl hrest⟩
  · by_contra hne
    have hknown := h.known n.id hne
    unfold newTenantIds at hnew'
    simp [hknown] at hnew'
  · obtain rfl : n = m := Option.eq_some_unique hfind hm
    omega

/-- One id more is one row more of its task's tenant, and none of the others. -/
theorem chosenCount_snoc {db : Database} (ids : List TaskId) {i : TaskId} {t : Task}
    (ht : db.task? i = some t) (o : TenantId) :
    chosenCount db (ids ++ [i]) o ≤ chosenCount db ids o + if o = t.tenantId then 1 else 0 := by
  have hsplit : chosenCount db (ids ++ [i]) o ≤ chosenCount db ids o +
      db.tasks.rows.countP fun u => u.tenantId == o && u.id == i := by
    refine le_trans (le_of_eq ?_) (Table.countP_or_le _ _ _)
    unfold chosenCount
    congr 1
    funext u
    simp only [List.contains_eq_mem, List.mem_append, List.mem_singleton, beq_eq_decide]
    by_cases hu : u.tenantId = o <;> by_cases hi : u.id ∈ ids <;> simp [hu, hi]
  refine hsplit.trans (Nat.add_le_add_left ?_ _)
  split
  · refine le_trans ?_ (Table.countP_key_le db.tasks i)
    exact List.countP_mono_left fun u _ hu => (Bool.and_eq_true_iff.mp hu).2
  · rename_i hne
    refine le_of_eq (List.countP_eq_zero.mpr fun u hu hsel => hne ?_)
    simp only [Bool.and_eq_true, beq_iff_eq] at hsel
    have hrow : db.task? i = some u := hsel.2 ▸ Table.find?_key hu
    rw [← hsel.1, Option.eq_some_unique hrow ht]

/-- Choosing a candidate uses up one of its tenant's slack. -/
theorem LoopSafe.spend {db : Database} {lock : TenantId → Option Nat} {k : Nat} {s : LoopState}
    (h : LoopSafe db lock k s) {c : Candidate} {t : Task} (ht : db.task? c.id = some t)
    (ho : t.tenantId = c.tenantId) (limit : Int) : LoopSafe db lock k (spend limit s c) := by
  unfold ControlPlane.spend
  dsimp only
  split
  · exact h
  split
  · exact h
  rename_i hlim hrem
  obtain ⟨r, hr⟩ : ∃ r, s.slack c.tenantId = some r := by
    cases hs : s.slack c.tenantId with
    | none => simp [hs] at hrem
    | some r => exact ⟨r, rfl⟩
  have hpos : 0 < r := by simpa [hr] using hrem
  have hcount := chosenCount_snoc s.claimedIds ht
  rw [ho] at hcount
  refine ⟨fun i hi => ?_, fun o hne => ?_, fun o hnone => ?_, fun o q hq => ?_⟩
  · rcases List.mem_append.mp hi with hi | hi
    · exact h.existing i hi
    · rw [List.mem_singleton.mp hi, ht]
      rfl
  · dsimp only at hne
    by_cases hoc : o = c.tenantId
    · rw [hoc]
      exact h.known _ (by rw [hr]; simp)
    · rw [Function.update_of_ne hoc] at hne
      exact h.known o hne
  · dsimp only at hnone
    have hoc : o ≠ c.tenantId := by
      rintro rfl
      rw [Function.update_self] at hnone
      cases hnone
    rw [Function.update_of_ne hoc] at hnone
    have hle := hcount o
    rw [if_neg hoc, h.unread o hnone] at hle
    exact Nat.le_zero.mp hle
  · dsimp only at hq ⊢
    by_cases hoc : o = c.tenantId
    · subst hoc
      rw [Function.update_self, hr, Option.getD_some] at hq
      obtain rfl := Option.some.inj hq
      obtain ⟨hl, -, hroom⟩ := h.room _ r hr
      have hle := hcount c.tenantId
      rw [if_pos rfl] at hle
      exact ⟨hl, by omega, hroom.evolve (.refl db) (le_refl _) (by omega)⟩
    · rw [Function.update_of_ne hoc] at hq
      obtain ⟨hl, h0, hroom⟩ := h.room o q hq
      have hle := hcount o
      rw [if_neg hoc] at hle
      exact ⟨hl, h0, hroom.evolve (.refl db) (le_refl _) (by omega)⟩

theorem LoopSafe.spendBatch {db : Database} {lock : TenantId → Option Nat} {k : Nat} (limit : Int)
    {batch : List Candidate} {s : LoopState} (h : LoopSafe db lock k s) (hb : BatchKnown db batch) :
    LoopSafe db lock k (batch.foldl (ControlPlane.spend limit) s) := by
  induction batch generalizing s with
  | nil => exact h
  | cons c batch ih =>
    obtain ⟨t, ht, ho⟩ := hb c (by simp)
    rw [List.foldl_cons]
    exact ih (h.spend ht ho limit) fun c' hc' => hb c' (List.mem_cons_of_mem _ hc')

/-- With every tenant of the output locked, what was read is slack. -/
theorem LoopSafe.recordSlack {db : Database} {lock : TenantId → Option Nat} {k : Nat}
    {s : LoopState} (h : LoopSafe db lock k s) {new : List TenantId} {rows : List (TenantId × Int)}
    (hrows : ∀ o r, (o, r) ∈ rows → OutputSafe db lock k s new [] o r) :
    LoopSafe db lock k (ControlPlane.recordSlack s new rows) := by
  have hread : ∀ {o r}, rows.lookup o = some r → OutputSafe db lock k s new [] o r := by
    intro o r hl
    obtain ⟨before, after, rfl, -⟩ := List.lookup_eq_some_iff.mp hl
    exact hrows o r (by simp)
  have hkeep : ∀ {o}, rows.lookup o = none →
      (ControlPlane.recordSlack s new rows).slack o = s.slack o := by
    intro o hl
    show (rows.lookup o).or (s.slack o) = _
    rw [hl, Option.none_or]
  have hnew : ∀ {o r}, rows.lookup o = some r →
      (ControlPlane.recordSlack s new rows).slack o = some r := by
    intro o r hl
    show (rows.lookup o).or (s.slack o) = _
    rw [hl, Option.some_or]
  refine ⟨h.existing, fun o hne => ?_, fun o hnone => ?_, fun o q hq => ?_⟩
  · refine List.mem_append.mpr ?_
    cases hl : rows.lookup o with
    | none => exact Or.inl (h.known o (hkeep hl ▸ hne))
    | some r => exact Or.inr (hread hl).new
  · cases hl : rows.lookup o with
    | none => exact h.unread o (hkeep hl ▸ hnone)
    | some r =>
      rw [hnew hl] at hnone
      cases hnone
  · cases hl : rows.lookup o with
    | none => exact h.room o q (hkeep hl ▸ hq)
    | some r =>
      rw [hnew hl] at hq
      obtain rfl := Option.some.inj hq
      obtain ⟨-, hfresh, h0, hroom, hlock⟩ := hread hl
      have hchosen : chosenCount db s.claimedIds o = 0 := h.unread o hfresh
      refine ⟨hlock.resolve_left List.not_mem_nil, h0, hroom.evolve (.refl db) (le_refl _) ?_⟩
      show (chosenCount db s.claimedIds o : Int) + r ≤ r
      omega

/-! ## What is committed -/

variable [PyText]

/-- Beside the claims no transaction starts a task. -/
theorem TaskStep.not_started {c : Call} {i : TaskId} {v v' : TaskView} {t' : Task}
    (h : TaskStep c i v v') (hop : c.op.besideClaims = true) (ht' : v'.row = some t')
    (hrun : t'.state = .running) :
    ∃ t, v.row = some t ∧ t.state = .running ∧ t.pinned = t'.pinned := by
  cases h with
  | skip => exact ⟨t', ht', hrun, rfl⟩
  | noted e => exact ⟨t', ht', hrun, rfl⟩
  | submitted hs hv => cases ht'; cases hrun
  | claimed hc hr hcl => rw [hc] at hop; cases hop
  | renewed hs hr hf => cases ht'; exact ⟨_, hr, hrun, ((renewWrite ..).pinned _).symm⟩
  | @completed e a w t hs hr hf =>
    cases ht'
    exact absurd ((e.row_fields c.now t).1.symm.trans hrun) e.toState_not_running
  | @reaped o limit scan t hs hr hst hov =>
    cases ht'
    exact absurd ((o.row_fields c.now t).1.symm.trans hrun) (reapToState_not_running _ _)
  | cancelled hs hr hq hcan =>
    cases ht'
    have hst := (cancelled_fields hcan).1
    rw [hrun] at hst
    cases hst
  | flagged hs hr hst hf => cases ht'; exact ⟨_, hr, hst, ((flagWrite _).pinned _).symm⟩

theorem commit_evolves {db : Database} {c : Call} (hop : c.op.besideClaims = true) :
    Evolves db (commit db c) where
  tenants := commit_tenants fun _ _ _ _ he => by rw [he] at hop; cases hop
  kept i t ht := by
    obtain ⟨t', ht', hp⟩ := (commit_step db c i).row_pinned ht
    exact ⟨t', ht', congrArg Task.Pinned.tenantId hp⟩

theorem commit_runningCount {db : Database} {c : Call} (hop : c.op.besideClaims = true)
    (o : TenantId) : runningCount (commit db c) o ≤ runningCount db o := by
  refine Table.countP_le fun t' ht' hp => ?_
  simp only [Bool.and_eq_true, beq_iff_eq] at hp
  obtain ⟨t, ht, hrun, hpin⟩ := (commit_step db c t'.id).not_started hop (Table.find?_key ht') hp.2
  have hid : t.id = t'.id := congrArg Task.Pinned.id hpin
  have ho : t.tenantId = t'.tenantId := congrArg Task.Pinned.tenantId hpin
  exact ⟨t, Table.mem_of_find? ht, hid, by simp [ho, hp.1, hrun]⟩

omit [PyText] in
/-- A grant that raises leaves nothing. -/
theorem grantChosen_cases (db : Database) (x : ClaimTx) : grantChosen db x = db ∨
    ((grantChosen db x).tasks = db.tasksAfter (fun t => x.loop.claimedIds.contains t.id)
        (claimWrite x.now x.args.workerId x.args.leaseTtlS) ∧
      (grantChosen db x).tenants = db.tenants) := by
  unfold grantChosen
  split
  · exact Or.inl rfl
  · cases h : grantLeases db x.now x.args.workerId x.args.leaseTtlS x.loop.claimedIds with
    | error e => exact Or.inl rfl
    | ok r => exact Or.inr (grantLeases_tasks h)

omit [PyText] in
theorem grantChosen_evolves (db : Database) (x : ClaimTx) : Evolves db (grantChosen db x) := by
  rcases grantChosen_cases db x with h | ⟨htasks, htenants⟩
  · rw [h]
    exact .refl db
  · refine ⟨htenants, fun i t ht => ?_⟩
    unfold Database.task? at ht ⊢
    rw [htasks, Database.tasksAfter, Table.find?_modify, ht]
    refine ⟨_, rfl, ?_⟩
    dsimp only
    split
    · exact (claimWrite ..).tenantId t
    · rfl

omit [PyText] in
/-- A grant starts the tasks that were chosen. -/
theorem grantChosen_runningCount (db : Database) (x : ClaimTx) (o : TenantId) :
    runningCount (grantChosen db x) o ≤
      runningCount db o + chosenCount db x.loop.claimedIds o := by
  rcases grantChosen_cases db x with h | ⟨htasks, -⟩
  · rw [h]
    exact Nat.le_add_right ..
  · refine le_trans ?_ (Table.countP_or_le _ _ _)
    unfold runningCount
    rw [htasks]
    refine Table.countP_le fun t' ht' hp => ?_
    obtain ⟨t, ht, rfl⟩ := Table.mem_modify.mp ht'
    refine ⟨t, ht, ?_⟩
    simp only [Bool.and_eq_true, beq_iff_eq] at hp
    split at hp
    · rename_i hsel
      rw [if_pos hsel]
      have ho : t.tenantId = o := ((claimWrite ..).tenantId t).symm.trans hp.1
      exact ⟨((claimWrite ..).id t).symm, by rw [ho, hsel]; simp⟩
    · rename_i hsel
      rw [if_neg hsel]
      exact ⟨rfl, by simp [hp.1, hp.2]⟩

end ControlPlane
