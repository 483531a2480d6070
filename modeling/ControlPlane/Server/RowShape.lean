import ControlPlane.Server.Legality

/-! # The shape of a task's row

Which columns are set follows from the state of the task. The check constraint
of the table says a part of it; the rest is kept by convention, by operations
that each set a different part of the columns. The clauses support one another:
a claim starts the clock of a row that has no attempt behind it, and the
completions end a row that has a lease. -/

namespace ControlPlane
open Keyed Fallible Runs

/-- What a row's state says about its other columns. -/
structure Task.Shaped (t : Task) : Prop where
  leased : t.state = .running → t.leaseWorkerId.isSome = true ∧ t.leaseExpiresAt.isSome = true
  unleased : t.state ≠ .running → t.leaseWorkerId = none ∧ t.leaseExpiresAt = none
  finished : t.finishedAt = none ↔ t.state = .queued ∨ t.state = .running
  result : t.result ≠ none → t.state = .succeeded
  started : t.firstStartedAt = none ↔ t.attempt = 0
  unstarted : t.attempt = 0 → t.state = .queued ∨ t.state = .cancelled

namespace Task.Shaped

variable {t t' : Task}

/-- A QUEUED row carries no lease, no end and no result. -/
theorem of_queued (hs : t.state = .queued) (hw : t.leaseWorkerId = none)
    (hl : t.leaseExpiresAt = none) (hf : t.finishedAt = none) (hr : t.result = none)
    (hst : t.firstStartedAt = none ↔ t.attempt = 0) : t.Shaped := by
  constructor
  · intro hrun
    rw [hs] at hrun
    cases hrun
  · exact fun _ => ⟨hw, hl⟩
  · simp [hf, hs]
  · simp [hr]
  · exact hst
  · exact fun _ => Or.inl hs

/-- A RUNNING row carries a lease and an attempt, no end and no result. -/
theorem of_running (hs : t.state = .running) (hw : t.leaseWorkerId.isSome = true)
    (hl : t.leaseExpiresAt.isSome = true) (hf : t.finishedAt = none) (hr : t.result = none)
    (ha : t.attempt ≠ 0) (hst : t.firstStartedAt ≠ none) : t.Shaped := by
  constructor
  · exact fun _ => ⟨hw, hl⟩
  · exact fun hne => absurd hs hne
  · simp [hf, hs]
  · simp [hr]
  · exact ⟨fun h => absurd h hst, fun h => absurd h ha⟩
  · exact fun h => absurd h ha

/-- A terminal row carries an end, and a result only if it SUCCEEDED. -/
theorem of_terminal (hs : t.state.isTerminal = true) (hw : t.leaseWorkerId = none)
    (hl : t.leaseExpiresAt = none) (hf : t.finishedAt ≠ none)
    (hr : t.result ≠ none → t.state = .succeeded) (hst : t.firstStartedAt = none ↔ t.attempt = 0)
    (ha : t.attempt = 0 → t.state = .cancelled) : t.Shaped := by
  have hlive : ¬ (t.state = .queued ∨ t.state = .running) := by
    intro h
    rcases h with h | h <;> rw [h] at hs <;> simp [State.isTerminal, State.terminal] at hs
  constructor
  · exact fun hrun => absurd (Or.inr hrun) hlive
  · exact fun _ => ⟨hw, hl⟩
  · exact ⟨fun h => absurd h hf, fun h => absurd h hlive⟩
  · exact hr
  · exact hst
  · exact fun h => Or.inr (ha h)

/-- What a row that is not finished says of its end and its result. -/
theorem live (h : t.Shaped) (hs : t.state = .queued ∨ t.state = .running) :
    t.finishedAt = none ∧ t.result = none := by
  refine ⟨h.finished.mpr hs, ?_⟩
  by_contra hr
  have hsucc := h.result hr
  rcases hs with hs | hs <;> rw [hs] at hsucc <;> cases hsucc

/-- A RUNNING row has an attempt behind it. -/
theorem attempted (h : t.Shaped) (hs : t.state = .running) :
    t.attempt ≠ 0 ∧ t.firstStartedAt ≠ none := by
  have ha : t.attempt ≠ 0 := by
    intro h0
    rcases h.unstarted h0 with hq | hc
    · rw [hs] at hq; cases hq
    · rw [hs] at hc; cases hc
  exact ⟨ha, fun hf => ha (h.started.mp hf)⟩

theorem claim (h : t.Shaped) (hc : t.Checked) (hq : t.state = .queued) (now : Time) (w : WorkerId)
    (ttl : Int) : ((claimWrite now w ttl).row t).Shaped := by
  obtain ⟨hf, hr⟩ := h.live (Or.inl hq)
  obtain ⟨-, -, hn, -⟩ := t.checked_iff.mp hc
  have ha : t.attempt + 1 ≠ 0 := by omega
  exact of_running rfl rfl rfl hf hr ha (Option.some_ne_none _)

/-- What ends a RUNNING attempt gives the lease up, and sets the end of the task
exactly when it leaves it in a terminal state. -/
theorem finish (h : t.Shaped) (hrun : t.state = .running) {now : Time} {dest : State}
    {s : SetFields} (hw : s.leaseWorkerId = some none) (hl : s.leaseExpiresAt = some none)
    (hdest : (dest = .queued ∧ s.finishedAt = none ∧ s.result = none) ∨
      (dest.isTerminal = true ∧ s.finishedAt = some now ∧
        (s.result ≠ none → dest = .succeeded))) :
    ((transitionWrite now dest s).row t).Shaped := by
  obtain ⟨hf, hr⟩ := h.live (Or.inr hrun)
  obtain ⟨ha, -⟩ := h.attempted hrun
  have hw' : ((transitionWrite now dest s).row t).leaseWorkerId = none := by
    simp [transitionWrite, SetFields.apply, hw]
  have hl' : ((transitionWrite now dest s).row t).leaseExpiresAt = none := by
    simp [transitionWrite, SetFields.apply, hl]
  have hf' : ((transitionWrite now dest s).row t).finishedAt = s.finishedAt := by
    simp [transitionWrite, SetFields.apply, hf]
  have hr' : ((transitionWrite now dest s).row t).result = s.result := by
    simp [transitionWrite, SetFields.apply, hr]
  rcases hdest with ⟨hq, hfin, hres⟩ | ⟨hterm, hfin, hres⟩
  · exact of_queued hq hw' hl' (hf'.trans hfin) (hr'.trans hres) h.started
  · refine of_terminal hterm hw' hl' ?_ ?_ h.started fun h0 => absurd h0 ha
    · rw [hf', hfin]
      exact Option.some_ne_none _
    · rw [hr']
      exact hres

/-- A cancellation before the start ends a QUEUED row and leaves its clock. -/
theorem cancel (h : t.Shaped) (hq : t.state = .queued) {now : Time}
    (ht' : t' = cancelledTask now t ∨ ∃ reason, t' = (agentDisabledWrite now reason).row t) :
    t'.Shaped := by
  obtain ⟨hf, hr⟩ := h.live (Or.inl hq)
  obtain ⟨hw, hl⟩ := h.unleased (by rw [hq]; simp)
  rcases ht' with rfl | ⟨reason, rfl⟩
  · refine of_terminal rfl hw hl ?_ (fun hne => absurd hr hne) h.started fun _ => rfl
    simp [cancelledTask, transitionWrite, SetFields.apply, cancelFields]
  · exact of_terminal rfl hw hl (Option.some_ne_none _) (fun hne => absurd hr hne) h.started
      fun _ => rfl

end Task.Shaped

/-- The columns a completion sets suit the state it moves to. -/
theorem Ending.setFields_suit (e : Ending) (now : Time) :
    (e.toState = .queued ∧ (e.setFields now).finishedAt = none ∧ (e.setFields now).result = none) ∨
      (e.toState.isTerminal = true ∧ (e.setFields now).finishedAt = some now ∧
        ((e.setFields now).result ≠ none → e.toState = .succeeded)) := by
  cases e with
  | success result => exact Or.inr ⟨rfl, rfl, fun _ => rfl⟩
  | retry ec em backoff => exact Or.inl ⟨rfl, rfl, rfl⟩
  | failed ec em => exact Or.inr ⟨rfl, rfl, fun h => absurd rfl h⟩
  | cancelled => exact Or.inr ⟨rfl, rfl, fun h => absurd rfl h⟩
  | abandoned reason => exact Or.inl ⟨rfl, rfl, rfl⟩

variable [PyText]

/-- The columns a recovery sets suit the state it moves to. -/
theorem reapSetFields_suit (now : Time) (o : Overdue) (a m : Int) (w : Option WorkerId) :
    (reapToState a m = .queued ∧ (reapSetFields now o a m w).finishedAt = none ∧
        (reapSetFields now o a m w).result = none) ∨
      ((reapToState a m).isTerminal = true ∧ (reapSetFields now o a m w).finishedAt = some now ∧
        ((reapSetFields now o a m w).result ≠ none → reapToState a m = .succeeded)) := by
  unfold reapToState reapSetFields
  by_cases h : a < m
  · simp [h]
  · simp [h, State.isTerminal, State.terminal]

/-- Every row that satisfies the checks keeps its shape through every step. -/
theorem TaskStep.shaped {c : Call} {i : TaskId} {v v' : TaskView} (h : TaskStep c i v v')
    (hc : ∀ t, v.row = some t → t.Checked) (hv : ∀ t, v.row = some t → t.Shaped) :
    ∀ t', v'.row = some t' → t'.Shaped := by
  intro t' ht'
  cases h with
  | skip => exact hv t' ht'
  | noted e => exact hv t' ht'
  | submitted hop hv' =>
    obtain rfl := Option.some.inj ht'
    exact .of_queued rfl rfl rfl rfl rfl ⟨fun _ => rfl, fun _ => rfl⟩
  | claimed hop hr hcl =>
    obtain rfl := Option.some.inj ht'
    exact (hv _ hr).claim (hc _ hr) (Task.claimable_iff.mp hcl).1 ..
  | @renewed w a ttl t hop hr hf =>
    obtain rfl := Option.some.inj ht'
    have hrun := hf.1.1
    obtain ⟨hw, -⟩ := (hv t hr).leased hrun
    obtain ⟨hfin, hres⟩ := (hv t hr).live (Or.inr hrun)
    obtain ⟨ha, hst⟩ := (hv t hr).attempted hrun
    exact .of_running hrun hw rfl hfin hres ha hst
  | @completed e a w t hop hr hf =>
    obtain rfl := Option.some.inj ht'
    exact (hv t hr).finish hf.1 (e.setFields_lease c.now).1 (e.setFields_lease c.now).2
      (e.setFields_suit c.now)
  | @reaped o limit scan t hop hr hs ho =>
    obtain rfl := Option.some.inj ht'
    exact (hv t hr).finish hs (reapSetFields_lease ..).1 (reapSetFields_lease ..).2
      (reapSetFields_suit ..)
  | cancelled hop hr hq ht =>
    obtain rfl := Option.some.inj ht'
    exact (hv _ hr).cancel hq ht
  | flagged hop hr hs hf =>
    obtain rfl := Option.some.inj ht'
    obtain ⟨h₁, h₂, h₃, h₄, h₅, h₆⟩ := hv _ hr
    exact ⟨h₁, h₂, h₃, h₄, h₅, h₆⟩

/-- Every row of the database has its shape. -/
def Database.Shaped (db : Database) : Prop := ∀ i t, db.task? i = some t → t.Shaped

theorem commit_shaped (db : Database) (c : Call) (h : db.Shaped) : (commit db c).Shaped := fun i =>
  (commit_step db c i).shaped (fun _ ht => Database.row_checked ht) (h i)

omit [PyText] in
theorem empty_shaped : Database.Shaped .empty := by
  intro i t ht
  cases ht

/-! ## The check constraint is never what ends a transaction -/

/-- The error of a row whose state and lease do not agree. -/
def leaseIncoherent : Raised := .integrity (.checkViolation "ck_tasks_lease_coherence")

section Statements
omit [PyText]

theorem Task.violation_lease {t : Task} (h : t.violation = some "ck_tasks_lease_coherence") :
    ¬ (t.state = .running ↔ t.leaseWorkerId.isSome = true ∧ t.leaseExpiresAt.isSome = true) := by
  obtain ⟨⟨name, met⟩, hfind, hname⟩ := Option.map_eq_some_iff.mp h
  obtain rfl : name = "ck_tasks_lease_coherence" := hname
  have hmem := List.mem_of_find?_eq_some hfind
  have hmet : met = false := by simpa using List.find?_some hfind
  simp only [constraints, List.mem_cons, List.not_mem_nil, or_false, Prod.mk.injEq] at hmem
  rcases hmem with ⟨hn, -⟩ | ⟨hn, -⟩ | ⟨hn, -⟩ | ⟨hn, -⟩ | ⟨-, hc⟩
  · exact absurd hn (by decide)
  · exact absurd hn (by decide)
  · exact absurd hn (by decide)
  · exact absurd hn (by decide)
  · intro hiff
    have hagree : (t.state == .running) = (t.leaseWorkerId.isSome && t.leaseExpiresAt.isSome) :=
      Bool.eq_iff_iff.mpr (by simpa using hiff)
    rw [hagree, beq_self_eq_true, hmet] at hc
    cases hc

theorem updateTasks_avoids {db : Database} {p : Task → Bool} {w : TaskWrite}
    (h : ∀ t, t.Checked → p t = true → (w.row t).Checked) :
    Avoids leaseIncoherent (updateTasks db p w) := by
  obtain ⟨db', h'⟩ := updateTasks_succeeds db p w fun t ht => h t (db.tasks_checked t ht)
  exact avoids_of_returns ⟨_, h'⟩

theorem insertTask_avoids {db : Database} {t : Task}
    (h : t.state = .running ↔ t.leaseWorkerId.isSome = true ∧ t.leaseExpiresAt.isSome = true) :
    Avoids leaseIncoherent (insertTask db t) := by
  unfold insertTask
  split
  · rename_i e he
    refine avoids_error fun hlease => ?_
    obtain rfl : e = .checkViolation "ck_tasks_lease_coherence" := by
      simpa [leaseIncoherent] using hlease
    unfold Task.refused at he
    split at he
    · obtain ⟨c, hc, hcheck⟩ := Option.map_eq_some_iff.mp he
      exact Task.violation_lease ((DbError.checkViolation.inj hcheck) ▸ hc) h
    · cases he
  · split
    · exact avoids_ok _ _
    · split
      · exact avoids_error (by simp [leaseIncoherent])
      · split
        · exact avoids_ok _ _
        · exact avoids_error (by simp [leaseIncoherent])

theorem insertEvent_avoids (db : Database) (e : TaskEvent) :
    Avoids leaseIncoherent (insertEvent db e) := by
  unfold insertEvent
  split
  · exact avoids_ok _ _
  · exact avoids_error (by simp [leaseIncoherent])

theorem insertAttempt_avoids (db : Database) (a : AttemptRow) :
    Avoids leaseIncoherent (insertAttempt db a) := by
  unfold insertAttempt
  split
  · exact avoids_error (by simp [leaseIncoherent])
  · split
    · split
      · exact avoids_ok _ _
      · exact avoids_error (by simp [leaseIncoherent])
    · exact avoids_error (by simp [leaseIncoherent])

/-- A write that leaves a row's state and lease columns alone passes its checks. -/
theorem Task.Checked.keep {t t' : Task} (h : t.Checked) (hp : t'.pinned = t.pinned)
    (ha : t'.attempt = t.attempt) (hs : t'.state = t.state)
    (hw : t'.leaseWorkerId = t.leaseWorkerId)
    (hl : t'.leaseExpiresAt.isSome = t.leaseExpiresAt.isSome) : t'.Checked := by
  obtain ⟨hm, hx, hn, hpr, hlease⟩ := t.checked_iff.mp h
  have hm' : t'.maxAttempts = t.maxAttempts := congrArg Pinned.maxAttempts hp
  have hx' : t'.maxExecutionTimeS = t.maxExecutionTimeS := congrArg Pinned.maxExecutionTimeS hp
  have hpr' : t'.priority = t.priority := congrArg Pinned.priority hp
  exact t'.checked_iff.mpr ⟨hm' ▸ hm, hx' ▸ hx, ha ▸ hn, hpr' ▸ hpr, by rw [hs, hw, hl]; exact hlease⟩

/-- A QUEUED row that moves to CANCELLED with its lease columns as they are
passes its checks. -/
theorem Task.Checked.cancel {t t' : Task} (h : t.Checked) (hq : t.state = .queued)
    (hp : t'.pinned = t.pinned) (ha : t'.attempt = t.attempt) (hs : t'.state = .cancelled)
    (hw : t'.leaseWorkerId = t.leaseWorkerId) (hl : t'.leaseExpiresAt = t.leaseExpiresAt) :
    t'.Checked := by
  obtain ⟨hm, hx, hn, hpr, hlease⟩ := t.checked_iff.mp h
  have hm' : t'.maxAttempts = t.maxAttempts := congrArg Pinned.maxAttempts hp
  have hx' : t'.maxExecutionTimeS = t.maxExecutionTimeS := congrArg Pinned.maxExecutionTimeS hp
  have hpr' : t'.priority = t.priority := congrArg Pinned.priority hp
  refine t'.checked_iff.mpr ⟨hm' ▸ hm, hx' ▸ hx, ha ▸ hn, hpr' ▸ hpr, ?_⟩
  rw [hw, hl, ← hlease, hs, hq]
  constructor <;> intro hrun <;> cases hrun

theorem grantLeases_avoids (db : Database) (now : Time) (w : WorkerId) (ttl : Int)
    (ids : List TaskId) : Avoids leaseIncoherent (grantLeases db now w ttl ids) := by
  unfold grantLeases
  refine avoids_bind (updateTasks_avoids fun _ ht _ => claimWrite_checked ht) fun _ _ => ?_
  refine avoids_bind (foldlM_avoids insertEvent_avoids _ _) fun _ _ => ?_
  exact avoids_bind (foldlM_avoids insertAttempt_avoids _ _) fun _ _ => avoids_ok _ _

theorem renewLease_avoids (db : Database) (now : Time) (i : TaskId) (w : WorkerId) (a ttl : Int) :
    Avoids leaseIncoherent (renewLease db now i w a ttl) := by
  unfold renewLease
  refine avoids_bind (updateTasks_avoids fun t ht hsel => ?_) fun _ _ => avoids_ok _ _
  -- the row has a lease already, which the write replaces
  simp only [Bool.and_eq_true, decide_eq_true_eq] at hsel
  obtain ⟨-, -, e, he, -⟩ := hsel
  exact ht.keep rfl rfl rfl rfl (by rw [he]; rfl)

theorem cancelTask_avoids (db : Database) (now : Time) (i : TaskId) :
    Avoids leaseIncoherent (cancelTask db now i) := by
  unfold cancelTask
  split
  · exact avoids_ok _ _
  · unfold cancelSeen
    split
    · exact avoids_ok _ _
    · split
      · exact avoids_ok _ _
      · split
        · refine avoids_bind ?_ fun res _ => ?_
          · refine avoids_of_returns ?_
            have hlegal : ∀ src ∈ [State.queued], src.isLegal .cancelled = true := by
              simp [State.isLegal, State.allowed]
            have hchecked : ∀ t : Task, t.Checked → t.state ∈ [State.queued] →
                ((transitionWrite now .cancelled (cancelFields now)).row t).Checked :=
              fun t ht hq => ht.cancel (List.mem_singleton.mp hq) rfl rfl rfl rfl rfl
            obtain ⟨db', res, h⟩ := transition_returns db now i .taskCancelled {}
              (.obj [("reason", .str "cancelled_before_start")]) (List.cons_ne_nil _ _) hlegal
              hchecked
            exact ⟨_, h⟩
          · obtain ⟨db', res⟩ := res
            cases res with
            | applied t => exact avoids_ok _ _
            | rejected why obs => exact avoids_error (by simp [leaseIncoherent])
        · split
          · exact avoids_ok _ _
          · refine avoids_bind (updateTasks_avoids fun t ht _ => ht.keep rfl rfl rfl rfl rfl)
              fun _ _ => ?_
            exact avoids_bind (insertEvent_avoids _ _) fun _ _ => avoids_ok _ _

theorem cancelAgentTasks_avoids (db : Database) (now : Time) (versions : List VersionId)
    (reason : String) : Avoids leaseIncoherent (cancelAgentTasks db now versions reason) := by
  unfold cancelAgentTasks
  split
  · exact avoids_ok _ _
  · refine avoids_bind (updateTasks_avoids fun t ht hsel => ?_) fun _ _ => ?_
    · simp only [agentQueued, Bool.and_eq_true, beq_iff_eq] at hsel
      exact ht.cancel hsel.2 rfl rfl rfl rfl rfl
    · refine avoids_bind (updateTasks_avoids fun t ht _ => ht.keep rfl rfl rfl rfl rfl) fun _ _ => ?_
      refine avoids_bind (foldlM_avoids insertEvent_avoids _ _) fun _ _ => ?_
      exact avoids_bind (foldlM_avoids insertEvent_avoids _ _) fun _ _ => avoids_ok _ _

end Statements

theorem submitTask_avoids (db : Database) (now : Time) (newId : TaskId) (args : SubmitArgs) :
    Avoids leaseIncoherent (submitTask db now newId args) := by
  unfold submitTask
  refine avoids_bind (insertTask_avoids (by simp [submittedTask])) fun inserted _ => ?_
  cases inserted with
  | some db' => exact avoids_bind (insertEvent_avoids _ _) fun _ _ => avoids_ok _ _
  | none =>
    dsimp only
    split
    · exact avoids_error (by simp [leaseIncoherent])
    · exact avoids_bind (avoids_ensure (by simp [leaseIncoherent])) fun _ _ => avoids_ok _ _

/-- Whatever the state of the database, its constraints hold, and no transaction
would break this one. -/
theorem perform_avoids (db : Database) (now : Time) (op : Op) :
    Avoids leaseIncoherent (perform db now op) := by
  cases op with
  | createTenant newId name m q =>
    refine avoids_map _ ?_
    unfold createTenant
    dsimp only
    split
    · exact avoids_error (by simp [leaseIncoherent])
    · split
      · exact avoids_error (by simp [leaseIncoherent])
      · exact avoids_ok _ _
  | registerWorker w m caps =>
    refine avoids_map _ ?_
    unfold registerWorker
    dsimp only
    split
    · exact avoids_error (by simp [leaseIncoherent])
    · split
      · exact avoids_error (by simp [leaseIncoherent])
      · exact avoids_ok _ _
  | heartbeat w => exact avoids_ok _ _
  | setWorkerStatus w status => exact avoids_ok _ _
  | markDeadWorkers s => exact avoids_ok _ _
  | submitTask newId args => exact avoids_map _ (submitTask_avoids db now newId args)
  | claimTasks args scans =>
    refine avoids_map _ ?_
    unfold claimTasks
    dsimp only
    split
    · exact avoids_ok _ _
    · exact grantLeases_avoids _ _ _ _ _
  | renewLease i w a ttl => exact avoids_map _ (renewLease_avoids db now i w a ttl)
  | complete e i a w =>
    obtain ⟨db', res, h⟩ := completeAttempt_returns db now e i a w
    exact avoids_map _ (avoids_of_returns ⟨_, h⟩)
  | reap o limit scan =>
    refine avoids_map _ ?_
    by_cases hlimit : 0 ≤ limit
    · obtain ⟨db', r, h⟩ := reapBatch_returns db now o scan hlimit
      exact avoids_of_returns ⟨_, h⟩
    · unfold reapBatch findOverdue
      rw [if_pos (by omega)]
      exact avoids_error (by simp [leaseIncoherent])
  | cancelTask i => exact avoids_map _ (cancelTask_avoids db now i)
  | cancelAgentTasks versions reason => exact avoids_map _ (cancelAgentTasks_avoids db now versions reason)
  | recordEvent i ty a w data => exact avoids_map _ (insertEvent_avoids db _)

/-- **The columns follow the state.** In every history from the empty database
each row has the shape its state prescribes, and no transaction that comes next
is ended by the check on state and lease. -/
theorem row_shape_invariant (calls : List Call) :
    (history .empty calls).Shaped ∧
      ∀ now op, perform (history .empty calls) now op ≠
        .error (.integrity (.checkViolation "ck_tasks_lease_coherence")) :=
  ⟨history_invariant commit_shaped empty_shaped calls, fun now op => perform_avoids _ now op⟩

end ControlPlane
