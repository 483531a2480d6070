import ControlPlane.Server.Ledger
import ControlPlane.Worker.System

/-! # The attempt budget

A claim adds one to the attempt without looking at `max_attempts`; the bound
rests on whoever queues a RUNNING task again. The worker's retry asks the retry
policy, both sweeps compare the two columns, and the hand-back of a stopping
worker does neither. -/

namespace ControlPlane
open Keyed Fallible Runs

/-- No task has used more attempts, or has more rows in the ledger, than it may. -/
def WithinBudget (db : Database) : Prop :=
  ∀ i t, db.task? i = some t →
    t.attempt ≤ t.maxAttempts ∧ ((db.view i).attempts.length : Int) ≤ t.maxAttempts

/-- What the bound rests on: a task that waits for a claim has an attempt left. -/
def Budgeted (db : Database) : Prop :=
  ∀ i t, db.task? i = some t →
    t.attempt ≤ t.maxAttempts ∧ (t.state = .queued → t.attempt < t.maxAttempts)

/-- The step hands a task back in its last attempt. -/
def System.handsBackSpent (s : System) : Action → Bool
  | .worker w .handBack =>
    (s.workers w).any fun p =>
      match p.stage with
      | .handingBack ((taskId, attempt) :: _) =>
        (s.db.task? taskId).any fun t =>
          decide (t.HeldBy attempt w) && decide (t.maxAttempts ≤ t.attempt)
      | _ => false
  | _ => false

theorem pinned_maxAttempts {t u : Task} (h : t.pinned = u.pinned) : t.maxAttempts = u.maxAttempts :=
  congrArg Task.Pinned.maxAttempts h

variable [PyText]

/-! ## One transaction -/

/-- A transaction keeps the budget, unless it reports an attempt without a
successor to the queue. -/
theorem commit_budgeted {db : Database} (h : Budgeted db) (c : Call)
    (hc : ∀ e i a w, c.op = .complete e i a w → e.toState = .queued → ∀ t, db.task? i = some t →
      t.HeldBy a w → t.attempt < t.maxAttempts) : Budgeted (commit db c) := by
  intro i t' ht'
  have hchecked : 1 ≤ t'.maxAttempts := (t'.checked_iff.mp (Database.row_checked ht')).1
  have hstep := commit_step db c i
  rw [← Database.view_row] at ht'
  generalize (commit db c).view i = v' at hstep ht'
  cases hstep with
  | skip => exact h i t' ht'
  | noted e => exact h i t' ht'
  | @submitted args hop hv =>
    cases ht'
    have h0 : (0 : Int) < (submittedTask c.now i args).maxAttempts := by omega
    exact ⟨h0.le, fun _ => h0⟩
  | @claimed args scans t hop hr hcl =>
    cases ht'
    have hlt := (h i t hr).2 (Task.claimable_iff.mp hcl).1
    refine ⟨?_, fun hq => by cases hq⟩
    show t.attempt + 1 ≤ t.maxAttempts
    omega
  | @renewed w a ttl t hop hr hren =>
    cases ht'
    exact h i t hr
  | @completed e a w t hop hr hheld =>
    cases ht'
    obtain ⟨hst, hatt, -⟩ := e.row_fields c.now t
    have hmax : (e.row c.now t).maxAttempts = t.maxAttempts :=
      pinned_maxAttempts ((transitionWrite ..).pinned t)
    rw [hst, hatt, hmax]
    exact ⟨(h i t hr).1, fun hq => hc e i a w hop hq t hr hheld⟩
  | @reaped o limit scan t hop hr hs hov =>
    cases ht'
    obtain ⟨hst, hatt, -⟩ := o.row_fields c.now t
    have hmax : (o.row c.now t).maxAttempts = t.maxAttempts :=
      pinned_maxAttempts ((transitionWrite ..).pinned t)
    rw [hst, hatt, hmax]
    refine ⟨(h i t hr).1, fun hq => ?_⟩
    rcases reapToState_cases t.attempt t.maxAttempts with ⟨hlt, -⟩ | ⟨-, hf⟩
    · exact hlt
    · rw [hf] at hq
      cases hq
  | @cancelled t _ _ hop hr hq hcan =>
    cases ht'
    obtain ⟨hst, hatt, -, -, -, hpin⟩ := cancelled_fields hcan
    rw [hst, hatt, pinned_maxAttempts hpin]
    exact ⟨(h i t hr).1, fun hq => by cases hq⟩
  | @flagged t _ hop hr hs hf =>
    cases ht'
    exact h i t hr

omit [PyText] in
/-- With a ledger that agrees, the rows of a task are as many as its attempts. -/
theorem Budgeted.withinBudget {db : Database} (h : Budgeted db)
    (hl : ∀ i, (db.view i).Ledgered) : WithinBudget db := by
  intro i t ht
  have hle := (h i t ht).1
  have hi := (hl i).ledger ht
  have hlen := congrArg List.length hi.numbered
  have hn := hi.nonneg
  simp only [List.length_map, List.length_range] at hlen
  exact ⟨hle, by omega⟩

/-! ## What a worker knows of the budget -/

/-- The task of an attempt is there, as it was when it was claimed. -/
def Claimed (_ : WorkerId) (db : Database) (x : Attempt) : Prop :=
  ∃ t, db.task? x.row.id = some t ∧ t.pinned = x.row.pinned

theorem commit_claimed {db : Database} {x : Attempt} {w : WorkerId} (c : Call)
    (h : Claimed w db x) : Claimed w (commit db c) x := by
  obtain ⟨t, ht, hp⟩ := h
  obtain ⟨t', ht', hp'⟩ := (commit_step db c x.row.id).row_pinned ht
  exact ⟨t', ht', hp'.trans hp⟩

theorem claimed_invariant : AttemptInvariant Claimed where
  commit c h := commit_claimed c h
  claimed _ hclaim row hrow := by
    obtain ⟨-, rfl, hin, -⟩ := claimTasks_ok hclaim
    obtain ⟨t, hi, ht, rfl⟩ := mem_grantedRows.mp hrow
    obtain ⟨u, hu, -, -, hv⟩ := hin t.id hi
    obtain rfl : t = u := Option.eq_some_unique ht hu
    exact ⟨_, congrArg TaskView.row hv, rfl⟩
  step hmove h := by
    unfold Claimed
    rw [hmove.row, Move.run_db]
    split
    · exact h
    · exact commit_claimed _ h

omit [PyText] in
/-- The worker retries within the budget of the row it claimed. -/
theorem finalizeEnding_budget {row : Task} {outcome : Outcome} {cancelRequested : Bool} {rng : Draws}
    {e : Ending} (h : finalizeEnding row outcome cancelRequested rng = some e)
    (hqueued : e.toState = .queued) : row.attempt < row.maxAttempts := by
  unfold finalizeEnding at h
  split at h
  · cases h
    cases hqueued
  · split at h
    · obtain ⟨d, -, rfl⟩ := Option.map_eq_some_iff.mp h
      cases hqueued
    · dsimp only at h
      split at h
      · rename_i hretry
        exact decideRetry_budget hretry
      · cases h
        cases hqueued

/-! ## Runs -/

/-- A step that hands no task back in its last attempt keeps the budget. -/
theorem step_budgeted {s s' : System} {a : Action} (h : SystemStep s a s') (hs : Budgeted s.db)
    (hx : Remembers Claimed s) (hspent : s.handsBackSpent a = false) : Budgeted s'.db := by
  rw [step_db h]
  split
  · exact hs
  · rename_i op hop
    refine commit_budgeted hs _ ?_
    rintro e i n w rfl hq t ht hheld
    obtain ⟨p, b, rfl, hp, hissues⟩ := step_completes h hop
    obtain ⟨-, ⟨k, x, outcome, c, rng, -, hk, -, he, rfl, rfl⟩ | ⟨rest, rfl, hstage, rfl⟩⟩ :=
      hissues.completes
    · obtain ⟨u, hu, hpin⟩ := hx w p hp x (List.mem_of_getElem? hk)
      obtain rfl : t = u := Option.eq_some_unique ht hu
      rw [hheld.2.1, pinned_maxAttempts hpin]
      exact finalizeEnding_budget he hq
    · by_contra hge
      have hle : t.maxAttempts ≤ t.attempt := by omega
      simp [System.handsBackSpent, hp, hstage, ht, hheld, hle] at hspent

/-- **The attempt budget is a ceiling where no last attempt is handed back.** In
every run of the system in which no stopping worker hands a task back in its
last attempt, every state has `attempt <= max_attempts` for every task, and no
more rows in the ledger than that. -/
theorem attempts_within_budget (acts : List Action) (s : System)
    (h : Run (fun s a s' => SystemStep s a s' ∧ s.handsBackSpent a = false) .initial acts s) :
    Run (fun s a s' => SystemStep s a s' ∧ WithinBudget s'.db) .initial acts s := by
  let I : System → Prop := fun s =>
    Budgeted s.db ∧ Remembers Claimed s ∧ ∀ i, (s.db.view i).Ledgered
  have hstart : I .initial :=
    ⟨fun i t ht => (by cases ht), initial_remembers _, empty_ledgered⟩
  refine (h.within (I := I) ?_ hstart).mono ?_
  · rintro s a s' ⟨hs, hx, hl⟩ ⟨hst, hspent⟩
    refine ⟨step_budgeted hst hs hx hspent, claimed_invariant.system hst hx, ?_⟩
    exact step_keeps (I := fun db => ∀ i, (db.view i).Ledgered) commit_ledgered hst hl
  · rintro s a s' ⟨-, ⟨hst, -⟩, hs', -, hl'⟩
    exact ⟨hst, hs'.withinBudget hl'⟩

section
omit [PyText]

/-- A worker claims a task, is stopped while it executes and hands it back;
another one claims it. -/
def stoppedAndClaimedAgain (maxAttempts : Int) : List Action :=
  [.external (.createTenant 1 "tenant" 10 1000),
   .start "first" { capacity := 5, capabilities := [] },
   .start "second" { capacity := 5, capabilities := [] },
   .external (.submitTask 7
     { tenantId := 1, taskType := "demo", payload := [], maxAttempts := maxAttempts }),
   .worker "first" .poll,
   .worker "first" (.claim fun _ => {}),
   .worker "first" (.attempt 0 .begin),
   .worker "first" .stop,
   .worker "first" .drain,
   .worker "first" .announce,
   .worker "first" (.attempt 0 .cancel),
   .worker "first" (.attempt 0 (.renewal .stop)),
   .worker "first" (.attempt 0 (.join .lowest)),
   .worker "first" .settle,
   .worker "first" .handBack,
   .worker "second" .poll,
   .worker "second" (.claim fun _ => {})]

/-- The guarded step of the budget theorem. -/
def budgetedStep (s : System) (a : Action) : Option System :=
  if s.handsBackSpent a then none else @step PyText.plain s a

def claimedAgain : System :=
  (exec budgetedStep .initial (stoppedAndClaimedAgain 3)).get (by decide +kernel)

theorem attempts_within_budget_claimedAgain :
    Run (fun s a s' => @SystemStep PyText.plain s a s' ∧ WithinBudget s'.db) .initial
      (stoppedAndClaimedAgain 3) claimedAgain :=
  @attempts_within_budget PyText.plain _ _ (Run.of_guarded (Option.some_get _).symm)

/-- The one attempt the task may have is handed back, and it runs a second time. -/
theorem attempts_over_budget_claimedAgain :
    (exec (@step PyText.plain) .initial (stoppedAndClaimedAgain 1)).map (fun s =>
      (s.db.task? 7).map fun t => (t.state, t.attempt, t.maxAttempts)) =
        some (some (.running, 2, 1)) := by
  decide +kernel

end

end ControlPlane
