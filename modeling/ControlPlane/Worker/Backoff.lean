import ControlPlane.Worker.Budget

/-! # Backoff, from the policy to the next claim

The delay a worker draws becomes the earliest time of the next claim, by the
clock of the database: the retry queues the task from then on, a claim takes only
what is due, and nothing in between moves that time. -/

namespace ControlPlane
open Keyed Fallible Runs

/-- Nobody runs the task, and nobody may claim it before this time. -/
def TaskView.Deferred (due : Time) (v : TaskView) : Prop :=
  ∃ t, v.row = some t ∧ t.state ≠ .running ∧ (t.state = .queued → due ≤ t.availableAt)

variable [PyText]

/-- What a step claims. -/
def System.claims (s : System) (a : Action) : List (WorkerId × TaskId × Int) :=
  ((s.op? a).map fun op => claimsOf s.db ⟨s.clock, op⟩).getD []

/-- The step ends the attempt of this row by the retry branch of `_finalize`, for
this exception and with this delay. -/
inductive System.Retries (s : System) : Action → Task → PyException → ℚ → Prop
  | finalize {w : WorkerId} {p : Worker} {k : Nat} {x : Attempt} {detail : PyException} {c : Bool}
      {rng : Draws} {errorClass errorMessage : String} {d : ℚ} (hp : s.workers w = some p)
      (hx : p.inflight[k]? = some x) (hphase : x.phase = .finalizing (.failed detail) c rng)
      (hending : finalizeEnding x.row (.failed detail) c rng =
        some (.retry errorClass errorMessage d))
      (hheld : Holds x.row.id x.row.attempt w s.db) :
      s.Retries (.worker w (.attempt k .finalize)) x.row detail d

/-! ## The decision -/

omit [PyText] in
/-- An attempt in flight is the first of its task or a later one. -/
def Numbered (_ : WorkerId) (_ : Database) (x : Attempt) : Prop := 1 ≤ x.row.attempt

theorem numbered_invariant : AttemptInvariant Numbered where
  commit _ h := h
  claimed _ hclaim row hrow := by
    obtain ⟨-, rfl, -⟩ := claimTasks_ok hclaim
    obtain ⟨t, -, ht, rfl⟩ := mem_grantedRows.mp hrow
    have hnonneg : 0 ≤ t.attempt := (t.checked_iff.mp (Database.row_checked ht)).2.2.1
    show 1 ≤ t.attempt + 1
    omega
  step hmove h := by
    unfold Numbered
    rw [hmove.row]
    exact h

omit [PyText] in
/-- What the retry branch has asked the policy, and what it was told. -/
theorem finalizeEnding_retry {row : Task} {detail : PyException} {c : Bool} {rng : Draws}
    {errorClass errorMessage : String} {d : ℚ}
    (h : finalizeEnding row (.failed detail) c rng = some (.retry errorClass errorMessage d)) :
    (decideRetry (classify detail) row.attempt row.maxAttempts (retryAfterOf detail) rng).shouldRetry
        = true ∧
      d = (decideRetry (classify detail) row.attempt row.maxAttempts (retryAfterOf detail)
        rng).backoffS := by
  unfold finalizeEnding at h
  split at h
  · cases h
  · dsimp only at h
    split at h
    · rename_i hretry
      cases h
      exact ⟨hretry, rfl⟩
    · cases h

/-! ## Until the next claim -/

/-- Before that time a deferred task is not claimed, and a step keeps it deferred. -/
theorem TaskStep.deferred {c : Call} {i : TaskId} {v v' : TaskView} {due : Time}
    (h : TaskStep c i v v') (hnow : c.now < due) (hv : v.Deferred due) : v'.Deferred due := by
  obtain ⟨t, ht, hrun, hdue⟩ := hv
  cases h with
  | skip => exact ⟨t, ht, hrun, hdue⟩
  | noted e => exact ⟨t, ht, hrun, hdue⟩
  | submitted hop hv => rw [hv] at ht; cases ht
  | claimed hop hr hc =>
    obtain rfl := Option.eq_some_unique hr ht
    obtain ⟨hq, havailable⟩ := Task.claimable_iff.mp hc
    exact absurd (havailable.trans_lt hnow) (not_lt.mpr (hdue hq))
  | renewed hop hr hf =>
    obtain rfl := Option.eq_some_unique hr ht
    exact absurd hf.1.1 hrun
  | completed hop hr hf =>
    obtain rfl := Option.eq_some_unique hr ht
    exact absurd hf.1 hrun
  | reaped hop hr hs hov =>
    obtain rfl := Option.eq_some_unique hr ht
    exact absurd hs hrun
  | cancelled hop hr hq ht' =>
    have hst := (cancelled_fields ht').1
    exact ⟨_, rfl, by simp [hst], fun he => by rw [hst] at he; cases he⟩
  | flagged hop hr hs hf =>
    obtain rfl := Option.eq_some_unique hr ht
    exact absurd hs hrun

/-- The time has come, or the task is deferred. -/
def System.Waits (i : TaskId) (due : Time) (s : System) : Prop :=
  due ≤ s.clock ∨ (s.db.view i).Deferred due

theorem step_waits {s s' : System} {a : Action} {i : TaskId} {due : Time}
    (h : SystemStep s a s') (hs : s.Waits i due) : s'.Waits i due := by
  by_cases hclock : due ≤ s.clock
  · exact Or.inl (hclock.trans (step_clock h))
  · have hdeferred := hs.resolve_left hclock
    refine Or.inr ?_
    rw [step_db h]
    split
    · exact hdeferred
    · exact (commit_step ..).deferred (not_le.mp hclock) hdeferred

/-- A task that waits is claimed when its time has come. -/
theorem System.Waits.claimed {s : System} {b : Action} {i : TaskId} {due : Time} {w : WorkerId}
    {n : Int} (hs : s.Waits i due) (h : (w, i, n) ∈ s.claims b) : due ≤ s.clock := by
  refine hs.elim id fun hdeferred => ?_
  obtain ⟨t, ht, -, hdue⟩ := hdeferred
  unfold System.claims at h
  cases hop : s.op? b with
  | none =>
    rw [hop] at h
    cases h
  | some op =>
    rw [hop] at h
    obtain ⟨args, scans, u, -, -, hu, hc, -⟩ := claimsOf_eq h
    obtain rfl : u = t := Option.eq_some_unique hu ht
    obtain ⟨hq, havailable⟩ := Task.claimable_iff.mp hc
    exact (hdue hq).trans havailable

/-- A retry defers its task by the delay. -/
theorem System.Retries.waits {s s' : System} {a : Action} {row : Task} {detail : PyException} {d : ℚ}
    (h : s.Retries a row detail d) (hstep : SystemStep s a s') :
    s'.Waits row.id (s.clock + seconds d) := by
  obtain ⟨hp, hx, hphase, hending, t, ht, hheld⟩ := h
  rename_i w p k x c rng errorClass errorMessage
  refine Or.inr ?_
  have hop : s.op? (.worker w (.attempt k .finalize)) =
      some (.complete (.retry errorClass errorMessage d) x.row.id x.row.attempt w) := by
    rw [op?_finalize hp hx hphase, hending]
    rfl
  have hview : (commit s.db ⟨s.clock, .complete (.retry errorClass errorMessage d) x.row.id
      x.row.attempt w⟩).view x.row.id =
      (Ending.retry errorClass errorMessage d).view s.clock w t (s.db.view x.row.id) :=
    commit_completed ht hheld
  rw [step_db hstep, hop]
  dsimp only
  rw [hview]
  have hst := ((Ending.retry errorClass errorMessage d).row_fields s.clock t).1
  refine ⟨_, rfl, ?_, fun _ => le_refl _⟩
  rw [hst]
  exact (Ending.retry errorClass errorMessage d).toState_not_running

/-- **Backoff is honoured end to end.** An attempt that ends by a retry had another
one left and failed in a retryable way; its delay keeps to the bounds of the
policy; and no worker claims the task before the delay has passed. -/
theorem backoff_honoured {acts : List Action} {s s' : System} {a : Action} {row : Task}
    {detail : PyException} {d : ℚ} (hrun : Run SystemStep .initial acts s)
    (hstep : SystemStep s a s') (hend : s.Retries a row detail d) :
    row.attempt < row.maxAttempts ∧ (policies (classify detail)).retryable = true ∧
      (∀ cap, (policies (classify detail)).attemptCap = some cap → row.attempt < cap) ∧
      (retryAfterOf detail = none → 0 ≤ d ∧ d ≤ min (policies (classify detail)).capS
        ((policies (classify detail)).baseS * 2 ^ (row.attempt - 1))) ∧
      (∀ r, retryAfterOf detail = some r →
        r ≤ d ∧ d ≤ r + max 1 (policies (classify detail)).baseS) ∧
      ∀ later t b w n, Run SystemStep s' later t → (w, row.id, n) ∈ t.claims b →
        s.clock + seconds d ≤ t.clock := by
  have hwaits : s'.Waits row.id (s.clock + seconds d) := hend.waits hstep
  obtain ⟨hp, hx, -, hending, -⟩ := hend
  rename_i w p k x c rng errorClass errorMessage
  have hnumbered : 1 ≤ x.row.attempt :=
    hrun.invariant (I := Remembers Numbered) (fun hs h => numbered_invariant.system h hs)
      (initial_remembers _) w p hp x (List.mem_of_getElem? hx)
  obtain ⟨hretry, rfl⟩ := finalizeEnding_retry hending
  obtain ⟨hretryable, hbudget, hcap, hdelay⟩ := decideRetry_granted hretry
  have hbounds := backoffS_within (classify detail) hnumbered (retryAfterOf detail) rng
  rw [← hdelay] at hbounds
  refine ⟨hbudget, hretryable, hcap, hbounds.1, hbounds.2, fun later t b v n hlater hclaim => ?_⟩
  have hthen : t.Waits x.row.id _ :=
    hlater.invariant (I := System.Waits x.row.id _) (fun hs h => step_waits h hs) hwaits
  exact hthen.claimed hclaim

section
omit [PyText]

deriving instance DecidableEq for PyException
deriving instance DecidableEq for Draws
deriving instance DecidableEq for Outcome
deriving instance DecidableEq for Phase
deriving instance DecidableEq for Ending

def timedOut : PyException :=
  { typeName := "TimeoutError", text := "timed out", timeoutError := true }

def drawnHalf : Draws := ⟨⟨1 / 2, by norm_num, by norm_num⟩, .lowest⟩

/-- An attempt whose adapter has timed out is about to be finalised. -/
def attemptTimedOut : List Action :=
  [.external (.createTenant 1 "tenant" 10 1000),
   .start "first" { capacity := 5, capabilities := [] },
   .external (.submitTask 7 { tenantId := 1, taskType := "demo", payload := [] }),
   .worker "first" .poll,
   .worker "first" (.claim fun _ => {}),
   .worker "first" (.attempt 0 .begin),
   .advance 3,
   .worker "first" (.attempt 0 (.adapterEnds (.failed timedOut))),
   .worker "first" (.attempt 0 (.renewal .stop)),
   .worker "first" (.attempt 0 (.join drawnHalf))]

def finalizeFirst : Action := .worker "first" (.attempt 0 .finalize)

/-- Its task's delay of a second passes before the worker claims again. -/
def delayPassed : List Action := [.advance 1, .worker "first" .poll]

theorem backoff_honoured_timedOut : ∃ s s' t,
    Run (@SystemStep PyText.plain) .initial attemptTimedOut s ∧
    @SystemStep PyText.plain s finalizeFirst s' ∧ Run (@SystemStep PyText.plain) s' delayPassed t ∧
    ("first", 7, 2) ∈ @System.claims PyText.plain t (.worker "first" (.claim fun _ => {})) ∧
    s.clock + seconds 1 ≤ t.clock := by
  have hbefore : (exec (@step PyText.plain) .initial attemptTimedOut).map (fun s =>
      (s.workers "first").map fun p => p.inflight.map fun x => (x.row.id, x.phase)) =
      some (some [(7, .finalizing (.failed timedOut) false drawnHalf)]) := by decide +kernel
  have hending : (exec (@step PyText.plain) .initial attemptTimedOut).map (fun s =>
      (s.workers "first").map fun p => p.inflight.map fun x =>
        finalizeEnding x.row (.failed timedOut) false drawnHalf) =
      some (some [some (.retry "TIMEOUT" "TimeoutError: timed out" 1)]) := by decide +kernel
  have hheld : (exec (@step PyText.plain) .initial attemptTimedOut).map (fun s =>
      (s.workers "first").map fun p => p.inflight.map fun x =>
        (s.db.task? x.row.id).map fun t => decide (t.HeldBy x.row.attempt "first")) =
      some (some [some true]) := by decide +kernel
  have hafter : (exec (@step PyText.plain) .initial
      (attemptTimedOut ++ finalizeFirst :: delayPassed)).map (fun s =>
        @System.claims PyText.plain s (.worker "first" (.claim fun _ => {}))) =
      some [("first", 7, 2)] := by decide +kernel
  obtain ⟨s, hs, hworker⟩ := Option.map_eq_some_iff.mp hbefore
  obtain ⟨p, hp, hinflight⟩ := Option.map_eq_some_iff.mp hworker
  obtain ⟨x, hx, hphase⟩ := List.map_eq_singleton_iff.mp hinflight
  rw [hs, Option.map_some, hp, Option.map_some, hx] at hending hheld
  obtain ⟨hid, hphase⟩ := Prod.mk.inj hphase
  have hretry : finalizeEnding x.row (.failed timedOut) false drawnHalf = _ :=
    (List.cons.inj (Option.some.inj (Option.some.inj hending))).1
  obtain ⟨r, hr, hrow⟩ := Option.map_eq_some_iff.mp
    (List.cons.inj (Option.some.inj (Option.some.inj hheld))).1
  rw [exec_append, hs, Option.bind_some] at hafter
  obtain ⟨t, ht, hclaim⟩ := Option.map_eq_some_iff.mp hafter
  obtain ⟨s', hstep, hlater⟩ := Option.bind_eq_some_iff.mp ht
  have hend : s.Retries finalizeFirst x.row timedOut 1 :=
    .finalize hp (by rw [hx]; rfl) hphase hretry ⟨r, hr, of_decide_eq_true hrow⟩
  have hmem : ("first", 7, 2) ∈ @System.claims PyText.plain t (.worker "first" (.claim fun _ => {})) := by
    rw [hclaim]
    exact List.mem_singleton_self _
  have hrun : Run (@SystemStep PyText.plain) .initial attemptTimedOut s := Run.of_exec hs
  have hrest : Run (@SystemStep PyText.plain) s' delayPassed t := Run.of_exec hlater
  obtain ⟨-, -, -, -, -, hafter⟩ := @backoff_honoured PyText.plain _ _ _ _ _ _ _ hrun hstep hend
  exact ⟨s, s', t, hrun, hstep, hrest, hmem, hafter _ _ _ _ _ hrest (hid ▸ hmem)⟩

end

end ControlPlane
