import ControlPlane.Server.Fencing

/-! # The attempt ledger agrees with the task

Two tables are kept in step by convention: the claim opens a row of the ledger,
the completions and the recoveries close it, a cancellation leaves it alone.
The invariant says what the rows of a task are in terms of its row in `tasks`;
that every step keeps it rests on the fences, which let only a RUNNING attempt
be closed. -/

namespace ControlPlane
open Keyed Fallible Runs

/-- The outcomes a task may be queued again after. -/
def AttemptOutcome.requeues (o : AttemptOutcome) : Prop :=
  o = .failed ∨ o = .lost ∨ o = .abandoned

/-- The ledger rows of a task, given its row. -/
structure Ledger (t : Task) (rows : List AttemptRow) : Prop where
  /-- one row for each of the attempts 1 to `t.attempt`, in order -/
  numbered : rows.map AttemptRow.attempt = (List.range t.attempt.toNat).map fun k : Nat => (k : Int) + 1
  nonneg : 0 ≤ t.attempt
  started : t.state ≠ .queued → t.state ≠ .cancelled → 0 < t.attempt
  earlier : ∀ r ∈ rows, r.attempt < t.attempt → ∃ o, r.outcome = some o ∧ o.requeues
  latest_open : ∀ r ∈ rows, r.attempt = t.attempt → (r.outcome = none ↔ t.state = .running)
  latest_worker : ∀ r ∈ rows, r.attempt = t.attempt → t.state = .running →
    t.leaseWorkerId = some r.workerId
  latest_succeeded : ∀ r ∈ rows, r.attempt = t.attempt →
    (r.outcome = some .succeeded ↔ t.state = .succeeded)
  latest_failed : ∀ r ∈ rows, r.attempt = t.attempt → t.state = .failed →
    r.outcome = some .failed ∨ r.outcome = some .lost
  latest_queued : ∀ r ∈ rows, r.attempt = t.attempt → t.state = .queued →
    ∃ o, r.outcome = some o ∧ o.requeues

/-- A task without a row has no ledger, and a row has the ledger it describes. -/
def TaskView.Ledgered (v : TaskView) : Prop :=
  match v.row with
  | none => v.attempts = []
  | some t => Ledger t v.attempts

theorem TaskView.Ledgered.ledger {v : TaskView} (h : v.Ledgered) {t : Task}
    (ht : v.row = some t) : Ledger t v.attempts := by
  unfold TaskView.Ledgered at h
  rw [ht] at h
  exact h

namespace Ledger

variable {t t' : Task} {rows : List AttemptRow}

theorem mem_attempts (h : Ledger t rows) {a : Int} :
    (∃ r ∈ rows, r.attempt = a) ↔ 1 ≤ a ∧ a ≤ t.attempt := by
  rw [← List.mem_map, h.numbered]
  have hn := h.nonneg
  simp only [List.mem_map, List.mem_range]
  constructor
  · rintro ⟨k, hk, rfl⟩
    omega
  · rintro ⟨h₁, h₂⟩
    exact ⟨(a - 1).toNat, by omega, by omega⟩

theorem attempt_le (h : Ledger t rows) {r : AttemptRow} (hr : r ∈ rows) : r.attempt ≤ t.attempt :=
  (h.mem_attempts.mp ⟨r, hr, rfl⟩).2

theorem attempts_nodup (h : Ledger t rows) : (rows.map AttemptRow.attempt).Nodup := by
  rw [h.numbered]
  refine List.Nodup.map (fun k l (hkl : (k : Int) + 1 = l + 1) => ?_) List.nodup_range
  omega

theorem eq_of_attempt (h : Ledger t rows) {r s : AttemptRow} (hr : r ∈ rows) (hs : s ∈ rows)
    (he : r.attempt = s.attempt) : r = s :=
  List.inj_on_of_nodup_map h.attempts_nodup hr hs he

/-- At most one attempt succeeded. -/
theorem one_succeeded (h : Ledger t rows) {r s : AttemptRow} (hr : r ∈ rows) (hs : s ∈ rows)
    (hro : r.outcome = some .succeeded) (hso : s.outcome = some .succeeded) : r = s := by
  have hlast : ∀ x ∈ rows, x.outcome = some .succeeded → x.attempt = t.attempt := by
    intro x hx ho
    have hle := h.attempt_le hx
    by_contra hne
    obtain ⟨o, ho', hreq⟩ := h.earlier x hx (by omega)
    obtain rfl := Option.eq_some_unique ho ho'
    rcases hreq with h | h | h <;> cases h
  exact h.eq_of_attempt hr hs ((hlast r hr hro).trans (hlast s hs hso).symm)

/-- The ledger does not depend on the other columns. -/
theorem congr (h : Ledger t rows) (hs : t'.state = t.state) (ha : t'.attempt = t.attempt)
    (hw : t'.leaseWorkerId = t.leaseWorkerId) : Ledger t' rows := by
  constructor
  · rw [ha]; exact h.numbered
  · rw [ha]; exact h.nonneg
  · rw [hs, ha]; exact h.started
  · rw [ha]; exact h.earlier
  · rw [hs, ha]; exact h.latest_open
  · rw [hs, ha, hw]; exact h.latest_worker
  · rw [hs, ha]; exact h.latest_succeeded
  · rw [hs, ha]; exact h.latest_failed
  · rw [hs, ha]; exact h.latest_queued

/-- A claim opens the next attempt's row. -/
theorem claim (h : Ledger t rows) (hq : t.state = .queued) (now : Time) (w : WorkerId) (ttl : Int) :
    Ledger ((claimWrite now w ttl).row t)
      (rows ++ [startedAttempt now w ((claimWrite now w ttl).row t)]) := by
  have hn := h.nonneg
  have hle : ∀ r ∈ rows, r.attempt ≤ t.attempt := fun r hr => h.attempt_le hr
  -- the rows there were are now all earlier ones
  have hold : ∀ r ∈ rows, r.attempt ≠ t.attempt + 1 := by
    intro r hr he
    have := hle r hr
    omega
  have hlast : ∀ r ∈ rows ++ [startedAttempt now w ((claimWrite now w ttl).row t)],
      r.attempt = t.attempt + 1 → r = startedAttempt now w ((claimWrite now w ttl).row t) := by
    intro r hr he
    rcases List.mem_append.mp hr with hr | hr
    · exact absurd he (hold r hr)
    · exact List.mem_singleton.mp hr
  constructor
  · show _ = (List.range (t.attempt + 1).toNat).map _
    rw [show (t.attempt + 1).toNat = t.attempt.toNat + 1 by omega, List.range_succ,
      List.map_append, List.map_append, h.numbered]
    simp [startedAttempt, claimWrite]
    omega
  · show 0 ≤ t.attempt + 1
    omega
  · intro _ _
    show 0 < t.attempt + 1
    omega
  · intro r hr hlt
    replace hlt : r.attempt < t.attempt + 1 := hlt
    rcases List.mem_append.mp hr with hr | hr
    · rcases lt_or_eq_of_le (hle r hr) with hlt' | he
      · exact h.earlier r hr hlt'
      · exact h.latest_queued r hr he hq
    · rw [List.mem_singleton.mp hr] at hlt
      exact absurd hlt (lt_irrefl _)
  · intro r hr he
    rw [hlast r hr he]
    exact ⟨fun _ => rfl, fun _ => rfl⟩
  · intro r hr he _
    rw [hlast r hr he]
    rfl
  · intro r hr he
    rw [hlast r hr he]
    constructor <;> intro h <;> cases h
  · intro r hr he hs
    cases hs
  · intro r hr he hs
    cases hs

/-- Closing the attempt of a RUNNING task, with an outcome that suits the state
the task moves to. -/
theorem close (h : Ledger t rows) (hrun : t.state = .running) (ha : t'.attempt = t.attempt)
    (hnot : t'.state ≠ .running) (now : Time) (o : AttemptOutcome) (ec em : Option String)
    (hsucc : o = .succeeded ↔ t'.state = .succeeded)
    (hfail : t'.state = .failed → o = .failed ∨ o = .lost)
    (hqueue : t'.state = .queued → o.requeues) :
    Ledger t' (closeAttempt now t.attempt o ec em rows) := by
  have hpos : 0 < t.attempt := h.started (by rw [hrun]; decide) (by rw [hrun]; decide)
  have hmem : ∀ r' ∈ closeAttempt now t.attempt o ec em rows, ∃ r ∈ rows, r'.attempt = r.attempt ∧
      (r.attempt = t.attempt → r'.outcome = some o) ∧ (r.attempt ≠ t.attempt → r' = r) := by
    intro r' hr'
    obtain ⟨r, hr, rfl⟩ := List.mem_map.mp hr'
    refine ⟨r, hr, ?_⟩
    split
    · rename_i he; exact ⟨rfl, fun _ => rfl, fun hne => absurd he hne⟩
    · rename_i he; exact ⟨rfl, fun he' => absurd he' he, fun _ => rfl⟩
  have hlast : ∀ r' ∈ closeAttempt now t.attempt o ec em rows, r'.attempt = t'.attempt →
      r'.outcome = some o := by
    intro r' hr' he
    obtain ⟨r, -, hattempt, hclosed, -⟩ := hmem r' hr'
    exact hclosed (by omega)
  constructor
  · rw [ha, ← h.numbered]
    unfold closeAttempt
    rw [List.map_map]
    refine List.map_congr_left fun r _ => ?_
    simp only [Function.comp_apply]
    split <;> rfl
  · rw [ha]; exact h.nonneg
  · intro _ _
    omega
  · intro r' hr' hlt
    obtain ⟨r, hr, hattempt, -, hsame⟩ := hmem r' hr'
    rw [hsame (by omega)]
    exact h.earlier r hr (by omega)
  · intro r' hr' he
    rw [hlast r' hr' he]
    refine ⟨fun ho => ?_, fun hs => absurd hs hnot⟩
    cases ho
  · intro r' _ _ hs
    exact absurd hs hnot
  · intro r' hr' he
    rw [hlast r' hr' he, Option.some.injEq]
    exact hsucc
  · intro r' hr' he hs
    rw [hlast r' hr' he, Option.some.injEq, Option.some.injEq]
    exact hfail hs
  · intro r' hr' he hs
    exact ⟨o, hlast r' hr' he, hqueue hs⟩

/-- Cancelling a QUEUED task leaves its ledger as it is. -/
theorem cancel (h : Ledger t rows) (hq : t.state = .queued) (ha : t'.attempt = t.attempt)
    (hs : t'.state = .cancelled) : Ledger t' rows := by
  have hclosed : ∀ r ∈ rows, r.attempt = t'.attempt → ∃ o, r.outcome = some o ∧ o.requeues :=
    fun r hr he => h.latest_queued r hr (he.trans ha) hq
  constructor
  · rw [ha]; exact h.numbered
  · rw [ha]; exact h.nonneg
  · intro _ hne
    exact absurd hs hne
  · rw [ha]; exact h.earlier
  · intro r hr he
    obtain ⟨o, ho, -⟩ := hclosed r hr he
    rw [ho, hs]
    constructor <;> intro h <;> cases h
  · intro r _ _ hrun
    rw [hs] at hrun
    cases hrun
  · intro r hr he
    obtain ⟨o, ho, hreq⟩ := hclosed r hr he
    rw [ho, hs]
    refine ⟨fun h => ?_, fun h => by cases h⟩
    cases h
    rcases hreq with h | h | h <;> cases h
  · intro r _ _ hf
    rw [hs] at hf
    cases hf
  · intro r _ _ hq'
    rw [hs] at hq'
    cases hq'

end Ledger

/-- The outcome each completion writes suits the state it moves to. -/
theorem Ending.outcome_suits (e : Ending) :
    (e.outcome = .succeeded ↔ e.toState = .succeeded) ∧
      (e.toState = .failed → e.outcome = .failed ∨ e.outcome = .lost) ∧
      (e.toState = .queued → e.outcome.requeues) ∧ e.toState ≠ .running := by
  cases e <;> simp [Ending.outcome, Ending.toState, AttemptOutcome.requeues]

variable [PyText]

/-- One case for each kind of step. -/
theorem TaskStep.ledgered {c : Call} {i : TaskId} {v v' : TaskView} (h : TaskStep c i v v')
    (hv : v.Ledgered) : v'.Ledgered := by
  cases h with
  | skip => exact hv
  | noted e => exact hv
  | submitted hop hv' =>
    show Ledger (submittedTask c.now i _) []
    constructor <;> simp [submittedTask]
  | claimed hop hr hc => exact (hv.ledger hr).claim (Task.claimable_iff.mp hc).1 ..
  | renewed hop hr hf => exact (hv.ledger hr).congr rfl rfl rfl
  | @completed e a w t hop hr hf =>
    obtain ⟨hs, ha, -⟩ := e.row_fields c.now t
    obtain ⟨hsucc, hfail, hqueue, hnot⟩ := e.outcome_suits
    exact (hv.ledger hr).close hf.1 ha (hs ▸ hnot) _ _ _ _ (hs ▸ hsucc) (hs ▸ hfail) (hs ▸ hqueue)
  | @reaped o limit scan t hop hr hs ho =>
    obtain ⟨hs', ha, -⟩ := o.row_fields c.now t
    have hcases := reapToState_cases t.attempt t.maxAttempts
    refine (hv.ledger hr).close hs ha ?_ _ _ _ _ ?_ (fun _ => Or.inr rfl) (fun _ => Or.inr (Or.inl rfl))
    · rcases hcases with ⟨-, h⟩ | ⟨-, h⟩ <;> rw [hs', h] <;> decide
    · rcases hcases with ⟨-, h⟩ | ⟨-, h⟩ <;> rw [hs', h] <;> decide
  | cancelled hop hr hq ht' =>
    obtain ⟨hs, ha, -⟩ := cancelled_fields ht'
    exact (hv.ledger hr).cancel hq ha hs
  | flagged hop hr hs hf => exact (hv.ledger hr).congr rfl rfl rfl

/-- A row of the ledger that has an outcome is in the ledger for good. -/
theorem TaskStep.closed_kept {c : Call} {i : TaskId} {v v' : TaskView} (h : TaskStep c i v v')
    (hv : v.Ledgered) {r : AttemptRow} (hr : r ∈ v.attempts) (ho : r.outcome.isSome = true) :
    r ∈ v'.attempts := by
  -- an update of the open row of a RUNNING task passes over the closed ones
  have hclose : ∀ {t : Task}, v.row = some t → t.state = .running → ∀ o ec em,
      r ∈ closeAttempt c.now t.attempt o ec em v.attempts := by
    intro t ht hrun o ec em
    refine List.mem_map.mpr ⟨r, hr, if_neg fun he => ?_⟩
    rw [((hv.ledger ht).latest_open r hr he).mpr hrun] at ho
    cases ho
  cases h with
  | skip => exact hr
  | noted e => exact hr
  | submitted hop hv' => rw [hv'] at hr; cases hr
  | claimed hop ht hc => exact List.mem_append_left _ hr
  | renewed hop ht hf => exact hr
  | completed hop ht hf => exact hclose ht hf.1 ..
  | reaped hop ht hs hov => exact hclose ht hs ..
  | cancelled hop ht hq ht' => exact hr
  | flagged hop ht hs hf => exact hr

theorem commit_ledgered (db : Database) (c : Call) (h : ∀ i, (db.view i).Ledgered) :
    ∀ i, ((commit db c).view i).Ledgered := fun i => (commit_step db c i).ledgered (h i)

omit [PyText] in
theorem empty_ledgered (i : TaskId) : (Database.empty.view i).Ledgered := rfl

theorem history_ledgered (calls : List Call) (i : TaskId) :
    ((history .empty calls).view i).Ledgered :=
  history_invariant (I := fun s => ∀ i, (s.view i).Ledgered) commit_ledgered empty_ledgered calls i

omit [PyText] in
theorem mem_view_attempts {db : Database} {r : AttemptRow} :
    r ∈ db.attempts.rows ↔ r ∈ (db.view r.taskId).attempts := by
  simp [Database.view]

omit [PyText] in
/-- With a ledger that agrees, the next attempt of a task has no row yet. -/
theorem next_attempt_free {db : Database} {t : Task} (h : (db.view t.id).Ledgered)
    (ht : db.task? t.id = some t) : db.attempt? t.id (t.attempt + 1) = none := by
  cases hr : db.attempt? t.id (t.attempt + 1) with
  | none => rfl
  | some r =>
    obtain ⟨hmem, he⟩ := Database.attempt?_eq_some.mp hr
    have := (h.ledger ht).attempt_le hmem
    omega

/-- **The ledger agrees with the tasks** in every state of every history from the
empty database. No step of it changes a row that has an outcome, at most one row
of a task succeeded, and a claim never fails on the key of the ledger: it
returns, or its worker is not registered. -/
theorem ledger_agrees (calls : List Call) :
    (∀ i, ((history .empty calls).view i).Ledgered) ∧
      Run (fun s c s' => Step s c s' ∧ ∀ r ∈ s.attempts.rows, r.outcome.isSome = true →
        r ∈ s'.attempts.rows) .empty calls (history .empty calls) ∧
      (∀ i, ∀ r ∈ ((history .empty calls).view i).attempts,
        ∀ s ∈ ((history .empty calls).view i).attempts,
          r.outcome = some .succeeded → s.outcome = some .succeeded → r = s) ∧
      ∀ now args scans,
        (∃ db' rows, claimTasks (history .empty calls) now args scans = .ok (db', rows)) ∨
        (claimTasks (history .empty calls) now args scans =
            .error (.integrity (.foreignKeyViolation "task_attempts_worker_id_fkey")) ∧
          (history .empty calls).workers.find? args.workerId = none) := by
  refine ⟨history_ledgered calls, ?_, fun i r hr s hs hro hso => ?_, fun now args scans => ?_⟩
  · refine history_steps_within (I := fun s => ∀ i, (s.view i).Ledgered)
      (Q := fun s _ s' => ∀ r ∈ s.attempts.rows, r.outcome.isSome = true → r ∈ s'.attempts.rows)
      commit_ledgered (fun s c hs r hr ho => ?_) empty_ledgered calls
    exact mem_view_attempts.mpr
      ((commit_step s c r.taskId).closed_kept (hs _) (mem_view_attempts.mp hr) ho)
  · have h := history_ledgered calls i
    unfold TaskView.Ledgered at h
    split at h
    · rw [h] at hr
      cases hr
    · exact h.one_succeeded hr hs hro hso
  · exact claimTasks_fresh _ now args scans fun t _ ht => next_attempt_free (history_ledgered calls t.id) ht

end ControlPlane
