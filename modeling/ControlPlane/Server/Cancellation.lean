import ControlPlane.Server.Fencing

/-! # A recorded cancellation

A cancellation of a RUNNING task is a flag, left for whoever ends the attempt.
The worker reads it with its next renewal; a retry or a hand-back decided before
that, and both sweeps of the reaper, never look at it. Outside those steps the
flag is honoured: the attempt ends in a terminal state and no claim takes the
task again. -/

namespace ControlPlane
open Keyed Fallible Runs

/-- A step that honours the flag of a task, if it is set. -/
structure FlagHonoured [PyText] (i : TaskId) (t : Task) (s : Database) (c : Call) (s' : Database) :
    Prop where
  kept : ∃ t', s'.task? i = some t' ∧ t'.cancelRequested = true
  unclaimed : ∀ w a, (w, i, a) ∉ claimsOf s c
  /-- whatever ends the attempt ends the task -/
  ended : t.state = .running → ∀ t', s'.task? i = some t' → t'.state = .running ∨
    t'.state.isTerminal = true
  /-- the lease sweep leaves the task as it is or cancels it -/
  recovered : t.state = .running → ∀ limit scan, c.op = .reap .leaseExpired limit scan →
    ∀ t', s'.task? i = some t' → t'.state = .running ∨ t'.state = .cancelled

/-- The step ends the attempt of a flagged row without looking at the flag: it
reports the attempt for a retry or hands it back, sweeps the row up for its
lease, or for its execution time with attempts left. -/
def Task.flagMissed (t : Task) (s : Database) (c : Call) : Prop :=
  match c.op with
  | .complete e i a w => t.id = i ∧ t.HeldBy a w ∧ e.toState = .queued
  | .reap .leaseExpired limit scan => t ∈ overdueTasks s c.now .leaseExpired limit scan
  | .reap .executionTimeExceeded limit scan =>
    t ∈ overdueTasks s c.now .executionTimeExceeded limit scan ∧ t.attempt < t.maxAttempts
  | _ => False

/-- No flagged row is waiting for a claim. -/
def FlagsHeld (s : Database) : Prop :=
  ∀ i t, s.task? i = some t → t.cancelRequested = true → t.state ≠ .queued

/-- The step misses the flag of no task. -/
def SeesFlags (s : Database) (c : Call) : Prop :=
  ∀ i t, s.task? i = some t → t.cancelRequested = true → ¬ t.flagMissed s c

/-- The step honours the flag of every task. -/
def FlagsHonoured [PyText] (s : Database) (c : Call) (s' : Database) : Prop :=
  ∀ i t, s.task? i = some t → t.cancelRequested = true → FlagHonoured i t s c s'

theorem Ending.toState_cases (e : Ending) : e.toState = .queued ∨ e.toState.isTerminal = true := by
  cases e <;> simp [Ending.toState, State.isTerminal, State.terminal]

variable [PyText]

/-! ## One step -/

/-- Nothing clears the flag. -/
theorem TaskStep.flag_kept {c : Call} {i : TaskId} {v v' : TaskView} {t : Task}
    (h : TaskStep c i v v') (ht : v.row = some t) (hf : t.cancelRequested = true) :
    ∃ t', v'.row = some t' ∧ t'.cancelRequested = true := by
  cases h with
  | skip => exact ⟨t, ht, hf⟩
  | noted e => exact ⟨t, ht, hf⟩
  | submitted hop hv => rw [hv] at ht; cases ht
  | claimed hop hr hc =>
    obtain rfl := Option.eq_some_unique hr ht
    exact ⟨_, rfl, hf⟩
  | renewed hop hr hren =>
    obtain rfl := Option.eq_some_unique hr ht
    exact ⟨_, rfl, hf⟩
  | @completed e a w s hop hr hheld =>
    obtain rfl := Option.eq_some_unique hr ht
    exact ⟨_, rfl, (e.row_fields c.now s).2.2.2.1.trans hf⟩
  | @reaped o limit scan s hop hr hs hov =>
    obtain rfl := Option.eq_some_unique hr ht
    exact ⟨_, rfl, (o.row_fields c.now s).2.2.2.1.trans hf⟩
  | cancelled hop hr hq ht' => exact ⟨_, rfl, (cancelled_fields ht').2.2.2.1⟩
  | flagged hop hr hs hno => exact ⟨_, rfl, rfl⟩

/-- How a step may end the attempt of a flagged row. -/
theorem flagged_ends {db : Database} {c : Call} {i : TaskId} {t : Task} (ht : db.task? i = some t)
    (hrun : t.state = .running) (hsees : ¬ t.flagMissed db c) :
    ∃ t', (commit db c).task? i = some t' ∧ (t'.state = .running ∨
      (t'.state.isTerminal = true ∧ ∀ limit scan, c.op ≠ .reap .leaseExpired limit scan)) := by
  have hid : t.id = i := Database.row_id ht
  have hview : (db.view i).row = some t := ht
  have hstep := commit_step db c i
  rw [← Database.view_row]
  generalize hv' : (commit db c).view i = v' at hstep
  cases hstep with
  | skip => exact ⟨t, ht, Or.inl hrun⟩
  | noted e => exact ⟨t, ht, Or.inl hrun⟩
  | submitted hop hv => rw [hv] at hview; cases hview
  | claimed hop hr hc =>
    obtain rfl := Option.eq_some_unique hr ht
    rw [(Task.claimable_iff.mp hc).1] at hrun
    cases hrun
  | renewed hop hr hren =>
    obtain rfl := Option.eq_some_unique hr ht
    exact ⟨_, rfl, Or.inl hrun⟩
  | @completed e a w s hop hr hheld =>
    obtain rfl := Option.eq_some_unique hr ht
    refine ⟨_, rfl, Or.inr ⟨?_, fun limit scan hreap => by rw [hop] at hreap; cases hreap⟩⟩
    rw [(e.row_fields c.now s).1]
    refine e.toState_cases.resolve_left fun hq => hsees ?_
    unfold Task.flagMissed
    rw [hop]
    exact ⟨hid, hheld, hq⟩
  | @reaped o limit scan s hop hr hs hov =>
    obtain rfl := Option.eq_some_unique hr ht
    obtain ⟨now, op⟩ := c
    obtain rfl : op = .reap o limit scan := hop
    have hrows := commit_reaped_row ht now o limit scan
    rw [← Database.view_row, hv'] at hrows
    rcases hrows with ⟨hsel, hrow'⟩ | ⟨-, hrow'⟩
    · refine ⟨_, hrow', Or.inr ?_⟩
      cases o with
      | leaseExpired => exact absurd hsel hsees
      | executionTimeExceeded =>
        refine ⟨?_, fun _ _ h => by cases h⟩
        rcases reapToState_cases s.attempt s.maxAttempts with ⟨hlt, -⟩ | ⟨-, hf⟩
        · exact absurd ⟨hsel, hlt⟩ hsees
        · rw [(Overdue.row_fields ..).1, hf]
          rfl
    · exact ⟨s, hrow', Or.inl hrun⟩
  | cancelled hop hr hq ht' =>
    obtain rfl := Option.eq_some_unique hr ht
    rw [hq] at hrun
    cases hrun
  | flagged hop hr hs hno =>
    obtain rfl := Option.eq_some_unique hr ht
    exact ⟨_, rfl, Or.inl hs⟩

/-- A step that sees the flags honours them. -/
theorem flags_honoured {db : Database} {c : Call} (hheld : FlagsHeld db) (hsees : SeesFlags db c) :
    FlagsHonoured db c (commit db c) := fun i t ht hf => by
  have hends : t.state = .running → ∃ t', (commit db c).task? i = some t' ∧ (t'.state = .running ∨
      (t'.state.isTerminal = true ∧ ∀ limit scan, c.op ≠ .reap .leaseExpired limit scan)) :=
    fun hrun => flagged_ends ht hrun (hsees i t ht hf)
  constructor
  · exact (commit_step db c i).flag_kept ht hf
  · intro w a hclaim
    obtain ⟨-, -, s, -, -, hs, hc, -⟩ := claimsOf_eq hclaim
    obtain rfl : t = s := Option.eq_some_unique ht hs
    exact hheld i t ht hf (Task.claimable_iff.mp hc).1
  · intro hrun t' ht'
    obtain ⟨u, hu, h⟩ := hends hrun
    obtain rfl : u = t' := Option.eq_some_unique hu ht'
    exact h.imp_right And.left
  · intro hrun limit scan hop t' ht'
    obtain ⟨u, hu, h⟩ := hends hrun
    obtain rfl : u = t' := Option.eq_some_unique hu ht'
    exact Or.inl (h.resolve_right fun h => h.2 limit scan hop)

/-- A step that honours the flags saw them. -/
theorem sees_flags {db : Database} {c : Call} (h : FlagsHonoured db c (commit db c)) :
    SeesFlags db c := fun i t ht hf hmiss => by
  have hon := h i t ht hf
  have hid : t.id = i := Database.row_id ht
  obtain ⟨now, op⟩ := c
  unfold Task.flagMissed at hmiss
  split at hmiss
  · rename_i e j a w hop
    obtain ⟨hj, hheld, hq⟩ := hmiss
    obtain rfl : i = j := hid.symm.trans hj
    obtain rfl : op = .complete e i a w := hop
    have hrow : (commit db ⟨now, .complete e i a w⟩).task? i = some (e.row now t) :=
      congrArg TaskView.row (commit_completed ht hheld)
    have hend := hon.ended hheld.1 _ hrow
    rw [(e.row_fields now t).1, hq] at hend
    simp [State.isTerminal, State.terminal] at hend
  · rename_i limit scan hop
    obtain rfl : op = .reap .leaseExpired limit scan := hop
    have hrow := ((commit_reaped_row ht now .leaseExpired limit scan).resolve_right
      fun h => h.1 hmiss).2
    have hend := hon.recovered (mem_overdueTasks hmiss).2.1 limit scan rfl _ hrow
    rw [(Overdue.row_fields ..).1] at hend
    rcases reapToState_cases t.attempt t.maxAttempts with ⟨-, hst⟩ | ⟨-, hst⟩ <;>
      simp [hst] at hend
  · rename_i limit scan hop
    obtain rfl : op = .reap .executionTimeExceeded limit scan := hop
    obtain ⟨hsel, hlt⟩ := hmiss
    have hrow := ((commit_reaped_row ht now .executionTimeExceeded limit scan).resolve_right
      fun h => h.1 hsel).2
    have hend := hon.ended (mem_overdueTasks hsel).2.1 _ hrow
    rw [(Overdue.row_fields ..).1] at hend
    rcases reapToState_cases t.attempt t.maxAttempts with ⟨-, hst⟩ | ⟨hge, -⟩
    · simp [hst, State.isTerminal, State.terminal] at hend
    · omega
  · exact hmiss

/-- The flag is set on RUNNING rows, or together with CANCELLED. -/
theorem TaskStep.flag_before {c : Call} {i : TaskId} {v v' : TaskView} {t' : Task}
    (h : TaskStep c i v v') (ht' : v'.row = some t') (hf' : t'.cancelRequested = true)
    (hq' : t'.state = .queued) : ∃ t, v.row = some t ∧ t.cancelRequested = true := by
  cases h with
  | skip => exact ⟨t', ht', hf'⟩
  | noted e => exact ⟨t', ht', hf'⟩
  | submitted hop hv => cases ht'; cases hf'
  | claimed hop hr hc => cases ht'; cases hq'
  | renewed hop hr hren => cases ht'; exact ⟨_, hr, hf'⟩
  | @completed e a w s hop hr hh =>
    cases ht'
    exact ⟨s, hr, (e.row_fields c.now s).2.2.2.1.symm.trans hf'⟩
  | @reaped o limit scan s hop hr hs hov =>
    cases ht'
    exact ⟨s, hr, (o.row_fields c.now s).2.2.2.1.symm.trans hf'⟩
  | cancelled hop hr hq hc =>
    cases ht'
    rw [(cancelled_fields hc).1] at hq'
    cases hq'
  | flagged hop hr hs _ =>
    cases ht'
    cases hs.symm.trans hq'

/-- Steps that honour the flags let no flagged row wait for a claim. -/
theorem commit_flagsHeld {db : Database} {c : Call} (hheld : FlagsHeld db)
    (hon : FlagsHonoured db c (commit db c)) : FlagsHeld (commit db c) := by
  intro i t' ht' hf' hq'
  obtain ⟨t, ht, hf⟩ := (commit_step db c i).flag_before ht' hf' hq'
  obtain ⟨u, hu, hlegal, -⟩ := (commit_step db c i).legal ht
  obtain rfl : u = t' := Option.eq_some_unique hu ht'
  rcases hlegal with hsame | hlegal
  · exact hheld i t ht hf (hsame.symm.trans hq')
  · rw [hq'] at hlegal
    have hrun : t.state = .running := by
      cases hs : t.state <;> rw [hs] at hlegal <;> first | rfl | cases hlegal
    rcases (hon i t ht hf).ended hrun u ht' with h | h <;> rw [hq'] at h <;> cases h

/-! ## Runs -/

/-- **A cancellation is honoured exactly where the flag is seen.** In a history
from the empty database every step honours the flags, which stay set, keep every
claim away from the task, end it with its running attempt and make the lease
sweep cancel it, if and only if no step ends the attempt of a flagged row with a
retry, a hand-back, a lease sweep or a hung sweep with attempts left. -/
theorem cancellation_honoured_iff (calls : List Call) :
    Run (fun s c s' => Step s c s' ∧ FlagsHonoured s c s') .empty calls (history .empty calls) ↔
      Run (fun s c s' => Step s c s' ∧ SeesFlags s c) .empty calls (history .empty calls) := by
  constructor
  · exact Run.mono fun {s c s'} (h : commit s c = s' ∧ _) => ⟨h.1, sees_flags (h.1 ▸ h.2)⟩
  · intro h
    have hstart : FlagsHeld .empty := fun i t ht => by cases ht
    refine (h.within (I := FlagsHeld) ?_ hstart).mono ?_
    · rintro s c s' hheld ⟨rfl, hsees⟩
      exact commit_flagsHeld hheld (flags_honoured hheld hsees)
    · rintro s c s' ⟨hheld, ⟨rfl, hsees⟩, -⟩
      exact ⟨rfl, flags_honoured hheld hsees⟩

/-- The attempt fails before the worker has seen the flag. -/
def retriedAfterCancel : List Call :=
  oneClaim ++ [⟨2, .cancelTask 7⟩, ⟨3, .complete (.retry "TRANSIENT" "boom" 0) 7 1 "worker"⟩]

/-- The owner dies after the cancellation, and the lease runs out. -/
def reapedAfterCancel : List Call :=
  oneClaim ++ [⟨2, .cancelTask 7⟩, ⟨40, .reap .leaseExpired 100 {}⟩]

omit [PyText] in
/-- A task whose cancellation was recorded while it ran is QUEUED again after a
retry, and after the reaper's sweep, and the next claim takes it. -/
theorem cancellation_lost_retried :
    [retriedAfterCancel, reapedAfterCancel].map (fun calls =>
      (((@history PyText.plain .empty calls).task? 7).map fun t => (t.state, t.cancelRequested),
        @claimsOf PyText.plain (@history PyText.plain .empty calls)
          ⟨41, .claimTasks { workerId := "worker", limit := 1, leaseTtlS := 30 } fun _ => {}⟩)) =
      [(some (.queued, true), [("worker", 7, 2)]), (some (.queued, true), [("worker", 7, 2)])] := by
  decide +kernel

end ControlPlane
