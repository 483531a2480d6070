import ControlPlane.Server.Legality

/-! # The fence

A worker owns an attempt while the row is RUNNING under its attempt number and
its name. Only a claim establishes that, and it draws a number no earlier claim
of the task was given; so whoever passes the fence of a renewal or a completion
made the last claim, and nothing has moved the task since. -/

namespace ControlPlane
open Keyed Fallible Runs

variable [PyText]

/-- What a call claimed: the worker, the task and the attempt of each returned row. -/
def claimsOf (db : Database) (c : Call) : List (WorkerId × TaskId × Int) :=
  match c.op, perform db c.now c.op with
  | .claimTasks args _, .ok (_, .claimed rows) => rows.map fun r => (args.workerId, r.id, r.attempt)
  | _, _ => []

/-- The task, attempt and worker of a renewal or completion that took effect. -/
def fencedEffect (db : Database) (c : Call) : Option (TaskId × Int × WorkerId) :=
  match c.op, perform db c.now c.op with
  | .renewLease i w a _, .ok (_, .renewed (some _)) => some (i, a, w)
  | .complete _ i a w, .ok (_, .completed (.applied _)) => some (i, a, w)
  | _, _ => none

/-- The worker holds the attempt in this database. -/
def Holds (i : TaskId) (a : Int) (w : WorkerId) (db : Database) : Prop :=
  ∃ t, db.task? i = some t ∧ t.HeldBy a w

theorem claimsOf_eq {db : Database} {c : Call} {w : WorkerId} {i : TaskId} {a : Int}
    (h : (w, i, a) ∈ claimsOf db c) : ∃ args scans t, c.op = .claimTasks args scans ∧
      args.workerId = w ∧ db.task? i = some t ∧ t.claimable c.now = true ∧ a = t.attempt + 1 ∧
      (commit db c).view i = claimView c.now w args.leaseTtlS t (db.view i) := by
  unfold claimsOf at h
  split at h
  · rename_i args scans db' rows hop hperf
    obtain ⟨r, hr, he⟩ := List.mem_map.mp h
    simp only [Prod.mk.injEq] at he
    obtain ⟨rfl, rfl, rfl⟩ := he
    have hcommit := commit_of_ok hperf
    rw [hop] at hperf
    obtain ⟨rows', hok, hrows⟩ := mapSnd_ok hperf
    obtain rfl := Reply.claimed.inj hrows
    obtain ⟨-, rfl, hin, -⟩ := claimTasks_ok hok
    obtain ⟨s, hi, hs, rfl⟩ := mem_grantedRows.mp hr
    obtain ⟨t, ht, hc, -, hv⟩ := hin s.id hi
    obtain rfl : s = t := Option.eq_some_unique hs ht
    exact ⟨args, scans, s, hop, rfl, hs, hc, rfl, hcommit ▸ hv⟩
  · cases h

theorem fencedEffect_holds {db : Database} {c : Call} {i : TaskId} {a : Int} {w : WorkerId}
    (h : fencedEffect db c = some (i, a, w)) : Holds i a w db := by
  unfold fencedEffect at h
  split at h
  · rename_i j w' a' ttl db' ren hop hperf
    cases h
    rw [hop] at hperf
    obtain ⟨res, hok, hres⟩ := mapSnd_ok hperf
    obtain rfl := Reply.renewed.inj hres
    obtain ⟨-, ⟨t, ht, hren, -, -⟩ | ⟨-, hnone, -⟩⟩ := renewLease_ok hok
    · exact ⟨t, ht, hren.1⟩
    · cases hnone
  · rename_i e j a' w' db' t' hop hperf
    cases h
    rw [hop] at hperf
    obtain ⟨res, hok, hres⟩ := mapSnd_ok hperf
    obtain rfl := Reply.completed.inj hres
    obtain ⟨-, ⟨t, ht, hheld, -, -⟩ | ⟨-, hno, -⟩⟩ := completeAttempt_ok hok
    · exact ⟨t, ht, hheld⟩
    · cases hno
  · cases h

/-! ## One step -/

/-- What one step can do to the attempt number: a claim of the task adds one,
nothing else changes it. -/
theorem TaskStep.attempt {c : Call} {i : TaskId} {v v' : TaskView} {t : Task}
    (h : TaskStep c i v v') (ht : v.row = some t) :
    ∃ t', v'.row = some t' ∧ (t'.attempt = t.attempt ∨
      (t'.attempt = t.attempt + 1 ∧ t'.state = .running ∧ ∃ args scans,
        c.op = .claimTasks args scans ∧ t'.leaseWorkerId = some args.workerId)) := by
  cases h with
  | skip => exact ⟨t, ht, Or.inl rfl⟩
  | noted e => exact ⟨t, ht, Or.inl rfl⟩
  | submitted hop hv => rw [hv] at ht; cases ht
  | claimed hop hr hc =>
    obtain rfl := Option.eq_some_unique hr ht
    exact ⟨_, rfl, Or.inr ⟨rfl, rfl, _, _, hop, rfl⟩⟩
  | renewed hop hr hf =>
    obtain rfl := Option.eq_some_unique hr ht
    exact ⟨_, rfl, Or.inl rfl⟩
  | @completed e a w s hop hr hf =>
    obtain rfl := Option.eq_some_unique hr ht
    exact ⟨_, rfl, Or.inl (e.row_fields c.now s).2.1⟩
  | @reaped o limit scan s hop hr hs ho =>
    obtain rfl := Option.eq_some_unique hr ht
    exact ⟨_, rfl, Or.inl (o.row_fields c.now s).2.1⟩
  | cancelled hop hr hq ht' =>
    obtain rfl := Option.eq_some_unique hr ht
    exact ⟨_, rfl, Or.inl (cancelled_fields ht').2.1⟩
  | flagged hop hr hs hf =>
    obtain rfl := Option.eq_some_unique hr ht
    exact ⟨_, rfl, Or.inl rfl⟩

/-- A step to a held row either starts from the row held the same way or is the
claim that made it so. -/
theorem TaskStep.held {c : Call} {i : TaskId} {v v' : TaskView} {t' : Task} {a : Int} {w : WorkerId}
    (h : TaskStep c i v v') (ht' : v'.row = some t') (hheld : t'.HeldBy a w) :
    (∃ t, v.row = some t ∧ t.HeldBy a w) ∨
      ∃ args scans t, c.op = .claimTasks args scans ∧ args.workerId = w ∧ v.row = some t ∧
        t.state = .queued ∧ a = t.attempt + 1 := by
  have hnot : ∀ {s : State}, t'.state = s → s ≠ .running → False := fun he hne =>
    hne (he.symm.trans hheld.1)
  cases h with
  | skip => exact Or.inl ⟨t', ht', hheld⟩
  | noted e => exact Or.inl ⟨t', ht', hheld⟩
  | submitted hop hv => cases ht'; exact (hnot (s := .queued) rfl (by decide)).elim
  | @claimed args scans t hop hr hc =>
    cases ht'
    refine Or.inr ⟨args, scans, t, hop, Option.some.inj hheld.2.2, hr, (Task.claimable_iff.mp hc).1,
      hheld.2.1.symm⟩
  | renewed hop hr hf => cases ht'; exact Or.inl ⟨_, hr, hheld⟩
  | @completed e b w' s hop hr hf =>
    cases ht'
    refine (hnot (e.row_fields c.now s).1 ?_).elim
    cases e <;> simp [Ending.toState]
  | @reaped o limit scan s hop hr hs ho =>
    cases ht'
    refine (hnot (o.row_fields c.now s).1 ?_).elim
    rcases reapToState_cases s.attempt s.maxAttempts with ⟨-, h⟩ | ⟨-, h⟩ <;> rw [h] <;> decide
  | cancelled hop hr hq hc => cases ht'; exact (hnot (cancelled_fields hc).1 (by decide)).elim
  | flagged hop hr hs hf => cases ht'; exact Or.inl ⟨_, hr, hheld⟩

/-- A step between two states in which the same worker holds the same attempt
claims nothing of the task. -/
theorem claimsOf_of_held {db : Database} {c : Call} {i : TaskId} {a : Int} {w : WorkerId}
    (h : Holds i a w db) (w' : WorkerId) (a' : Int) : (w', i, a') ∉ claimsOf db c := by
  intro hc
  obtain ⟨t, ht, hheld⟩ := h
  obtain ⟨-, -, s, -, -, hs, hcl, -⟩ := claimsOf_eq hc
  obtain rfl : t = s := Option.eq_some_unique ht hs
  have hq := (Task.claimable_iff.mp hcl).1
  rw [hheld.1] at hq
  cases hq

/-- The step that makes a worker the holder is its own claim. -/
theorem holds_onset {db : Database} {c : Call} {i : TaskId} {a : Int} {w : WorkerId}
    (hnot : ¬ Holds i a w db) (h : Holds i a w (commit db c)) : (w, i, a) ∈ claimsOf db c := by
  obtain ⟨t', ht', hheld⟩ := h
  rcases (commit_step db c i).held ht' hheld with ⟨t, ht, hh⟩ | ⟨args, scans, t, hop, hw, ht, -, ha⟩
  · exact absurd ⟨t, ht, hh⟩ hnot
  · have hok : ∃ rows, perform db c.now c.op = .ok (commit db c, .claimed rows) := by
      rcases commit_eq db c with ⟨r, hr⟩ | hsame
      · have hr' := hr
        rw [hop] at hr'
        obtain ⟨rows, -, rfl⟩ := mapSnd_ok hr'
        exact ⟨rows, hr⟩
      · exact absurd ⟨t', hsame ▸ ht', hheld⟩ hnot
    obtain ⟨rows, hperf⟩ := hok
    have hperf' := hperf
    rw [hop] at hperf'
    obtain ⟨rows', hclaim, he⟩ := mapSnd_ok hperf'
    obtain rfl := Reply.claimed.inj he
    obtain ⟨-, -, hin, hout⟩ := claimTasks_ok hclaim
    by_cases hi : i ∈ (claimLoop db c.now args scans).claimedIds
    · obtain ⟨s, hs, -, hmem, -⟩ := hin i hi
      obtain rfl : s = t := Option.eq_some_unique hs ht
      have hid : s.id = i := Database.row_id hs
      unfold claimsOf
      rw [hperf, hop]
      exact List.mem_map.mpr ⟨_, hmem, by simp [hid, hw, ha, claimWrite]⟩
    · have hsame := congrArg TaskView.row (hout i hi)
      rw [Database.view_row, Database.view_row, ht'] at hsame
      exact absurd ⟨t', hsame.symm, hheld⟩ hnot

/-! ## Runs -/

/-- What one step does to every attempt number. -/
structure AttemptStep (i : TaskId) (s : Database) (c : Call) (s' : Database) : Prop where
  born : s.task? i = none → ∀ t', s'.task? i = some t' → t'.attempt = 0
  kept : ∀ t, s.task? i = some t → ∃ t', s'.task? i = some t' ∧
    ((t'.attempt = t.attempt ∧ ∀ w a, (w, i, a) ∉ claimsOf s c) ∨
      (t'.attempt = t.attempt + 1 ∧ ∃ w, (w, i, t'.attempt) ∈ claimsOf s c))

theorem commit_attempt (db : Database) (c : Call) (i : TaskId) :
    AttemptStep i db c (commit db c) where
  born hnone t' ht' := by
    obtain ⟨args, -, rfl⟩ := (commit_step db c i).row_new hnone ht'
    rfl
  kept t ht := by
    obtain ⟨t', ht', hsame | ⟨hnext, hrun, args, scans, -, hw⟩⟩ := (commit_step db c i).attempt ht
    · refine ⟨t', ht', Or.inl ⟨hsame, fun w a hc => ?_⟩⟩
      obtain ⟨_, _, s, _, _, hs, _, _, hv⟩ := claimsOf_eq hc
      obtain rfl : t = s := Option.eq_some_unique ht hs
      rw [Database.view_row] at ht'
      have hrow := congrArg TaskView.row hv
      rw [Database.view_row, ht'] at hrow
      have hatt := congrArg Task.attempt (Option.some.inj hrow)
      rw [hsame] at hatt
      simp [claimWrite] at hatt
    · refine ⟨t', ht', Or.inr ⟨hnext, args.workerId, ?_⟩⟩
      refine holds_onset ?_ ⟨t', ht', hrun, rfl, hw⟩
      rintro ⟨s, hs, -, hatt, -⟩
      obtain rfl : t = s := Option.eq_some_unique ht hs
      omega

/-- No later state shows a smaller attempt number. -/
theorem history_attempt_le {db : Database} {i : TaskId} {t : Task} (ht : db.task? i = some t)
    (calls : List Call) : ∃ t', (history db calls).task? i = some t' ∧ t.attempt ≤ t'.attempt := by
  refine history_invariant (I := fun s => ∃ t', s.task? i = some t' ∧ t.attempt ≤ t'.attempt)
    (fun s c hs => ?_) ⟨t, ht, le_refl _⟩ calls
  obtain ⟨u, hu, hle⟩ := hs
  obtain ⟨u', hu', ⟨he, -⟩ | ⟨he, -⟩⟩ := (commit_attempt s c i).kept u hu
  · exact ⟨u', hu', by omega⟩
  · exact ⟨u', hu', by omega⟩

/-- Two claims of one task return different attempts, the later the larger. -/
theorem claims_increase {db : Database} {c c' : Call} {between : List Call} {w w' : WorkerId}
    {i : TaskId} {a a' : Int} (h : (w, i, a) ∈ claimsOf db c)
    (h' : (w', i, a') ∈ claimsOf (history (commit db c) between) c') : a < a' := by
  obtain ⟨_, _, t, _, _, ht, _, rfl, hv⟩ := claimsOf_eq h
  have hrow : (commit db c).task? i = _ := congrArg TaskView.row hv
  obtain ⟨u, hu, hle⟩ := history_attempt_le hrow between
  obtain ⟨-, -, s, -, -, hs, -, rfl, -⟩ := claimsOf_eq h'
  obtain rfl : u = s := Option.eq_some_unique hu hs
  have : t.attempt + 1 ≤ u.attempt := hle
  omega

/-- **Fencing safety.** In every history from the empty database: a renewal or
completion that takes effect for an attempt and a worker comes after a claim by
that worker which returned that attempt, and in every state since, the row has
been RUNNING under the two, with no other claim of the task; attempts only grow,
by one, and only when a claim returns the task; and no two claims of a task
return the same attempt. -/
theorem fencing_safety (calls : List Call) :
    (∀ c i a w, fencedEffect (history .empty calls) c = some (i, a, w) →
      ∃ before claim after s, calls = before ++ claim :: after ∧ s = history .empty before ∧
        (w, i, a) ∈ claimsOf s claim ∧
        Run (fun s c s' => Holds i a w s ∧ Step s c s' ∧ Holds i a w s' ∧
          ∀ w' a', (w', i, a') ∉ claimsOf s c) (commit s claim) after (history .empty calls)) ∧
      Run (fun s c s' => Step s c s' ∧ ∀ i, AttemptStep i s c s') .empty calls
        (history .empty calls) ∧
      ∀ before c between c' after w w' i a a', calls = before ++ c :: (between ++ c' :: after) →
        (w, i, a) ∈ claimsOf (history .empty before) c →
        (w', i, a') ∈ claimsOf (history .empty (before ++ c :: between)) c' → a < a' := by
  refine ⟨fun c i a w heff => ?_, history_steps (fun s c i => commit_attempt s c i) _ calls, ?_⟩
  · have hnone : ¬ Holds i a w .empty := by
      rintro ⟨t, ht, -⟩
      cases ht
    obtain ⟨before, claim, after, s, s', rfl, hbefore, hnot, hstep, hholds, hafter⟩ :=
      (history_run .empty calls).onset hnone (fencedEffect_holds heff)
    have hs : s = history .empty before := by
      clear hafter heff
      exact run_history hbefore
    obtain rfl : commit s claim = s' := hstep
    refine ⟨before, claim, after, s, rfl, hs, holds_onset hnot hholds, hafter.mono ?_⟩
    rintro s c t ⟨hP, hst, hP'⟩
    exact ⟨hP, hst, hP', claimsOf_of_held hP⟩
  · rintro before c between c' after w w' i a a' - h h'
    rw [history_append] at h'
    exact claims_increase h h'

/-- A worker registers and claims the one task there is. -/
def oneClaim : List Call :=
  [⟨0, .createTenant 1 "tenant" 10 1000⟩,
   ⟨0, .registerWorker "worker" 5 []⟩,
   ⟨0, .submitTask 7 { tenantId := 1, taskType := "demo", payload := [] }⟩,
   ⟨1, .claimTasks { workerId := "worker", limit := 1, leaseTtlS := 30 } fun _ => {}⟩]

omit [PyText] in
theorem fencing_safety_oneClaim : ∃ before claim after s, oneClaim = before ++ claim :: after ∧
    s = @history PyText.plain .empty before ∧ ("worker", 7, 1) ∈ @claimsOf PyText.plain s claim ∧
    Run (fun s c s' => Holds 7 1 "worker" s ∧ @Step PyText.plain s c s' ∧ Holds 7 1 "worker" s' ∧
      ∀ w a, (w, 7, a) ∉ @claimsOf PyText.plain s c)
      (@commit PyText.plain s claim) after (@history PyText.plain .empty oneClaim) :=
  (@fencing_safety PyText.plain oneClaim).1 ⟨2, .renewLease 7 "worker" 1 30⟩ 7 1 "worker"
    (by decide +kernel)

end ControlPlane
