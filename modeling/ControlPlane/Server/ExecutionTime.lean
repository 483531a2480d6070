import ControlPlane.Server.Ledger

/-! # Attempts past their execution time

The hung sweep measures from `first_started_at`, which the first claim of a task
sets and no later step moves. For a first attempt that is when the attempt
began. For a later one it is not: the sweep also ends an attempt that began
within the time it is allowed, when an earlier one began before it. -/

namespace ControlPlane
open Keyed Fallible Runs

/-- The attempt had run for more than the task's execution time. -/
def AttemptRow.overran (r : AttemptRow) (now : Time) (t : Task) : Prop :=
  r.startedAt + seconds t.maxExecutionTimeS < now

/-- Every attempt the step ends as hung had overrun. -/
def EndsOverran (s : Database) (c : Call) (s' : Database) : Prop :=
  ∀ limit scan, c.op = .reap .executionTimeExceeded limit scan → ∀ i t t', s.task? i = some t →
    t.state = .running → s'.task? i = some t' → t'.state ≠ .running →
    ∃ r, s.attempt? i t.attempt = some r ∧ r.overran c.now t

/-- A later attempt runs on time of its own: the clock is past the end of the time
counted from the first attempt, and not past the end of that counted from this one. -/
structure Task.InRetryWindow (t : Task) (s : Database) (now : Time) : Prop where
  running : t.state = .running
  later : 1 < t.attempt
  late : ∃ first, t.firstStartedAt = some first ∧ first + seconds t.maxExecutionTimeS < now
  inTime : ∃ r, s.attempt? t.id t.attempt = some r ∧
    now ≤ r.startedAt + seconds t.maxExecutionTimeS

/-- A hung sweep selects no attempt that runs on time of its own. -/
def SparesRetries (s : Database) (c : Call) : Prop :=
  ∀ limit scan, c.op = .reap .executionTimeExceeded limit scan →
    ∀ t ∈ s.tasks.rows, t.InRetryWindow s c.now →
      t ∉ overdueTasks s c.now .executionTimeExceeded limit scan

/-! ## What `first_started_at` says -/

/-- Before the first claim the column is empty; during the first attempt it is
when that attempt began. -/
def TaskView.FirstStart (v : TaskView) : Prop :=
  ∀ t, v.row = some t → (t.attempt = 0 → t.firstStartedAt = none) ∧
    (t.attempt = 1 → ∃ r ∈ v.attempts, r.attempt = 1 ∧ t.firstStartedAt = some r.startedAt)

theorem closeAttempt_started {now : Time} {a b : Int} {o : AttemptOutcome} {ec em : Option String}
    {rows : List AttemptRow} {s : Option Time}
    (h : ∃ r ∈ rows, r.attempt = b ∧ s = some r.startedAt) :
    ∃ r ∈ closeAttempt now a o ec em rows, r.attempt = b ∧ s = some r.startedAt := by
  obtain ⟨r, hr, hb, hs⟩ := h
  refine ⟨_, List.mem_map_of_mem hr, ?_⟩
  split
  · exact ⟨hb, hs⟩
  · exact ⟨hb, hs⟩

variable [PyText]

/-- One case for each kind of step. -/
theorem TaskStep.firstStart {c : Call} {i : TaskId} {v v' : TaskView} (h : TaskStep c i v v')
    (hl : v.Ledgered) (hv : v.FirstStart) : v'.FirstStart := by
  -- a row that keeps the two columns, over a ledger that keeps when attempts began
  have hkeep : ∀ {t t' : Task} {rows : List AttemptRow} {events : List TaskEvent},
      v.row = some t → t'.attempt = t.attempt → t'.firstStartedAt = t.firstStartedAt →
      (∀ {s : Option Time}, (∃ r ∈ v.attempts, r.attempt = 1 ∧ s = some r.startedAt) →
        ∃ r ∈ rows, r.attempt = 1 ∧ s = some r.startedAt) →
      (TaskView.mk (some t') rows events).FirstStart := by
    intro t t' rows events hr ha hf hrows u hu
    obtain rfl := Option.some.inj hu
    rw [ha, hf]
    exact ⟨(hv t hr).1, fun h1 => hrows ((hv t hr).2 h1)⟩
  cases h with
  | skip => exact hv
  | noted e => exact hv
  | submitted hop hv' =>
    intro t ht
    obtain rfl := Option.some.inj ht
    exact ⟨fun _ => rfl, fun h1 => by cases h1⟩
  | @claimed args scans t hop hr hc =>
    have hn : 0 ≤ t.attempt := (hl.ledger hr).nonneg
    intro u hu
    obtain rfl := Option.some.inj hu
    refine ⟨fun h0 => ?_, fun h1 => ?_⟩
    · have : t.attempt + 1 = 0 := h0
      omega
    · have h0 : t.attempt = 0 := by
        have : t.attempt + 1 = 1 := h1
        omega
      refine ⟨_, List.mem_append_right _ (List.mem_singleton_self _), h1, ?_⟩
      show some (t.firstStartedAt.getD c.now) = some c.now
      rw [(hv t hr).1 h0]
      rfl
  | renewed hop hr hf => exact hkeep hr rfl rfl id
  | @completed e a w t hop hr hf =>
    exact hkeep hr (e.row_fields c.now t).2.1 (e.row_fields c.now t).2.2.2.2 closeAttempt_started
  | @reaped o limit scan t hop hr hs ho =>
    exact hkeep hr (o.row_fields c.now t).2.1 (o.row_fields c.now t).2.2.2.2 closeAttempt_started
  | cancelled hop hr hq ht' =>
    exact hkeep hr (cancelled_fields ht').2.1 (cancelled_fields ht').2.2.2.2.1 id
  | flagged hop hr hs hf => exact hkeep hr rfl rfl id

/-- What holds of every task's view in a reachable state. -/
def Timed (s : Database) : Prop := ∀ i, (s.view i).Ledgered ∧ (s.view i).FirstStart

theorem commit_timed (db : Database) (c : Call) (h : Timed db) : Timed (commit db c) := fun i =>
  ⟨(commit_step db c i).ledgered (h i).1, (commit_step db c i).firstStart (h i).1 (h i).2⟩

omit [PyText] in
theorem empty_timed : Timed .empty := fun i => ⟨empty_ledgered i, fun t ht => by cases ht⟩

omit [PyText] in
/-- The attempt of a RUNNING task is in the ledger; if it is the first one, it
began at `first_started_at`. -/
theorem Timed.started {db : Database} (h : Timed db) {i : TaskId} {t : Task}
    (ht : db.task? i = some t) (hrun : t.state = .running) :
    ∃ r, db.attempt? i t.attempt = some r ∧
      (t.firstStartedAt = some r.startedAt ∨ 1 < t.attempt) := by
  obtain ⟨hl, hf⟩ := h i
  have hledger := hl.ledger ht
  have hpos : 0 < t.attempt := hledger.started (by rw [hrun]; decide) (by rw [hrun]; decide)
  by_cases h1 : t.attempt = 1
  · obtain ⟨r, hr, ha, hs⟩ := (hf t ht).2 h1
    exact ⟨r, Database.attempt?_eq_some.mpr ⟨hr, ha.trans h1.symm⟩, Or.inl hs⟩
  · obtain ⟨r, hr, ha⟩ := hledger.mem_attempts.mpr ⟨by omega, le_refl t.attempt⟩
    exact ⟨r, Database.attempt?_eq_some.mpr ⟨hr, ha⟩, Or.inr (by omega)⟩

/-- One step: a hung sweep ends only overrun attempts exactly when it spares the
later attempts that have time left. -/
theorem endsOverran_iff {db : Database} (h : Timed db) (c : Call) :
    EndsOverran db c (commit db c) ↔ SparesRetries db c := by
  obtain ⟨now, op⟩ := c
  constructor
  · rintro hends limit scan rfl t - hwindow hsel
    obtain ⟨r, hr, hle⟩ := hwindow.inTime
    obtain ⟨ht, hrun, -⟩ := mem_overdueTasks hsel
    have hrow := ((commit_reaped_row ht now .executionTimeExceeded limit scan).resolve_right
      fun hno => hno.1 hsel).2
    have hended : (Overdue.row .executionTimeExceeded now t).state ≠ .running := by
      rw [(Overdue.row_fields ..).1]
      exact reapToState_not_running _ _
    obtain ⟨r', hr', hover⟩ := hends limit scan rfl t.id t _ ht hrun hrow hended
    obtain rfl : r = r' := Option.eq_some_unique hr hr'
    exact absurd hle (not_le.mpr hover)
  · rintro hspares limit scan rfl i t t' ht hrun ht' hended
    obtain ⟨r, hr, hfirst⟩ := h.started ht hrun
    refine ⟨r, hr, ?_⟩
    rcases commit_reaped_row ht now .executionTimeExceeded limit scan with ⟨hsel, -⟩ | ⟨-, hsame⟩
    · rcases hfirst with hfirst | hlater
      · -- a first attempt: the sweep's predicate is about this attempt
        have hov := (mem_overdueTasks hsel).2.2
        simpa [AttemptRow.overran, Overdue.holds, Task.executionTimeExceeded, hfirst] using hov
      · have hid : t.id = i := Database.row_id ht
        by_contra hover
        have hlate := (mem_overdueTasks hsel).2.2
        simp only [Overdue.holds, Task.executionTimeExceeded] at hlate
        obtain ⟨first, hfirst, hlate⟩ := (Option.any_eq_true ..).mp hlate
        exact hspares limit scan rfl t (Table.mem_of_find? ht)
          ⟨hrun, hlater, ⟨first, hfirst, of_decide_eq_true hlate⟩, r, hid ▸ hr, not_lt.mp hover⟩ hsel
    · obtain rfl : t = t' := Option.eq_some_unique hsame ht'
      exact absurd hrun hended

/-- **Only overrun attempts are ended, exactly where retries are spared.** In a
history from the empty database every attempt that a hung sweep ends began more
than `max_execution_time_s` before the sweep, if and only if no sweep selects an
attempt after the first whose own execution time is not over. -/
theorem execution_time_enforced_iff (calls : List Call) :
    Run (fun s c s' => Step s c s' ∧ EndsOverran s c s') .empty calls (history .empty calls) ↔
      Run (fun s c s' => Step s c s' ∧ SparesRetries s c) .empty calls (history .empty calls) := by
  have hstep : ∀ {s c s'}, Timed s → Step s c s' → Timed s' := by
    rintro s c s' hs rfl
    exact commit_timed s c hs
  constructor
  · intro h
    refine (h.within (I := Timed) (fun hs hst => hstep hs hst.1) empty_timed).mono ?_
    rintro s c s' ⟨hs, ⟨rfl, hends⟩, -⟩
    exact ⟨rfl, (endsOverran_iff hs c).mp hends⟩
  · intro h
    refine (h.within (I := Timed) (fun hs hst => hstep hs hst.1) empty_timed).mono ?_
    rintro s c s' ⟨hs, ⟨rfl, hspares⟩, -⟩
    exact ⟨rfl, (endsOverran_iff hs c).mpr hspares⟩

/-- An attempt of one second, a minute of backoff, and a second attempt. -/
def retriedLate : List Call :=
  [⟨0, .createTenant 1 "tenant" 10 1000⟩,
   ⟨0, .registerWorker "worker" 5 []⟩,
   ⟨0, .submitTask 7 { tenantId := 1, taskType := "demo", payload := [], maxExecutionTimeS := 10 }⟩,
   ⟨0, .claimTasks { workerId := "worker", limit := 1, leaseTtlS := 30 } fun _ => {}⟩,
   ⟨1, .complete (.retry "TRANSIENT" "boom" 60) 7 1 "worker"⟩,
   ⟨61, .claimTasks { workerId := "worker", limit := 1, leaseTtlS := 30 } fun _ => {}⟩]

omit [PyText] in
/-- The second attempt begins at 61 with ten seconds allowed; a sweep at 62 ends it. -/
theorem execution_time_miscounted_retriedLate :
    ((@history PyText.plain .empty retriedLate).task? 7).map
        (fun t => (t.state, t.attempt, t.maxExecutionTimeS)) = some (.running, 2, 10) ∧
      ((@history PyText.plain .empty retriedLate).attempt? 7 2).map AttemptRow.startedAt =
        some 61 ∧
      ((@commit PyText.plain (@history PyText.plain .empty retriedLate)
        ⟨62, .reap .executionTimeExceeded 100 {}⟩).task? 7).map Task.state = some .queued := by
  decide +kernel

end ControlPlane
