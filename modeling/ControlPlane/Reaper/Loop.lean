import ControlPlane.Server.Fencing
import Mathlib.Tactic.Ring

/-! # The reaper process

A sweep recovers tasks batch by batch, a transaction each, until a batch comes back
short or the batches it may take are used up: first the tasks whose lease has expired,
then those past their execution time. Last it marks the workers dead that have stopped
beating. Between two rounds the clock goes on; nothing else does in what is proved here. -/

namespace ControlPlane
open Keyed Fallible

structure Reaper where
  batchSize : Int := 100
  maxBatchesPerSweep : Int := 50
  /-- `settings.worker_dead_after_s` -/
  workerDeadAfterS : Int := 15

/-- What a round meets: whether a stop has been requested, and the clock and the locks of
its transaction. -/
structure Round where
  now : Time
  scan : Scan := {}
  stopping : Bool := false

/-- The counters of one part of a sweep. -/
structure Tally where
  requeued : Nat := 0
  failed : Nat := 0

def Tally.add (n : Tally) (result : ReapResult) : Tally where
  requeued := n.requeued + result.requeued
  failed := n.failed + result.failedExhausted

structure SweepReport where
  leases : Tally
  hung : Tally
  dead : List WorkerId

section Sweep
variable [PyText]

/-- `for _ in range(max_batches_per_sweep)`, from round `k` on. Returns the round after
the last one it took part in. -/
def drain (o : Overdue) (batchSize : Int) (rounds : Nat → Round) :
    Nat → Nat → Database → Tally → Except Raised (Nat × Database × Tally)
  | 0, k, db, n => pure (k, db, n)
  | batches + 1, k, db, n =>
    if (rounds k).stopping then pure (k, db, n)
    else do
      let (db, result) ← reapBatch db (rounds k).now o batchSize (rounds k).scan
      if (result.reaped : Int) < batchSize then pure (k + 1, db, n.add result)
      else drain o batchSize rounds batches (k + 1) db (n.add result)

def Reaper.part (r : Reaper) (o : Overdue) (rounds : Nat → Round) (k : Nat) (db : Database) :
    Except Raised (Nat × Database × Tally) :=
  drain o r.batchSize rounds r.maxBatchesPerSweep.toNat k db {}

def Reaper.sweep (r : Reaper) (rounds : Nat → Round) (db : Database) :
    Except Raised (Database × SweepReport) := do
  let (k, db, leases) ← r.part .leaseExpired rounds 0 db
  let (k, db, hung) ← r.part .executionTimeExceeded rounds k db
  let (db, dead) := markDeadWorkers db (rounds k).now r.workerDeadAfterS
  pure (db, ⟨leases, hung, dead⟩)

/-! ## What a part of a sweep does -/

/-- The rows a part has recovered, as they were when it began. -/
structure Drained (o : Overdue) (rounds : Nat → Round) (k k' : Nat) (db db' : Database)
    (ts : List Task) : Prop where
  distinct : (ts.map Task.id).Nodup
  found : ∀ t ∈ ts, db.task? t.id = some t ∧ t.state = .running
  moved : ∀ t ∈ ts, ∃ j, k ≤ j ∧ j < k' ∧ o.holds (rounds j).now t = true ∧
    db'.view t.id = o.view (rounds j).now t (db.view t.id)
  others : ∀ i, (∀ t ∈ ts, t.id ≠ i) → db'.view i = db.view i

variable {o : Overdue} {rounds : Nat → Round} {k k' : Nat} {db db' : Database} {ts : List Task}

/-- A task that is RUNNING afterwards was so before, with the same row. -/
theorem Drained.running (h : Drained o rounds k k' db db' ts) {i : TaskId} {t : Task}
    (ht : db'.task? i = some t) (hrun : t.state = .running) :
    db.task? i = some t ∧ ∀ u ∈ ts, u.id ≠ i := by
  have hother : ∀ u ∈ ts, u.id ≠ i := by
    rintro u hu rfl
    obtain ⟨j, -, -, -, hview⟩ := h.moved u hu
    have hrow : some (o.row (rounds j).now u) = some t :=
      (congrArg TaskView.row hview).symm.trans ht
    rw [← Option.some.inj hrow, (o.row_fields _ u).1] at hrun
    exact reapToState_not_running _ _ hrun
  exact ⟨(congrArg TaskView.row (h.others i hother)).symm.trans ht, hother⟩

theorem Drained.nil (o : Overdue) (rounds : Nat → Round) (k : Nat) (db : Database) :
    Drained o rounds k k db db [] :=
  ⟨List.nodup_nil, by simp, by simp, fun _ _ => rfl⟩

/-- One batch. -/
theorem Drained.batch {r : ReapResult} {limit : Int}
    (h : reapBatch db (rounds k).now o limit (rounds k).scan = .ok (db', r)) :
    Drained o rounds k (k + 1) db db' (overdueTasks db (rounds k).now o limit (rounds k).scan) ∧
      r.reaped = (overdueTasks db (rounds k).now o limit (rounds k).scan).length := by
  obtain ⟨-, hcount, hin, hout⟩ := reapBatch_ok h
  refine ⟨⟨overdueTasks_nodup .., fun t ht => ?_, fun t ht => ?_, hout⟩, hcount⟩
  · exact ⟨(mem_overdueTasks ht).1, (mem_overdueTasks ht).2.1⟩
  · exact ⟨k, le_refl k, Nat.lt_succ_self k, (mem_overdueTasks ht).2.2, hin t ht⟩

/-- Batches after batches recover other tasks. -/
theorem Drained.append {k₁ : Nat} {db₁ : Database} {us : List Task}
    (h : Drained o rounds k k₁ db db₁ ts) (h' : Drained o rounds k₁ k' db₁ db' us) (hk : k ≤ k₁)
    (hk' : k₁ ≤ k') : Drained o rounds k k' db db' (ts ++ us) := by
  have hold : ∀ u ∈ us, db.task? u.id = some u ∧ ∀ t ∈ ts, t.id ≠ u.id := by
    intro u hu
    obtain ⟨hrow, hrun⟩ := h'.found u hu
    exact h.running hrow hrun
  constructor
  · rw [List.map_append, List.nodup_append]
    refine ⟨h.distinct, h'.distinct, ?_⟩
    intro i hi j hj
    obtain ⟨t, ht, rfl⟩ := List.mem_map.mp hi
    obtain ⟨u, hu, rfl⟩ := List.mem_map.mp hj
    exact (hold u hu).2 t ht
  · intro t ht
    rcases List.mem_append.mp ht with ht | ht
    · exact h.found t ht
    · exact ⟨(hold t ht).1, (h'.found t ht).2⟩
  · intro t ht
    rcases List.mem_append.mp ht with ht | ht
    · obtain ⟨j, hj, hj', hov, hview⟩ := h.moved t ht
      refine ⟨j, hj, hj'.trans_le hk', hov, ?_⟩
      rw [h'.others t.id fun u hu he => (hold u hu).2 t ht he.symm, hview]
    · obtain ⟨j, hj, hj', hov, hview⟩ := h'.moved t ht
      refine ⟨j, hk.trans hj, hj', hov, ?_⟩
      rw [hview, h.others t.id (hold t ht).2]
  · intro i hi
    rw [h'.others i fun u hu => hi u (List.mem_append_right _ hu),
      h.others i fun t ht => hi t (List.mem_append_left _ ht)]

/-- Nobody else runs: no row is held, no stop is requested, and the clock does not go back. -/
structure Quiet (rounds : Nat → Round) : Prop where
  clock : Monotone fun k => (rounds k).now
  unlocked : ∀ k i, (rounds k).scan.locked i = false
  going : ∀ k, (rounds k).stopping = false

/-- What the part leaves undone: nothing, if it has not used up its batches. -/
def Complete (o : Overdue) (rounds : Nat → Round) (k : Nat) (db : Database) (ts : List Task) : Prop :=
  ∀ t ∈ db.tasks.rows, t.state = .running → o.holds (rounds k).now t = true → t ∈ ts

/-- A task that a batch has left is still to be found by the next one. -/
theorem Complete.after {us : List Task} (hu : Quiet rounds)
    (h : Drained o rounds k (k + 1) db db' ts) (h' : Complete o rounds (k + 1) db' us) :
    Complete o rounds k db (ts ++ us) := by
  intro t ht hrun hov
  by_cases hin : ∃ s ∈ ts, s.id = t.id
  · obtain ⟨s, hs, hid⟩ := hin
    have hrow := (h.found s hs).1
    rw [hid, Database.task?, Table.find?_key ht] at hrow
    exact List.mem_append_left _ (Option.some.inj hrow ▸ hs)
  · have hrow : db'.task? t.id = some t := by
      have hview := congrArg TaskView.row (h.others t.id fun s hs he => hin ⟨s, hs, he⟩)
      exact hview.trans (Table.find?_key ht)
    have hlater := Overdue.holds_mono (hu.clock (Nat.le_succ k)) hov
    exact List.mem_append_right _ (h' t (Table.mem_of_find? hrow) hrun hlater)

/-- **The loop of one part.** It ends within its batches, whatever it meets; undisturbed,
it has recovered every task that was overdue when it began, or as many as its batches hold. -/
theorem drain_spec (o : Overdue) {batchSize : Int} (hbatch : 0 ≤ batchSize) (rounds : Nat → Round)
    (batches : Nat) : ∀ (k : Nat) (db : Database) (n : Tally), ∃ k' db' n' ts,
      drain o batchSize rounds batches k db n = .ok (k', db', n') ∧ k ≤ k' ∧ k' ≤ k + batches ∧
      Drained o rounds k k' db db' ts ∧
      n'.requeued + n'.failed = n.requeued + n.failed + ts.length ∧
      (Quiet rounds → (0 < batches → k < k') ∧
        (Complete o rounds k db ts ∨ (ts.length : Int) = batchSize * batches)) := by
  induction batches with
  | zero =>
    intro k db n
    refine ⟨k, db, n, [], rfl, le_refl k, le_refl k, .nil .., rfl, fun _ => ⟨nofun, .inr ?_⟩⟩
    simp
  | succ batches ih =>
    intro k db n
    by_cases hstop : (rounds k).stopping = true
    · refine ⟨k, db, n, [], ?_, le_refl k, by omega, .nil .., rfl, fun hu => ?_⟩
      · rw [drain, if_pos hstop]
        rfl
      · rw [hu.going k] at hstop
        cases hstop
    · obtain ⟨db₁, r, hrun⟩ := reapBatch_returns db (rounds k).now o (rounds k).scan hbatch
      obtain ⟨hone, hcount⟩ := Drained.batch hrun
      have htally : (n.add r).requeued + (n.add r).failed = n.requeued + n.failed + r.reaped := by
        simp only [Tally.add, ReapResult.reaped]
        omega
      by_cases hshort : (r.reaped : Int) < batchSize
      · refine ⟨k + 1, db₁, n.add r, _, ?_, by omega, by omega, hone, ?_, fun hu => ⟨by omega, .inl ?_⟩⟩
        · rw [drain, if_neg hstop, hrun, ok_bind]
          dsimp only
          rw [if_pos hshort]
          rfl
        · rw [htally, hcount]
        · rw [hcount] at hshort
          exact fun t ht hrun hov => overdueTasks_short hshort ht hrun hov (hu.unlocked k t.id)
      · obtain ⟨k', db', n', us, hrest, hk, hk', hmore, hn, hall⟩ := ih (k + 1) db₁ (n.add r)
        refine ⟨k', db', n', _, ?_, by omega, by omega, hone.append hmore (by omega) hk, ?_,
          fun hu => ⟨by omega, ?_⟩⟩
        · rw [drain, if_neg hstop, hrun, ok_bind]
          dsimp only
          rw [if_neg hshort]
          exact hrest
        · rw [hn, htally, hcount, List.length_append]
          omega
        · refine (hall hu).2.imp (fun h => h.after hu hone) fun hfull => ?_
          -- a batch that is not short is full
          have hle := overdueTasks_length_le db (rounds k).now o batchSize (rounds k).scan
          rw [← hcount] at hle
          have hsize : (r.reaped : Int) = batchSize := by omega
          rw [List.length_append, ← hcount, Nat.cast_add, hsize, hfull]
          push_cast
          ring

/-- The tasks that are overdue in some round: no round of a part makes a task RUNNING. -/
def everOverdue (o : Overdue) (rounds : Nat → Round) (k k' : Nat) (db : Database) : List Task :=
  db.tasks.rows.filter fun t =>
    t.state == .running && (List.range' k (k' - k)).any fun j => o.holds (rounds j).now t

omit [PyText] in
theorem mem_everOverdue {t : Task} : t ∈ everOverdue o rounds k k' db ↔
    t ∈ db.tasks.rows ∧ t.state = .running ∧
      ∃ j, k ≤ j ∧ j < k' ∧ o.holds (rounds j).now t = true := by
  simp only [everOverdue, List.mem_filter, Bool.and_eq_true, beq_iff_eq, List.any_eq_true,
    List.mem_range'_1]
  refine and_congr_right' (and_congr_right' (exists_congr fun j => ?_))
  constructor
  · rintro ⟨⟨h₁, h₂⟩, h₃⟩
    exact ⟨h₁, by omega, h₃⟩
  · rintro ⟨h₁, h₂, h₃⟩
    exact ⟨⟨h₁, by omega⟩, h₃⟩

theorem Drained.subset (h : Drained o rounds k k' db db' ts) : ts ⊆ everOverdue o rounds k k' db := by
  intro t ht
  obtain ⟨j, hj, hj', hov, -⟩ := h.moved t ht
  obtain ⟨hrow, hrun⟩ := h.found t ht
  exact mem_everOverdue.mpr ⟨Table.mem_of_find? hrow, hrun, j, hj, hj', hov⟩

/-- A part that had batches for all of them has left none. -/
theorem Drained.complete {capacity : Int} (h : Drained o rounds k k' db db' ts) (hk : k < k')
    (hall : Complete o rounds k db ts ∨ (ts.length : Int) = capacity)
    (hfew : ((everOverdue o rounds k k' db).length : Int) ≤ capacity) :
    Complete o rounds k db ts := by
  rcases hall with hall | hfull
  · exact hall
  · have hsub : ts.Subperm (everOverdue o rounds k k' db) :=
      List.subperm_of_subset (h.distinct.of_map Task.id) h.subset
    have hperm := hsub.perm_of_length_le (by omega)
    intro t ht hrun hov
    exact hperm.mem_iff.mpr (mem_everOverdue.mpr ⟨ht, hrun, k, le_refl k, hk, hov⟩)

/-! ## A sweep -/

/-- The attempt has been taken back: the task is QUEUED again or, out of attempts, FAILED,
the log has the move and one WORKER_LOST more, and the attempt's row says LOST. -/
structure TakenBack (t : Task) (v v' : TaskView) : Prop where
  row : ∃ t', v'.row = some t' ∧ t'.state = if t.attempt < t.maxAttempts then .queued else .failed
  events : ∃ move lost, v'.events = v.events ++ [move, lost] ∧
    move.eventType = (if t.attempt < t.maxAttempts then .taskRecovered else .taskFailed) ∧
    lost.eventType = .workerLost
  lost : ∀ a ∈ v'.attempts, a.attempt = t.attempt → a.outcome = some .lost

theorem Overdue.takenBack (o : Overdue) (now : Time) (t : Task) (v : TaskView) :
    TakenBack t v (o.view now t v) := by
  refine ⟨⟨_, rfl, (o.row_fields now t).1⟩, ⟨_, _, rfl, rfl, rfl⟩, fun a ha hattempt => ?_⟩
  obtain ⟨b, -, rfl⟩ := List.mem_map.mp ha
  by_cases hb : b.attempt = t.attempt
  · rw [if_pos hb]
    rfl
  · rw [if_neg hb] at hattempt
    exact absurd hattempt hb

/-- One part of a sweep is complete and exact. -/
structure Recovery (r : Reaper) (o : Overdue) (rounds : Nat → Round) (k k' : Nat)
    (db db' : Database) (n : Tally) (ts : List Task) : Prop where
  within : k' ≤ k + r.maxBatchesPerSweep.toNat
  distinct : (ts.map Task.id).Nodup
  moved : ∀ t ∈ ts, t ∈ everOverdue o rounds k k' db ∧ TakenBack t (db.view t.id) (db'.view t.id)
  untouched : ∀ i, (∀ t ∈ ts, t.id ≠ i) → db'.view i = db.view i
  spared : ∀ t ∈ db.tasks.rows, t ∉ everOverdue o rounds k k' db → db'.view t.id = db.view t.id
  counted : n.requeued + n.failed = ts.length
  complete : ((everOverdue o rounds k k' db).length : Int) ≤ r.batchSize * r.maxBatchesPerSweep →
    ∀ t ∈ db.tasks.rows, t.state = .running → o.holds (rounds k).now t = true → t ∈ ts

theorem Drained.spared (h : Drained o rounds k k' db db' ts) {t : Task} (ht : t ∈ db.tasks.rows)
    (hnot : t ∉ everOverdue o rounds k k' db) : db'.view t.id = db.view t.id := by
  refine h.others t.id fun u hu hid => hnot ?_
  have hrow := (h.found u hu).1
  rw [hid, Database.task?, Table.find?_key ht] at hrow
  exact h.subset (Option.some.inj hrow ▸ hu)

theorem Reaper.part_recovers (r : Reaper) (o : Overdue) (db : Database) (hbatch : 1 ≤ r.batchSize)
    (hmax : 1 ≤ r.maxBatchesPerSweep) (hu : Quiet rounds) (k : Nat) :
    ∃ k' db' n ts, r.part o rounds k db = .ok (k', db', n) ∧ Drained o rounds k k' db db' ts ∧
      Recovery r o rounds k k' db db' n ts := by
  obtain ⟨k', db', n, ts, hrun, -, hk', h, hn, hall⟩ := drain_spec o (show 0 ≤ r.batchSize by omega)
    rounds r.maxBatchesPerSweep.toNat k db {}
  obtain ⟨hk, hall⟩ := hall hu
  refine ⟨k', db', n, ts, hrun, h, hk', h.distinct, fun t ht => ⟨h.subset ht, ?_⟩, h.others,
    fun t => h.spared, ?_, fun hfew => ?_⟩
  · obtain ⟨j, -, -, -, hview⟩ := h.moved t ht
    rw [hview]
    exact o.takenBack _ t _
  · rw [hn]
    simp
  · rw [Int.toNat_of_nonneg (by omega)] at hall
    exact h.complete (hk (by omega)) hall hfew

/-- **A sweep is complete and exact.** Each part ends within its batches, whatever it meets.
Undisturbed, it takes back tasks that were overdue in one of its rounds and no others, each
once; if its batches hold all of those, it has taken back every task that was overdue when it
began; and no task is taken back by both parts. -/
theorem sweep_complete_exact (r : Reaper) (hbatch : 1 ≤ r.batchSize)
    (hmax : 1 ≤ r.maxBatchesPerSweep) :
    (∀ o rounds k db, ∃ k' db' n, r.part o rounds k db = .ok (k', db', n) ∧
      k' ≤ k + r.maxBatchesPerSweep.toNat) ∧
    ∀ rounds db, Quiet rounds → ∃ k₁ db₁ n₁ ts₁ k₂ db₂ n₂ ts₂ db' dead,
      r.part .leaseExpired rounds 0 db = .ok (k₁, db₁, n₁) ∧
      r.part .executionTimeExceeded rounds k₁ db₁ = .ok (k₂, db₂, n₂) ∧
      r.sweep rounds db = .ok (db', ⟨n₁, n₂, dead⟩) ∧ db'.view = db₂.view ∧
      Recovery r .leaseExpired rounds 0 k₁ db db₁ n₁ ts₁ ∧
      Recovery r .executionTimeExceeded rounds k₁ k₂ db₁ db₂ n₂ ts₂ ∧
      ∀ t ∈ ts₁, ∀ u ∈ ts₂, t.id ≠ u.id := by
  refine ⟨fun o rounds k db => ?_, fun rounds db hu => ?_⟩
  · obtain ⟨k', db', n, ts, hrun, -, hk', -⟩ := drain_spec o (show 0 ≤ r.batchSize by omega) rounds
      r.maxBatchesPerSweep.toNat k db {}
    exact ⟨k', db', n, hrun, hk'⟩
  · obtain ⟨k₁, db₁, n₁, ts₁, hrun₁, h₁, hrec₁⟩ := r.part_recovers .leaseExpired db hbatch hmax hu 0
    obtain ⟨k₂, db₂, n₂, ts₂, hrun₂, h₂, hrec₂⟩ :=
      r.part_recovers .executionTimeExceeded db₁ hbatch hmax hu k₁
    refine ⟨k₁, db₁, n₁, ts₁, k₂, db₂, n₂, ts₂,
      (markDeadWorkers db₂ (rounds k₂).now r.workerDeadAfterS).1,
      (markDeadWorkers db₂ (rounds k₂).now r.workerDeadAfterS).2,
      hrun₁, hrun₂, ?_, rfl, hrec₁, hrec₂, ?_⟩
    · unfold Reaper.sweep
      rw [hrun₁, ok_bind]
      dsimp only
      rw [hrun₂, ok_bind]
      rfl
    · intro t ht u huts
      -- what the second part finds RUNNING the first has not taken back
      obtain ⟨hrow, hrun⟩ := h₂.found u huts
      exact (h₁.running hrow hrun).2 t ht

/-- A reaper that looks at the claim of a worker long gone. -/
def lateRounds : Nat → Round := fun _ => { now := 100 }

omit [PyText] in
theorem sweep_complete_exact_oneClaim : ∃ db' report,
    @Reaper.sweep PyText.plain {} lateRounds (@history PyText.plain .empty oneClaim) =
      .ok (db', report) ∧ ∃ t, db'.task? 7 = some t ∧ t.state = .queued := by
  have hstart : ((@history PyText.plain .empty oneClaim).task? 7).map (fun t =>
      (t.state, t.leaseExpired 100, decide (t.attempt < t.maxAttempts))) =
        some (.running, true, true) := by decide +kernel
  have hone : (@history PyText.plain .empty oneClaim).tasks.rows.length = 1 := by decide +kernel
  obtain ⟨t, ht, hfields⟩ := Option.map_eq_some_iff.mp hstart
  obtain ⟨hrun, hov, hleft⟩ := And.imp_right Prod.mk.inj (Prod.mk.inj hfields)
  obtain ⟨-, hall⟩ := @sweep_complete_exact PyText.plain {} (by decide) (by decide)
  obtain ⟨k₁, db₁, n₁, ts₁, k₂, db₂, n₂, ts₂, db', dead, -, -, hsweep, hview, h₁, h₂, hapart⟩ :=
    hall lateRounds (@history PyText.plain .empty oneClaim)
      ⟨fun _ _ _ => le_refl _, fun _ _ => rfl, fun _ => rfl⟩
  have hmem : t ∈ ts₁ := by
    refine h₁.complete ?_ t (Table.mem_of_find? ht) hrun hov
    have hle := List.length_filter_le (fun t : Task => t.state == .running &&
      (List.range' 0 (k₁ - 0)).any fun j => Overdue.holds .leaseExpired (lateRounds j).now t)
      (@history PyText.plain .empty oneClaim).tasks.rows
    rw [hone] at hle
    exact (Int.ofNat_le.mpr hle).trans (by decide)
  have hid : t.id = 7 := Table.key_of_find? ht
  obtain ⟨t', hrow, hstate⟩ := (h₁.moved t hmem).2.row
  rw [if_pos (of_decide_eq_true hleft)] at hstate
  have hkept := h₂.untouched t.id fun u hu he => hapart t hmem u hu he.symm
  refine ⟨db', _, hsweep, t', ?_, hstate⟩
  rw [← Database.view_row, hview, ← hid, hkept]
  exact hrow

end Sweep

end ControlPlane
