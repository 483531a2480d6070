import ControlPlane.Worker.System

/-! # What a stopping worker hands back

The drain hands back what is left in `_owned`. An entry is written when an attempt
starts and removed when it leaves `_finalize`, under the task's id alone and
whatever became of the completion. The worker so loses sight of a lease it holds
when an attempt is cut short before it starts or inside `_finalize`, and when two
attempts of one task write the same entry. Where neither happens, it holds no lease
when the drain returns. -/

namespace ControlPlane
open Keyed Fallible Runs

/-! ## What can go wrong -/

/-- The attempt ends here without a report, and without leaving its entry in `_owned`:
before it has started, or inside `_finalize` before the completion has committed. -/
def Attempt.cutShort (x : Attempt) (a : AttemptAction) : Bool :=
  match x.phase, a with
  | .dispatched, .begin => !x.row.spanOpens
  | .dispatched, .cancel => true
  -- the result is refused
  | .finalizing outcome c rng, .finalize => (finalizeEnding x.row outcome c rng).isNone
  | .finalizing .., .cancel => true
  | .finalizing .., .connectionFails => true
  | _, _ => false

/-- The attempt writes or removes the entry of its task, other than after a completion
that was applied. -/
def Attempt.writesEntry (x : Attempt) (a : AttemptAction) : Bool :=
  match x.phase, a with
  | .dispatched, .begin => x.row.spanOpens
  | .finalizing outcome c rng, .finalize => (finalizeEnding x.row outcome c rng).isNone
  | .finalizing .., .cancel => true
  | .finalizing .., .connectionFails => true
  | .rejected .., .recordStale => true
  | .rejected .., .connectionFails => true
  | .rejected .., .cancel => true
  | _, _ => false

/-- The step cuts an attempt short whose lease the worker holds, or it writes the entry
of a task while that names a later attempt. -/
def Worker.losesTrack (w : WorkerId) (p : Worker) (db : Database) : WorkerAction → Bool
  | .attempt k b => (p.inflight[k]?).any fun x =>
    (x.cutShort b && (db.task? x.row.id).any fun t => decide (t.HeldBy x.row.attempt w)) ||
      (x.writesEntry b && p.owned.any fun e => e.1 == x.row.id && decide (x.row.attempt < e.2))
  | _ => false

/-- A transaction that the drain itself opened fails. -/
def Worker.drainFails (p : Worker) : WorkerAction → Bool
  | .connectionFails => match p.stage with
    | .draining => true
    | .handingBack _ => true
    | _ => false
  | _ => false

def System.drainFails (s : System) (w : WorkerId) : Action → Bool
  | .worker v a => decide (v = w) && (s.workers w).any fun p => p.drainFails a
  | _ => false

/-- The step of the worker loses track, or fails the drain. -/
def System.slips (s : System) (w : WorkerId) : Action → Bool
  | .worker v a => decide (v = w) &&
    (s.workers w).any fun p => p.losesTrack w s.db a || p.drainFails a
  | _ => false

/-- The worker holds no lease. -/
def HoldsNothing (w : WorkerId) (db : Database) : Prop :=
  ∀ i t, db.task? i = some t → t.state = .running → t.leaseWorkerId ≠ some w

/-! ## `_owned` -/

theorem mem_setOwned_self (owned : Owned) (i : TaskId) (n : Int) : (i, n) ∈ setOwned owned i n := by
  unfold setOwned
  split
  · rename_i hany
    obtain ⟨e, he, hi⟩ := List.any_eq_true.mp hany
    exact List.mem_map.mpr ⟨e, he, if_pos hi⟩
  · simp

theorem mem_setOwned_of_ne {owned : Owned} {i j : TaskId} {n m : Int} (h : (j, m) ∈ owned)
    (hne : j ≠ i) : (j, m) ∈ setOwned owned i n := by
  unfold setOwned
  split
  · exact List.mem_map.mpr ⟨(j, m), h, if_neg (by simpa using hne)⟩
  · exact List.mem_append_left _ h

theorem mem_popOwned_of_ne {owned : Owned} {i j : TaskId} {m : Int} (h : (j, m) ∈ owned)
    (hne : j ≠ i) : (j, m) ∈ popOwned owned i :=
  List.mem_filter.mpr ⟨h, by simpa using hne⟩

/-! ## Which leases the worker knows of -/

def Phase.isDispatched : Phase → Bool
  | dispatched => true
  | _ => false

def Phase.isRejected : Phase → Bool
  | rejected .. => true
  | _ => false

/-- The attempt has an entry, or has not started. -/
def Worker.Knows (p : Worker) (i : TaskId) (n : Int) : Prop :=
  (i, n) ∈ p.owned ∨
    ∃ x ∈ p.inflight, x.phase.isDispatched = true ∧ x.row.id = i ∧ x.row.attempt = n

/-- The main coroutine is not past the wait of the drain. -/
def Stage.isOpen : Stage → Bool
  | handingBack _ => false
  | exited => false
  | _ => true

/-- The attempt will end, or be handed back. -/
def Worker.Accounts (p : Worker) (i : TaskId) (n : Int) : Prop :=
  match p.stage with
  | .handingBack rest => (i, n) ∈ rest
  | .exited => True
  | _ => p.Knows i n

/-- An attempt in flight is not ahead of its task's row; once its completion has been
rejected, its lease is gone. -/
structure Attempt.Tracked (w : WorkerId) (db : Database) (x : Attempt) : Prop where
  row : ∃ t, db.task? x.row.id = some t ∧ x.row.attempt ≤ t.attempt
  rejected : x.phase.isRejected = true → ¬ Holds x.row.id x.row.attempt w db

/-- The worker accounts for every lease it holds. -/
structure Worker.Accounted (w : WorkerId) (p : Worker) (db : Database) : Prop where
  leases : ∀ i n, Holds i n w db → p.Accounts i n
  attempts : ∀ x ∈ p.inflight, x.Tracked w db

theorem Worker.accounts_open {p : Worker} {i : TaskId} {n : Int} (h : p.stage.isOpen = true) :
    p.Accounts i n ↔ p.Knows i n := by
  unfold Worker.Accounts
  split
  · rename_i hs; rw [hs] at h; cases h
  · rename_i hs; rw [hs] at h; cases h
  · rfl

variable [PyText]

/-! ## Transactions -/

/-- A lease is new only to the claim that draws the next attempt. -/
theorem commit_held {db : Database} {c : Call} {i : TaskId} {n : Int} {w : WorkerId}
    (h : Holds i n w (commit db c)) : Holds i n w db ∨
      ∃ args scans t, c.op = .claimTasks args scans ∧ args.workerId = w ∧ db.task? i = some t ∧
        n = t.attempt + 1 := by
  obtain ⟨t', ht', hheld⟩ := h
  rcases (commit_step db c i).held ht' hheld with hold | ⟨args, scans, t, hop, hw, ht, -, hn⟩
  · exact Or.inl hold
  · exact Or.inr ⟨args, scans, t, hop, hw, ht, hn⟩

theorem Attempt.Tracked.commit {w : WorkerId} {db : Database} {x : Attempt} (h : x.Tracked w db)
    (c : Call) : x.Tracked w (commit db c) := by
  obtain ⟨t, ht, hle⟩ := h.row
  constructor
  · obtain ⟨t', ht', hatt⟩ := (commit_step db c x.row.id).attempt ht
    refine ⟨t', ht', ?_⟩
    rcases hatt with he | ⟨he, -⟩ <;> omega
  · intro hrej hheld
    rcases commit_held hheld with hold | ⟨args, scans, u, -, -, hu, hn⟩
    · exact h.rejected hrej hold
    · -- the next attempt is beyond the one that was rejected
      obtain rfl := Option.eq_some_unique ht hu
      omega

/-! ## The entry of an attempt -/

/-- The steps of an attempt, by what they do to its entry in `_owned`. -/
inductive EntryMove (w : WorkerId) (x : Attempt) (owned : Owned) :
    AttemptAction → Move (Attempt × Owned) → Prop
  | begun (hphase : x.phase = .dispatched) (hwrites : x.writesEntry .begin = true) :
      EntryMove w x owned .begin
        (.silent ({ x with phase := .executing }, setOwned owned x.row.id x.row.attempt))
  | dropped {a : AttemptAction} (hphase : x.phase = .dispatched) (hcut : x.cutShort a = true) :
      EntryMove w x owned a (.silent ({ x with phase := .ended }, owned))
  | kept {a : AttemptAction} {m : Move (Attempt × Owned)} (hphase : x.phase.isDispatched = false)
      (hafter : ∀ db now, (m.run db now).2.1.phase.isRejected = false ∧ (m.run db now).2.2 = owned) :
      EntryMove w x owned a m
  | finalized {outcome : Outcome} {c : Bool} {rng : Draws} {ending : Ending}
      (hphase : x.phase = .finalizing outcome c rng) :
      EntryMove w x owned .finalize (.transact (.complete ending x.row.id x.row.attempt w) fun
          | .ok (.completed (.rejected why _)) => ({ x with phase := .rejected outcome why }, owned)
          | _ => ({ x with phase := .ended }, popOwned owned x.row.id))
  | popped {a : AttemptAction} {m : Move (Attempt × Owned)} (hphase : x.phase.isDispatched = false)
      (hwrites : x.writesEntry a = true) (hwhy : x.cutShort a = true ∨ x.phase.isRejected = true)
      (hafter : ∀ db now, (m.run db now).2 = ({ x with phase := .ended }, popOwned owned x.row.id)) :
      EntryMove w x owned a m

theorem runAttempt_entry {w : WorkerId} {ttl : Int} {x : Attempt} {owned : Owned} {a : AttemptAction}
    {m : Move (Attempt × Owned)} (h : runAttempt w ttl x owned a = some m) :
    EntryMove w x owned a m := by
  have hrenewal : ∀ {b : RenewalAction}, x.phase.isDispatched = false → x.phase.isRejected = false →
      (renewUntilStopped w ttl x b).map (Move.map fun y => (y, owned)) = some m →
      EntryMove w x owned (.renewal b) m := by
    intro b hd hr h
    obtain ⟨n, hn, rfl⟩ := Option.map_eq_some_iff.mp h
    refine .kept hd fun db now => ?_
    rw [Move.run_map]
    dsimp only
    rw [(renewUntilStopped_kept hn db now).2]
    exact ⟨hr, rfl⟩
  unfold runAttempt at h
  dsimp only at h
  split at h
  · rename_i hp
    split at h <;> cases h
    · rename_i hopens
      exact .begun hp (by unfold Attempt.writesEntry; rw [hp]; exact hopens)
    · rename_i hraises
      exact .dropped hp (by unfold Attempt.cutShort; rw [hp]; simpa using hraises)
  · rename_i hp; cases h; exact .dropped hp (by unfold Attempt.cutShort; rw [hp])
  · rename_i hp; exact hrenewal (by rw [hp]; rfl) (by rw [hp]; rfl) h
  · rename_i hp; cases h; exact .kept (by rw [hp]; rfl) fun _ _ => ⟨by dsimp only [Move.run]; rw [hp]; rfl, rfl⟩
  · rename_i hp; cases h; exact .kept (by rw [hp]; rfl) fun _ _ => ⟨rfl, rfl⟩
  · rename_i hp; cases h; exact .kept (by rw [hp]; rfl) fun _ _ => ⟨rfl, rfl⟩
  · rename_i hp; exact hrenewal (by rw [hp]; rfl) (by rw [hp]; rfl) h
  · rename_i hp
    have hd : x.phase.isDispatched = false := by rw [hp]; rfl
    split at h
    · cases h; exact .kept hd fun _ _ => ⟨rfl, rfl⟩
    · split at h <;> cases h
      exact .kept hd fun _ _ => ⟨rfl, rfl⟩
  · rename_i hp; cases h; exact .kept (by rw [hp]; rfl) fun _ _ => ⟨rfl, rfl⟩
  · rename_i hp
    split at h
    · rename_i hnone
      cases h
      exact .popped (by rw [hp]; rfl) (by simp only [Attempt.writesEntry, hp, hnone, Option.isNone_none])
        (Or.inl (by simp only [Attempt.cutShort, hp, hnone, Option.isNone_none])) fun _ _ => rfl
    · cases h
      exact .finalized hp
  · rename_i hp
    cases h
    exact .popped (by rw [hp]; rfl) (by unfold Attempt.writesEntry; rw [hp])
      (Or.inl (by unfold Attempt.cutShort; rw [hp])) fun _ _ => rfl
  · rename_i hp
    cases h
    exact .popped (by rw [hp]; rfl) (by unfold Attempt.writesEntry; rw [hp])
      (Or.inl (by unfold Attempt.cutShort; rw [hp])) fun _ _ => rfl
  · rename_i hp
    cases h
    exact .popped (by rw [hp]; rfl) (by unfold Attempt.writesEntry; rw [hp])
      (Or.inr (by rw [hp]; rfl)) fun _ _ => rfl
  · rename_i hp
    cases h
    exact .popped (by rw [hp]; rfl) (by unfold Attempt.writesEntry; rw [hp])
      (Or.inr (by rw [hp]; rfl)) fun _ _ => rfl
  · rename_i hp
    cases h
    exact .popped (by rw [hp]; rfl) (by unfold Attempt.writesEntry; rw [hp])
      (Or.inr (by rw [hp]; rfl)) fun _ _ => rfl
  · rename_i hp; exact hrenewal (by rw [hp]; rfl) (by rw [hp]; rfl) h
  · rename_i hp
    have hd : x.phase.isDispatched = false := by rw [hp]; rfl
    split at h
    · cases h; exact .kept hd fun _ _ => ⟨rfl, rfl⟩
    · split at h <;> cases h
      exact .kept hd fun _ _ => ⟨rfl, rfl⟩
  · cases h

/-- After a completion that was applied nobody holds the task; after one that was
rejected the worker does not hold the attempt. -/
theorem complete_cases (db : Database) (now : Time) (e : Ending) (i : TaskId) (n : Int)
    (w : WorkerId) :
    (∃ t, (perform db now (.complete e i n w)).map Prod.snd = .ok (.completed (.applied t)) ∧
        ∀ m v, ¬ Holds i m v (commit db ⟨now, .complete e i n w⟩)) ∨
      ∃ why t, (perform db now (.complete e i n w)).map Prod.snd =
          .ok (.completed (.rejected why t)) ∧ ¬ Holds i n w (commit db ⟨now, .complete e i n w⟩) := by
  obtain ⟨db', res, h⟩ := completeAttempt_returns db now e i n w
  have hperf : perform db now (.complete e i n w) = .ok (db', .completed res) := by
    show (completeAttempt db now e i n w).map _ = _
    rw [h]
    rfl
  rw [commit_of_ok (c := ⟨now, .complete e i n w⟩) hperf, hperf]
  obtain ⟨-, ⟨t, ht, hheld, rfl, hv⟩ | ⟨hno, hres, hv⟩⟩ := completeAttempt_ok h
  · refine Or.inl ⟨_, rfl, fun m v hafter => ?_⟩
    obtain ⟨t', ht', hheld'⟩ := hafter
    rw [← Database.view_row, hv, Function.update_self] at ht'
    cases ht'
    exact e.toState_not_running ((e.row_fields now t).1.symm.trans hheld'.1)
  · cases res with
    | applied t => cases hres
    | rejected why t =>
      refine Or.inr ⟨why, t, rfl, fun hafter => ?_⟩
      obtain ⟨t', ht', hheld'⟩ := hafter
      rw [← Database.view_row, hv] at ht'
      exact hno t' ht' hheld'

theorem Attempt.Tracked.run {w : WorkerId} {db : Database} {x : Attempt} (h : x.Tracked w db)
    {α : Type} (m : Move α) (now : Time) : x.Tracked w (m.run db now).1 := by
  rw [m.run_db]
  split
  · exact h
  · exact h.commit _

/-- What claims nothing for the worker brings it no lease. -/
theorem Move.run_held {α : Type} {m : Move α} {db : Database} {now : Time} {i : TaskId} {n : Int}
    {w : WorkerId} (hop : ∀ args scans, m.op? = some (.claimTasks args scans) → args.workerId ≠ w)
    (h : Holds i n w (m.run db now).1) : Holds i n w db := by
  rw [m.run_db] at h
  split at h
  · exact h
  · rename_i op he
    rcases commit_held h with hold | ⟨args, scans, t, hclaim, hw, -⟩
    · exact hold
    · exact absurd hw (hop args scans (he.trans (congrArg some hclaim)))

omit [PyText] in
/-- A worker that holds a later attempt has not an earlier one in flight alone. -/
theorem Attempt.Tracked.le {w : WorkerId} {db : Database} {x : Attempt} (h : x.Tracked w db)
    {n : Int} (hheld : Holds x.row.id n w db) : x.row.attempt ≤ n := by
  obtain ⟨t, ht, hle⟩ := h.row
  obtain ⟨u, hu, -, hn, -⟩ := hheld
  obtain rfl := Option.eq_some_unique ht hu
  exact hn ▸ hle

/-! ## One step of an attempt -/

theorem EntryMove.tracked {w : WorkerId} {x : Attempt} {owned : Owned} {a : AttemptAction}
    {m : Move (Attempt × Owned)} (h : EntryMove w x owned a m) {db : Database} {now : Time}
    (hrow : (m.run db now).2.1.row = x.row) (hx : x.Tracked w db) :
    (m.run db now).2.1.Tracked w (m.run db now).1 := by
  have hrowed : ∃ t, (m.run db now).1.task? (m.run db now).2.1.row.id = some t ∧
      (m.run db now).2.1.row.attempt ≤ t.attempt := by
    rw [hrow]
    exact (hx.run m now).row
  have hkept : (m.run db now).2.1.phase.isRejected = false →
      (m.run db now).2.1.Tracked w (m.run db now).1 := fun hrej =>
    ⟨hrowed, fun hr => by rw [hrej] at hr; cases hr⟩
  have hlost : ¬ Holds x.row.id x.row.attempt w (m.run db now).1 →
      (m.run db now).2.1.Tracked w (m.run db now).1 := fun hno =>
    ⟨hrowed, fun _ => by rw [hrow]; exact hno⟩
  cases h with
  | begun hphase => exact hkept rfl
  | dropped hphase => exact hkept rfl
  | kept hphase hafter => exact hkept (hafter db now).1
  | @finalized outcome c rng ending hphase =>
    rcases complete_cases db now ending x.row.id x.row.attempt w with
      ⟨t, hreply, -⟩ | ⟨why, t, hreply, hno⟩
    · refine hkept ?_
      dsimp only [Move.run]
      rw [hreply]
      rfl
    · exact hlost hno
  | popped hphase hwrites hwhy hafter =>
    refine hkept ?_
    rw [hafter]
    rfl

/-- A lease that is still held is still known of, if the step does not lose track. -/
theorem EntryMove.knows {w : WorkerId} {p : Worker} {k : Nat} {x : Attempt} {b : AttemptAction}
    {m : Move (Attempt × Owned)} (h : EntryMove w x p.owned b m) (hx : p.inflight[k]? = some x)
    {db : Database} {now : Time} (htracked : x.Tracked w db)
    (hcut : x.cutShort b = true → ¬ Holds x.row.id x.row.attempt w db)
    (hentry : x.writesEntry b = true → ∀ n, (x.row.id, n) ∈ p.owned → n ≤ x.row.attempt)
    {i : TaskId} {n : Int} (hheld : Holds i n w db) (hafter : Holds i n w (m.run db now).1)
    (hknows : p.Knows i n) :
    Worker.Knows { p with inflight := p.inflight.set k (m.run db now).2.1
                          owned := (m.run db now).2.2 } i n := by
  rcases hknows with howned | ⟨y, hy, hd, rfl, rfl⟩
  · -- an entry goes only with an attempt that is no longer held
    refine Or.inl ?_
    have hsame : x.writesEntry b = true → i = x.row.id → n = x.row.attempt := by
      rintro hw rfl
      exact le_antisymm (hentry hw n howned) (htracked.le hheld)
    cases h with
    | begun hphase hw =>
      by_cases hi : i = x.row.id
      · rw [hsame hw hi, hi]
        exact mem_setOwned_self ..
      · exact mem_setOwned_of_ne howned hi
    | dropped hphase => exact howned
    | kept hphase hrun => rw [(hrun db now).2]; exact howned
    | @finalized outcome c rng ending hphase =>
      rcases complete_cases db now ending x.row.id x.row.attempt w with
        ⟨t, hreply, hfree⟩ | ⟨why, t, hreply, -⟩
      · have hi : i ≠ x.row.id := fun hi => hfree n w (hi ▸ hafter)
        dsimp only [Move.run]
        rw [hreply]
        exact mem_popOwned_of_ne howned hi
      · dsimp only [Move.run]
        rw [hreply]
        exact howned
    | popped hphase hw hwhy hrun =>
      rw [hrun]
      have hi : i ≠ x.row.id := by
        intro hi
        have hn := hsame hw hi
        subst hi hn
        rcases hwhy with hc | hr
        · exact hcut hc hheld
        · exact htracked.rejected hr hheld
      exact mem_popOwned_of_ne howned hi
  · obtain ⟨j, hj⟩ := List.getElem?_of_mem hy
    by_cases hkj : j = k
    · -- the attempt itself: it starts, since it is not cut short
      subst hkj
      obtain rfl := Option.eq_some_unique hx hj
      cases h with
      | begun hphase => exact Or.inl (mem_setOwned_self ..)
      | dropped hphase hshort => exact absurd hheld (hcut hshort)
      | kept hphase hrun => rw [hphase] at hd; cases hd
      | finalized hphase => rw [hphase] at hd; cases hd
      | popped hphase hw hwhy hrun => rw [hphase] at hd; cases hd
    · refine Or.inr ⟨y, List.mem_of_getElem? (i := j) ?_, hd, rfl, rfl⟩
      dsimp only
      rw [List.getElem?_set_ne (Ne.symm hkj)]
      exact hj

/-! ## One step of the worker -/

omit [PyText] in
theorem runForever_not_claim {w : WorkerId} {p : Worker} {a : WorkerAction} {m : Move Worker}
    (h : runForever w p a = some m) (ha : ∀ scans, a ≠ .claim scans) (v : WorkerId) :
    ∀ args scans, m.op? = some (.claimTasks args scans) → args.workerId ≠ v := by
  intro args scans hop
  exact absurd ((runForever_move h).issues hop).claims.1 (ha scans)

/-- A step that is not a claim and loses no account of what is held after it. -/
theorem Worker.Accounted.carry {w : WorkerId} {p q : Worker} {db : Database} {now : Time}
    {m : Move Worker} (hacc : p.Accounted w db) (hq : (m.run db now).2 = q)
    (hop : ∀ args scans, m.op? = some (.claimTasks args scans) → args.workerId ≠ w)
    (hleases : ∀ i n, Holds i n w (m.run db now).1 → p.Accounts i n → q.Accounts i n)
    (hin : q.inflight ⊆ p.inflight) :
    (m.run db now).2.Accounted w (m.run db now).1 := by
  rw [hq]
  exact ⟨fun i n hheld => hleases i n hheld (hacc.leases i n (Move.run_held hop hheld)),
    fun x hx => (hacc.attempts x (hin hx)).run m now⟩

/-- A step of the main coroutine before the wait of the drain ends. -/
theorem Worker.Accounted.remains {w : WorkerId} {p q : Worker} {db : Database} {now : Time}
    {m : Move Worker} (hacc : p.Accounted w db) (hq : (m.run db now).2 = q)
    (hop : ∀ args scans, m.op? = some (.claimTasks args scans) → args.workerId ≠ w)
    (hstage : p.stage.isOpen = true)
    (hopen : q.stage.isOpen = true) (howned : q.owned = p.owned)
    (hin : ∀ x, x.phase.isEnded = false ∧ x ∈ p.inflight → x ∈ q.inflight)
    (hno : q.inflight ⊆ p.inflight) : (m.run db now).2.Accounted w (m.run db now).1 := by
  refine hacc.carry hq hop (fun i n _ hi => ?_) hno
  rw [Worker.accounts_open hstage] at hi
  rw [Worker.accounts_open hopen]
  rcases hi with h | ⟨x, hx, hd, h⟩
  · exact Or.inl (howned ▸ h)
  · have hlive : x.phase.isEnded = false := by
      cases hphase : x.phase <;> rw [hphase] at hd <;> first | rfl | cases hd
    exact Or.inr ⟨x, hin x ⟨hlive, hx⟩, hd, h⟩

/-- A claim returns an attempt for every lease it takes. -/
theorem Worker.Accounted.dispatch {w : WorkerId} {p : Worker} {db : Database} {now : Time}
    (hacc : p.Accounted w db) (hstage : p.stage.isOpen = true) (scans : Nat → Scan) :
    (p.dispatch ((perform db now (.claimTasks (p.claimArgs w) scans)).map Prod.snd)).Accounted w
      (commit db ⟨now, .claimTasks (p.claimArgs w) scans⟩) := by
  cases hperf : perform db now (.claimTasks (p.claimArgs w) scans) with
  | error e =>
    rw [commit_of_error (c := ⟨now, .claimTasks (p.claimArgs w) scans⟩) hperf]
    refine ⟨fun i n hheld => ?_, hacc.attempts⟩
    exact (Worker.accounts_open rfl).mpr ((Worker.accounts_open hstage).mp (hacc.leases i n hheld))
  | ok res =>
    obtain ⟨db', r⟩ := res
    have hcommit := commit_of_ok (c := ⟨now, .claimTasks (p.claimArgs w) scans⟩) hperf
    obtain ⟨rows, hclaim, rfl⟩ := mapSnd_ok (show (claimTasks db now (p.claimArgs w) scans).map
      (Prod.map id .claimed) = .ok (db', r) from hperf)
    obtain ⟨-, hrows, hin, hout⟩ := claimTasks_ok hclaim
    constructor
    · intro i n hheld
      refine (Worker.accounts_open rfl).mpr ?_
      by_cases hi : i ∈ (claimLoop db now (p.claimArgs w) scans).claimedIds
      · obtain ⟨t, ht, -, hrow, hv⟩ := hin i hi
        obtain ⟨t', ht', -, hn, -⟩ := hheld
        rw [hcommit, ← Database.view_row, hv] at ht'
        cases ht'
        have hid : t.id = i := Database.row_id ht
        exact Or.inr ⟨_, List.mem_append_right _ (List.mem_map_of_mem hrow), rfl, hid, hn⟩
      · have hold : Holds i n w db := by
          obtain ⟨t, ht, hh⟩ := hheld
          rw [hcommit, ← Database.view_row, hout i hi] at ht
          exact ⟨t, ht, hh⟩
        rcases (Worker.accounts_open hstage).mp (hacc.leases i n hold) with h | ⟨x, hx, h⟩
        · exact Or.inl h
        · exact Or.inr ⟨x, List.mem_append_left _ hx, h⟩
    · intro x hx
      rcases List.mem_append.mp hx with hx | hx
      · exact (hacc.attempts x hx).commit _
      · obtain ⟨row, hrow, rfl⟩ := List.mem_map.mp hx
        rw [hrows] at hrow
        obtain ⟨t, hi, ht, rfl⟩ := mem_grantedRows.mp hrow
        obtain ⟨u, hu, -, -, hv⟩ := hin t.id hi
        obtain rfl := Option.eq_some_unique ht hu
        refine ⟨⟨_, ?_, le_refl _⟩, fun hrej => by cases hrej⟩
        rw [hcommit]
        exact congrArg TaskView.row hv

/-- A step of an attempt that does not lose track. -/
theorem Worker.Accounted.attempt {w : WorkerId} {p : Worker} {k : Nat} {x : Attempt}
    {b : AttemptAction} {m : Move (Attempt × Owned)} {db : Database} {now : Time}
    (hacc : p.Accounted w db) (hx : p.inflight[k]? = some x)
    (hm : runAttempt w p.config.leaseTtlS x p.owned b = some m)
    (hop : ∀ args scans, m.op? = some (.claimTasks args scans) → args.workerId ≠ w)
    (hlost : p.losesTrack w db (.attempt k b) = false) :
    ((m.map fun y => { p with inflight := p.inflight.set k y.1
                              owned := y.2 } : Move Worker).run db now).2.Accounted w
      ((m.map fun y => { p with inflight := p.inflight.set k y.1
                                owned := y.2 } : Move Worker).run db now).1 := by
  have hentry := runAttempt_entry hm
  have htracked := hacc.attempts x (List.mem_of_getElem? hx)
  unfold Worker.losesTrack at hlost
  dsimp only at hlost
  rw [hx] at hlost
  simp only [Option.any_some, Bool.or_eq_false_iff] at hlost
  obtain ⟨hshort, hlater⟩ := hlost
  have hcut : x.cutShort b = true → ¬ Holds x.row.id x.row.attempt w db := by
    rintro hc ⟨t, ht, hheld⟩
    rw [hc, ht] at hshort
    simp [hheld] at hshort
  have hfirst : x.writesEntry b = true → ∀ n, (x.row.id, n) ∈ p.owned → n ≤ x.row.attempt := by
    intro hw n hn
    rw [hw, Bool.true_and, List.any_eq_false] at hlater
    have hle := hlater _ hn
    simpa using hle
  rw [Move.run_map]
  dsimp only
  constructor
  · intro i n hheld
    have hbefore : Holds i n w db := Move.run_held hop hheld
    have hacc' := hacc.leases i n hbefore
    unfold Worker.Accounts at hacc' ⊢
    dsimp only
    split at hacc'
    · exact hacc'
    · trivial
    · exact hentry.knows hx htracked hcut hfirst hbefore hheld hacc'
  · intro y hy
    rcases List.mem_or_eq_of_mem_set hy with hy | rfl
    · exact (hacc.attempts y hy).run m now
    · exact hentry.tracked ((runAttempt_move hm).row db now) htracked

/-- **A step that does not slip keeps the accounts.** -/
theorem accounted_step {w : WorkerId} {p : Worker} {a : WorkerAction} {m : Move Worker}
    {db : Database} {now : Time} (h : runForever w p a = some m) (hacc : p.Accounted w db)
    (hlost : p.losesTrack w db a = false) (hfail : p.drainFails a = false) :
    (m.run db now).2.Accounted w (m.run db now).1 := by
  have hop := fun ha => runForever_not_claim h ha w
  have hall : ∀ x, x.phase.isEnded = false ∧ x ∈ p.inflight → x ∈ p.inflight := fun _ hx => hx.2
  unfold runForever at h
  split at h
  · cases h
    exact hacc.carry rfl (hop (by simp)) (fun _ _ _ h => h) (List.Subset.refl _)
  · cases h
    exact hacc.carry rfl (hop (by simp)) (fun _ _ _ _ => trivial) (List.nil_subset _)
  · split at h
    · cases h
    obtain ⟨x, hx, h⟩ := Option.bind_eq_some_iff.mp h
    obtain ⟨mv, hmv, rfl⟩ := Option.map_eq_some_iff.mp h
    exact hacc.attempt hx hmv (Move.op?_map _ mv ▸ hop (by simp)) hlost
  · rename_i hs
    split at h <;> cases h
    have hstage : p.stage.isOpen = true := by rw [hs]; rfl
    refine hacc.remains rfl (hop (by simp)) hstage ?_ ?_ ?_ ?_
    all_goals dsimp only [Move.run]
    all_goals split
    all_goals first
      | rfl
      | exact hstage
      | exact hall
      | exact List.Subset.refl _
  · rename_i hs
    split at h <;> cases h
    exact hacc.remains rfl (hop (by simp)) (by rw [hs]; rfl) rfl rfl hall (List.Subset.refl _)
  · rename_i hs
    cases h
    have hstage : p.stage.isOpen = true := by rw [hs]; rfl
    refine hacc.remains rfl (hop (by simp)) hstage hstage rfl (fun x hx => ?_)
      List.filter_sublist.subset
    exact List.mem_filter.mpr ⟨hx.2, by rw [hx.1]; rfl⟩
  · rename_i hs
    cases h
    exact hacc.remains rfl (hop (by simp)) (by rw [hs]; rfl) rfl rfl hall (List.Subset.refl _)
  · rename_i hs
    split at h <;> cases h
    exact hacc.remains rfl (hop (by simp)) (by rw [hs]; rfl) rfl rfl hall (List.Subset.refl _)
  · rename_i hs
    cases h
    exact hacc.dispatch (by rw [hs]; rfl) _
  · rename_i hs
    cases h
    exact hacc.remains rfl (hop (by simp)) (by rw [hs]; rfl) rfl rfl hall (List.Subset.refl _)
  · rename_i hs
    split at h <;> cases h
    · exact hacc.remains rfl (hop (by simp)) (by rw [hs]; rfl) rfl rfl hall (List.Subset.refl _)
    · exact hacc.remains rfl (hop (by simp)) (by rw [hs]; rfl) rfl rfl hall (List.Subset.refl _)
  · rename_i hs
    cases h
    exact hacc.remains rfl (hop (by simp)) (by rw [hs]; rfl) rfl rfl hall (List.Subset.refl _)
  · rename_i hs
    split at h
    · rename_i hended
      cases h
      refine hacc.carry rfl (hop (by simp)) (fun i n _ hi => ?_) (List.Subset.refl _)
      -- all attempts have ended, so what is left has an entry
      have hentry : (i, n) ∈ p.owned := by
        rcases (Worker.accounts_open (by rw [hs]; rfl)).mp hi with h | ⟨x, hx, hd, -⟩
        · exact h
        · have he := List.all_eq_true.mp hended x hx
          cases hphase : x.phase <;> rw [hphase] at hd he <;> first | cases hd; done | cases he
      show Worker.Accounts { p with stage := _ } i n
      cases p.fenced with
      | true => trivial
      | false => exact hentry
    · cases h
  · rename_i taskId attempt rest hs
    cases h
    refine hacc.carry rfl (hop (by simp)) (fun i n hheld hi => ?_) (List.Subset.refl _)
    unfold Worker.Accounts at hi
    rw [hs] at hi
    rcases List.mem_cons.mp hi with he | hi
    · -- nobody holds the one that was handed back
      obtain ⟨rfl, rfl⟩ := Prod.mk.inj he
      rcases complete_cases db now (.abandoned "worker_shutdown") i n w with
        ⟨t, -, hfree⟩ | ⟨why, t, -, hno⟩
      · exact absurd hheld (hfree n w)
      · exact absurd hheld hno
    · exact hi
  · rename_i hs
    unfold Worker.drainFails at hfail
    rw [hs] at hfail
    cases hfail
  · cases h
    exact hacc.carry rfl (hop (by simp)) (fun _ _ _ _ => trivial) (List.Subset.refl _)
  · cases h
    exact hacc.carry rfl (hop (by simp)) (fun _ _ _ _ => trivial) (List.Subset.refl _)
  · cases h

/-! ## Runs of the system -/

/-- The worker accounts for its leases, and has none before it starts. -/
structure System.Accounted (w : WorkerId) (s : System) : Prop where
  unstarted : s.workers w = none → ∀ i n, ¬ Holds i n w s.db
  started : ∀ p, s.workers w = some p → p.Accounted w s.db

omit [PyText] in
/-- What others do keeps the accounts. -/
theorem System.Accounted.others {w : WorkerId} {s s' : System} (h : s.Accounted w)
    (hworkers : s'.workers w = s.workers w) (hheld : ∀ i n, Holds i n w s'.db → Holds i n w s.db)
    (htracked : ∀ x : Attempt, x.Tracked w s.db → x.Tracked w s'.db) : s'.Accounted w where
  unstarted hnone i n hi := h.unstarted (hworkers ▸ hnone) i n (hheld i n hi)
  started p hp :=
    have hacc := h.started p (hworkers ▸ hp)
    ⟨fun i n hi => hacc.leases i n (hheld i n hi), fun x hx => htracked x (hacc.attempts x hx)⟩

omit [PyText] in
theorem initial_accounted (w : WorkerId) : System.initial.Accounted w where
  unstarted _ i n h := by
    obtain ⟨t, ht, -⟩ := h
    cases ht
  started p hp := by cases hp

theorem step_accounted {w : WorkerId} {s s' : System} {a : Action} (h : SystemStep s a s')
    (hs : s.Accounted w) (hslip : s.slips w a = false) : s'.Accounted w := by
  unfold SystemStep step at h
  cases a with
  | advance d =>
    dsimp only at h
    split at h <;> cases h
    exact ⟨hs.unstarted, hs.started⟩
  | external op =>
    dsimp only at h
    split at h
    swap
    · cases h
    rename_i hext
    cases h
    refine hs.others rfl (fun i n hi => ?_) fun x hx => hx.commit _
    rcases commit_held hi with hold | ⟨args, scans, t, hop, -⟩
    · exact hold
    · obtain rfl : op = .claimTasks args scans := hop
      cases hext
  | start v config =>
    dsimp only at h
    split at h
    · cases h
    rename_i hnone
    split at h
    swap
    · cases h
    rename_i db r hok
    cases h
    obtain rfl := commit_of_ok (c := ⟨s.clock, _⟩) hok
    have hheld : ∀ i n, Holds i n w (commit s.db ⟨s.clock, .registerWorker v config.capacity
        (normalised config.capabilities)⟩) → Holds i n w s.db := by
      intro i n hi
      rcases commit_held hi with hold | ⟨args, scans, t, hop, -⟩
      · exact hold
      · cases hop
    by_cases hv : w = v
    · -- before it starts it holds nothing
      subst hv
      have hfree := hs.unstarted (Option.not_isSome_iff_eq_none.mp hnone)
      refine ⟨fun _ i n hi => hfree i n (hheld i n hi), fun p hp => ?_⟩
      dsimp only at hp
      rw [Function.update_self] at hp
      cases hp
      exact ⟨fun i n hi => absurd (hheld i n hi) (hfree i n), fun x hx => by cases hx⟩
    · exact hs.others (Function.update_of_ne hv ..) hheld fun x hx => hx.commit _
  | worker v b =>
    dsimp only at h
    obtain ⟨p, hp, h⟩ := Option.bind_eq_some_iff.mp h
    obtain ⟨m, hm, rfl⟩ := Option.map_eq_some_iff.mp h
    by_cases hv : w = v
    · subst hv
      unfold System.slips at hslip
      simp only [decide_true, Bool.true_and, hp, Option.any_some, Bool.or_eq_false_iff] at hslip
      have hacc : (m.run s.db s.clock).2.Accounted w (m.run s.db s.clock).1 :=
        accounted_step hm (hs.started p hp) hslip.1 hslip.2
      refine ⟨fun hnone => ?_, fun q hq => ?_⟩
      · dsimp only at hnone
        rw [Function.update_self] at hnone
        cases hnone
      · dsimp only at hq
        rw [Function.update_self] at hq
        cases hq
        exact hacc
    · refine hs.others (Function.update_of_ne hv ..) (fun i n => Move.run_held ?_) fun x hx =>
        hx.run m s.clock
      -- the claims of another worker are its own
      intro args scans hop
      rw [((runForever_move hm).issues hop).claims.2]
      exact Ne.symm hv

/-- The drain returns with nothing left to hand back, so nothing is held. -/
theorem exit_holds_nothing {w : WorkerId} {s s' : System} (h : SystemStep s (.worker w .exit) s')
    (hs : s.Accounted w) : HoldsNothing w s'.db := by
  unfold SystemStep step at h
  dsimp only at h
  obtain ⟨p, hp, h⟩ := Option.bind_eq_some_iff.mp h
  obtain ⟨m, hm, rfl⟩ := Option.map_eq_some_iff.mp h
  have hstage : p.stage = .handingBack [] := by
    unfold runForever at hm
    split at hm <;> first | assumption | contradiction
  intro i t ht hrun hlease
  have hheld : Holds i t.attempt w s.db :=
    Move.run_held (runForever_not_claim hm (by simp) w) ⟨t, ht, hrun, rfl, hlease⟩
  have hacc := (hs.started p hp).leases i _ hheld
  unfold Worker.Accounts at hacc
  rw [hstage] at hacc
  cases hacc

/-- **A drain that loses track of nothing hands everything back.** In every run in
which no attempt of the worker is cut short while it holds the lease, before it has
started or inside `_finalize`, no attempt writes the entry of a later one of its
task, and no transaction of the drain fails, no RUNNING task is leased to the worker
when its drain returns. -/
theorem drain_hands_back {acts : List Action} {s : System} (w : WorkerId)
    (h : Run (fun s a s' => SystemStep s a s' ∧ s.slips w a = false) .initial acts s) :
    Run (fun s a s' => SystemStep s a s' ∧ (a = .worker w .exit → HoldsNothing w s'.db))
      .initial acts s := by
  have hwithin := h.within (I := System.Accounted w)
    (fun hs hst => step_accounted hst.1 hs hst.2) (initial_accounted w)
  refine hwithin.mono fun hst => ?_
  obtain ⟨hs, ⟨hstep, -⟩, -⟩ := hst
  exact ⟨hstep, fun ha => exit_holds_nothing (ha ▸ hstep) hs⟩

section
omit [PyText]

/-- A worker executes a task. -/
def executing : List Action :=
  [.external (.createTenant 1 "tenant" 10 1000),
   .start "w" { capacity := 5, capabilities := [] },
   .external (.submitTask 7 { tenantId := 1, taskType := "demo", payload := [] }),
   .worker "w" .poll,
   .worker "w" (.claim fun _ => {}),
   .worker "w" (.attempt 0 .begin)]

/-- The adapter of an attempt ends, and its renewal. -/
def adapterEnded (k : Nat) : List Action :=
  [.worker "w" (.attempt k (.adapterEnds (.succeeded (some [])))),
   .worker "w" (.attempt k (.renewal .stop)),
   .worker "w" (.attempt k (.join .lowest))]

def drained : List Action := [.worker "w" .stop, .worker "w" .drain, .worker "w" .announce]

/-- An attempt is cancelled while the adapter runs. -/
def cancelledExecuting (k : Nat) : List Action :=
  [.worker "w" (.attempt k .cancel),
   .worker "w" (.attempt k (.renewal .stop)),
   .worker "w" (.attempt k (.join .lowest)),
   .worker "w" .settle]

/-- The grace period ends while the adapter runs; the task is handed back. -/
def stoppedExecuting : List Action :=
  executing ++ drained ++ cancelledExecuting 0 ++ [.worker "w" .handBack, .worker "w" .exit]

/-- The guarded step of the drain theorem. -/
def trackedStep (s : System) (a : Action) : Option System :=
  if s.slips "w" a then none else @step PyText.plain s a

theorem drain_hands_back_stoppedExecuting : ∃ s,
    Run (fun s a s' => @SystemStep PyText.plain s a s' ∧
      (a = .worker "w" .exit → HoldsNothing "w" s'.db)) .initial stoppedExecuting s ∧
    (s.db.task? 7).map Task.state = some .queued := by
  have hend : (exec trackedStep .initial stoppedExecuting).map (fun s =>
      (s.db.task? 7).map Task.state) = some (some .queued) := by decide +kernel
  obtain ⟨s, hs, hstate⟩ := Option.map_eq_some_iff.mp hend
  exact ⟨s, @drain_hands_back PyText.plain _ _ "w" (Run.of_guarded hs), hstate⟩

/-- The grace period ends inside `_finalize`. -/
def stoppedFinalizing : List Action :=
  executing ++ adapterEnded 0 ++ drained ++
    [.worker "w" (.attempt 0 .cancel), .worker "w" .settle, .worker "w" .exit]

/-- The lease runs out, and the worker claims the task again while its first attempt
is still executing. That one ends, and the grace period before the second. -/
def stoppedClaimedAgain : List Action :=
  executing ++
  [.advance 60,
   .external (.reap .leaseExpired 100 {}),
   .worker "w" .poll,
   .worker "w" (.claim fun _ => {}),
   .worker "w" (.attempt 1 .begin)] ++
  adapterEnded 0 ++
  [.worker "w" (.attempt 0 .finalize), .worker "w" (.attempt 0 .recordStale)] ++
  drained ++ cancelledExecuting 1 ++ [.worker "w" .exit]

/-- A step in which no transaction of the drain fails. -/
def drainedStep (s : System) (a : Action) : Option System :=
  if s.drainFails "w" a then none else @step PyText.plain s a

/-- In both runs the drain returns, none of its transactions has failed, and the
worker still holds the task. -/
theorem drain_leaves_running :
    (exec drainedStep .initial stoppedFinalizing).map (fun s =>
      (s.db.task? 7).map fun t => (t.state, t.leaseWorkerId)) =
        some (some (.running, some "w")) ∧
    (exec drainedStep .initial stoppedClaimedAgain).map (fun s =>
      (s.db.task? 7).map fun t => (t.state, t.leaseWorkerId)) =
        some (some (.running, some "w")) := by
  constructor <;> decide +kernel

end

end ControlPlane
