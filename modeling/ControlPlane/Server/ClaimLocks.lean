import ControlPlane.Server.Slack

/-! # What a claim leaves locked

Every branch of the keyed query locks what it scans, and only then is the merge
of the branches cut to what the round needs. A row that is cut off was not
returned to the round loop, so it is neither chosen nor dropped, and stays locked
until the commit all the same. Claims keep to what they examine as long as each
of their queries finds no more to lock than it needs, or all of it under one key. -/

namespace ControlPlane
open Keyed Runs

/-! ## What becomes of a row the loop was returned -/

/-- The slack of the row's tenant was read and is used up. -/
def LoopState.NoSlack (s : LoopState) (db : Database) (i : TaskId) : Prop :=
  ∃ t, db.task? i = some t ∧ t.tenantId ∈ s.slackKnown ∧ (s.slack t.tenantId).getD 0 ≤ 0

/-- A loop has considered the rows it was returned, all but this batch of them. -/
structure LoopState.Considered (db : Database) (limit : Int) (s : LoopState)
    (batch : List Candidate) : Prop where
  outcome : ∀ i ∈ s.seenIds,
    i ∈ s.claimedIds ∨ i ∈ batch.map Candidate.id ∨ s.NoSlack db i
  rows : BatchKnown db batch
  fits : batch ≠ [] → (batch.length : Int) + s.claimedIds.length ≤ limit

theorem LoopState.NoSlack.evolve {s : LoopState} {db db' : Database} {i : TaskId}
    (h : s.NoSlack db i) (he : Evolves db db') : s.NoSlack db' i := by
  obtain ⟨t, ht, hknown, hle⟩ := h
  obtain ⟨t', ht', ho⟩ := he.kept i t ht
  exact ⟨t', ht', ho ▸ hknown, ho ▸ hle⟩

namespace LoopState.Considered

variable {db db' : Database} {limit : Int} {s : LoopState} {batch : List Candidate}

theorem start (db : Database) (limit : Int) : LoopState.Considered db limit {} [] where
  outcome i hi := by cases hi
  rows c hc := by cases hc
  fits hne := absurd rfl hne

theorem evolve (h : s.Considered db limit batch) (he : Evolves db db') :
    s.Considered db' limit batch where
  outcome i hi := (h.outcome i hi).imp_right (Or.imp_right fun hn => hn.evolve he)
  rows := h.rows.evolve he
  fits := h.fits

/-- Slack that is read is slack of tenants the loop knew nothing of. -/
theorem recordSlack (h : s.Considered db limit batch) (new : List TenantId)
    {rows : List (TenantId × Int)} (hrows : ∀ o r, (o, r) ∈ rows → o ∉ s.slackKnown) :
    (recordSlack s new rows).Considered db limit batch where
  outcome i hi := by
    refine (h.outcome i hi).imp_right (Or.imp_right ?_)
    rintro ⟨t, ht, hknown, hle⟩
    refine ⟨t, ht, List.mem_append_left _ hknown, ?_⟩
    have hnone : rows.lookup t.tenantId = none := by
      cases hl : rows.lookup t.tenantId with
      | none => rfl
      | some r =>
        obtain ⟨before, after, rfl, -⟩ := List.lookup_eq_some_iff.mp hl
        exact absurd hknown (hrows t.tenantId r (by simp))
    show ((rows.lookup t.tenantId).or (s.slack t.tenantId)).getD 0 ≤ 0
    rwa [hnone, Option.none_or]
  rows := h.rows
  fits := h.fits

/-- A batch is no longer than what is needed, so the limit is not reached before
all of it has been considered: a row is chosen or its tenant has no slack. -/
theorem spend {c : Candidate} (h : s.Considered db limit (c :: batch))
    (hknown : c.tenantId ∈ s.slackKnown) : (spend limit s c).Considered db limit batch := by
  obtain ⟨t, ht, ho⟩ := h.rows c (by simp)
  have hrows : BatchKnown db batch := fun c' hc' => h.rows c' (List.mem_cons_of_mem _ hc')
  have hfits := h.fits (by simp)
  rw [List.length_cons] at hfits
  unfold ControlPlane.spend
  dsimp only
  rw [if_neg (by omega)]
  split
  · rename_i hrem
    refine ⟨fun i hi => ?_, hrows, fun _ => by omega⟩
    rcases h.outcome i hi with hi | hi | hi
    · exact Or.inl hi
    · rcases List.mem_cons.mp hi with rfl | hi
      · exact Or.inr (Or.inr ⟨t, ht, ho ▸ hknown, ho ▸ hrem⟩)
      · exact Or.inr (Or.inl hi)
    · exact Or.inr (Or.inr hi)
  · rename_i hrem
    refine ⟨fun i hi => ?_, hrows, fun _ => ?_⟩
    · rcases h.outcome i hi with hi | hi | ⟨u, hu, huk, hle⟩
      · exact Or.inl (List.mem_append_left _ hi)
      · rcases List.mem_cons.mp hi with rfl | hi
        · exact Or.inl (by simp)
        · exact Or.inr (Or.inl hi)
      · refine Or.inr (Or.inr ⟨u, hu, huk, ?_⟩)
        have hne : u.tenantId ≠ c.tenantId := fun he => hrem (he ▸ hle)
        dsimp only
        rwa [Function.update_of_ne hne]
    · dsimp only
      rw [List.length_append, List.length_singleton]
      omega

theorem spendBatch (h : s.Considered db limit batch)
    (hknown : ∀ c ∈ batch, c.tenantId ∈ s.slackKnown) :
    (batch.foldl (ControlPlane.spend limit) s).Considered db limit [] := by
  induction batch generalizing s with
  | nil => exact h
  | cons c batch ih =>
    obtain ⟨-, -, -, -, hkept, -⟩ := spendBatch_claimed limit [c] s
    rw [List.foldl_cons]
    refine ih (h.spend (hknown c (by simp))) fun c' hc' => ?_
    rw [show (ControlPlane.spend limit s c).slackKnown = s.slackKnown from hkept]
    exact hknown c' (List.mem_cons_of_mem _ hc')

end LoopState.Considered

/-! ## What a claim has examined -/

namespace ClaimTx

/-- The rows a claim was returned and has yet to consider. -/
def batch (x : ClaimTx) : List Candidate :=
  match x.stmt with
  | .counting batch => batch
  | .waiting batch _ _ _ => batch
  | _ => []

/-- The row was returned to the round loop, which chose it, has yet to consider
it, or dropped it because its tenant had no slack. -/
structure Examined (db : Database) (x : ClaimTx) (i : TaskId) : Prop where
  returned : i ∈ x.loop.seenIds
  outcome : i ∈ x.loop.claimedIds ∨ i ∈ x.batch.map Candidate.id ∨ x.loop.NoSlack db i

/-- A claim accounts for every row it was returned. -/
structure Accounted (db : Database) (x : ClaimTx) : Prop where
  loop : x.loop.Considered db x.args.limit x.batch
  output : ∀ batch new rows rest, x.stmt = .waiting batch new rows rest →
    new = newTenantIds x.loop batch ∧ ∀ o r, (o, r) ∈ rows → o ∈ new

theorem Accounted.evolve {db db' : Database} {x : ClaimTx} (h : x.Accounted db)
    (he : Evolves db db') : x.Accounted db' := ⟨h.loop.evolve he, h.output⟩

/-- A claim that waits for no slack. -/
theorem Accounted.idle {db : Database} {x : ClaimTx}
    (hloop : x.loop.Considered db x.args.limit x.batch)
    (hidle : ∀ batch new rows rest, x.stmt ≠ .waiting batch new rows rest) : x.Accounted db where
  loop := hloop
  output batch new rows rest hst := absurd hst (hidle batch new rows rest)

end ClaimTx

variable [PyText]

namespace Contention

theorem fetchLocked_fresh (s : Contention) (k : Nat) (x : ClaimTx) (scan : Scan) :
    (s.fetchLocked k x scan).Nodup ∧ ∀ i ∈ s.fetchLocked k x scan, i ∉ x.loop.seenIds ∧
      ∃ t, s.db.task? i = some t := by
  obtain ⟨hnd, hfresh⟩ := fetchLocks_fresh s.db x.now x.args.workerCapabilities x.args.policy
    x.need x.loop.seenIds (s.scanFor k scan)
  refine ⟨hnd, fun i hi => ?_⟩
  obtain ⟨hunseen, -, t, ht, -⟩ := hfresh i hi
  exact ⟨hunseen, t, ht⟩

end Contention

/-- A statement of a claim keeps its accounts. -/
theorem ClaimMove.accounted {s s' : Contention} {k : Nat} {x y : ClaimTx} {a : ClaimAction}
    (h : ClaimMove s k x a y s') (hx : x.Accounted s.db) :
    Evolves s.db s'.db ∧ y.Accounted s'.db := by
  have hloop := hx.loop
  unfold ClaimTx.batch at hloop
  cases h with
  | leave hst _ hy =>
    subst hy
    rw [hst] at hloop
    exact ⟨.refl _, .idle hloop (by simp)⟩
  | @fetch scan _ hfetch hy =>
    subst hy
    rw [hfetch.1] at hloop
    refine ⟨.refl _, .idle ⟨fun i hi => ?_, ?_, fun _ => ?_⟩ (by simp)⟩
    · rcases List.mem_append.mp hi with hi | hi
      · rcases hloop.outcome i hi with hi | hi | hi
        · exact Or.inl hi
        · cases hi
        · exact Or.inr (Or.inr hi)
      · exact Or.inr (Or.inl hi)
    · exact fetchCandidates_known _ _ _ _ _ _ _
    · have hlen : (s.fetched k x scan).length ≤ x.need := fetchCandidates_length_le ..
      have hneed := hfetch.2.1
      show ((s.fetched k x scan).length : Int) + x.loop.claimedIds.length ≤ x.args.limit
      unfold ClaimTx.need at hlen hneed
      omega
  | @count batch _ _ hst hnew hy =>
    subst hnew hy
    rw [hst] at hloop
    refine ⟨.refl _, hloop, fun b n r rest hwait => ?_⟩
    obtain ⟨rfl, rfl, rfl, rfl⟩ := Stmt.waiting.inj hwait
    refine ⟨rfl, fun o r hr => ?_⟩
    obtain ⟨n, hn, he⟩ := List.mem_map.mp hr
    obtain ⟨rfl, -⟩ := Prod.mk.inj he
    simpa using (List.mem_filter.mp hn).2
  | lock hst _ _ hy =>
    subst hy
    rw [hst] at hloop
    refine ⟨.refl _, hloop, fun b n r rest' hwait => ?_⟩
    obtain ⟨rfl, rfl, rfl, rfl⟩ := Stmt.waiting.inj hwait
    exact hx.output _ _ _ _ hst
  | @spend batch _ rows _ hst hy =>
    subst hy
    rw [hst] at hloop
    obtain ⟨rfl, hrows⟩ := hx.output _ _ _ _ hst
    have hread : (recordSlack x.loop (newTenantIds x.loop batch) rows).Considered s.db
        x.args.limit batch := hloop.recordSlack _ fun o r hr hknown => by
      simpa [newTenantIds, hknown] using hrows o r hr
    refine ⟨.refl _, .idle (hread.spendBatch fun c hc => ?_) (by simp)⟩
    by_cases hknown : c.tenantId ∈ x.loop.slackKnown
    · exact List.mem_append_left _ hknown
    · refine List.mem_append_right _ (List.mem_filter.mpr ⟨?_, by simpa using hknown⟩)
      exact List.mem_dedup.mpr (List.mem_map_of_mem hc)
  | grant _ => exact ⟨grantChosen_evolves s.db x, .idle (.start _ x.args.limit) (by simp)⟩
  | abort _ => exact ⟨.refl _, .idle (.start _ x.args.limit) (by simp)⟩

/-- The other claims keep their locks, and get none. -/
theorem ClaimMove.others {s s' : Contention} {k : Nat} {x y : ClaimTx} {a : ClaimAction}
    (h : ClaimMove s k x a y s') {i : TaskId} {j : Nat} (hj : j ≠ k)
    (hl : s'.taskLock i = some j) : s.taskLock i = some j := by
  cases h with
  | fetch _ _ =>
    dsimp only at hl
    split at hl
    · exact absurd (Option.some.inj hl).symm hj
    · exact hl
  | grant _ => exact (Option.filter_eq_some_iff.mp hl).1
  | abort _ => exact (Option.filter_eq_some_iff.mp hl).1
  | _ => exact hl

/-- Only its queries give a claim new locks, or rows it has not seen. -/
theorem ClaimMove.own {s s' : Contention} {k : Nat} {x y : ClaimTx} {a : ClaimAction}
    (h : ClaimMove s k x a y s') (ha : ∀ scan, a ≠ .fetch scan) {i : TaskId}
    (hl : s'.taskLock i = some k) :
    s.taskLock i = some k ∧ y.loop.seenIds = x.loop.seenIds := by
  have hreleased : ¬ ((s.taskLock i).filter fun j => j != k) = some k := fun hl => by
    simpa using (Option.filter_eq_some_iff.mp hl).2
  cases h with
  | @leave scan _ _ _ _ => exact absurd rfl (ha scan)
  | @fetch scan _ _ _ => exact absurd rfl (ha scan)
  | count _ _ hy =>
    subst hy
    exact ⟨hl, rfl⟩
  | lock _ _ _ hy =>
    subst hy
    exact ⟨hl, rfl⟩
  | @spend batch new rows _ _ hy =>
    subst hy
    obtain ⟨-, -, -, hseen, -⟩ := spendBatch_claimed x.args.limit batch
      (recordSlack x.loop new rows)
    exact ⟨hl, hseen⟩
  | grant _ => exact absurd hl hreleased
  | abort _ => exact absurd hl hreleased

namespace Contention

/-! ## Every claim -/

omit [PyText] in
/-- Every lock is a claim's, and every claim accounts for what it was returned. -/
structure Accounted (s : Contention) : Prop where
  owned : ∀ i k, s.taskLock i = some k → k < s.txs.length
  txs : ∀ (k : Nat) (x : ClaimTx), s.txs[k]? = some x → x.Accounted s.db

omit [PyText] in
/-- What a claim has locked, its round loop was returned. -/
def LocksSeen (s : Contention) : Prop :=
  ∀ (k : Nat) (x : ClaimTx) i, s.txs[k]? = some x → s.taskLock i = some k → i ∈ x.loop.seenIds

omit [PyText] in
/-- What a claim has locked it has examined. -/
def LocksExamined (s : Contention) : Prop :=
  ∀ (k : Nat) (x : ClaimTx) i, s.txs[k]? = some x → s.taskLock i = some k → x.Examined s.db i

omit [PyText] in
theorem Accounted.examined_iff {s : Contention} (h : s.Accounted) :
    s.LocksExamined ↔ s.LocksSeen := by
  constructor
  · exact fun hex k x i hx hl => (hex k x i hx hl).returned
  · intro hseen k x i hx hl
    have hi := hseen k x i hx hl
    exact ⟨hi, (h.txs k x hx).loop.outcome i hi⟩

omit [PyText] in
/-- How many rows a claim has newly locked. -/
def newlyLocked (s s' : Contention) (k : Nat) : Nat :=
  s.db.tasks.rows.countP fun t => s'.taskLock t.id == some k && s.taskLock t.id != some k

omit [PyText] in
/-- A query locks no more new rows than its round needs. -/
def WithinNeed (s : Contention) (a : ContentionAction) (s' : Contention) : Prop :=
  ∀ k scan x, a = .tx k (.fetch scan) → s.txs[k]? = some x → s.newlyLocked s' k ≤ x.need

/-- A query of a worker that is served by keys finds no more to lock than its
round needs, or finds all of it under one key. -/
def Narrow (s : Contention) (a : ContentionAction) : Prop :=
  ∀ k scan x, a = .tx k (.fetch scan) → s.txs[k]? = some x → x.Fetches →
    maxKeyedClaimCapabilities < (normalised x.args.workerCapabilities).length ∨
    (lockable s.db x.now x.args.workerCapabilities x.loop.seenIds (s.scanFor k scan)).length ≤
      x.need ∨
    ∀ t ∈ lockable s.db x.now x.args.workerCapabilities x.loop.seenIds (s.scanFor k scan),
      ∀ u ∈ lockable s.db x.now x.args.workerCapabilities x.loop.seenIds (s.scanFor k scan),
        t.capabilityKey = u.capabilityKey

omit [PyText] in
theorem accounted_start (db : Database) : Accounted { db } where
  owned i k hl := by cases hl
  txs k x hx := by simp at hx

omit [PyText] in
theorem locksSeen_start (db : Database) : LocksSeen { db } := fun k x i hx => by simp at hx

theorem contend_accounted {s s' : Contention} {a : ContentionAction} (h : s.Accounted)
    (hs : contend s a = some s') : s'.Accounted := by
  cases contend_move hs with
  | begin =>
    refine ⟨fun i k hl => ?_, fun k x hx => ?_⟩
    · rw [List.length_append]
      exact Nat.lt_add_right _ (h.owned i k hl)
    · rcases begun hx with hx | ⟨-, rfl⟩
      · exact h.txs k x hx
      · exact .idle (.start s.db _) (by simp)
  | @tx _ k _ x _ hx htxs hmove =>
    obtain ⟨hev, hy⟩ := hmove.accounted (h.txs k x hx)
    refine ⟨fun i j hl => ?_, fun j z hz => ?_⟩
    · rw [htxs, List.length_set]
      by_cases hj : j = k
      · rw [hj]
        exact (List.getElem?_eq_some_iff.mp hx).1
      · exact h.owned i j (hmove.others hj hl)
    · rw [htxs, List.getElem?_set] at hz
      split at hz
      · split at hz
        · cases hz
          exact hy
        · cases hz
      · exact (h.txs j z hz).evolve hev
  | other hop => exact ⟨h.owned, fun k x hx => (h.txs k x hx).evolve (commit_evolves hop)⟩

/-- The rows a query locks are new to the claim, so all of them count. -/
theorem newlyLocked_fetch {s s' : Contention} {k : Nat} {x : ClaimTx} {scan : Scan}
    (hseen : s.LocksSeen) (hx : s.txs[k]? = some x)
    (hlocks : ∀ i, s'.taskLock i =
      if (s.fetchLocked k x scan).contains i then some k else s.taskLock i) :
    s.newlyLocked s' k = (s.fetchLocked k x scan).length := by
  obtain ⟨hnd, hfresh⟩ := s.fetchLocked_fresh k x scan
  have hrows : ∀ i ∈ s.fetchLocked k x scan, ∃ t ∈ s.db.tasks.rows, t.id = i := fun i hi => by
    obtain ⟨-, t, ht⟩ := hfresh i hi
    exact ⟨t, Table.mem_of_find? ht, Database.row_id ht⟩
  rw [← Table.countP_keys hnd hrows]
  refine List.countP_congr fun t _ => ?_
  rw [hlocks]
  by_cases ht : t.id ∈ s.fetchLocked k x scan
  · have hfree : s.taskLock t.id ≠ some k := fun hl => (hfresh _ ht).1 (hseen k x _ hx hl)
    simp [ht, hfree]
  · simp [ht]

omit [PyText] in
/-- One claim moves: the others keep what they have locked and seen. -/
theorem LocksSeen.move {s s' : Contention} {k : Nat} {x y : ClaimTx} (h : s.LocksSeen)
    (hx : s.txs[k]? = some x) (htxs : s'.txs = s.txs.set k y)
    (hothers : ∀ i j, j ≠ k → s'.taskLock i = some j → s.taskLock i = some j)
    (hown : ∀ i, s'.taskLock i = some k → i ∈ y.loop.seenIds) : s'.LocksSeen := by
  have hk : k < s.txs.length := (List.getElem?_eq_some_iff.mp hx).1
  intro j z i hz hl
  rw [htxs, List.getElem?_set] at hz
  split at hz
  · rename_i hkj
    subst hkj
    cases hz
    exact hown i hl
  · rename_i hkj
    exact h j z i hz (hothers i j (Ne.symm hkj) hl)

/-- Only a query for candidates can go wrong. -/
theorem narrow_of_not_fetch (s s' : Contention) {a : ContentionAction}
    (ha : ∀ k scan, a ≠ .tx k (.fetch scan)) : s.WithinNeed a s' ∧ s.Narrow a :=
  ⟨fun k scan _ he => absurd he (ha k scan), fun k scan _ he => absurd he (ha k scan)⟩

/-- A query is narrow when it locks no more than its round needs. -/
theorem narrow_fetch_iff {s : Contention} {k : Nat} {x : ClaimTx} {scan : Scan}
    (hx : s.txs[k]? = some x) (hfetch : x.Fetches) :
    s.Narrow (.tx k (.fetch scan)) ↔ (s.fetchLocked k x scan).length ≤ x.need := by
  have hiff := fetchLocks_length_le_iff s.db x.now x.args.workerCapabilities x.args.policy
    hfetch.2.1 x.loop.seenIds (s.scanFor k scan)
  refine Iff.trans ⟨fun h => h k scan x rfl hx hfetch, fun h j scan' z he hz _ => ?_⟩ hiff.symm
  cases he
  obtain rfl := Option.some.inj (hx.symm.trans hz)
  exact h

/-- All that it locks is new to the claim. -/
theorem withinNeed_fetch_iff {s s' : Contention} {k : Nat} {x : ClaimTx} {scan : Scan}
    (hseen : s.LocksSeen) (hx : s.txs[k]? = some x)
    (hlocks : ∀ i, s'.taskLock i =
      if (s.fetchLocked k x scan).contains i then some k else s.taskLock i) :
    s.WithinNeed (.tx k (.fetch scan)) s' ↔ (s.fetchLocked k x scan).length ≤ x.need := by
  rw [← newlyLocked_fetch hseen hx hlocks]
  constructor
  · intro h
    exact h k scan x rfl hx
  · intro h j scan' z he hz
    cases he
    obtain rfl := Option.some.inj (hx.symm.trans hz)
    exact h

/-- **One step** keeps to what the claims examine just when it is narrow. -/
theorem contend_narrow_iff {s s' : Contention} {a : ContentionAction} (h : s.Accounted)
    (hseen : s.LocksSeen) (hs : contend s a = some s') :
    s'.LocksSeen ∧ s.WithinNeed a s' ↔ s.Narrow a := by
  cases contend_move hs with
  | @begin now args =>
    obtain ⟨hwithin, hnarrow⟩ := s.narrow_of_not_fetch
      { s with txs := s.txs ++ [{ now, args }] } (a := .begin now args) (by simp)
    refine iff_of_true ⟨fun k x i hx hl => ?_, hwithin⟩ hnarrow
    rcases begun hx with hx | ⟨hk, -⟩
    · exact hseen k x i hx hl
    · exact absurd (h.owned i k hl) (Nat.not_lt.mpr hk)
  | @other c _ =>
    obtain ⟨hwithin, hnarrow⟩ := s.narrow_of_not_fetch
      { s with db := commit s.db c } (a := .other c) (by simp)
    exact iff_of_true ⟨hseen, hwithin⟩ hnarrow
  | @tx _ k a x y hx htxs hmove =>
    have hothers := fun i j hj => hmove.others (i := i) (j := j) hj
    by_cases ha : ∀ scan, a ≠ .fetch scan
    · obtain ⟨hwithin, hnarrow⟩ := s.narrow_of_not_fetch s' (a := .tx k a) fun j scan he => by
        cases he
        exact ha scan rfl
      refine iff_of_true ⟨hseen.move hx htxs hothers fun i hl => ?_, hwithin⟩ hnarrow
      obtain ⟨hl, hy⟩ := hmove.own ha hl
      exact hy ▸ hseen k x i hx hl
    obtain ⟨scan, ha⟩ := not_forall.mp ha
    obtain rfl := not_not.mp ha
    cases hmove with
    | leave hst hend hy =>
      -- a query that returns nothing has locked nothing
      subst hy
      have hcount : s.newlyLocked (s.setTx k { x with stmt := .granting }) k = 0 :=
        List.countP_eq_zero.mpr fun t _ => by simp [setTx]
      refine iff_of_true ⟨hseen.move hx htxs hothers fun i hl => hseen k x i hx hl,
        fun j scan' z he hz => ?_⟩ fun j scan' z he hz hfetch => ?_
      · cases he
        exact hcount.trans_le (Nat.zero_le _)
      · cases he
        obtain rfl := Option.some.inj (hx.symm.trans hz)
        have hnil : (s.fetchLocked k x scan).length = 0 :=
          congrArg List.length (fetchLocks_nil hfetch.2.1 (hend hfetch))
        exact (narrow_fetch_iff hx hfetch).mpr (hnil.trans_le (Nat.zero_le _)) k scan x rfl hx hfetch
    | fetch hfetch hy =>
      subst hy
      rw [narrow_fetch_iff hx hfetch, withinNeed_fetch_iff hseen hx fun i => rfl]
      refine ⟨And.right, fun hfew => ⟨hseen.move hx htxs hothers fun i hl => ?_, hfew⟩⟩
      -- what was locked was returned
      dsimp only at hl
      split at hl
      · rename_i hi
        have hi : i ∈ s.fetchLocked k x scan := by simpa using hi
        exact List.mem_append_right _ (fetchLocks_returned hfew hi)
      · exact List.mem_append_left _ (hseen k x i hx hl)

end Contention

/-! ## Runs -/

/-- **When claims lock only what they examine.** From any database with no claim
open, in any interleaving of any number of claims with the other transactions:
in every state every row a claim has locked was returned to its round loop, and
was chosen, is yet to be considered, or was dropped because its tenant had no
slack, and every query locks at most as many new rows as its round needs, exactly
when each query of a worker that is served by keys finds no more to lock than its
round needs, or finds all of it under one key. -/
theorem claims_lock_examined_iff (db : Database) (acts : List ContentionAction) (s : Contention) :
    Run (fun s a s' => contend s a = some s' ∧ s'.LocksExamined ∧ s.WithinNeed a s') { db } acts s ↔
      Run (fun s a s' => contend s a = some s' ∧ s.Narrow a) { db } acts s := by
  have hstart : Contention.Accounted { db } ∧ Contention.LocksSeen { db } :=
    ⟨Contention.accounted_start db, Contention.locksSeen_start db⟩
  constructor
  · intro h
    refine (h.within (I := fun s => s.Accounted ∧ s.LocksSeen) ?_ hstart).mono ?_
    · rintro s a s' ⟨hacc, -⟩ ⟨hs, hex, -⟩
      have hacc' := Contention.contend_accounted hacc hs
      exact ⟨hacc', hacc'.examined_iff.mp hex⟩
    · rintro s a s' ⟨⟨hacc, hseen⟩, ⟨hs, -, hwithin⟩, -, hseen'⟩
      exact ⟨hs, (Contention.contend_narrow_iff hacc hseen hs).mp ⟨hseen', hwithin⟩⟩
  · intro h
    refine (h.within (I := fun s => s.Accounted ∧ s.LocksSeen) ?_ hstart).mono ?_
    · rintro s a s' ⟨hacc, hseen⟩ ⟨hs, hnarrow⟩
      exact ⟨Contention.contend_accounted hacc hs,
        ((Contention.contend_narrow_iff hacc hseen hs).mpr hnarrow).1⟩
    · rintro s a s' ⟨⟨hacc, hseen⟩, ⟨hs, hnarrow⟩, hacc', hseen'⟩
      exact ⟨hs, hacc'.examined_iff.mpr hseen',
        ((Contention.contend_narrow_iff hacc hseen hs).mpr hnarrow).2⟩

section
omit [PyText]

/-- One task anyone may claim and one that needs a GPU. -/
def oneOfEachKey : Database :=
  @history PyText.plain .empty
    [⟨0, .createTenant 1 "tenant" 10 1000⟩,
     ⟨0, .registerWorker "first" 5 ["gpu"]⟩, ⟨0, .registerWorker "second" 5 ["gpu"]⟩,
     ⟨0, .submitTask 1 { tenantId := 1, taskType := "demo", payload := [] }⟩,
     ⟨0, .submitTask 2
       { tenantId := 1, taskType := "demo", payload := [], requiredCapabilities := ["gpu"] }⟩]

/-- Two workers with a GPU ask for one task each, the second before the first commits. -/
def askForOneEach : List ContentionAction :=
  [.begin 1 { workerId := "first", limit := 1, leaseTtlS := 30, workerCapabilities := ["gpu"] },
   .begin 1 { workerId := "second", limit := 1, leaseTtlS := 30, workerCapabilities := ["gpu"] },
   .tx 0 (.fetch {}), .tx 0 .count, .tx 0 (.lock 1), .tx 0 .spend, .tx 0 (.fetch {}),
   .tx 1 (.fetch {})]

def beforeFirstCommit : Contention :=
  (exec (@contend PyText.plain) { db := oneOfEachKey } askForOneEach).get (by decide +kernel)

/-- The first claim has chosen task 1 and holds both tasks; task 2 it was never
returned. The second claim finds nothing and gives up, and after both have
committed task 2 is still queued. -/
theorem claim_locks_unexamined :
    Run (fun s a s' => @contend PyText.plain s a = some s') { db := oneOfEachKey } askForOneEach
      beforeFirstCommit ∧
    ¬ beforeFirstCommit.LocksExamined ∧
    beforeFirstCommit.txs.map (fun x => x.loop.claimedIds) = [[1], []] ∧
    (exec (@contend PyText.plain) beforeFirstCommit [.tx 0 .grant, .tx 1 .grant]).map
      (fun s => s.db.tasks.rows.map fun t => (t.id, t.state)) =
        some [(1, .running), (2, .queued)] := by
  have hheld : beforeFirstCommit.taskLock 2 = some 0 := by decide +kernel
  have hseen : (beforeFirstCommit.txs[0]?).map (fun x => x.loop.seenIds) = some [1] := by
    decide +kernel
  refine ⟨Run.of_exec (Option.some_get _).symm, fun h => ?_, by decide +kernel, by decide +kernel⟩
  obtain ⟨x, hx, he⟩ := Option.map_eq_some_iff.mp hseen
  have hmem := (h 0 x 2 hx hheld).returned
  rw [he] at hmem
  exact absurd hmem (by decide)

end

end ControlPlane
