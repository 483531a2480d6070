import ControlPlane.Lib.LockOrder
import ControlPlane.Server.TenantCap

/-! # Claims that wait for one another

A claim waits for the rows of the tenants that are new in its batch and keeps
every one it got until it ends, so two claims that meet the same two tenants in
opposite rounds wait for each other. Where all claims take their tenants in one
order, in a statement and from round to round, they never do. -/

namespace ControlPlane
open Runs LockOrder Relation

namespace Contention

/-- The claim holds the tenant's row. -/
def Holds (s : Contention) (k : Nat) (t : TenantId) : Prop := s.tenantLock t = some k

/-- The claim's slack statement still has to lock the tenant's row. -/
def Wants (s : Contention) (k : Nat) (t : TenantId) : Prop :=
  ∃ x batch new rows rest, s.txs[k]? = some x ∧ x.stmt = .waiting batch new rows rest ∧ t ∈ rest

/-- Some claims wait for one another in a circle. -/
def Deadlocked (s : Contention) : Prop := ∃ k, TransGen (WaitsFor s.Holds s.Wants) k k

/-- The step takes tenants upwards: a slack statement begins for tenants above
all whose slack the claim has read, and gets the least of its locks first. -/
def ascends (rank : TenantId → Nat) (s : Contention) : ContentionAction → Bool
  | .tx k .count =>
    (s.txs[k]?).all fun x =>
      match x.stmt with
      | .counting batch => (newTenantIds x.loop batch).all fun t =>
        x.loop.slackKnown.all fun l => decide (rank l < rank t)
      | _ => true
  | .tx k (.lock t) =>
    (s.txs[k]?).all fun x =>
      match x.stmt with
      | .waiting _ _ _ rest => (rest.erase t).all fun u => decide (rank t < rank u)
      | _ => true
  | _ => true

/-! ## The locks of one claim -/

/-- The claim has locked tenants whose slack it has read, or is reading, and
waits only for tenants above them. -/
structure TxOrdered (rank : TenantId → Nat) (locks : TenantId → Prop) (x : ClaimTx) : Prop where
  known : ∀ l, locks l → l ∈ x.loop.slackKnown ∨
    ∃ batch new rows rest, x.stmt = .waiting batch new rows rest ∧ l ∈ new
  above : ∀ batch new rows rest, x.stmt = .waiting batch new rows rest → ∀ t ∈ rest, t ∈ new ∧
    ∀ l, locks l → rank l < rank t

theorem TxOrdered.fewer {rank : TenantId → Nat} {locks locks' : TenantId → Prop} {x : ClaimTx}
    (h : TxOrdered rank locks x) (hsub : ∀ l, locks' l → locks l) : TxOrdered rank locks' x where
  known l hl := h.known l (hsub l hl)
  above batch new rows rest hst t ht := by
    obtain ⟨hnew, habove⟩ := h.above batch new rows rest hst t ht
    exact ⟨hnew, fun l hl => habove l (hsub l hl)⟩

/-- A claim that waits for nothing, and knows the tenants it has locked. -/
theorem TxOrdered.idle {rank : TenantId → Nat} {locks : TenantId → Prop} {x : ClaimTx}
    (hknown : ∀ l, locks l → l ∈ x.loop.slackKnown)
    (hidle : ∀ batch new rows rest, x.stmt ≠ .waiting batch new rows rest) :
    TxOrdered rank locks x where
  known l hl := Or.inl (hknown l hl)
  above batch new rows rest hst := absurd hst (hidle batch new rows rest)

/-- All claims take their tenants upwards. -/
structure Ordered (rank : TenantId → Nat) (s : Contention) : Prop where
  owned : ∀ l k, s.tenantLock l = some k → k < s.txs.length
  txs : ∀ k x, s.txs[k]? = some x → TxOrdered rank (s.Holds k) x

theorem Ordered.start (rank : TenantId → Nat) (db : Database) : Ordered rank { db } where
  owned l k hl := by cases hl
  txs k x hx := by simp at hx

theorem Ordered.ascending {rank : TenantId → Nat} {s : Contention} (h : Ordered rank s) :
    Ascending rank s.Holds s.Wants := by
  rintro k l t hholds ⟨x, batch, new, rows, rest, hx, hst, ht⟩
  exact ((h.txs k x hx).above batch new rows rest hst t ht).2 l hholds

/-- One claim moves on, and the others keep their locks. -/
theorem Ordered.move {rank : TenantId → Nat} {s s' : Contention} {k : Nat} {x y : ClaimTx}
    (h : Ordered rank s) (hx : s.txs[k]? = some x) (htxs : s'.txs = s.txs.set k y)
    (hothers : ∀ j, j ≠ k → ∀ l, s'.tenantLock l = some j → s.tenantLock l = some j)
    (hy : TxOrdered rank (s'.Holds k) y) : Ordered rank s' where
  owned l j hl := by
    rw [htxs, List.length_set]
    by_cases hj : j = k
    · rw [hj]
      exact (List.getElem?_eq_some_iff.mp hx).1
    · exact h.owned l j (hothers j hj l hl)
  txs j z hz := by
    rw [htxs, List.getElem?_set] at hz
    split at hz
    · rename_i hkj
      split at hz
      · cases hz
        exact hkj ▸ hy
      · cases hz
    · rename_i hkj
      exact (h.txs j z hz).fewer (hothers j (Ne.symm hkj))

end Contention

open Contention

variable [PyText]

/-! ## Steps -/

omit [PyText] in
theorem spendBatch_known (limit : Int) (batch : List Candidate) (s : LoopState) :
    (batch.foldl (spend limit) s).slackKnown = s.slackKnown := by
  obtain ⟨-, -, -, -, hknown, -⟩ := spendBatch_claimed limit batch s
  exact hknown

/-- One statement of a claim that takes tenants upwards. -/
theorem ClaimMove.ordered {rank : TenantId → Nat} {s s' : Contention} {k : Nat} {x y : ClaimTx}
    {a : ClaimAction} (hmove : ClaimMove s k x a y s') (h : Ordered rank s)
    (hx : s.txs[k]? = some x) (htxs : s'.txs = s.txs.set k y)
    (hup : s.ascends rank (.tx k a) = true) : Ordered rank s' := by
  have htx := h.txs k x hx
  have hkeep : ∀ j, j ≠ k → ∀ l, s.tenantLock l = some j → s.tenantLock l = some j :=
    fun _ _ _ hl => hl
  have hreleased : ∀ j, j ≠ k → ∀ l, ((s.tenantLock l).filter fun i => i != k) = some j →
      s.tenantLock l = some j := fun j _ l hl => (Option.filter_eq_some_iff.mp hl).1
  have hgone : ∀ l, ¬ ((s.tenantLock l).filter fun i => i != k) = some k := fun l hl => by
    simpa using (Option.filter_eq_some_iff.mp hl).2
  -- nothing is waited for between two slack statements
  have hknown : (∀ batch new rows rest, x.stmt ≠ .waiting batch new rows rest) →
      ∀ l, s.Holds k l → l ∈ x.loop.slackKnown := by
    intro hidle l hl
    rcases htx.known l hl with hl | ⟨batch, new, rows, rest, hwait, -⟩
    · exact hl
    · exact absurd hwait (hidle batch new rows rest)
  cases hmove with
  | leave hst _ hy =>
    subst hy
    exact h.move hx htxs hkeep (.idle (hknown (by simp [hst])) (by simp))
  | fetch hfetch hy =>
    subst hy
    exact h.move hx htxs hkeep (.idle (hknown (by simp [hfetch.1])) (by simp))
  | @count batch _ _ hst hnew hy =>
    subst hnew hy
    refine h.move hx htxs hkeep ⟨fun l hl => Or.inl (hknown (by simp [hst]) l hl),
      fun b n r rest hwait t ht => ?_⟩
    obtain ⟨rfl, rfl, rfl, rfl⟩ := Stmt.waiting.inj hwait
    have hnew : t ∈ newTenantIds x.loop batch := by
      obtain ⟨r, hr, rfl⟩ := List.mem_map.mp ht
      obtain ⟨n, hn, rfl⟩ := List.mem_map.mp hr
      simpa using (List.mem_filter.mp hn).2
    refine ⟨hnew, fun l hl => ?_⟩
    simp only [ascends, hx, hst, Option.all_some, List.all_eq_true, decide_eq_true_eq] at hup
    exact hup t hnew l (hknown (by simp [hst]) l hl)
  | @lock batch new rows rest t _ hst ht hfree hy =>
    subst hy
    have hnew : ∀ l, Function.update s.tenantLock t (some k) l = some k → l = t ∨ s.Holds k l := by
      intro l hl
      by_cases hlt : l = t
      · exact Or.inl hlt
      · rw [Function.update_of_ne hlt] at hl
        exact Or.inr hl
    have habove := htx.above batch new rows rest hst
    refine h.move hx htxs (fun j hj l hl => ?_) ⟨fun l hl => ?_,
      fun b n r rest' hwait u hu => ?_⟩
    · by_cases hlt : l = t
      · subst hlt
        dsimp only at hl
        rw [Function.update_self] at hl
        exact absurd (Option.some.inj hl).symm hj
      · dsimp only at hl
        rwa [Function.update_of_ne hlt] at hl
    · rcases hnew l hl with rfl | hl
      · exact Or.inr ⟨_, _, _, _, rfl, (habove l ht).1⟩
      · rcases htx.known l hl with hl | ⟨b, n, r, rest', hwait, hl⟩
        · exact Or.inl hl
        · rw [hst] at hwait
          cases hwait
          exact Or.inr ⟨_, _, _, _, rfl, hl⟩
    · obtain ⟨rfl, rfl, rfl, rfl⟩ := Stmt.waiting.inj hwait
      obtain ⟨hun, hlow⟩ := habove u (List.mem_of_mem_erase hu)
      refine ⟨hun, fun l hl => ?_⟩
      rcases hnew l hl with rfl | hl
      · simp only [ascends, hx, hst, Option.all_some, List.all_eq_true, decide_eq_true_eq] at hup
        exact hup u hu
      · exact hlow l hl
  | @spend batch new rows _ hst hy =>
    subst hy
    refine h.move hx htxs hkeep (.idle (fun l hl => ?_) (by simp))
    dsimp only
    rw [spendBatch_known]
    rcases htx.known l hl with hl | ⟨b, n, r, rest, hwait, hl⟩
    · exact List.mem_append_left _ hl
    · rw [hst] at hwait
      cases hwait
      exact List.mem_append_right _ hl
  | grant _ => exact h.move hx htxs hreleased (.idle (fun l hl => absurd hl (hgone l)) (by simp))
  | abort _ => exact h.move hx htxs hreleased (.idle (fun l hl => absurd hl (hgone l)) (by simp))

/-- **One step** that takes tenants upwards. -/
theorem contend_ordered {rank : TenantId → Nat} {s s' : Contention} {a : ContentionAction}
    (h : Ordered rank s) (hs : contend s a = some s') (hup : s.ascends rank a = true) :
    Ordered rank s' := by
  cases contend_move hs with
  | begin =>
    refine ⟨fun l k hl => ?_, fun k x hx => ?_⟩
    · rw [List.length_append]
      exact Nat.lt_add_right _ (h.owned l k hl)
    · rcases begun hx with hx | ⟨hk, rfl⟩
      · exact h.txs k x hx
      · exact .idle (fun l hl => absurd (h.owned l k hl) (Nat.not_lt.mpr hk)) (by simp)
  | tx hx htxs hmove => exact hmove.ordered h hx htxs hup
  | other _ => exact ⟨h.owned, h.txs⟩

/-! ## Runs -/

/-- **Claims that take the tenants in one order never deadlock.** From any
database with no claim open, in every interleaving of any number of claims with
the other transactions in which every slack statement is for tenants above those
its claim has met and locks them upwards, no claims wait in a circle. -/
theorem claims_never_deadlock (rank : TenantId → Nat) (db : Database) (acts : List ContentionAction)
    (s : Contention)
    (h : Run (fun s a s' => contend s a = some s' ∧ s.ascends rank a = true) { db } acts s) :
    ¬ s.Deadlocked := by
  have hordered : Ordered rank s :=
    h.invariant (fun hs hst => contend_ordered hs hst.1 hst.2) (.start rank db)
  rintro ⟨k, hcycle⟩
  exact hordered.ascending.no_cycle k hcycle

section
omit [PyText]

/-- Two tenants that may run one task each; tasks 1, 2 and 6 are the first's,
3, 4 and 5 the second's. -/
def sixQueued : Database :=
  @history PyText.plain .empty
    ([⟨0, .createTenant 1 "acme" 1 1000⟩, ⟨0, .createTenant 2 "globex" 1 1000⟩,
      ⟨0, .registerWorker "first" 5 []⟩, ⟨0, .registerWorker "second" 5 []⟩] ++
     [(1, 1), (2, 1), (3, 2), (4, 2), (5, 2), (6, 1)].map fun (i, tenantId) =>
      ⟨0, .submitTask i { tenantId, taskType := "demo", payload := [] }⟩)

/-- Each of two claims spends a first batch, of one tenant, and counts for its second. -/
def firstRounds (secondLimit : Int) : List ContentionAction :=
  [.begin 1 { workerId := "first", limit := 2, leaseTtlS := 30 },
   .begin 1 { workerId := "second", limit := secondLimit, leaseTtlS := 30 },
   .tx 0 (.fetch {}), .tx 0 .count, .tx 0 (.lock 1), .tx 0 .spend,
   .tx 1 (.fetch {}), .tx 1 .count, .tx 1 (.lock 2), .tx 1 .spend,
   .tx 0 (.fetch {}), .tx 0 .count]

/-- The second claim has enough, and commits under the first. -/
def secondCommits : List ContentionAction :=
  firstRounds 1 ++ [.tx 1 (.fetch {}), .tx 1 .grant, .tx 0 (.lock 2), .tx 0 .spend]

/-- The guarded step of the theorem, with the tenants ranked by their ids. -/
def ascendingContend (s : Contention) (a : ContentionAction) : Option Contention :=
  if !s.ascends id a then none else @contend PyText.plain s a

def metUpwards : Contention :=
  (exec ascendingContend { db := sixQueued } secondCommits).get (by decide +kernel)

theorem claims_never_deadlock_metUpwards : ¬ metUpwards.Deadlocked :=
  @claims_never_deadlock PyText.plain id sixQueued secondCommits metUpwards
    ((Run.of_guarded (Option.some_get _).symm).mono fun hst => ⟨hst.1, by simpa using hst.2⟩)

/-- The second claim needs a second batch as well, and meets the first's tenant. -/
def metCrosswise : Contention :=
  (exec (@contend PyText.plain) { db := sixQueued }
    (firstRounds 2 ++ [.tx 1 (.fetch {}), .tx 1 .count])).get (by decide +kernel)

/-- The statement of a claim waits for this lock alone. -/
def Contention.next (s : Contention) (k : Nat) : Option TenantId :=
  (s.txs[k]?).bind fun x =>
    match x.stmt with
    | .waiting _ _ _ [t] => some t
    | _ => none

theorem Contention.wants_next {s : Contention} {k : Nat} {t : TenantId} (h : s.next k = some t) :
    s.Wants k t := by
  obtain ⟨x, hx, hstmt⟩ := Option.bind_eq_some_iff.mp h
  split at hstmt
  · rename_i batch new rows u hst
    obtain rfl := Option.some.inj hstmt
    exact ⟨x, batch, new, rows, [_], hx, hst, List.mem_singleton_self _⟩
  · cases hstmt

/-- The first claim holds the first tenant and waits for the second, the second
claim the other way round. -/
theorem claims_deadlock_crosswise :
    Run (fun s a s' => @contend PyText.plain s a = some s') { db := sixQueued }
      (firstRounds 2 ++ [.tx 1 (.fetch {}), .tx 1 .count]) metCrosswise ∧
    metCrosswise.Deadlocked := by
  have hheld : metCrosswise.tenantLock 1 = some 0 ∧ metCrosswise.tenantLock 2 = some 1 := by
    decide +kernel
  have hnext : metCrosswise.next 0 = some 2 ∧ metCrosswise.next 1 = some 1 := by decide +kernel
  refine ⟨Run.of_exec (Option.some_get _).symm, 0, ?_⟩
  refine .tail (.single (b := 1) ⟨by decide, 2, wants_next hnext.1, hheld.2⟩) ?_
  exact ⟨by decide, 1, wants_next hnext.2, hheld.1⟩

end

end ControlPlane
