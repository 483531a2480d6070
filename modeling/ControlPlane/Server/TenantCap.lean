import ControlPlane.Server.Slack

/-! # The tenants' concurrency limits

The lock on a tenant's row keeps what a claim has read of the tenant's slack
true from the moment it is granted, but the slack is as old as the statement
that waited for it. Between the two, a claim of the same tenant that commits is
not counted. -/

namespace ControlPlane
open Keyed Fallible Runs

/-- The step commits a claim of a tenant for whose lock another claim waits. -/
def Contention.grantsUnderWaiter (s : Contention) : ContentionAction → Bool
  | .tx k .grant => (s.txs[k]?).any fun x => x.loop.claimedIds.any fun i =>
      (s.db.task? i).any fun t => s.txs.any fun y => y.waitsFor t.tenantId
  | _ => false

variable [PyText]

/-! ## The steps -/

/-- No tenant runs more than it may, and the transactions know what they may choose. -/
structure Contention.Safe (s : Contention) : Prop where
  caps : CapsRespected s.db
  txs : ∀ k x, s.txs[k]? = some x → TxSafe s.db s.tenantLock k x

namespace Contention
omit [PyText]

/-- One transaction moves: the others keep their locks, and what it commits runs
no more tasks of the tenants they have locked or wait for. -/
theorem Safe.move {s s' : Contention} {k : Nat} {x y : ClaimTx} (h : s.Safe)
    (hx : s.txs[k]? = some x) (htxs : s'.txs = s.txs.set k y) (hcaps : CapsRespected s'.db)
    (hy : TxSafe s'.db s'.tenantLock k y) (he : Evolves s.db s'.db)
    (hlock : ∀ j, j ≠ k → ∀ o, s.tenantLock o = some j → s'.tenantLock o = some j)
    (hrun : ∀ j z, j ≠ k → s.txs[j]? = some z →
      ∀ o, s.tenantLock o = some j ∨ z.waitsFor o = true →
        runningCount s'.db o ≤ runningCount s.db o) : s'.Safe := by
  refine ⟨hcaps, fun j z hz => ?_⟩
  rw [htxs, List.getElem?_set] at hz
  split at hz
  · rename_i hkj
    subst hkj
    rw [if_pos (List.getElem?_eq_some_iff.mp hx).1] at hz
    obtain rfl := Option.some.inj hz
    exact hy
  · rename_i hkj
    exact (h.txs j z hz).evolve he (hlock j (Ne.symm hkj)) (hrun j z (Ne.symm hkj) hz)

/-- One transaction moves and commits nothing. -/
theorem Safe.moveAlone {s s' : Contention} {k : Nat} {x y : ClaimTx} (h : s.Safe)
    (hx : s.txs[k]? = some x) (htxs : s'.txs = s.txs.set k y) (hdb : s'.db = s.db)
    (hy : TxSafe s.db s'.tenantLock k y)
    (hlock : ∀ j, j ≠ k → ∀ o, s.tenantLock o = some j → s'.tenantLock o = some j) : s'.Safe :=
  h.move hx htxs (hdb ▸ h.caps) (hdb ▸ hy) (hdb ▸ .refl s.db) hlock fun _ _ _ _ o _ =>
    le_of_eq (congrArg (runningCount · o) hdb)

/-- A transaction that ended knows nothing. -/
theorem release_safe (s : Contention) (k : Nat) (db : Database) (x : ClaimTx) :
    TxSafe db (s.release k db x).tenantLock k { x with loop := {}, stmt := .ended } :=
  ⟨.start .., trivial⟩

theorem release_lock (s : Contention) (k : Nat) (db : Database) (x : ClaimTx) (j : Nat) (hj : j ≠ k)
    (o : TenantId) (ho : s.tenantLock o = some j) : (s.release k db x).tenantLock o = some j := by
  show (s.tenantLock o).filter _ = some j
  rw [ho]
  simp [Option.filter, hj]

/-- Nothing was chosen of a tenant for whose lock another transaction waits. -/
theorem chosenCount_waiter {s : Contention} {k : Nat} {x z : ClaimTx} {j : Nat} {o : TenantId}
    (hx : s.txs[k]? = some x) (hz : s.txs[j]? = some z) (ho : z.waitsFor o = true)
    (hw : s.grantsUnderWaiter (.tx k .grant) = false) :
    chosenCount s.db x.loop.claimedIds o = 0 := by
  refine List.countP_eq_zero.mpr fun t ht hsel => ?_
  simp only [Bool.and_eq_true, beq_iff_eq, List.contains_eq_mem, decide_eq_true_eq] at hsel
  have hrow : s.db.task? t.id = some t := Table.find?_key ht
  have hwaiter : s.txs.any (fun y => y.waitsFor t.tenantId) = true :=
    List.any_eq_true.mpr ⟨z, List.mem_of_getElem? hz, hsel.1 ▸ ho⟩
  have hgrant : s.grantsUnderWaiter (.tx k .grant) = true := by
    show (s.txs[k]?).any _ = true
    rw [hx, Option.any_some, List.any_eq_true]
    exact ⟨t.id, hsel.2, by rw [hrow]; exact hwaiter⟩
  rw [hw] at hgrant
  cases hgrant

/-- A lock is granted; what the statement computed before the wait stays. -/
theorem Safe.lock {s : Contention} {k : Nat} {x : ClaimTx} (h : s.Safe) (hx : s.txs[k]? = some x)
    {batch : List Candidate} {new : List TenantId} {rows : List (TenantId × Int)}
    {rest : List TenantId} {t : TenantId}
    (hsafe : LoopSafe s.db s.tenantLock k x.loop ∧
      StmtSafe s.db s.tenantLock k x.loop (.waiting batch new rows rest))
    (hfree : ∀ j, s.tenantLock t = some j → j = k) :
    Safe { s.setTx k { x with stmt := .waiting batch new rows (rest.erase t) } with
      tenantLock := Function.update s.tenantLock t (some k) } := by
  obtain ⟨hloop, hbatch, hrows⟩ := hsafe
  have hother : ∀ j, j ≠ k → ∀ o, s.tenantLock o = some j →
      Function.update s.tenantLock t (some k) o = some j := by
    intro j hj o ho
    have hot : o ≠ t := by
      rintro rfl
      exact hj (hfree j ho)
    rw [Function.update_of_ne hot, ho]
  have hown : ∀ o, s.tenantLock o = some k →
      Function.update s.tenantLock t (some k) o = some k := by
    intro o ho
    by_cases hot : o = t
    · rw [hot, Function.update_self]
    · rw [Function.update_of_ne hot, ho]
  refine h.moveAlone hx rfl rfl
    ⟨hloop.evolve (.refl _) hown fun _ _ => le_refl _, hbatch, fun o r ho => ?_⟩ hother
  obtain ⟨hnew, hfresh, h0, hroom, hl⟩ := hrows o r ho
  refine ⟨hnew, hfresh, h0, hroom, ?_⟩
  rcases hl with hl | hl
  · by_cases hot : o = t
    · rw [hot]
      exact Or.inr (Function.update_self ..)
    · exact Or.inl ((List.mem_erase_of_ne hot).mpr hl)
  · exact Or.inr (hown o hl)

/-- The commit of a claim. -/
theorem Safe.grant {s : Contention} {k : Nat} {x : ClaimTx} (h : s.Safe) (hx : s.txs[k]? = some x)
    (hw : s.grantsUnderWaiter (.tx k .grant) = false) :
    (s.release k (grantChosen s.db x) x).Safe := by
  have hloop := (h.txs k x hx).loop
  refine h.move hx rfl ?_ (release_safe ..) (grantChosen_evolves ..)
    (s.release_lock k _ x) ?_
  · intro o n hn
    have hle := grantChosen_runningCount s.db x o
    rw [show (s.release k (grantChosen s.db x) x).db = grantChosen s.db x from rfl] at hn ⊢
    rw [(grantChosen_evolves s.db x).tenants] at hn
    cases hsl : x.loop.slack o with
    | none =>
      have hcap := h.caps o n hn
      have hzero := hloop.unread o hsl
      omega
    | some r =>
      obtain ⟨-, h0, hroom⟩ := hloop.room o r hsl
      have hfits := hroom n hn
      omega
  · intro j z hj hz o ho
    have hle := grantChosen_runningCount s.db x o
    have hzero : chosenCount s.db x.loop.claimedIds o = 0 := by
      rcases ho with ho | ho
      · -- the tenant is locked by another: this claim has read no slack of it
        refine hloop.unread o ?_
        by_contra hne
        obtain ⟨r, hr⟩ := Option.ne_none_iff_exists'.mp hne
        exact hj (Option.eq_some_unique ho (hloop.room o r hr).1)
      · exact chosenCount_waiter hx hz ho hw
    rw [hzero] at hle
    exact hle

end Contention

/-- One statement of a claim. -/
theorem ClaimMove.safe {s s' : Contention} {k : Nat} {x y : ClaimTx} {a : ClaimAction}
    (hmove : ClaimMove s k x a y s') (h : s.Safe) (hx : s.txs[k]? = some x)
    (htxs : s'.txs = s.txs.set k y) (hw : s.grantsUnderWaiter (.tx k a) = false) : s'.Safe := by
  obtain ⟨hloop, hstmt⟩ := h.txs k x hx
  have hkeep : ∀ j, j ≠ k → ∀ o, s.tenantLock o = some j → s.tenantLock o = some j :=
    fun _ _ _ ho => ho
  cases hmove with
  | leave _ _ hy =>
    subst hy
    exact h.moveAlone hx htxs rfl ⟨hloop, trivial⟩ hkeep
  | fetch _ hy =>
    subst hy
    exact h.moveAlone hx htxs rfl ⟨hloop.seen _ _, fetchCandidates_known _ _ _ _ _ _ _⟩ hkeep
  | @count batch _ _ hst hnew hy =>
    subst hnew hy
    rw [hst] at hstmt
    exact h.moveAlone hx htxs rfl
      ⟨hloop, hstmt, fun o r ho => slackRows_output h.caps hloop batch ho⟩ hkeep
  | lock hst _ hfree hy =>
    subst hy
    rw [hst] at hstmt
    exact h.lock hx ⟨hloop, hstmt⟩ hfree
  | spend hst hy =>
    subst hy
    rw [hst] at hstmt
    exact h.moveAlone hx htxs rfl
      ⟨(hloop.recordSlack hstmt.2).spendBatch x.args.limit hstmt.1, trivial⟩ hkeep
  | grant _ => exact h.grant hx hw
  | abort _ => exact h.moveAlone hx htxs rfl (s.release_safe ..) (s.release_lock k s.db x)

/-- **One step** that commits no claim under a waiter keeps the limits. -/
theorem contend_safe {s s' : Contention} {a : ContentionAction} (h : s.Safe)
    (hs : contend s a = some s') (hw : s.grantsUnderWaiter a = false) : s'.Safe := by
  cases contend_move hs with
  | begin =>
    refine ⟨h.caps, fun k x hx => ?_⟩
    rcases Contention.begun hx with hx | ⟨-, rfl⟩
    · exact h.txs k x hx
    · exact ⟨.start .., trivial⟩
  | tx hx htxs hmove => exact hmove.safe h hx htxs hw
  | @other c hop =>
    have he : Evolves s.db (commit s.db c) := commit_evolves hop
    refine ⟨fun o n hn => ?_, fun k x hx => ?_⟩
    · have hle : runningCount (commit s.db c) o ≤ runningCount s.db o :=
        commit_runningCount hop o
      have hcap := h.caps o n (he.tenants ▸ hn)
      exact le_trans (by exact_mod_cast hle) hcap
    · exact (h.txs k x hx).evolve he (fun _ ho => ho) fun o _ => commit_runningCount hop o

/-! ## Runs -/

/-- **The tenants' limits hold where no claim commits under a waiter.** From a
database that respects them and with no claim open, in every interleaving of any
number of claims with the other transactions in which no claim commits tasks of
a tenant while another has begun to read that tenant's slack and waits for its
lock, every state respects them. -/
theorem caps_respected_under_contention (db : Database) (hdb : CapsRespected db)
    (acts : List ContentionAction) (s : Contention)
    (h : Run (fun s a s' => contend s a = some s' ∧ s.grantsUnderWaiter a = false) { db } acts s) :
    Run (fun s a s' => contend s a = some s' ∧ CapsRespected s'.db) { db } acts s := by
  have hstart : Contention.Safe { db } := ⟨hdb, fun k x hx => by simp at hx⟩
  refine (h.within (I := Contention.Safe) ?_ hstart).mono ?_
  · rintro s a s' hs ⟨hst, hw⟩
    exact contend_safe hs hst hw
  · rintro s a s' ⟨-, ⟨hst, -⟩, hs'⟩
    exact ⟨hst, hs'.caps⟩

section
omit [PyText]

instance (db : Database) : Decidable (CapsRespected db) :=
  decidable_of_iff (∀ n ∈ db.tenants.rows, (runningCount db n.id : Int) ≤ n.maxConcurrentTasks)
    ⟨fun h _ n hn => Table.key_of_find? hn ▸ h n (Table.mem_of_find? hn),
      fun h n hn => h n.id n (Table.find?_key hn)⟩

/-- A tenant that may run one task has two in the queue. -/
def twoQueued : Database :=
  @history PyText.plain .empty
    [⟨0, .createTenant 1 "tenant" 1 1000⟩,
     ⟨0, .registerWorker "first" 5 []⟩,
     ⟨0, .registerWorker "second" 5 []⟩,
     ⟨0, .submitTask 7 { tenantId := 1, taskType := "demo", payload := [] }⟩,
     ⟨0, .submitTask 8 { tenantId := 1, taskType := "demo", payload := [] }⟩]

/-- Two claims lock a candidate each, and the first goes on to its commit. The
second begins to count before that commit or after it. -/
def twoClaims (before after : List ContentionAction) : List ContentionAction :=
  [.begin 1 { workerId := "first", limit := 1, leaseTtlS := 30 },
   .begin 1 { workerId := "second", limit := 1, leaseTtlS := 30 },
   .tx 0 (.fetch {}), .tx 1 (.fetch {}), .tx 0 .count, .tx 0 (.lock 1)] ++ before ++
  [.tx 0 .spend, .tx 0 (.fetch {}), .tx 0 .grant] ++ after ++
  [.tx 1 (.lock 1), .tx 1 .spend, .tx 1 (.fetch {}), .tx 1 .grant]

/-- The guarded step of the theorem. -/
def guardedContend (s : Contention) (a : ContentionAction) : Option Contention :=
  if s.grantsUnderWaiter a then none else @contend PyText.plain s a

def countedLate : Contention :=
  (exec guardedContend { db := twoQueued } (twoClaims [] [.tx 1 .count])).get (by decide +kernel)

theorem caps_respected_under_contention_countedLate :
    Run (fun s a s' => @contend PyText.plain s a = some s' ∧ CapsRespected s'.db)
      { db := twoQueued } (twoClaims [] [.tx 1 .count]) countedLate :=
  @caps_respected_under_contention PyText.plain _ (by decide +kernel) _ _
    (Run.of_guarded (Option.some_get _).symm)

def countedEarly : Contention :=
  (exec (@contend PyText.plain) { db := twoQueued } (twoClaims [.tx 1 .count] [])).get
    (by decide +kernel)

/-- The second claim counts, waits for the lock of the first, and starts a second
task of a tenant that may run one. -/
theorem caps_exceeded_countedEarly :
    CapsRespected twoQueued ∧
      Run (fun s a s' => @contend PyText.plain s a = some s') { db := twoQueued }
        (twoClaims [.tx 1 .count] []) countedEarly ∧
      ¬ CapsRespected countedEarly.db :=
  ⟨by decide +kernel, Run.of_exec (Option.some_get _).symm, by decide +kernel⟩

end

end ControlPlane
