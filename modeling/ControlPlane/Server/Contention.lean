import ControlPlane.Server.History

/-! # Claims under contention

A claim is several statements, and under READ COMMITTED each reads what was
committed when it began. This is the model of their interleavings: the open
claim transactions, each between two of its statements, the row locks they hold,
and one committed database. The statement that reads the slack takes its
snapshot when it begins and returns what it computed then, however long it waits
for the tenants' locks, since no claim modifies a tenant's row. What a claim
writes is seen, and its locks are released, when it commits; its rows stay
locked until then, so its three writing statements are one step here. Every
other transaction is one step. -/

namespace ControlPlane
open Keyed Fallible Runs

/-- Where a claim transaction is. -/
inductive Stmt where
  /-- at the head of the round loop -/
  | fetching
  /-- the batch is locked; the slack statement has not begun -/
  | counting (batch : List Candidate)
  /-- the slack statement computed `rows`, and still has to lock `rest` -/
  | waiting (batch : List Candidate) (new : List TenantId) (rows : List (TenantId × Int))
      (rest : List TenantId)
  /-- past the loop -/
  | granting
  | ended

/-- A claim transaction: its `now()`, its arguments and its local variables. -/
structure ClaimTx where
  now : Time
  args : ClaimArgs
  loop : LoopState := {}
  stmt : Stmt := .fetching

/-- The committed database, the claim transactions and the row locks they hold. -/
structure Contention where
  db : Database
  txs : List ClaimTx := []
  taskLock : TaskId → Option Nat := fun _ => none
  tenantLock : TenantId → Option Nat := fun _ => none

inductive ClaimAction where
  | fetch (scan : Scan)
  | count
  | lock (t : TenantId)
  | spend
  | grant
  | abort

inductive ContentionAction where
  | begin (now : Time) (args : ClaimArgs)
  | tx (k : Nat) (a : ClaimAction)
  | other (c : Call)

namespace Contention

def setTx (s : Contention) (k : Nat) (x : ClaimTx) : Contention := { s with txs := s.txs.set k x }

/-- A locking read of one transaction passes over the rows the others hold. -/
def scanFor (s : Contention) (k : Nat) (scan : Scan) : Scan :=
  { scan with locked := fun i => scan.locked i || (s.taskLock i).any fun j => j != k }

/-- The end of a transaction: its locks are released. -/
def release (s : Contention) (k : Nat) (db : Database) (x : ClaimTx) : Contention where
  db := db
  txs := s.txs.set k { x with loop := {}, stmt := .ended }
  taskLock i := (s.taskLock i).filter fun j => j != k
  tenantLock t := (s.tenantLock t).filter fun j => j != k

end Contention

/-- The transactions the contention is about: not the claims themselves, and none
that would change the limits. -/
def Op.besideClaims : Op → Bool
  | claimTasks .. => false
  | createTenant .. => false
  | _ => true

/-- The transaction wants a lock on the row, QUEUED as it is. -/
def Op.waitsFor (op : Op) (t : Task) : Bool :=
  match op with
  | cancelTask i => t.id == i
  | cancelAgentTasks versions _ => t.ofVersions versions
  | _ => false

variable [PyText]

/-- What the transaction's UPDATE and INSERTs leave when it commits. -/
def grantChosen (db : Database) (x : ClaimTx) : Database :=
  if x.loop.claimedIds = [] then db
  else match grantLeases db x.now x.args.workerId x.args.leaseTtlS x.loop.claimedIds with
  | .ok (db', _) => db'
  | .error _ => db

/-- One step of an open claim transaction. -/
def claimStep (s : Contention) (k : Nat) (x : ClaimTx) (a : ClaimAction) : Option Contention :=
  match x.stmt, a with
  | .fetching, .fetch scan =>
    let need := x.args.limit - x.loop.claimedIds.length
    if need ≤ 0 ∨ maxRounds ≤ x.loop.rounds then some (s.setTx k { x with stmt := .granting })
    else
      let batch := fetchCandidates s.db x.now x.args.workerCapabilities x.args.policy need.toNat
        x.loop.seenIds (s.scanFor k scan)
      if batch = [] then some (s.setTx k { x with stmt := .granting })
      else
        let loop := { x.loop with
          seenIds := x.loop.seenIds ++ batch.map Candidate.id
          rounds := x.loop.rounds + 1 }
        -- the branches lock what they scan, and only then is the merge cut
        let locks := fetchLocks s.db x.now x.args.workerCapabilities x.args.policy need.toNat
          x.loop.seenIds (s.scanFor k scan)
        some { s.setTx k { x with loop, stmt := .counting batch } with
          taskLock := fun i => if locks.contains i then some k else s.taskLock i }
  | .counting batch, .count =>
    let new := newTenantIds x.loop batch
    let rows := slackRows s.db new
    some (s.setTx k { x with stmt := .waiting batch new rows (rows.map Prod.fst) })
  | .waiting batch new rows rest, .lock t =>
    -- the rows are locked in the order of the scan, whatever it is
    if !rest.contains t || (s.tenantLock t).any fun j => j != k then none
    else some { s.setTx k { x with stmt := .waiting batch new rows (rest.erase t) } with
      tenantLock := Function.update s.tenantLock t (some k) }
  | .waiting batch new rows [], .spend =>
    let loop := batch.foldl (spend x.args.limit) (recordSlack x.loop new rows)
    some (s.setTx k { x with loop, stmt := .fetching })
  | .granting, .grant => some (s.release k (grantChosen s.db x) x)
  | .ended, .abort => none
  | _, .abort => some (s.release k s.db x)
  | _, _ => none

def contend (s : Contention) : ContentionAction → Option Contention
  | .begin now args => some { s with txs := s.txs ++ [{ now, args }] }
  | .tx k a => (s.txs[k]?).bind fun x => claimStep s k x a
  | .other c =>
    if c.op.besideClaims && !s.db.tasks.rows.any fun t =>
      (s.taskLock t.id).isSome && c.op.waitsFor t then
        some { s with db := commit s.db c }
    else none

/-! ## What one statement does -/

omit [PyText] in
def ClaimTx.need (x : ClaimTx) : Nat := (x.args.limit - x.loop.claimedIds.length).toNat

omit [PyText] in
/-- The next statement of the claim is a query for candidates. -/
def ClaimTx.Fetches (x : ClaimTx) : Prop :=
  x.stmt = .fetching ∧ 0 < x.need ∧ x.loop.rounds < maxRounds

namespace Contention

/-- The rows the next query of a claim returns. -/
def fetched (s : Contention) (k : Nat) (x : ClaimTx) (scan : Scan) : List Candidate :=
  fetchCandidates s.db x.now x.args.workerCapabilities x.args.policy x.need x.loop.seenIds
    (s.scanFor k scan)

/-- The rows it locks. -/
def fetchLocked (s : Contention) (k : Nat) (x : ClaimTx) (scan : Scan) : List TaskId :=
  fetchLocks s.db x.now x.args.workerCapabilities x.args.policy x.need x.loop.seenIds
    (s.scanFor k scan)

end Contention

/-- What a statement makes of its claim `x`, and of the state. -/
inductive ClaimMove (s : Contention) (k : Nat) (x : ClaimTx) :
    ClaimAction → ClaimTx → Contention → Prop
  /-- the loop ends: enough, too many rounds, or no candidate -/
  | leave {scan : Scan} {y : ClaimTx} (hst : x.stmt = .fetching)
      (hend : x.Fetches → s.fetched k x scan = []) (hy : y = { x with stmt := .granting }) :
      ClaimMove s k x (.fetch scan) y (s.setTx k y)
  /-- a batch is returned, and what the query scanned is locked -/
  | fetch {scan : Scan} {y : ClaimTx} (hfetch : x.Fetches)
      (hy : y = { x with
        loop := { x.loop with
          seenIds := x.loop.seenIds ++ (s.fetched k x scan).map Candidate.id
          rounds := x.loop.rounds + 1 }
        stmt := .counting (s.fetched k x scan) }) :
      ClaimMove s k x (.fetch scan) y { s.setTx k y with
        taskLock := fun i => if (s.fetchLocked k x scan).contains i then some k else s.taskLock i }
  /-- the slack statement begins -/
  | count {batch : List Candidate} {new : List TenantId} {y : ClaimTx}
      (hst : x.stmt = .counting batch) (hnew : new = newTenantIds x.loop batch)
      (hy : y = { x with
        stmt := .waiting batch new (slackRows s.db new) ((slackRows s.db new).map Prod.fst) }) :
      ClaimMove s k x .count y (s.setTx k y)
  /-- it gets a tenant's lock -/
  | lock {batch : List Candidate} {new : List TenantId} {rows : List (TenantId × Int)}
      {rest : List TenantId} {t : TenantId} {y : ClaimTx}
      (hst : x.stmt = .waiting batch new rows rest) (ht : t ∈ rest)
      (hfree : ∀ j, s.tenantLock t = some j → j = k)
      (hy : y = { x with stmt := .waiting batch new rows (rest.erase t) }) :
      ClaimMove s k x (.lock t) y { s.setTx k y with
        tenantLock := Function.update s.tenantLock t (some k) }
  /-- it returns, and the batch is spent -/
  | spend {batch : List Candidate} {new : List TenantId} {rows : List (TenantId × Int)}
      {y : ClaimTx} (hst : x.stmt = .waiting batch new rows [])
      (hy : y = { x with
        loop := batch.foldl (spend x.args.limit) (recordSlack x.loop new rows)
        stmt := .fetching }) :
      ClaimMove s k x .spend y (s.setTx k y)
  | grant (hst : x.stmt = .granting) :
      ClaimMove s k x .grant { x with loop := {}, stmt := .ended }
        (s.release k (grantChosen s.db x) x)
  | abort (hst : x.stmt ≠ .ended) :
      ClaimMove s k x .abort { x with loop := {}, stmt := .ended } (s.release k s.db x)

/-- **What a statement of a claim can do**, guards included. -/
theorem claimStep_move {s s' : Contention} {k : Nat} {x : ClaimTx} {a : ClaimAction}
    (hs : claimStep s k x a = some s') :
    ∃ y, s'.txs = s.txs.set k y ∧ ClaimMove s k x a y s' := by
  unfold claimStep at hs
  split at hs
  · rename_i scan hst
    dsimp only at hs
    split at hs
    · rename_i hend
      cases hs
      refine ⟨_, rfl, .leave hst (fun hfetch => ?_) rfl⟩
      obtain ⟨-, hneed, hrounds⟩ := hfetch
      unfold ClaimTx.need at hneed
      omega
    rename_i hgo
    have hfetch : x.Fetches := by
      refine ⟨hst, ?_, ?_⟩
      · unfold ClaimTx.need
        omega
      · omega
    split at hs
    · rename_i hnil
      cases hs
      exact ⟨_, rfl, .leave hst (fun _ => hnil) rfl⟩
    · cases hs
      exact ⟨_, rfl, .fetch hfetch rfl⟩
  · rename_i batch hst
    cases hs
    exact ⟨_, rfl, .count hst rfl rfl⟩
  · rename_i batch new rows rest t hst
    split at hs
    · cases hs
    · rename_i hguard
      simp only [Bool.or_eq_true, Bool.not_eq_true', not_or, Bool.not_eq_false,
        List.contains_eq_mem, decide_eq_true_eq, Option.any_eq_true, not_exists, not_and,
        bne_iff_ne, ne_eq, not_not] at hguard
      cases hs
      exact ⟨_, rfl, .lock hst hguard.1 hguard.2 rfl⟩
  · rename_i batch new rows hst
    cases hs
    exact ⟨_, rfl, .spend hst rfl⟩
  · rename_i hst
    cases hs
    exact ⟨_, rfl, .grant hst⟩
  · cases hs
  · rename_i hst
    cases hs
    exact ⟨_, rfl, .abort hst⟩
  · cases hs

/-- What a step does: a claim is begun, a statement of one is executed, or another
transaction that waits for no claim's lock commits. -/
inductive ContentionMove (s : Contention) : ContentionAction → Contention → Prop
  | begin {now : Time} {args : ClaimArgs} :
      ContentionMove s (.begin now args) { s with txs := s.txs ++ [{ now, args }] }
  | tx {s' : Contention} {k : Nat} {a : ClaimAction} {x y : ClaimTx} (hx : s.txs[k]? = some x)
      (htxs : s'.txs = s.txs.set k y) (hmove : ClaimMove s k x a y s') :
      ContentionMove s (.tx k a) s'
  | other {c : Call} (hop : c.op.besideClaims = true) :
      ContentionMove s (.other c) { s with db := commit s.db c }

theorem contend_move {s s' : Contention} {a : ContentionAction} (hs : contend s a = some s') :
    ContentionMove s a s' := by
  cases a with
  | begin now args =>
    cases hs
    exact .begin
  | tx k a =>
    obtain ⟨x, hx, hst⟩ := Option.bind_eq_some_iff.mp hs
    obtain ⟨y, htxs, hmove⟩ := claimStep_move hst
    exact .tx hx htxs hmove
  | other c =>
    unfold contend at hs
    dsimp only at hs
    split at hs
    · rename_i hguard
      cases hs
      exact .other (Bool.and_eq_true_iff.mp hguard).1
    · cases hs

omit [PyText] in
/-- A claim of the list with one more is one of the list, or the new one. -/
theorem Contention.begun {s : Contention} {k : Nat} {x z : ClaimTx}
    (hx : (s.txs ++ [z])[k]? = some x) : s.txs[k]? = some x ∨ s.txs.length ≤ k ∧ x = z := by
  rw [List.getElem?_append] at hx
  split at hx
  · exact Or.inl hx
  · rename_i hk
    exact Or.inr ⟨Nat.le_of_not_lt hk, List.mem_singleton.mp (List.mem_of_getElem? hx)⟩

/-! ## A claim alone is the atomic claim -/

/-- Only this transaction holds locks. -/
structure Alone (s : Contention) (x : ClaimTx) : Prop where
  txs : s.txs = [x]
  tasks : ∀ i, s.taskLock i = none ∨ s.taskLock i = some 0
  tenants : ∀ t, s.tenantLock t = none ∨ s.tenantLock t = some 0

theorem Alone.step {s : Contention} {x : ClaimTx} (h : Alone s x) (a : ClaimAction) :
    contend s (.tx 0 a) = claimStep s 0 x a := by
  unfold contend
  rw [h.txs]
  rfl

omit [PyText] in
theorem Alone.scanFor {s : Contention} {x : ClaimTx} (h : Alone s x) (scan : Scan) :
    s.scanFor 0 scan = scan := by
  have hfree : (fun i => scan.locked i || (s.taskLock i).any fun j => j != 0) = scan.locked := by
    funext i
    rcases h.tasks i with hi | hi <;> simp [hi]
  unfold Contention.scanFor
  rw [hfree]

omit [PyText] in
theorem Alone.setTx {s : Contention} {x : ClaimTx} (h : Alone s x) (y : ClaimTx) :
    Alone (s.setTx 0 y) y where
  txs := by unfold Contention.setTx; rw [h.txs]; rfl
  tasks := h.tasks
  tenants := h.tenants

/-- The locks the slack statement waits for are free. -/
theorem Alone.lockAll {batch : List Candidate} {new : List TenantId} {rows : List (TenantId × Int)} :
    ∀ {rest : List TenantId} {s : Contention} {x : ClaimTx}, Alone s x →
      x.stmt = .waiting batch new rows rest → ∃ acts s',
        exec contend s acts = some s' ∧ s'.db = s.db ∧
          Alone s' { x with stmt := .waiting batch new rows [] }
  | [], s, x, h, hx => ⟨[], s, rfl, rfl, by
      obtain ⟨now, args, loop, stmt⟩ := x
      obtain rfl : stmt = _ := hx
      exact h⟩
  | t :: rest, s, x, h, hx => by
    have hfree : ((s.tenantLock t).any fun j => j != 0) = false := by
      rcases h.tenants t with ht | ht <;> simp [ht]
    have hstep : contend s (.tx 0 (.lock t)) =
        some { s.setTx 0 { x with stmt := .waiting batch new rows rest } with
          tenantLock := Function.update s.tenantLock t (some 0) } := by
      rw [h.step]
      unfold claimStep
      rw [hx]
      simp [hfree]
    have hnext : Alone { s.setTx 0 { x with stmt := .waiting batch new rows rest } with
        tenantLock := Function.update s.tenantLock t (some 0) }
        { x with stmt := .waiting batch new rows rest } := by
      refine ⟨(h.setTx _).txs, h.tasks, fun u => ?_⟩
      by_cases hu : u = t
      · subst hu
        exact Or.inr (Function.update_self ..)
      · dsimp only
        rw [Function.update_of_ne hu]
        exact h.tenants u
    obtain ⟨acts, s', hacts, hdb, halone⟩ := hnext.lockAll rfl
    exact ⟨.tx 0 (.lock t) :: acts, s', (exec_cons hstep acts).trans hacts, hdb, halone⟩

/-- A round that is not the last: the batch is locked, the slack of its new
tenants read, and the batch spent. -/
theorem Alone.round {s : Contention} {x : ClaimTx} (h : Alone s x) (hx : x.stmt = .fetching)
    {scan : Scan} {loop : LoopState} (hrounds : x.loop.rounds < maxRounds)
    (hround : claimRound s.db x.now x.args scan x.loop = some loop) : ∃ acts s',
      exec contend s acts = some s' ∧ s'.db = s.db ∧ Alone s' { x with loop := loop } := by
  unfold claimRound at hround
  dsimp only at hround
  split at hround
  · cases hround
  rename_i hneed
  generalize hbatch : fetchCandidates s.db x.now x.args.workerCapabilities x.args.policy
    (x.args.limit - x.loop.claimedIds.length).toNat x.loop.seenIds scan = batch at hround
  generalize hlocks : fetchLocks s.db x.now x.args.workerCapabilities x.args.policy
    (x.args.limit - x.loop.claimedIds.length).toNat x.loop.seenIds scan = locks
  split at hround
  · cases hround
  rename_i hnil
  rw [learnSlack_eq] at hround
  generalize hloop₁ : ({ x.loop with
    seenIds := x.loop.seenIds ++ batch.map Candidate.id
    rounds := x.loop.rounds + 1 } : LoopState) = loop₁ at hround
  let s₁ : Contention := { s.setTx 0 { x with loop := loop₁, stmt := .counting batch } with
    taskLock := fun i => if locks.contains i then some 0 else s.taskLock i }
  have hfetch : contend s (.tx 0 (.fetch scan)) = some s₁ := by
    rw [h.step]
    unfold claimStep
    rw [hx]
    dsimp only
    rw [h.scanFor, if_neg (by rintro (hle | hle) <;> omega), hbatch, hlocks, if_neg hnil,
      hloop₁]
  have h₁ : Alone s₁ { x with loop := loop₁, stmt := .counting batch } := by
    refine ⟨(h.setTx _).txs, fun i => ?_, h.tenants⟩
    show (if _ then some 0 else s.taskLock i) = none ∨ (if _ then some 0 else s.taskLock i) = some 0
    split
    · exact Or.inr rfl
    · exact h.tasks i
  generalize hnew : newTenantIds loop₁ batch = new at hround
  let x₂ : ClaimTx := { x with
    loop := loop₁
    stmt := .waiting batch new (slackRows s.db new) ((slackRows s.db new).map Prod.fst) }
  have hcount : contend s₁ (.tx 0 .count) = some (s₁.setTx 0 x₂) := by
    rw [h₁.step]
    unfold claimStep
    dsimp only
    rw [hnew]
    rfl
  obtain ⟨acts, s₃, hlock, hdb, h₃⟩ := (h₁.setTx x₂).lockAll rfl
  have hspend : contend s₃ (.tx 0 .spend) = some (s₃.setTx 0 { x with loop := loop }) := by
    rw [h₃.step]
    unfold claimStep
    dsimp only
    rw [Option.some.inj hround, ← hx]
  refine ⟨.tx 0 (.fetch scan) :: .tx 0 .count :: (acts ++ [.tx 0 .spend]),
    s₃.setTx 0 { x with loop := loop }, ?_, hdb, h₃.setTx _⟩
  rw [exec_cons hfetch, exec_cons hcount, exec_append, hlock, Option.bind_some, exec_cons hspend]
  rfl

/-- The round loop, statement by statement. -/
theorem Alone.rounds (scans : Nat → Scan) : ∀ (n : Nat) {s : Contention} {x : ClaimTx}, Alone s x →
    x.stmt = .fetching → n + x.loop.rounds = maxRounds → ∃ acts s',
      exec contend s acts = some s' ∧ s'.db = s.db ∧ Alone s'
        { x with loop := claimRounds s.db x.now x.args scans n x.loop, stmt := .granting }
  | 0, s, x, h, hx, hn => by
    have hbreak : contend s (.tx 0 (.fetch {})) =
        some (s.setTx 0 { x with stmt := .granting }) := by
      rw [h.step]
      unfold claimStep
      rw [hx]
      dsimp only
      rw [if_pos (Or.inr (by omega))]
    exact ⟨[_], s.setTx 0 { x with stmt := .granting }, exec_cons hbreak [], rfl, h.setTx _⟩
  | n + 1, s, x, h, hx, hn => by
    unfold claimRounds
    cases hround : claimRound s.db x.now x.args (scans x.loop.rounds) x.loop with
    | none =>
      -- the loop breaks: the limit is reached, or there is no candidate
      have hbreak : contend s (.tx 0 (.fetch (scans x.loop.rounds))) =
          some (s.setTx 0 { x with stmt := .granting }) := by
        rw [h.step]
        unfold claimStep
        rw [hx]
        dsimp only
        rw [h.scanFor]
        unfold claimRound at hround
        dsimp only at hround
        split at hround
        · rename_i hneed
          rw [if_pos (Or.inl hneed)]
        · split at hround
          · rename_i hnil
            rw [if_neg (by rintro (hle | hle) <;> omega), if_pos hnil]
          · cases hround
      exact ⟨[_], s.setTx 0 { x with stmt := .granting }, exec_cons hbreak [], rfl, h.setTx _⟩
    | some loop =>
      obtain ⟨_, _, -, -, -, -, hrounds⟩ := claimRound_ids hround
      obtain ⟨acts, s₁, hacts, hdb, h₁⟩ := h.round hx (by omega) hround
      obtain ⟨acts', s₂, hacts', hdb', h₂⟩ := h₁.rounds scans n hx (by dsimp only; omega)
      refine ⟨acts ++ acts', s₂, ?_, hdb'.trans hdb, ?_⟩
      · rw [exec_append, hacts, Option.bind_some, hacts']
      · rw [hdb] at h₂
        exact h₂

/-- The atomic claim grants what its loop has chosen. -/
theorem commit_claimTasks (db : Database) (now : Time) (args : ClaimArgs) (scans : Nat → Scan) :
    commit db ⟨now, .claimTasks args scans⟩ =
      grantChosen db { now, args, loop := claimLoop db now args scans, stmt := .granting } := by
  unfold grantChosen commit perform
  dsimp only
  unfold claimTasks
  dsimp only
  by_cases hnil : (claimLoop db now args scans).claimedIds = []
  · rw [if_pos hnil, if_pos hnil]
    rfl
  · rw [if_neg hnil, if_neg hnil]
    cases grantLeases db now args.workerId args.leaseTtlS (claimLoop db now args scans).claimedIds <;>
      rfl

/-- **A claim alone is the atomic claim**: with no other transaction between its
statements they leave what the one step of the coarser model leaves. -/
theorem contend_alone (db : Database) (now : Time) (args : ClaimArgs) (scans : Nat → Scan) :
    ∃ acts s', exec contend { db := db } (.begin now args :: acts) = some s' ∧
      s'.db = commit db ⟨now, .claimTasks args scans⟩ := by
  have hbegin : Alone { db := db, txs := [{ now, args }] } { now, args } :=
    ⟨rfl, fun _ => Or.inl rfl, fun _ => Or.inl rfl⟩
  let x : ClaimTx :=
    { now, args, loop := claimRounds db now args scans maxRounds {}, stmt := .granting }
  obtain ⟨acts, s, hacts, hdb, h⟩ := hbegin.rounds scans maxRounds rfl rfl
  have hgrant : contend s (.tx 0 .grant) = some (s.release 0 (grantChosen s.db x) x) := h.step .grant
  refine ⟨acts ++ [.tx 0 .grant], s.release 0 (grantChosen s.db x) x, ?_, ?_⟩
  · rw [exec_cons (t := { db := db, txs := [{ now, args }] }) rfl, exec_append, hacts,
      Option.bind_some, exec_cons hgrant]
    rfl
  · show grantChosen s.db x = _
    rw [hdb]
    exact (commit_claimTasks db now args scans).symm

end ControlPlane
