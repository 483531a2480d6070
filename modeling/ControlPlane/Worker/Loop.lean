import ControlPlane.Domain.Retry
import ControlPlane.Obs.Tracing
import ControlPlane.Server.Calls

/-! # The worker process

One worker runs several attempts at once: each is a coroutine that executes the
adapter, beside a second one that renews the lease, and the two share an event.
A step of the model runs one coroutine from one wait to the next; what it does
to the database is at most one transaction, whose reply it goes on with. The
adapter is not modelled: it ends when it likes, with any result. -/

namespace ControlPlane

/-- A step of a coroutine: go on alone, or commit a transaction and go on with
its reply. -/
inductive Move (α : Type) where
  | silent (next : α)
  | transact (op : Op) (next : Except Raised Reply → α)

namespace Move
variable {α β : Type}

def map (f : α → β) : Move α → Move β
  | silent next => silent (f next)
  | transact op next => transact op fun r => f (next r)

def run [PyText] (db : Database) (now : Time) : Move α → Database × α
  | silent next => (db, next)
  | transact op next => (commit db ⟨now, op⟩, next ((perform db now op).map Prod.snd))

def op? : Move α → Option Op
  | silent _ => none
  | transact op _ => some op

end Move

/-! ## Lease renewal -/

/-- The renewal coroutine of an attempt. -/
inductive RenewalTask where
  /-- in `wait_for(stop.wait(), interval)` -/
  | waiting
  /-- past the check of `stop`, before the commit of `renew_lease` -/
  | renewing
  | answered (row : Option Renewal)
  | returned
  /-- returned because `renew_lease` answered `None` -/
  | refused
  | raised

/-- What the adapter came to. -/
inductive Outcome where
  /-- with what `dict(result)` is, unless that or its JSON is refused: it need not be a
  mapping, and not all that is one is JSON that PostgreSQL takes -/
  | succeeded (result : Option JsonObject)
  | failed (detail : PyException)

def Outcome.text : Outcome → String
  | succeeded _ => "succeeded"
  | failed _ => "failed"

/-- Where the coroutine of an attempt waits. -/
inductive Phase where
  | dispatched
  | executing
  /-- the adapter ended; waiting for the renewal to stop -/
  | joining (outcome : Outcome)
  /-- in `_finalize`, before its transaction commits -/
  | finalizing (outcome : Outcome) (cancelRequested : Bool) (rng : Draws)
  /-- the completion was refused; before STALE_WRITE_REJECTED commits -/
  | rejected (outcome : Outcome) (why : Rejection)
  /-- cancelled while executing; waiting for the renewal to stop -/
  | unwinding
  | ended

def Phase.isEnded : Phase → Bool
  | ended => true
  | _ => false

/-- The argument `cancel_requested` of `_finalize`, while it is to be used. -/
def Phase.report? : Phase → Option Bool
  | finalizing _ cancelRequested _ => some cancelRequested
  | _ => none

/-- An attempt in flight: the claimed row, the two events and the two coroutines. -/
structure Attempt where
  row : Task
  cancelled : Bool := false
  stopRenewal : Bool := false
  renewal : RenewalTask := .waiting
  phase : Phase := .dispatched

inductive RenewalAction where
  | timeout | stop | renew | connectionFails | answer

/-- `_renew_until_stopped`. -/
def renewUntilStopped (w : WorkerId) (leaseTtlS : Int) (x : Attempt) (a : RenewalAction) :
    Option (Move Attempt) :=
  match x.renewal, a with
  | .waiting, .timeout =>
    if x.stopRenewal then none else some (.silent { x with renewal := .renewing })
  | .waiting, .stop =>
    if x.stopRenewal then some (.silent { x with renewal := .returned }) else none
  | .renewing, .renew =>
    some (.transact (.renewLease x.row.id w x.row.attempt leaseTtlS) fun
      | .ok (.renewed row) => { x with renewal := .answered row }
      | _ => { x with renewal := .raised })
  | .renewing, .connectionFails => some (.silent { x with renewal := .raised })
  -- the lease is lost; the adapter's result is left to fail the completion's fence
  | .answered none, .answer => some (.silent { x with cancelled := true, renewal := .refused })
  | .answered (some row), .answer =>
    some (.silent { x with
      cancelled := x.cancelled || row.cancelRequested
      renewal := .waiting })
  | _, _ => none

/-! ## One attempt -/

/-- `f"{type(detail).__name__}: {detail}"`. -/
def PyException.message (exc : PyException) : String := exc.typeName ++ ": " ++ exc.text

/-- Which completion `_finalize` calls; none if it raises over the result before it does. -/
def finalizeEnding (row : Task) (outcome : Outcome) (cancelRequested : Bool) (rng : Draws) :
    Option Ending :=
  -- a task told to stop is cancelled, whatever its adapter returned
  if cancelRequested then some .cancelled
  else match outcome with
  | .succeeded result => result.map fun d => .success (.obj d)
  | .failed detail =>
    let failureClass := classify detail
    let decision := decideRetry failureClass row.attempt row.maxAttempts (retryAfterOf detail) rng
    if decision.shouldRetry then
      some (.retry failureClass.value detail.message decision.backoffS)
    else some (.failed failureClass.value detail.message)

/-- The events of the tool runtime. -/
inductive ToolEvent where
  | allowed (tool : String)
  | denied (tool reason : String)
  | executed (tool : String) (ok : Bool) (error : Option String)

def ToolEvent.eventType : ToolEvent → EventType
  | allowed _ => .toolAccessAllowed
  | denied .. => .toolAccessDenied
  | executed _ ok _ => if ok then .toolExecuted else .toolExecutionFailed

def ToolEvent.data : ToolEvent → Json
  | allowed tool => .obj [("tool", .str tool)]
  | denied tool reason => .obj [("tool", .str tool), ("reason", .str reason)]
  | executed tool _ error => .obj [("tool", .str tool), ("error", jsonOption error)]

/-- `_owned`: the attempt of each task the worker owns, a dict in insertion order. -/
abbrev Owned := List (TaskId × Int)

def setOwned (owned : Owned) (taskId : TaskId) (attempt : Int) : Owned :=
  if owned.any fun e => e.1 == taskId then
    owned.map fun e => if e.1 == taskId then (taskId, attempt) else e
  else owned ++ [(taskId, attempt)]

def popOwned (owned : Owned) (taskId : TaskId) : Owned := owned.filter fun e => e.1 != taskId

inductive AttemptAction where
  | begin
  | renewal (a : RenewalAction)
  | toolEvent (e : ToolEvent)
  | adapterEnds (outcome : Outcome)
  | join (rng : Draws)
  | finalize
  | recordStale
  | connectionFails
  | cancel

/-- The renewal coroutine has ended without an exception. -/
def RenewalTask.isDone : RenewalTask → Bool
  | returned => true
  | refused => true
  | _ => false

/-- `(row["payload"] or {}).get("_trace")`. -/
def Task.traceCarrier (row : Task) : Json := (row.payload.lookup "_trace").getD .null

/-- The span of the attempt can be opened. -/
def Task.spanOpens (row : Task) : Bool := (linkFromCarrier row.traceCarrier).isOk

/-- `_run_attempt`, with `_run_attempt_inner` and `_finalize`. -/
def runAttempt (w : WorkerId) (leaseTtlS : Int) (x : Attempt) (owned : Owned) (a : AttemptAction) :
    Option (Move (Attempt × Owned)) :=
  let ended : Attempt := { x with phase := .ended }
  match x.phase, a with
  | .dispatched, .begin =>
    -- a link that raises does so before anything of the attempt is set up
    if x.row.spanOpens then
      some (.silent ({ x with phase := .executing }, setOwned owned x.row.id x.row.attempt))
    else some (.silent (ended, owned))
  | .dispatched, .cancel => some (.silent (ended, owned))
  | .executing, .renewal b =>
    (renewUntilStopped w leaseTtlS x b).map (Move.map fun y => (y, owned))
  | .executing, .toolEvent e =>
    some (.transact (.recordEvent x.row.id e.eventType (some x.row.attempt) (some w) e.data)
      fun _ => (x, owned))
  | .executing, .adapterEnds outcome =>
    some (.silent ({ x with stopRenewal := true, phase := .joining outcome }, owned))
  | .executing, .cancel =>
    some (.silent ({ x with stopRenewal := true, phase := .unwinding }, owned))
  | .joining _, .renewal b =>
    (renewUntilStopped w leaseTtlS x b).map (Move.map fun y => (y, owned))
  | .joining outcome, .join rng =>
    match x.renewal with
    | .raised => some (.silent (ended, owned))
    | r =>
      if r.isDone then
        some (.silent ({ x with phase := .finalizing outcome x.cancelled rng }, owned))
      else none
  | .joining _, .cancel => some (.silent (ended, owned))
  | .finalizing outcome cancelRequested rng, .finalize =>
    match finalizeEnding x.row outcome cancelRequested rng with
    | none => some (.silent (ended, popOwned owned x.row.id))
    | some ending => some (.transact (.complete ending x.row.id x.row.attempt w) fun
      | .ok (.completed (.rejected why _)) => ({ x with phase := .rejected outcome why }, owned)
      | _ => (ended, popOwned owned x.row.id))
  | .finalizing .., .connectionFails => some (.silent (ended, popOwned owned x.row.id))
  | .finalizing .., .cancel => some (.silent (ended, popOwned owned x.row.id))
  | .rejected outcome why, .recordStale =>
    some (.transact (.recordEvent x.row.id .staleWriteRejected (some x.row.attempt) (some w)
        (.obj [("operation", .str outcome.text), ("rejection", .str why.value)])) fun _ =>
      (ended, popOwned owned x.row.id))
  | .rejected .., .connectionFails => some (.silent (ended, popOwned owned x.row.id))
  | .rejected .., .cancel => some (.silent (ended, popOwned owned x.row.id))
  | .unwinding, .renewal b =>
    (renewUntilStopped w leaseTtlS x b).map (Move.map fun y => (y, owned))
  | .unwinding, .join _ =>
    match x.renewal with
    | .raised => some (.silent (ended, owned))
    | r => if r.isDone then some (.silent (ended, owned)) else none
  | _, _ => none

/-! ## One worker -/

/-- What the constructor fixes. -/
structure WorkerConfig where
  capacity : Int
  capabilities : List String
  policy : ClaimPolicy := defaultPolicy
  leaseTtlS : Int := 30
  claimBatchSize : Int := 5

/-- Where the main coroutine waits. -/
inductive Stage where
  | polling
  /-- past the second check of `_stopping`, before the commit of the claim -/
  | claiming
  /-- in `_drain`, before the status is written -/
  | draining
  /-- waiting for the attempts, or cancelling them -/
  | settling
  | handingBack (rest : Owned)
  | exited

structure Worker where
  config : WorkerConfig
  inflight : List Attempt := []
  owned : Owned := []
  stopping : Bool := false
  fenced : Bool := false
  stage : Stage := .polling

inductive WorkerAction where
  | heartbeat
  | poll
  | claim (scans : Nat → Scan)
  | harvest
  /-- a transaction of the main coroutine fails before it reaches the database -/
  | connectionFails
  | stop
  | drain
  | announce
  | settle
  | handBack
  | exit
  | crash
  | attempt (k : Nat) (a : AttemptAction)

def AttemptAction.isCancel : AttemptAction → Bool
  | cancel => true
  | _ => false

def Stage.isSettling : Stage → Bool
  | settling => true
  | _ => false

/-- `capacity - len(self._inflight)`. -/
def Worker.free (p : Worker) : Int := p.config.capacity - p.inflight.length

/-- The arguments of the claim, `_claim_and_dispatch(free)`. -/
def Worker.claimArgs (w : WorkerId) (p : Worker) : ClaimArgs where
  workerId := w
  limit := min p.free p.config.claimBatchSize
  leaseTtlS := p.config.leaseTtlS
  policy := p.config.policy
  workerCapabilities := p.config.capabilities

/-- What the claim's reply leads to: the attempts of the returned rows. -/
def Worker.dispatch (p : Worker) : Except Raised Reply → Worker
  | .ok (.claimed rows) =>
    { p with inflight := p.inflight ++ rows.map ({ row := · }), stage := .polling }
  | _ => { p with stage := .draining }

/-- `run_forever` and `_drain`. -/
def runForever (w : WorkerId) (p : Worker) (a : WorkerAction) : Option (Move Worker) :=
  match p.stage, a with
  | _, .stop => some (.silent { p with stopping := true })
  | _, .crash => some (.silent { p with inflight := [], stage := .exited })
  | stage, .attempt k b =>
    -- only the drain cancels attempts
    if b.isCancel && !stage.isSettling then none
    else (p.inflight[k]?).bind fun x =>
      (runAttempt w p.config.leaseTtlS x p.owned b).map (Move.map fun y =>
        { p with inflight := p.inflight.set k y.1, owned := y.2 })
  | .polling, .heartbeat =>
    -- a stop may come while it is under way
    if p.fenced then none
    else some (.transact (.heartbeat w) fun
      | .ok (.alive true) => p
      | .ok (.alive false) => { p with fenced := true, stopping := true }
      | _ => { p with stage := .draining })
  | .polling, .poll =>
    if p.stopping || decide (p.free ≤ 0) then none
    else some (.silent { p with stage := .claiming })
  | .polling, .harvest =>
    some (.silent { p with inflight := p.inflight.filter fun x => !x.phase.isEnded })
  | .polling, .connectionFails => some (.silent { p with stage := .draining })
  | .polling, .drain => if p.stopping then some (.silent { p with stage := .draining }) else none
  | .claiming, .claim scans =>
    some (.transact (.claimTasks (p.claimArgs w) scans) p.dispatch)
  | .claiming, .connectionFails => some (.silent { p with stage := .draining })
  | .draining, .announce =>
    if p.fenced then some (.silent { p with stage := .settling })
    else some (.transact (.setWorkerStatus w .draining) fun _ => { p with stage := .settling })
  | .draining, .connectionFails => some (.silent { p with stage := .settling })
  | .settling, .settle =>
    if p.inflight.all fun x => x.phase.isEnded then
      -- a worker declared DEAD writes no task, not even to be helpful
      some (.silent { p with stage := if p.fenced then .exited else .handingBack p.owned })
    else none
  | .handingBack ((taskId, attempt) :: rest), .handBack =>
    some (.transact (.complete (.abandoned "worker_shutdown") taskId attempt w) fun _ =>
      { p with stage := .handingBack rest })
  | .handingBack (_ :: rest), .connectionFails =>
    some (.silent { p with stage := .handingBack rest })
  | .handingBack [], .exit =>
    some (.transact (.setWorkerStatus w .dead) fun _ => { p with owned := [], stage := .exited })
  | .handingBack [], .connectionFails => some (.silent { p with owned := [], stage := .exited })
  | _, _ => none

/-- A step of an attempt does not depend on where the main coroutine is, unless it
is its cancellation. -/
theorem runForever_attempt (w : WorkerId) (p : Worker) (k : Nat) (b : AttemptAction) :
    runForever w p (.attempt k b) =
      if b.isCancel && !p.stage.isSettling then none
      else (p.inflight[k]?).bind fun x =>
        (runAttempt w p.config.leaseTtlS x p.owned b).map (Move.map fun y =>
          { p with inflight := p.inflight.set k y.1, owned := y.2 }) := by
  unfold runForever
  cases p.stage <;> rfl

/-! ## What a step can be -/

/-- The other attempt is of the same row and has heard the same. -/
structure Attempt.Like (x y : Attempt) : Prop where
  row : y.row = x.row
  cancelled : y.cancelled = x.cancelled
  renewal : y.renewal = x.renewal

/-- The steps of an attempt, by what they do to the database. -/
inductive AttemptMove (w : WorkerId) (ttl : Int) (x : Attempt) (owned : Owned) :
    AttemptAction → Move (Attempt × Owned) → Prop
  | renewal {b : RenewalAction} {n : Move Attempt} (hphase : x.phase.report? = none)
      (h : renewUntilStopped w ttl x b = some n) :
      AttemptMove w ttl x owned (.renewal b) (n.map fun y => (y, owned))
  | silent {a : AttemptAction} {y : Attempt} {owned' : Owned} (hlike : x.Like y)
      (hreport : ∀ c, y.phase.report? = some c → c = x.cancelled) :
      AttemptMove w ttl x owned a (.silent (y, owned'))
  | noted {a : AttemptAction} {ty : EventType} {data : Json}
      {next : Except Raised Reply → Attempt × Owned}
      (hnext : ∀ r, x.Like (next r).1 ∧ (next r).1.phase.report? = none) :
      AttemptMove w ttl x owned a
        (.transact (.recordEvent x.row.id ty (some x.row.attempt) (some w) data) next)
  | finalized {outcome : Outcome} {cancelRequested : Bool} {rng : Draws} {ending : Ending}
      {next : Except Raised Reply → Attempt × Owned}
      (hphase : x.phase = .finalizing outcome cancelRequested rng)
      (hending : finalizeEnding x.row outcome cancelRequested rng = some ending)
      (hnext : ∀ r, x.Like (next r).1 ∧ (next r).1.phase.report? = none) :
      AttemptMove w ttl x owned .finalize
        (.transact (.complete ending x.row.id x.row.attempt w) next)

theorem runAttempt_move {w : WorkerId} {ttl : Int} {x : Attempt} {owned : Owned} {a : AttemptAction}
    {m : Move (Attempt × Owned)} (h : runAttempt w ttl x owned a = some m) :
    AttemptMove w ttl x owned a m := by
  have hlike : ∀ {phase : Phase} {stopRenewal : Bool},
      x.Like { x with phase := phase, stopRenewal := stopRenewal } := ⟨rfl, rfl, rfl⟩
  have hrenewal : ∀ {b : RenewalAction}, x.phase.report? = none →
      (renewUntilStopped w ttl x b).map (Move.map fun y => (y, owned)) = some m →
      AttemptMove w ttl x owned (.renewal b) m := by
    intro b hphase h
    obtain ⟨n, hn, rfl⟩ := Option.map_eq_some_iff.mp h
    exact .renewal hphase hn
  have hended : ∀ {a : AttemptAction} {owned' : Owned},
      AttemptMove w ttl x owned a (.silent ({ x with phase := .ended }, owned')) :=
    .silent ⟨rfl, rfl, rfl⟩ fun _ hc => by cases hc
  unfold runAttempt at h
  dsimp only at h
  split at h
  · split at h <;> cases h
    · exact .silent hlike fun _ hc => by cases hc
    · exact hended
  · cases h; exact hended
  · rename_i hp; exact hrenewal (by rw [hp]; rfl) h
  · rename_i hp
    cases h
    exact .noted fun _ => ⟨⟨rfl, rfl, rfl⟩, by rw [hp]; rfl⟩
  · cases h; exact .silent hlike fun _ hc => by cases hc
  · cases h; exact .silent hlike fun _ hc => by cases hc
  · rename_i hp; exact hrenewal (by rw [hp]; rfl) h
  · split at h
    · cases h; exact hended
    · split at h
      · cases h
        exact .silent ⟨rfl, rfl, rfl⟩ fun _ hc => (Option.some.inj hc).symm
      · cases h
  · cases h; exact hended
  · rename_i hp
    split at h <;> cases h
    · exact hended
    · rename_i hending
      refine .finalized hp hending fun r => ?_
      split <;> exact ⟨⟨rfl, rfl, rfl⟩, rfl⟩
  · cases h; exact hended
  · cases h; exact hended
  · cases h; exact .noted fun _ => ⟨⟨rfl, rfl, rfl⟩, rfl⟩
  · cases h; exact hended
  · cases h; exact hended
  · rename_i hp; exact hrenewal (by rw [hp]; rfl) h
  · split at h
    · cases h; exact hended
    · split at h
      · cases h; exact hended
      · cases h
  · cases h

/-- The steps of a worker, by what they do to its attempts and the database. -/
inductive WorkerMove (w : WorkerId) (p : Worker) : WorkerAction → Move Worker → Prop
  | silent {a : WorkerAction} {q : Worker} (hin : q.inflight ⊆ p.inflight) :
      WorkerMove w p a (.silent q)
  | liveness {a : WorkerAction} {op : Op} {next : Except Raised Reply → Worker}
      (hop : op = .heartbeat w ∨ ∃ status, op = .setWorkerStatus w status)
      (hin : ∀ r, (next r).inflight = p.inflight) : WorkerMove w p a (.transact op next)
  | claimed {scans : Nat → Scan} : WorkerMove w p (.claim scans)
      (.transact (.claimTasks (p.claimArgs w) scans) p.dispatch)
  | handedBack {taskId : TaskId} {attempt : Int} {rest : Owned}
      (hstage : p.stage = .handingBack ((taskId, attempt) :: rest)) :
      WorkerMove w p .handBack
        (.transact (.complete (.abandoned "worker_shutdown") taskId attempt w) fun _ =>
          { p with stage := .handingBack rest })
  | attempt {k : Nat} {b : AttemptAction} {x : Attempt} {n : Move (Attempt × Owned)}
      (hx : p.inflight[k]? = some x)
      (h : AttemptMove w p.config.leaseTtlS x p.owned b n) :
      WorkerMove w p (.attempt k b) (n.map fun y =>
        { p with inflight := p.inflight.set k y.1, owned := y.2 })

theorem runForever_move {w : WorkerId} {p : Worker} {a : WorkerAction} {m : Move Worker}
    (h : runForever w p a = some m) : WorkerMove w p a m := by
  have hsame : ∀ {a : WorkerAction} {q : Worker}, q.inflight = p.inflight →
      WorkerMove w p a (.silent q) := fun he => .silent (he ▸ List.Subset.refl _)
  unfold runForever at h
  split at h
  · cases h; exact hsame rfl
  · cases h; exact .silent (List.nil_subset _)
  · split at h
    · cases h
    · obtain ⟨x, hx, h⟩ := Option.bind_eq_some_iff.mp h
      obtain ⟨n, hn, rfl⟩ := Option.map_eq_some_iff.mp h
      exact .attempt hx (runAttempt_move hn)
  · split at h
    · cases h
    · cases h
      refine .liveness (Or.inl rfl) fun r => ?_
      split <;> rfl
  · split at h <;> cases h
    exact hsame rfl
  · cases h; exact .silent List.filter_sublist.subset
  · cases h; exact hsame rfl
  · split at h <;> cases h
    exact hsame rfl
  · cases h; exact .claimed
  · cases h; exact hsame rfl
  · split at h <;> cases h
    · exact hsame rfl
    · exact .liveness (Or.inr ⟨_, rfl⟩) fun _ => rfl
  · cases h; exact hsame rfl
  · split at h <;> cases h
    exact hsame rfl
  · rename_i hs; cases h; exact .handedBack hs
  · cases h; exact hsame rfl
  · cases h; exact .liveness (Or.inr ⟨_, rfl⟩) fun _ => rfl
  · cases h; exact hsame rfl
  · cases h

end ControlPlane
