import ControlPlane.Db.ClaimGreedy
import ControlPlane.Server.Ledger

/-! # What a claim selects, and whom it passes over

A claim equals one greedy pass over a prefix of the queue. How long a prefix is
bounded by the rounds: while nobody in the first `maxRounds * limit` places can be
taken, a runnable task further back is passed over at every poll. -/

namespace ControlPlane
open Keyed Fallible Selection Quota Runs

variable [PyText]

/-- **Claim selection is greedy.** With no concurrent transaction and a worker
served by keys: the claim examines a prefix of the eligible tasks and chooses
what one greedy pass over it takes, in order, without repetition, at most
`limit`; it stops because the limit was reached, the prefix is everything or the
rounds are used up, each on somebody; and it grants exactly the chosen tasks, unless a key of the
worker or the ledger aborts it. In the states of histories nothing aborts the
claim of a registered worker. -/
theorem claim_selection_greedy (db : Database) (now : Time) (args : ClaimArgs) (ctid : TaskId → Nat)
    (hcaps : (normalised args.workerCapabilities).length ≤ maxKeyedClaimCapabilities) :
    ∃ examined chosen, examined <+: claimEligible db now args.workerCapabilities ∧
      (claimLoop db now args (quiet ctid)).seenIds = examined.map Task.id ∧
      chosen = select Task.tenantId args.limit.toNat db.slackOf examined ∧
      (args.limit ≤ chosen.length ∨ examined = claimEligible db now args.workerCapabilities ∨
        (claimLoop db now args (quiet ctid)).rounds = maxRounds ∧ maxRounds ≤ examined.length) ∧
      chosen.Sublist (claimEligible db now args.workerCapabilities) ∧
      (chosen.map Task.id).Nodup ∧ chosen.length ≤ args.limit.toNat ∧
      (match claimTasks db now args (quiet ctid) with
        | .ok (db', rows) => Granted db now args chosen db' rows
        | .error _ => chosen ≠ [] ∧ ClaimAborts db args.workerId chosen) ∧
      ∀ calls, db = history .empty calls → db.workers.find? args.workerId ≠ none →
        ∃ db' rows, claimTasks db now args (quiet ctid) = .ok (db', rows) := by
  have hqueue : claimQueue db now args.workerCapabilities args.policy { ctid := ctid } =
      claimEligible db now args.workerCapabilities := claimQueue_keyed hcaps
  obtain ⟨m, hm, hstop, -⟩ := claimRounds_tracks (n := maxRounds) (tracks_start db
    (claimQueue db now args.workerCapabilities args.policy { ctid := ctid }) args.limit)
  have hnd := claimQueue_ids_nodup db now args.workerCapabilities args.policy { ctid := ctid }
  have hmem : ∀ t ∈ claimEligible db now args.workerCapabilities, db.task? t.id = some t := by
    intro t ht
    rw [← hqueue] at ht
    exact (mem_claimQueue ht).1
  rw [hqueue] at hm hstop hnd
  have hids : (claimLoop db now args (quiet ctid)).claimedIds =
      (greedy db args.limit ((claimEligible db now args.workerCapabilities).take m)).map Task.id :=
    hm.accounts.claimed
  have hsub : (greedy db args.limit ((claimEligible db now args.workerCapabilities).take m)).Sublist
      (claimEligible db now args.workerCapabilities) :=
    (select_sublist ..).trans (List.take_sublist ..)
  have hchosen : ∀ t ∈ greedy db args.limit
      ((claimEligible db now args.workerCapabilities).take m), db.task? t.id = some t :=
    fun t ht => hmem t (hsub.subset ht)
  refine ⟨_, _, List.take_prefix m _, hm.seen, rfl, ?_, hsub, hnd.sublist (hsub.map _),
    length_select_le .., ?_, ?_⟩
  · rcases hstop with hstop | hstop | hstop
    · rw [hm.accounts.claimed, List.length_map] at hstop
      exact Or.inl hstop
    · exact Or.inr (Or.inl hstop)
    · obtain ⟨hrounds, hlen⟩ := hstop
      rw [List.take_zero, List.length_nil, Nat.zero_add] at hlen
      exact Or.inr (Or.inr ⟨hrounds.trans (Nat.zero_add _), hlen⟩)
  · split
    · rename_i db' rows hok
      exact claimTasks_granted hchosen hids hok
    · rename_i e herr
      exact claimTasks_error hchosen hids herr
  · rintro calls rfl hworker
    exact (claimTasks_fresh _ now args (quiet ctid) fun t _ ht =>
      next_attempt_free (history_ledgered calls t.id) ht).resolve_right fun h => hworker h.2

/-- Tenant 1 may run one task and does; four more of its tasks stand before the
one task of tenant 2. -/
def crowded : List Call :=
  [⟨0, .createTenant 1 "busy" 1 1000⟩,
   ⟨0, .createTenant 2 "idle" 1 1000⟩,
   ⟨0, .registerWorker "worker" 5 []⟩] ++
  ([3, 4, 5, 6, 7].map fun i =>
    ⟨0, .submitTask i { tenantId := 1, taskType := "demo", payload := [], priority := 10 }⟩) ++
  [⟨1, .claimTasks { workerId := "worker", limit := 1, leaseTtlS := 30 } fun _ => {}⟩,
   ⟨2, .submitTask 8 { tenantId := 2, taskType := "demo", payload := [] }⟩]

/-- The database the two tenants are in. -/
def crowdedDb : Database := @history PyText.plain .empty crowded

def oneTask : ClaimArgs := { workerId := "worker", limit := 1, leaseTtlS := 30 }

def twoTasks : ClaimArgs := { workerId := "worker", limit := 2, leaseTtlS := 30 }

omit [PyText] in
theorem claim_selection_greedy_crowded :
    ∃ examined chosen, examined <+: @claimEligible PyText.plain crowdedDb 3 [] ∧
      (@claimLoop PyText.plain crowdedDb 3 twoTasks (quiet id)).seenIds = examined.map Task.id ∧
      chosen = select Task.tenantId 2 crowdedDb.slackOf examined ∧
      (2 ≤ (chosen.length : Int) ∨ examined = @claimEligible PyText.plain crowdedDb 3 [] ∨
        (@claimLoop PyText.plain crowdedDb 3 twoTasks (quiet id)).rounds = maxRounds ∧
          maxRounds ≤ examined.length) ∧
      chosen.Sublist (@claimEligible PyText.plain crowdedDb 3 []) ∧
      (chosen.map Task.id).Nodup ∧ chosen.length ≤ 2 ∧
      (match @claimTasks PyText.plain crowdedDb 3 twoTasks (quiet id) with
        | .ok (db', rows) => Granted crowdedDb 3 twoTasks chosen db' rows
        | .error _ => chosen ≠ [] ∧ ClaimAborts crowdedDb "worker" chosen) ∧
      ∀ calls, crowdedDb = @history PyText.plain .empty calls →
        crowdedDb.workers.find? "worker" ≠ none →
        ∃ db' rows, @claimTasks PyText.plain crowdedDb 3 twoTasks (quiet id) = .ok (db', rows) :=
  @claim_selection_greedy PyText.plain crowdedDb 3 twoTasks id (by decide +kernel)

/-! ## Progress -/

theorem claimTasks_nonempty {db db' : Database} {now : Time} {args : ClaimArgs}
    {ctid : TaskId → Nat} {rows : List Task}
    (hne : (claimLoop db now args (quiet ctid)).claimedIds ≠ [])
    (h : claimTasks db now args (quiet ctid) = .ok (db', rows)) : rows ≠ [] := by
  obtain ⟨-, -, hin, -⟩ := claimTasks_ok h
  obtain ⟨i, hi⟩ := List.exists_mem_of_ne_nil _ hne
  obtain ⟨u, -, -, hu, -⟩ := hin i hi
  exact List.ne_nil_of_mem hu

/-- A QUEUED, available task that the worker satisfies, of a tenant below its limit. -/
structure Waiting (db : Database) (now : Time) (caps : List String) (t : Task) (n : Tenant) :
    Prop where
  row : db.task? t.id = some t
  queued : t.state = .queued
  available : t.availableAt ≤ now
  satisfied : workerSatisfies t.requiredCapabilities caps = true
  tenant : db.tenants.find? t.tenantId = some n
  room : (runningCount db t.tenantId : Int) < n.maxConcurrentTasks

/-- While such a task waits, a claim does not return without one. -/
def NoLockout (db : Database) (now : Time) (args : ClaimArgs) (ctid : TaskId → Nat) : Prop :=
  (∃ t n, Waiting db now args.workerCapabilities t n) →
    ∀ db' rows, claimTasks db now args (quiet ctid) = .ok (db', rows) → rows ≠ []

/-- While such a task waits, a claim returns at least one. -/
def ClaimsOne (db : Database) (now : Time) (args : ClaimArgs) (ctid : TaskId → Nat) : Prop :=
  (∃ t n, Waiting db now args.workerCapabilities t n) →
    ∃ db' rows, claimTasks db now args (quiet ctid) = .ok (db', rows) ∧ rows ≠ []

/-- Nothing waits, or the tenant of a task in the first `maxRounds * limit` places of the
worker's queue has room. -/
def RoomInReach (db : Database) (now : Time) (args : ClaimArgs) (ctid : TaskId → Nat) : Prop :=
  (¬ ∃ t n, Waiting db now args.workerCapabilities t n) ∨
    ∃ t ∈ (claimQueue db now args.workerCapabilities args.policy { ctid := ctid }).take
      (maxRounds * args.limit.toNat), 0 < db.slackOf t.tenantId

/-- Nobody in reach has slack exactly when the claim chooses nothing, and comes back empty. -/
theorem noLockout_iff {db : Database} {now : Time} {args : ClaimArgs} {ctid : TaskId → Nat}
    (hlimit : 1 ≤ args.limit) : NoLockout db now args ctid ↔ RoomInReach db now args ctid := by
  constructor
  · intro h
    by_cases hwaits : ∃ t n, Waiting db now args.workerCapabilities t n
    · refine Or.inr ?_
      by_contra hnone
      have hnil : (claimLoop db now args (quiet ctid)).claimedIds = [] :=
        (claimLoop_eq_nil_iff hlimit).mpr fun t ht => not_lt.mp fun hslack => hnone ⟨t, ht, hslack⟩
      have hempty : claimTasks db now args (quiet ctid) = .ok (db, []) := by
        unfold claimTasks
        exact if_pos hnil
      exact h hwaits db [] hempty rfl
    · exact Or.inl hwaits
  · rintro (hnone | ⟨t, ht, hslack⟩) hwaits db' rows hok
    · exact absurd hwaits hnone
    · refine claimTasks_nonempty (fun hnil => ?_) hok
      have := (claimLoop_eq_nil_iff hlimit).mp hnil t ht
      omega

/-- **When the rounds lock nobody out.** With no concurrent transaction, in every database
and for every claim: unless it aborts, the claim comes back with a task while one waits
whose tenant has room, exactly when the tenant of a task in the first `maxRounds * limit`
places of the worker's queue has room; and in the states of histories the claim of a
registered worker does not abort. -/
theorem claim_makes_progress_iff (db : Database) (now : Time) (args : ClaimArgs)
    (ctid : TaskId → Nat) (hlimit : 1 ≤ args.limit) :
    (NoLockout db now args ctid ↔ RoomInReach db now args ctid) ∧
      ∀ calls, db = history .empty calls → db.workers.find? args.workerId ≠ none →
        (ClaimsOne db now args ctid ↔ RoomInReach db now args ctid) := by
  refine ⟨noLockout_iff hlimit, ?_⟩
  rintro calls rfl hworker
  obtain ⟨db', rows, hok⟩ :=
    (claimTasks_fresh _ now args (quiet ctid) fun t _ ht =>
      next_attempt_free (history_ledgered calls t.id) ht).resolve_right fun h => hworker h.2
  rw [← noLockout_iff hlimit]
  constructor
  · intro h hwaits db₂ rows₂ hok₂
    obtain ⟨db₁, rows₁, hok₁, hne⟩ := h hwaits
    rw [hok₁] at hok₂
    cases hok₂
    exact hne
  · intro h hwaits
    exact ⟨db', rows, hok, h hwaits db' rows hok⟩

section
omit [PyText]

/-- The QUEUED task of the idle tenant. -/
def waitingTask : Task := (crowdedDb.task? 8).get (by decide +kernel)

def idleTenant : Tenant := (crowdedDb.tenants.find? 2).get (by decide +kernel)

/-- With a limit of two, the fifth place is within reach. -/
theorem claim_makes_progress_iff_crowded :
    @NoLockout PyText.plain crowdedDb 3 twoTasks id ∧ 1 ≤ twoTasks.limit := by
  have hlimit : 1 ≤ twoTasks.limit := by decide
  have hreach : ∃ t ∈ (@claimQueue PyText.plain crowdedDb 3 [] defaultPolicy
      { ctid := id }).take (maxRounds * 2), 0 < crowdedDb.slackOf t.tenantId := by
    decide +kernel
  exact ⟨(@claim_makes_progress_iff PyText.plain crowdedDb 3 twoTasks id hlimit).1.mpr
    (Or.inr hreach), hlimit⟩

/-- With a limit of one, four rounds end before the fifth place: a runnable task
of a tenant below its limit is there, and the claim comes back empty. -/
theorem claim_locks_out_crowded :
    crowdedDb.task? 8 = some waitingTask ∧ waitingTask.state = .queued ∧
      waitingTask.availableAt ≤ 3 ∧
      @workerSatisfies PyText.plain waitingTask.requiredCapabilities [] = true ∧
      crowdedDb.tenants.find? waitingTask.tenantId = some idleTenant ∧
      (runningCount crowdedDb waitingTask.tenantId : Int) < idleTenant.maxConcurrentTasks ∧
      @claimTasks PyText.plain crowdedDb 3 oneTask (quiet id) = .ok (crowdedDb, []) := by
  refine ⟨(Option.some_get _).symm, by decide +kernel, by decide +kernel, by decide +kernel,
    (Option.some_get _).symm, by decide +kernel, ?_⟩
  have hnil : (@claimLoop PyText.plain crowdedDb 3 oneTask (quiet id)).claimedIds = [] := by
    decide +kernel
  unfold claimTasks
  dsimp only
  rw [if_pos hnil]
  rfl

end

end ControlPlane
