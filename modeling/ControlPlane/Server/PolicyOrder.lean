import ControlPlane.Db.ClaimGreedy
import ControlPlane.Server.CandidatePaths

/-! # Which policies a claim obeys

The order of a policy reaches the containment query and nothing else: the keyed
query and the sort after it name their columns themselves. For a worker of few
capabilities a claim therefore works in the order of the default policy,
whatever policy it is given. -/

namespace ControlPlane
open Keyed Fallible Selection Quota Runs

/-- The policy orders any two rows: its last key is the id. -/
def ClaimPolicy.EndsInId (p : ClaimPolicy) : Prop := p.orderBy.getLast?.map Prod.fst = some .id

/-- The priorities that the table accepts. -/
def storedPriorities : Set Int := {p | 0 ≤ p ∧ p ≤ 32767}

/-- Two policies put the rows a table can hold in one order. -/
def ClaimPolicy.OrdersAs (p q : ClaimPolicy) : Prop :=
  ∀ t u : Task, t.id ≠ u.id → t.priority ∈ storedPriorities → u.priority ∈ storedPriorities →
    (p.sortKey t < p.sortKey u ↔ q.sortKey t < q.sortKey u)

theorem Database.storedPriority {db : Database} {t : Task} (ht : t ∈ db.tasks.rows) :
    t.priority ∈ storedPriorities := by
  have hstorable := db.tasks_storable t ht
  simp only [Task.Pinned.storable, Bool.and_eq_true, smallint, decide_eq_true_eq] at hstorable
  exact ⟨(t.checked_iff.mp (db.tasks_checked t ht)).2.2.2.1,
    hstorable.1.1.1.1.1.1.1.2⟩

theorem ClaimPolicy.EndsInId.sortKey_id {p : ClaimPolicy} (hp : p.EndsInId) {t u : Task}
    (h : p.sortKey t = p.sortKey u) : t.id = u.id := by
  obtain ⟨⟨key, direction⟩, hlast, hkey⟩ := Option.map_eq_some_iff.mp hp
  obtain rfl : key = .id := hkey
  have hmem := List.mem_of_getLast? hlast
  have heq := List.map_inj_left.mp h _ hmem
  cases direction <;> simpa [Direction.sign, SortKey.column] using heq

theorem priorityFifo_endsInId : priorityFifo.EndsInId := rfl

/-- A policy reads columns that stay as they are. -/
theorem ClaimPolicy.sortKey_congr (p : ClaimPolicy) {t u : Task} (hp : t.priority = u.priority)
    (ha : t.availableAt = u.availableAt) (hc : t.createdAt = u.createdAt) (hi : t.id = u.id) :
    p.sortKey t = p.sortKey u := by
  refine List.map_congr_left fun kd _ => ?_
  obtain ⟨key, direction⟩ := kd
  cases key <;> simp [SortKey.column, hp, ha, hc, hi]

theorem claimWrite_sortKey (p : ClaimPolicy) (now : Time) (w : WorkerId) (ttl : Int) (t : Task) :
    p.sortKey ((claimWrite now w ttl).row t) = p.sortKey t :=
  p.sortKey_congr rfl rfl rfl rfl

variable [PyText]

/-- The row passes the filter of the query that serves the worker. -/
def Task.eligible (t : Task) (now : Time) (workerCapabilities : List String) : Bool :=
  t.claimable now &&
    if (normalised workerCapabilities).length ≤ maxKeyedClaimCapabilities then
      decide (t.capabilityKey ∈ satisfiableCapabilityKeys workerCapabilities)
    else t.containedBy workerCapabilities

theorem mem_claimQueue_eligible {db : Database} {now : Time} {caps : List String}
    {policy : ClaimPolicy} {scan : Scan} {t : Task} :
    t ∈ claimQueue db now caps policy scan ↔ t ∈ db.tasks.rows ∧ t.eligible now caps = true := by
  unfold claimQueue keyedQueue containmentQueue Task.eligible
  split <;> rw [mem_sortBy, List.mem_filter]

/-- A claim follows its policy: whatever precedes a claimed task was examined,
and what it returns is in order. -/
structure PolicyObeyed (db : Database) (now : Time) (args : ClaimArgs) (ctid : TaskId → Nat) :
    Prop where
  examined : ∀ t ∈ db.tasks.rows, t.eligible now args.workerCapabilities = true →
    ∀ c ∈ db.tasks.rows, c.id ∈ (claimLoop db now args (quiet ctid)).claimedIds →
      args.policy.sortKey t < args.policy.sortKey c →
        t.id ∈ (claimLoop db now args (quiet ctid)).seenIds
  sorted : ∀ db' rows, claimTasks db now args (quiet ctid) = .ok (db', rows) →
    rows.Pairwise fun t u => args.policy.sortKey t ≤ args.policy.sortKey u

/-- The policy is obeyed for workers of these capabilities: in every database
and with every limit. -/
def ClaimPolicy.Obeyed (p : ClaimPolicy) (workerCapabilities : List String) : Prop :=
  ∀ db now args ctid, args.policy = p → args.workerCapabilities = workerCapabilities →
    PolicyObeyed db now args ctid

/-! ## A queue in policy order is claimed in policy order -/

omit [PyText] in
/-- Rows taken from a sorted queue, one of them claimed: what precedes it was
taken as well. -/
theorem mem_take_of_before {κ : Type} [LinearOrder κ] {key : Task → κ} {queue : List Task}
    (hsorted : queue.Pairwise fun t u => key t ≤ key u) {m : Nat} {t c : Task} (ht : t ∈ queue)
    (hc : c ∈ queue.take m) (hlt : key t < key c) : t ∈ queue.take m := by
  rw [← List.take_append_drop m queue] at ht hsorted
  rcases List.mem_append.mp ht with ht | ht
  · exact ht
  · have hle := (List.pairwise_append.mp hsorted).2.2 c hc t ht
    exact absurd hlt (not_lt.mpr hle)

theorem obeyed_of_sorted {db : Database} {now : Time} {args : ClaimArgs} {ctid : TaskId → Nat}
    (hsorted : (claimQueue db now args.workerCapabilities args.policy { ctid := ctid }).Pairwise
      fun t u => args.policy.sortKey t ≤ args.policy.sortKey u) :
    PolicyObeyed db now args ctid := by
  obtain ⟨m, hm, -⟩ := claimRounds_tracks (n := maxRounds) (tracks_start db
    (claimQueue db now args.workerCapabilities args.policy { ctid := ctid }) args.limit)
  have hrows : ∀ t ∈ claimQueue db now args.workerCapabilities args.policy { ctid := ctid },
      db.task? t.id = some t := fun t ht => (mem_claimQueue ht).1
  have hids : (claimLoop db now args (quiet ctid)).claimedIds = (greedy db args.limit
      ((claimQueue db now args.workerCapabilities args.policy { ctid := ctid }).take m)).map
        Task.id := hm.accounts.claimed
  have hseen : (claimLoop db now args (quiet ctid)).seenIds =
      ((claimQueue db now args.workerCapabilities args.policy { ctid := ctid }).take m).map
        Task.id := hm.seen
  have hsub : (greedy db args.limit
      ((claimQueue db now args.workerCapabilities args.policy { ctid := ctid }).take m)).Sublist
      ((claimQueue db now args.workerCapabilities args.policy { ctid := ctid }).take m) :=
    select_sublist ..
  constructor
  · intro t ht hel c hc hclaimed hlt
    rw [hids] at hclaimed
    obtain ⟨u, hu, hid⟩ := List.mem_map.mp hclaimed
    have hu := hsub.subset hu
    obtain rfl : u = c := Table.eq_of_key_eq (Table.mem_of_find? (hrows u (List.mem_of_mem_take hu)))
      hc hid
    rw [hseen]
    exact List.mem_map_of_mem
      (mem_take_of_before hsorted (mem_claimQueue_eligible.mpr ⟨ht, hel⟩) hu hlt)
  · intro db' rows hok
    have hgranted := claimTasks_granted
      (fun t ht => hrows t (List.mem_of_mem_take (hsub.subset ht))) hids hok
    rw [hgranted.rows_eq, List.pairwise_map]
    refine (hsorted.sublist (hsub.trans (List.take_sublist ..))).imp fun {t u} h => ?_
    rw [claimWrite_sortKey, claimWrite_sortKey]
    exact h

omit [PyText] in
/-- The containment query sorts by the policy. -/
theorem containmentQueue_sorted (db : Database) (now : Time) (caps : List String)
    (p : ClaimPolicy) (scan : Scan) :
    (containmentQueue db now caps p scan).Pairwise fun t u => p.sortKey t ≤ p.sortKey u :=
  (sortBy_sorted (p.scanKey scan) _).imp fun {_ _} h => scanKey_le h

/-- The keyed query sorts by the policy when the policy orders as the default one. -/
theorem keyedQueue_sorted (db : Database) (now : Time) (caps : List String) {p : ClaimPolicy}
    (hp : p.OrdersAs priorityFifo) :
    (keyedQueue db now caps).Pairwise fun t u => p.sortKey t ≤ p.sortKey u := by
  have hrows : ∀ t ∈ keyedQueue db now caps, t ∈ db.tasks.rows := fun t ht =>
    List.mem_of_mem_filter ((mem_sortBy _).mp ht)
  refine (sortBy_sorted (fun t : Task => t.candidate.sortKey) _).imp_of_mem fun {t u} ht hu h => ?_
  replace ht := hrows t ht
  replace hu := hrows u hu
  by_cases hid : t.id = u.id
  · rw [Table.eq_of_key_eq ht hu hid]
  · have hfifo : priorityFifo.sortKey t < priorityFifo.sortKey u := by
      refine lt_of_le_of_ne ?_ fun he => hid (priorityFifo_endsInId.sortKey_id he)
      rw [priorityFifo_sortKey, priorityFifo_sortKey]
      exact h
    exact le_of_lt ((hp t u hid (Database.storedPriority ht) (Database.storedPriority hu)).mpr hfifo)

/-! ## Two rows out of order -/

/-- A tenant with room for both and a submission for each of two rows, with the
columns a policy reads. -/
def submitLike (t : Task) : SubmitArgs :=
  { tenantId := 1, taskType := "demo", payload := [], priority := t.priority
    availableAt := some t.availableAt }

/-- The row of such a submission. -/
def rowLike (t : Task) : Task := submittedTask t.createdAt t.id (submitLike t)

def pairOf (t u : Task) : List Call :=
  [⟨0, .createTenant 1 "tenant" 10 1000⟩, ⟨t.createdAt, .submitTask t.id (submitLike t)⟩,
    ⟨u.createdAt, .submitTask u.id (submitLike u)⟩]

theorem rowLike_sortKey (p : ClaimPolicy) (t : Task) : p.sortKey (rowLike t) = p.sortKey t :=
  p.sortKey_congr rfl rfl rfl rfl

theorem submitLike_accepted {t : Task} (ht : t.priority ∈ storedPriorities) :
    (rowLike t).refused = none := by
  refine Task.refused_eq_none.mpr ⟨?_, ?_⟩
  · have hpriority : smallint t.priority = true :=
      decide_eq_true ⟨le_trans (by decide) ht.1, ht.2⟩
    have hkey : capabilityKey [] = "" := by simp [capabilityKey, normalised]
    have htype : storableText "demo" = true := by decide
    have hempty : storableText "" = true := by decide
    simp [Task.Pinned.storable, Task.pinned, rowLike, submittedTask, submitLike, hpriority, integer,
      htype, hkey, hempty, Json.jsonbFields, Json.storableFields]
  · refine (Task.checked_iff _).mpr ⟨?_, ?_, le_refl _, ht.1, ?_⟩
    · exact show (1 : Int) ≤ 3 by omega
    · exact show (1 : Int) ≤ 300 by omega
    · simp [rowLike, submittedTask]

theorem commit_submitLike {db : Database} {t : Task} (ht : t.priority ∈ storedPriorities)
    (hfresh : ∀ u ∈ db.tasks.rows, u.id ≠ t.id) (hthere : (db.tenants.find? 1).isSome = true) :
    (commit db ⟨t.createdAt, .submitTask t.id (submitLike t)⟩).tasks.rows =
        db.tasks.rows ++ [rowLike t] ∧
      (commit db ⟨t.createdAt, .submitTask t.id (submitLike t)⟩).tenants = db.tenants := by
  have hnone : db.task? t.id = none := Table.find?_eq_none.mpr hfresh
  have hsubmit : ∃ db', submitTask db t.createdAt t.id (submitLike t) =
      .ok (db', ⟨true, rowLike t⟩) ∧ db'.tasks.rows = db.tasks.rows ++ [rowLike t] ∧
      db'.tenants = db.tenants := submitTask_keyless rfl (submitLike_accepted ht) hnone hthere
  obtain ⟨db', h, hrows, hten⟩ := hsubmit
  have hperform : perform db t.createdAt (.submitTask t.id (submitLike t)) =
      .ok (db', .submitted ⟨true, rowLike t⟩) := by
    show (submitTask db t.createdAt t.id (submitLike t)).map _ = _
    rw [h]
    rfl
  rw [commit_of_ok hperform]
  exact ⟨hrows, hten⟩

theorem pairOf_tables {t u : Task} (hid : t.id ≠ u.id) (ht : t.priority ∈ storedPriorities)
    (hu : u.priority ∈ storedPriorities) :
    (history .empty (pairOf t u)).tasks.rows = [rowLike t, rowLike u] ∧
      (history .empty (pairOf t u)).tenants.rows = [⟨1, "tenant", 10, 1000⟩] := by
  show (commit (commit (commit .empty _) _) _).tasks.rows = _ ∧
    (commit (commit (commit .empty _) _) _).tenants.rows = _
  have hrows₀ : (commit .empty ⟨0, .createTenant 1 "tenant" 10 1000⟩).tasks.rows = [] := rfl
  have hten₀ : (commit .empty ⟨0, .createTenant 1 "tenant" 10 1000⟩).tenants.rows =
      [⟨1, "tenant", 10, 1000⟩] := rfl
  generalize commit .empty ⟨0, .createTenant 1 "tenant" 10 1000⟩ = db₀ at hrows₀ hten₀
  have hthere : (db₀.tenants.find? 1).isSome = true := by
    unfold Table.find?
    rw [hten₀]
    rfl
  obtain ⟨hrows₁, hten₁⟩ := commit_submitLike ht (by rw [hrows₀]; simp) hthere
  generalize commit db₀ ⟨t.createdAt, .submitTask t.id (submitLike t)⟩ = db₁ at hrows₁ hten₁
  have hother : ∀ r ∈ db₁.tasks.rows, r.id ≠ u.id := by
    rw [hrows₁, hrows₀]
    simpa [rowLike, submittedTask] using hid
  obtain ⟨hrows₂, hten₂⟩ := commit_submitLike hu hother (hten₁ ▸ hthere)
  rw [hrows₂, hrows₁, hrows₀, hten₂, hten₁, hten₀]
  exact ⟨rfl, rfl⟩

/-- A claim of one task takes the first of its queue and looks no further. -/
theorem claimLoop_first {db : Database} {now : Time} {args : ClaimArgs} {ctid : TaskId → Nat}
    {t : Task} {queue : List Task} (hlimit : args.limit = 1)
    (hqueue : claimQueue db now args.workerCapabilities args.policy { ctid := ctid } = t :: queue)
    (hslack : 0 < db.slackOf t.tenantId) :
    (claimLoop db now args (quiet ctid)).claimedIds = [t.id] ∧
      (claimLoop db now args (quiet ctid)).seenIds = [t.id] := by
  have hround := claimRound_tracks (tracks_start db
    (claimQueue db now args.workerCapabilities args.policy { ctid := ctid }) args.limit)
  rw [hqueue] at hround
  have hstart : ∀ s', claimRound db now args { ctid := ctid } {} = some s' →
      claimLoop db now args (quiet ctid) = claimRounds db now args (quiet ctid) 3 s' := by
    intro s' hs
    show claimRounds db now args (quiet ctid) (3 + 1) {} = _
    rw [claimRounds, show claimRound db now args (quiet ctid ({} : LoopState).rounds) {} = some s' from hs]
  split at hround
  · rename_i hnone
    rcases hround with hfull | hend
    · rw [hlimit] at hfull
      simp at hfull
    · cases hend
  · rename_i s' hsome
    obtain ⟨htracks, -, -⟩ := hround
    have htake : (t :: queue).take (0 + (args.limit - (([] : List TaskId).length : Int)).toNat) =
        [t] := by
      rw [hlimit]
      rfl
    have hseen : s'.seenIds = [t.id] := by
      rw [htracks.seen, htake]
      rfl
    have hclaimed : s'.claimedIds = [t.id] := by
      rw [htracks.accounts.claimed, htake, greedy, hlimit, select_singleton _ _ _ (by decide) hslack]
      rfl
    -- the limit is reached, so the next round breaks
    have hdone : claimRound db now args (quiet ctid s'.rounds) s' = none := by
      unfold claimRound
      dsimp only
      rw [if_pos (by rw [hclaimed, hlimit]; simp)]
    rw [hstart s' hsome]
    unfold claimRounds
    rw [hdone]
    exact ⟨hclaimed, hseen⟩

/-- A policy that is obeyed for a worker served by keys puts two rows in the
order the default policy puts them in. -/
theorem before_of_obeyed {p : ClaimPolicy} {caps : List String} (hobeyed : p.Obeyed caps)
    (hcaps : (normalised caps).length ≤ maxKeyedClaimCapabilities) {t u : Task} (hid : t.id ≠ u.id)
    (ht : t.priority ∈ storedPriorities) (hu : u.priority ∈ storedPriorities)
    (hfifo : priorityFifo.sortKey t < priorityFifo.sortKey u) :
    ¬ p.sortKey u < p.sortKey t := by
  intro hbefore
  obtain ⟨hrows, htenants⟩ := pairOf_tables hid ht hu
  generalize hdb : history .empty (pairOf t u) = db at hrows htenants
  let now := max t.availableAt u.availableAt
  let args : ClaimArgs :=
    { workerId := "worker", limit := 1, leaseTtlS := 30, policy := p, workerCapabilities := caps }
  -- both rows are due and ask for nothing
  have hkey : "" ∈ satisfiableCapabilityKeys caps :=
    mem_satisfiableCapabilityKeys.mpr ⟨[], List.nil_sublist _, rfl⟩
  have heligible : ∀ r : Task, r.availableAt ≤ now → (rowLike r).eligible now caps = true := by
    intro r hr
    unfold Task.eligible
    rw [if_pos hcaps, Bool.and_eq_true]
    refine ⟨?_, decide_eq_true hkey⟩
    unfold Task.claimable
    rw [Bool.and_eq_true]
    exact ⟨rfl, decide_eq_true hr⟩
  have hqueue : claimQueue db now caps p { ctid := id } = [rowLike t, rowLike u] := by
    have hkeep : db.tasks.rows.filter (fun r => r.eligible now caps) = db.tasks.rows := by
      rw [hrows]
      refine List.filter_eq_self.mpr fun r hr => ?_
      simp only [List.mem_cons, List.not_mem_nil, or_false] at hr
      rcases hr with rfl | rfl
      · exact heligible t (le_max_left _ _)
      · exact heligible u (le_max_right _ _)
    have hnd := sortKeys_nodup db candidate_sortKey_id fun r => r.eligible now caps
    have hsorted : sortBy (fun r : Task => r.candidate.sortKey)
        (db.tasks.rows.filter fun r => r.eligible now caps) = [rowLike t, rowLike u] := by
      refine sortBy_eq hnd ?_ ?_ fun r => by rw [hkeep, hrows]
      · simp only [List.nodup_cons, List.mem_singleton, List.not_mem_nil, not_false_eq_true,
          List.nodup_nil, and_true]
        exact fun he => hid (show (rowLike t).id = (rowLike u).id from congrArg Task.id he)
      · rw [← rowLike_sortKey priorityFifo t, ← rowLike_sortKey priorityFifo u,
          priorityFifo_sortKey, priorityFifo_sortKey] at hfifo
        exact List.pairwise_pair.mpr (le_of_lt hfifo)
    have hfilter : ∀ r : Task, r.eligible now caps = (r.claimable now &&
        decide (r.capabilityKey ∈ satisfiableCapabilityKeys caps)) := by
      intro r
      unfold Task.eligible
      rw [if_pos hcaps]
    simp only [hfilter] at hsorted
    unfold claimQueue
    rw [if_pos hcaps]
    exact hsorted
  have hslack : 0 < db.slackOf (rowLike t).tenantId := by
    have hrunning : runningCount db 1 = 0 := by
      unfold runningCount
      rw [hrows]
      rfl
    have htenant : db.tenants.find? 1 = some ⟨1, "tenant", 10, 1000⟩ := by
      unfold Table.find?
      rw [htenants]
      rfl
    show 0 < db.slackOf 1
    unfold Database.slackOf
    rw [htenant, hrunning]
    simp
  have hfirst : (claimLoop db now args (quiet id)).claimedIds = [(rowLike t).id] ∧
      (claimLoop db now args (quiet id)).seenIds = [(rowLike t).id] :=
    claimLoop_first rfl hqueue hslack
  obtain ⟨hclaimed, hseen⟩ := hfirst
  have hexamined := (hobeyed db now args id rfl rfl).examined (rowLike u) (by rw [hrows]; simp)
    (heligible u (le_max_right _ _)) (rowLike t) (by rw [hrows]; simp) (by rw [hclaimed]; simp)
    (by rw [rowLike_sortKey, rowLike_sortKey]; exact hbefore)
  rw [hseen] at hexamined
  exact hid (List.mem_singleton.mp hexamined).symm

/-- **A claim policy is obeyed exactly on the containment path, or where it
orders as the default policy does.** -/
theorem claim_policy_obeyed_iff (p : ClaimPolicy) (hp : p.EndsInId) (caps : List String) :
    p.Obeyed caps ↔
      maxKeyedClaimCapabilities < (normalised caps).length ∨ p.OrdersAs priorityFifo := by
  constructor
  · intro hobeyed
    by_cases hcaps : maxKeyedClaimCapabilities < (normalised caps).length
    · exact Or.inl hcaps
    · refine Or.inr fun t u hid ht hu => ?_
      have hnot := not_lt.mp hcaps
      constructor
      · intro hlt
        by_contra hno
        refine before_of_obeyed hobeyed hnot (Ne.symm hid) hu ht ?_ hlt
        exact lt_of_le_of_ne (not_lt.mp hno) fun he => hid (priorityFifo_endsInId.sortKey_id he.symm)
      · intro hfifo
        have hle := not_lt.mp (before_of_obeyed hobeyed hnot hid ht hu hfifo)
        exact lt_of_le_of_ne hle fun he => hid (hp.sortKey_id he)
  · intro hcase db now args ctid hpolicy hcaps
    refine obeyed_of_sorted ?_
    unfold claimQueue
    rw [hpolicy, hcaps]
    rcases hcase with hmany | horders
    · rw [if_neg (not_le.mpr hmany)]
      exact containmentQueue_sorted ..
    · split
      · exact keyedQueue_sorted _ _ _ horders
      · exact containmentQueue_sorted ..

def newestFirst : ClaimPolicy where
  name := "newest-first"
  orderBy := [(.createdAt, .desc), (.id, .asc)]

omit [PyText] in
theorem claim_policy_obeyed_iff_newestFirst :
    @ClaimPolicy.Obeyed PyText.plain newestFirst [] ↔
      maxKeyedClaimCapabilities < (@normalised PyText.plain []).length ∨
        newestFirst.OrdersAs priorityFifo :=
  @claim_policy_obeyed_iff PyText.plain newestFirst rfl []

/-- Two tasks, the second newer. -/
def twoTasksWaiting : List Call :=
  [⟨0, .createTenant 1 "tenant" 10 1000⟩,
   ⟨0, .registerWorker "worker" 5 []⟩,
   ⟨1, .submitTask 7 { tenantId := 1, taskType := "demo", payload := [] }⟩,
   ⟨2, .submitTask 8 { tenantId := 1, taskType := "demo", payload := [] }⟩]

def claimNewest (limit : Int) : ClaimArgs :=
  { workerId := "worker", limit := limit, leaseTtlS := 30, policy := newestFirst }

omit [PyText] in
/-- Asked for the newest task, the claim examines and takes the oldest; asked
for both, it returns them oldest first. -/
theorem claim_ignores_policy_newestFirst :
    (@claimLoop PyText.plain (@history PyText.plain .empty twoTasksWaiting) 3 (claimNewest 1)
        (quiet id)).seenIds = [7] ∧
      (@claimLoop PyText.plain (@history PyText.plain .empty twoTasksWaiting) 3 (claimNewest 1)
        (quiet id)).claimedIds = [7] ∧
      ((@history PyText.plain .empty twoTasksWaiting).tasks.rows.map fun t =>
        (t.id, @Task.eligible PyText.plain t 3 [], newestFirst.sortKey t)) =
          [(7, true, [-1, 7]), (8, true, [-2, 8])] ∧
      ((@claimTasks PyText.plain (@history PyText.plain .empty twoTasksWaiting) 3 (claimNewest 2)
        (quiet id)).toOption.map fun r => r.2.map Task.id) = some [7, 8] := by
  decide +kernel

end ControlPlane
