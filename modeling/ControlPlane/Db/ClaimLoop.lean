import ControlPlane.Lib.Quota
import ControlPlane.Db.Claim

/-! # What the round loop chooses

The candidates of a round are the next ones of a single queue: everything the
worker may claim, in claim order. With nothing locked by others the rounds
therefore walk down a prefix of that queue, and the slack they keep per tenant
is the allowance of a greedy pass over the prefix. Whatever is locked, a claim
only chooses claimable rows, each once. A query may lock more than it returns. -/

namespace ControlPlane
open Keyed Fallible Selection Quota

variable [PyText]

/-! ## The queue behind the candidates -/

/-- What the keyed branch finds, in its order. -/
def keyedQueue (db : Database) (now : Time) (workerCapabilities : List String) : List Task :=
  sortBy (fun t => t.candidate.sortKey) (db.tasks.rows.filter fun t =>
    t.claimable now && decide (t.capabilityKey ∈ satisfiableCapabilityKeys workerCapabilities))

omit [PyText] in
/-- What the containment branch finds, in its order. -/
def containmentQueue (db : Database) (now : Time) (workerCapabilities : List String)
    (policy : ClaimPolicy) (scan : Scan) : List Task :=
  sortBy (policy.scanKey scan) (db.tasks.rows.filter fun t =>
    t.claimable now && t.containedBy workerCapabilities)

/-- Everything a worker may claim, in claim order. -/
def claimQueue (db : Database) (now : Time) (workerCapabilities : List String)
    (policy : ClaimPolicy) (scan : Scan) : List Task :=
  if (normalised workerCapabilities).length ≤ maxKeyedClaimCapabilities then
    keyedQueue db now workerCapabilities
  else containmentQueue db now workerCapabilities policy scan

omit [PyText] in
/-- A sort key that ends in the id tells the rows of the table apart. -/
theorem sortKeys_nodup (db : Database) {key : Task → List ℚ}
    (hkey : ∀ t u, key t = key u → t.id = u.id) (p : Task → Bool) :
    ((db.tasks.rows.filter p).map key).Nodup :=
  (List.Nodup.of_map Task.id (db.tasks.filter_keys_nodup p)).map_on fun t ht u hu he =>
    Table.eq_of_key_eq (List.mem_of_mem_filter ht) (List.mem_of_mem_filter hu) (hkey t u he)

omit [PyText] in
theorem candidate_sortKey_id (t u : Task) (h : t.candidate.sortKey = u.candidate.sortKey) :
    t.id = u.id := by
  simp only [Candidate.sortKey, Task.candidate, List.cons.injEq, Nat.cast_inj] at h
  exact h.2.2.1

omit [PyText] in
theorem scanKey_id (p : ClaimPolicy) (scan : Scan) (t u : Task)
    (h : p.scanKey scan t = p.scanKey scan u) : t.id = u.id := by
  unfold ClaimPolicy.scanKey at h
  have hlen : (p.sortKey t).length = (p.sortKey u).length := by simp [ClaimPolicy.sortKey]
  have hlast := (List.append_inj h hlen).2
  simp only [List.cons.injEq, Nat.cast_inj] at hlast
  exact hlast.2.1

theorem claimQueue_perm (db : Database) (now : Time) (caps : List String) (policy : ClaimPolicy)
    (scan : Scan) : ∃ p : Task → Bool, (∀ t, p t = true → t.claimable now = true) ∧
      (claimQueue db now caps policy scan).Perm (db.tasks.rows.filter p) := by
  unfold claimQueue keyedQueue containmentQueue
  split
  · exact ⟨_, fun t ht => (Bool.and_eq_true _ _ ▸ ht : _ ∧ _).1, sortBy_perm _ _⟩
  · exact ⟨_, fun t ht => (Bool.and_eq_true _ _ ▸ ht : _ ∧ _).1, sortBy_perm _ _⟩

theorem mem_claimQueue {db : Database} {now : Time} {caps : List String} {policy : ClaimPolicy}
    {scan : Scan} {t : Task} (h : t ∈ claimQueue db now caps policy scan) :
    db.task? t.id = some t ∧ t.claimable now = true := by
  obtain ⟨p, hp, hperm⟩ := claimQueue_perm db now caps policy scan
  obtain ⟨hmem, hpt⟩ := List.mem_filter.mp (hperm.mem_iff.mp h)
  exact ⟨Table.find?_key hmem, hp t hpt⟩

theorem claimQueue_ids_nodup (db : Database) (now : Time) (caps : List String)
    (policy : ClaimPolicy) (scan : Scan) :
    ((claimQueue db now caps policy scan).map Task.id).Nodup := by
  obtain ⟨p, -, hperm⟩ := claimQueue_perm db now caps policy scan
  exact (hperm.map Task.id).nodup_iff.mpr (db.tasks.filter_keys_nodup p)

omit [PyText] in
/-- **Cutting each key's scan before the merge loses nothing**, for any list of keys. -/
theorem mergedBranches_eq (db : Database) (now : Time) {keys : List String} (hkeys : keys.Nodup)
    (need : Nat) (seen : List TaskId) (scan : Scan) :
    mergedBranches db now keys need seen scan =
      ((sortBy (fun t => t.candidate.sortKey) (db.tasks.rows.filter fun t =>
        decide (t.capabilityKey ∈ keys) && (t.claimable now && scan.offers seen t))).take
          need).map Task.candidate := by
  have hmerge := merge_take
    (sortKeys_nodup db candidate_sortKey_id fun t => t.claimable now && scan.offers seen t)
    Task.capabilityKey hkeys need
  simp only [cut, List.filter_filter] at hmerge
  unfold mergedBranches
  dsimp only
  rw [← List.map_flatMap, sortBy_map, ← List.map_take]
  exact congrArg (List.map Task.candidate) hmerge

theorem keyedCandidates_eq (db : Database) (now : Time) (caps : List String) (need : Nat)
    (seen : List TaskId) (scan : Scan) :
    keyedCandidates db now caps need seen scan =
      (((keyedQueue db now caps).filter (scan.offers seen)).take need).map Task.candidate := by
  unfold keyedCandidates keyedQueue
  rw [satisfiableCapabilityKeys_normalised, mergedBranches_eq db now (satisfiableCapabilityKeys_nodup caps),
    ← sortBy_filter (sortKeys_nodup db candidate_sortKey_id _), List.filter_filter]
  congr 4
  funext t
  ac_rfl

omit [PyText] in
theorem containmentCandidates_eq (db : Database) (now : Time) (caps : List String)
    (policy : ClaimPolicy) (need : Nat) (seen : List TaskId) (scan : Scan) :
    containmentCandidates db now caps policy need seen scan =
      (((containmentQueue db now caps policy scan).filter (scan.offers seen)).take need).map
        Task.candidate := by
  unfold containmentCandidates containmentQueue
  rw [← sortBy_filter (sortKeys_nodup db (scanKey_id policy scan) _), List.filter_filter]
  congr 4
  funext t
  ac_rfl

/-- **A round's candidates** are the first of the queue that are not excluded
and not locked, whichever query finds them. -/
theorem fetchCandidates_eq (db : Database) (now : Time) (caps : List String) (policy : ClaimPolicy)
    (need : Nat) (seen : List TaskId) (scan : Scan) :
    fetchCandidates db now caps policy need seen scan =
      (((claimQueue db now caps policy scan).filter (scan.offers seen)).take need).map
        Task.candidate := by
  unfold fetchCandidates claimQueue
  split
  · exact keyedCandidates_eq ..
  · exact containmentCandidates_eq ..

/-! ## What a query leaves locked -/

/-- What a query may lock: the claimable rows under the worker's keys that are
not excluded and that no other holds. -/
def lockable (db : Database) (now : Time) (workerCapabilities : List String)
    (seenIds : List TaskId) (scan : Scan) : List Task :=
  db.tasks.rows.filter fun t =>
    decide (t.capabilityKey ∈ satisfiableCapabilityKeys workerCapabilities) &&
      (t.claimable now && scan.offers seenIds t)

/-- The branches of the keyed query are the classes of the keys, each cut. -/
theorem fetchLocks_keyed (db : Database) (now : Time) {caps : List String} (policy : ClaimPolicy)
    (need : Nat) (seen : List TaskId) (scan : Scan)
    (hcaps : (normalised caps).length ≤ maxKeyedClaimCapabilities) :
    fetchLocks db now caps policy need seen scan =
      (cut (fun t : Task => t.candidate.sortKey) Task.capabilityKey (satisfiableCapabilityKeys caps)
        need (db.tasks.rows.filter fun t => t.claimable now && scan.offers seen t)).map Task.id := by
  unfold fetchLocks cut
  dsimp only
  rw [if_pos hcaps, satisfiableCapabilityKeys_normalised, List.map_flatMap]
  simp only [List.filter_filter]
  rfl

theorem fetchLocks_containment (db : Database) (now : Time) {caps : List String}
    (policy : ClaimPolicy) (need : Nat) (seen : List TaskId) (scan : Scan)
    (hcaps : ¬ (normalised caps).length ≤ maxKeyedClaimCapabilities) :
    fetchLocks db now caps policy need seen scan =
      (fetchCandidates db now caps policy need seen scan).map Candidate.id := by
  unfold fetchCandidates fetchLocks
  dsimp only
  rw [if_neg hcaps, if_neg hcaps]

/-- The rows a query locks are distinct, claimable, not yet seen and free. -/
theorem fetchLocks_fresh (db : Database) (now : Time) (caps : List String) (policy : ClaimPolicy)
    (need : Nat) (seen : List TaskId) (scan : Scan) :
    (fetchLocks db now caps policy need seen scan).Nodup ∧
      ∀ i ∈ fetchLocks db now caps policy need seen scan, i ∉ seen ∧ scan.locked i = false ∧
        ∃ t, db.task? i = some t ∧ t.claimable now = true := by
  -- both queries lock rows of the table that they are offered
  obtain ⟨rows, he, hnd, hrows⟩ : ∃ rows : List Task,
      fetchLocks db now caps policy need seen scan = rows.map Task.id ∧ (rows.map Task.id).Nodup ∧
      ∀ t ∈ rows, t ∈ db.tasks.rows ∧ t.claimable now = true ∧ scan.offers seen t = true := by
    by_cases hcaps : (normalised caps).length ≤ maxKeyedClaimCapabilities
    · have hsub : ∀ t ∈ cut (fun t : Task => t.candidate.sortKey) Task.capabilityKey
          (satisfiableCapabilityKeys caps) need
          (db.tasks.rows.filter fun t => t.claimable now && scan.offers seen t),
          t ∈ db.tasks.rows ∧ t.claimable now = true ∧ scan.offers seen t = true := by
        intro t ht
        obtain ⟨ht, hp⟩ := List.mem_filter.mp (List.mem_of_mem_filter (mem_of_mem_cut ht))
        exact ⟨ht, Bool.and_eq_true_iff.mp hp⟩
      refine ⟨_, fetchLocks_keyed db now policy need seen scan hcaps, ?_, hsub⟩
      exact (cut_nodup _ (db.tasks.rows_nodup.filter _) _ (satisfiableCapabilityKeys_nodup caps)
        need).map_on fun t ht u hu he => Table.eq_of_key_eq (hsub t ht).1 (hsub u hu).1 he
    · refine ⟨((claimQueue db now caps policy scan).filter (scan.offers seen)).take need,
        ?_, ?_, ?_⟩
      · rw [fetchLocks_containment db now policy need seen scan hcaps, fetchCandidates_eq,
          List.map_map]
        rfl
      · exact (claimQueue_ids_nodup ..).sublist
          (((List.take_sublist ..).trans List.filter_sublist).map _)
      · intro t ht
        obtain ⟨ht, hoff⟩ := List.mem_filter.mp (List.mem_of_mem_take ht)
        obtain ⟨hrow, hc⟩ := mem_claimQueue ht
        exact ⟨Table.mem_of_find? hrow, hc, hoff⟩
  rw [he]
  refine ⟨hnd, fun i hi => ?_⟩
  obtain ⟨t, ht, rfl⟩ := List.mem_map.mp hi
  obtain ⟨ht, hc, hoff⟩ := hrows t ht
  simp only [Scan.offers, Bool.and_eq_true, Bool.not_eq_true', List.contains_eq_mem,
    decide_eq_false_iff_not] at hoff
  exact ⟨hoff.1, hoff.2, t, Table.find?_key ht, hc⟩

/-- The merge returns the first `need` of what the query locked. -/
theorem fetchCandidates_ids (db : Database) (now : Time) (caps : List String)
    (policy : ClaimPolicy) (need : Nat) (seen : List TaskId) (scan : Scan) :
    ∃ merged : List Candidate,
      (merged.map Candidate.id).Perm (fetchLocks db now caps policy need seen scan) ∧
      fetchCandidates db now caps policy need seen scan = merged.take need := by
  unfold fetchCandidates
  split
  · rename_i hcaps
    refine ⟨_, ?_, rfl⟩
    refine ((sortBy_perm _ _).map Candidate.id).trans (.of_eq ?_)
    unfold fetchLocks
    dsimp only
    rw [if_pos hcaps, List.map_flatMap]
    simp only [List.map_map]
    rfl
  · rename_i hcaps
    refine ⟨containmentCandidates db now caps policy need seen scan, .of_eq ?_, ?_⟩
    · unfold fetchLocks
      dsimp only
      rw [if_neg hcaps]
    · unfold containmentCandidates
      rw [← List.map_take, List.take_take, Nat.min_self]

theorem fetchCandidates_locked {db : Database} {now : Time} {caps : List String}
    {policy : ClaimPolicy} {need : Nat} {seen : List TaskId} {scan : Scan} {c : Candidate}
    (h : c ∈ fetchCandidates db now caps policy need seen scan) :
    c.id ∈ fetchLocks db now caps policy need seen scan := by
  obtain ⟨merged, hperm, he⟩ := fetchCandidates_ids db now caps policy need seen scan
  rw [he] at h
  exact hperm.mem_iff.mp (List.mem_map_of_mem (List.mem_of_mem_take h))

/-- The candidates of a round are distinct, claimable and not yet seen. -/
theorem fetchCandidates_fresh (db : Database) (now : Time) (caps : List String)
    (policy : ClaimPolicy) (need : Nat) (seen : List TaskId) (scan : Scan) :
    ((fetchCandidates db now caps policy need seen scan).map Candidate.id).Nodup ∧
      ∀ i ∈ (fetchCandidates db now caps policy need seen scan).map Candidate.id, i ∉ seen ∧
        ∃ t, db.task? i = some t ∧ t.claimable now = true := by
  obtain ⟨hnd, hfresh⟩ := fetchLocks_fresh db now caps policy need seen scan
  obtain ⟨merged, hperm, he⟩ := fetchCandidates_ids db now caps policy need seen scan
  rw [he]
  refine ⟨(hperm.nodup_iff.mpr hnd).sublist ((List.take_sublist ..).map _), fun i hi => ?_⟩
  obtain ⟨c, hc, rfl⟩ := List.mem_map.mp hi
  obtain ⟨hunseen, -, ht⟩ := hfresh c.id (fetchCandidates_locked (he ▸ hc))
  exact ⟨hunseen, ht⟩

theorem fetchCandidates_length_le (db : Database) (now : Time) (caps : List String)
    (policy : ClaimPolicy) (need : Nat) (seen : List TaskId) (scan : Scan) :
    (fetchCandidates db now caps policy need seen scan).length ≤ need := by
  obtain ⟨merged, -, he⟩ := fetchCandidates_ids db now caps policy need seen scan
  rw [he]
  exact List.length_take_le ..

/-- A query that returns nothing has locked nothing. -/
theorem fetchLocks_nil {db : Database} {now : Time} {caps : List String} {policy : ClaimPolicy}
    {need : Nat} {seen : List TaskId} {scan : Scan} (hneed : 0 < need)
    (h : fetchCandidates db now caps policy need seen scan = []) :
    fetchLocks db now caps policy need seen scan = [] := by
  obtain ⟨merged, hperm, he⟩ := fetchCandidates_ids db now caps policy need seen scan
  rw [he, List.take_eq_nil_iff] at h
  rcases h with h | rfl
  · omega
  · exact hperm.symm.eq_nil

/-- Where it locks no more than is needed, it returns all of it. -/
theorem fetchLocks_returned {db : Database} {now : Time} {caps : List String}
    {policy : ClaimPolicy} {need : Nat} {seen : List TaskId} {scan : Scan} {i : TaskId}
    (hfew : (fetchLocks db now caps policy need seen scan).length ≤ need)
    (h : i ∈ fetchLocks db now caps policy need seen scan) :
    i ∈ (fetchCandidates db now caps policy need seen scan).map Candidate.id := by
  obtain ⟨merged, hperm, he⟩ := fetchCandidates_ids db now caps policy need seen scan
  rw [← hperm.length_eq, List.length_map] at hfew
  rw [he, List.take_of_length_le hfew]
  exact hperm.mem_iff.mpr h

/-- **When a query locks no more than is needed**: the fallback query always; the
keyed query when no more can be locked at all, or all of it has one key. -/
theorem fetchLocks_length_le_iff (db : Database) (now : Time) (caps : List String)
    (policy : ClaimPolicy) {need : Nat} (hneed : 0 < need) (seen : List TaskId) (scan : Scan) :
    (fetchLocks db now caps policy need seen scan).length ≤ need ↔
      maxKeyedClaimCapabilities < (normalised caps).length ∨
      (lockable db now caps seen scan).length ≤ need ∨
      ∀ t ∈ lockable db now caps seen scan, ∀ u ∈ lockable db now caps seen scan,
        t.capabilityKey = u.capabilityKey := by
  by_cases hcaps : (normalised caps).length ≤ maxKeyedClaimCapabilities
  · rw [fetchLocks_keyed db now policy need seen scan hcaps, List.length_map,
      cut_length_le_iff (db.tasks.rows_nodup.filter _) _ (satisfiableCapabilityKeys_nodup caps)
        hneed, List.filter_filter, or_iff_right (Nat.not_lt.mpr hcaps)]
    rfl
  · rw [fetchLocks_containment db now policy need seen scan hcaps, fetchCandidates_eq]
    simp only [List.length_map]
    exact iff_of_true (List.length_take_le ..) (Or.inl (Nat.lt_of_not_le hcaps))

/-! ## Soundness of the choice, under any locks -/

omit [PyText] in
/-- Spending over a batch claims a selection of it and remembers nothing else. -/
theorem spendBatch_claimed (limit : Int) (batch : List Candidate) (s : LoopState) :
    ∃ more, (batch.foldl (spend limit) s).claimedIds = s.claimedIds ++ more ∧
      more.Sublist (batch.map Candidate.id) ∧
      (batch.foldl (spend limit) s).seenIds = s.seenIds ∧
      (batch.foldl (spend limit) s).slackKnown = s.slackKnown ∧
      (batch.foldl (spend limit) s).rounds = s.rounds := by
  induction batch generalizing s with
  | nil => exact ⟨[], by simp, List.Sublist.refl _, rfl, rfl, rfl⟩
  | cons c batch ih =>
    rw [List.foldl_cons]
    obtain ⟨more, hc, hsub, hseen, hknown, hrounds⟩ := ih (spend limit s c)
    unfold spend at hc hseen hknown hrounds ⊢
    split at hc
    · rename_i h
      simp only [if_pos h] at *
      exact ⟨more, hc, hsub.cons _, hseen, hknown, hrounds⟩
    · rename_i h
      simp only [if_neg h] at *
      split at hc
      · rename_i h'
        simp only [if_pos h'] at *
        exact ⟨more, hc, hsub.cons _, hseen, hknown, hrounds⟩
      · rename_i h'
        simp only [if_neg h'] at *
        exact ⟨c.id :: more, by rw [hc]; simp, hsub.cons_cons _, hseen, hknown, hrounds⟩

omit [PyText] in
theorem learnSlack_ids (db : Database) (s : LoopState) (batch : List Candidate) :
    (learnSlack db s batch).claimedIds = s.claimedIds ∧
      (learnSlack db s batch).seenIds = s.seenIds ∧
      (learnSlack db s batch).rounds = s.rounds := by
  unfold learnSlack recordSlack
  dsimp only
  split <;> exact ⟨rfl, rfl, rfl⟩

/-- What a round that did not break did to the ids. -/
theorem claimRound_ids {db : Database} {now : Time} {args : ClaimArgs} {scan : Scan}
    {s s' : LoopState} (h : claimRound db now args scan s = some s') :
    ∃ batch more, batch = fetchCandidates db now args.workerCapabilities args.policy
        (args.limit - s.claimedIds.length).toNat s.seenIds scan ∧
      s'.seenIds = s.seenIds ++ batch.map Candidate.id ∧
      s'.claimedIds = s.claimedIds ++ more ∧ more.Sublist (batch.map Candidate.id) ∧
      s'.rounds = s.rounds + 1 := by
  unfold claimRound at h
  dsimp only at h
  split at h
  · cases h
  · split at h
    · cases h
    · obtain rfl := Option.some.inj h
      obtain ⟨more, hc, hsub, hseen, -, hrounds⟩ := spendBatch_claimed args.limit
        (fetchCandidates db now args.workerCapabilities args.policy
          (args.limit - s.claimedIds.length).toNat s.seenIds scan) _
      obtain ⟨hlc, hls, hlr⟩ := learnSlack_ids db _ (fetchCandidates db now
        args.workerCapabilities args.policy (args.limit - s.claimedIds.length).toNat s.seenIds scan)
      exact ⟨_, more, rfl, hseen.trans hls, hc.trans (by rw [hlc]), hsub, hrounds.trans hlr⟩

/-- What holds of the ids after any number of rounds. -/
structure LoopState.Sound (db : Database) (now : Time) (s : LoopState) : Prop where
  claimed : s.claimedIds.Sublist s.seenIds
  nodup : s.seenIds.Nodup
  claimable : ∀ i ∈ s.seenIds, ∃ t, db.task? i = some t ∧ t.claimable now = true

omit [PyText] in
/-- A batch of such candidates, of which some are claimed. -/
theorem LoopState.Sound.extend {db : Database} {now : Time} {s s' : LoopState}
    {ids more : List TaskId} (hs : s.Sound db now) (hnd : ids.Nodup)
    (hfresh : ∀ i ∈ ids, i ∉ s.seenIds ∧ ∃ t, db.task? i = some t ∧ t.claimable now = true)
    (hseen : s'.seenIds = s.seenIds ++ ids) (hclaimed : s'.claimedIds = s.claimedIds ++ more)
    (hsub : more.Sublist ids) : s'.Sound db now := by
  refine ⟨?_, ?_, ?_⟩
  · rw [hclaimed, hseen]
    exact hs.claimed.append hsub
  · rw [hseen]
    exact List.nodup_append.mpr ⟨hs.nodup, hnd, fun i hi j hj he => (hfresh j hj).1 (he ▸ hi)⟩
  · intro i hi
    rw [hseen] at hi
    rcases List.mem_append.mp hi with hi | hi
    · exact hs.claimable i hi
    · exact (hfresh i hi).2

theorem claimRound_sound {db : Database} {now : Time} {args : ClaimArgs} {scan : Scan}
    {s s' : LoopState} (hs : s.Sound db now) (h : claimRound db now args scan s = some s') :
    s'.Sound db now := by
  obtain ⟨batch, more, rfl, hseen, hclaimed, hsub, -⟩ := claimRound_ids h
  obtain ⟨hnd, hfresh⟩ := fetchCandidates_fresh db now args.workerCapabilities args.policy
    (args.limit - s.claimedIds.length).toNat s.seenIds scan
  exact hs.extend hnd hfresh hseen hclaimed hsub

theorem claimRounds_sound {db : Database} {now : Time} {args : ClaimArgs} {scans : Nat → Scan}
    {n : Nat} {s : LoopState} (hs : s.Sound db now) :
    (claimRounds db now args scans n s).Sound db now := by
  induction n generalizing s with
  | zero => exact hs
  | succ n ih =>
    unfold claimRounds
    split
    · exact hs
    · rename_i s' h
      exact ih (claimRound_sound hs h)

theorem claimLoop_sound (db : Database) (now : Time) (args : ClaimArgs) (scans : Nat → Scan) :
    (claimLoop db now args scans).Sound db now :=
  claimRounds_sound ⟨List.Sublist.refl _, List.nodup_nil, by simp⟩

/-- **A claim that returned** granted the chosen tasks, all of them claimable
and distinct, and touched no other. -/
theorem claimTasks_ok {db db' : Database} {now : Time} {args : ClaimArgs} {scans : Nat → Scan}
    {rows : List Task} (h : claimTasks db now args scans = .ok (db', rows)) :
    SameParties db db' ∧
    rows = grantedRows db now args.workerId args.leaseTtlS (claimLoop db now args scans).claimedIds ∧
    (∀ i ∈ (claimLoop db now args scans).claimedIds, ∃ t, db.task? i = some t ∧
      t.claimable now = true ∧ (claimWrite now args.workerId args.leaseTtlS).row t ∈ rows ∧
      db'.view i = claimView now args.workerId args.leaseTtlS t (db.view i)) ∧
    ∀ i, i ∉ (claimLoop db now args scans).claimedIds → db'.view i = db.view i := by
  have hs := claimLoop_sound db now args scans
  unfold claimTasks at h
  dsimp only at h
  split at h
  · rename_i hnil
    obtain ⟨rfl, rfl⟩ := Prod.mk.inj (pure_ok.mp h)
    rw [hnil]
    exact ⟨.refl db, rfl, by simp, fun _ _ => rfl⟩
  · obtain ⟨hp, rfl, hin, hout⟩ := grantLeases_ok (hs.nodup.sublist hs.claimed) h
    refine ⟨hp, rfl, fun i hi => ?_, hout⟩
    obtain ⟨t, ht, hc⟩ := hs.claimable i (hs.claimed.subset hi)
    obtain rfl : t.id = i := Database.row_id ht
    exact ⟨t, ht, hc, mem_grantedRows.mpr ⟨t, hi, ht, rfl⟩, hin t hi ht⟩

/-- A claim of attempts the ledger does not know yet fails on the worker only. -/
theorem claimTasks_fresh (db : Database) (now : Time) (args : ClaimArgs) (scans : Nat → Scan)
    (hfree : ∀ t, t.id ∈ (claimLoop db now args scans).claimedIds → db.task? t.id = some t →
      db.attempt? t.id (t.attempt + 1) = none) :
    (∃ db' rows, claimTasks db now args scans = .ok (db', rows)) ∨
      (claimTasks db now args scans =
          .error (.integrity (.foreignKeyViolation "task_attempts_worker_id_fkey")) ∧
        db.workers.find? args.workerId = none) := by
  have hs := claimLoop_sound db now args scans
  unfold claimTasks
  dsimp only
  split
  · exact Or.inl ⟨db, [], rfl⟩
  · have hall : ∀ i ∈ (claimLoop db now args scans).claimedIds, (db.task? i).isSome = true := by
      intro i hi
      obtain ⟨t, ht, -⟩ := hs.claimable i (hs.claimed.subset hi)
      rw [ht]; rfl
    rcases grantLeases_fresh now args.workerId args.leaseTtlS
      (hs.nodup.sublist hs.claimed) hall hfree with ⟨db', h⟩ | h
    · exact Or.inl ⟨db', _, h⟩
    · exact Or.inr h

end ControlPlane
