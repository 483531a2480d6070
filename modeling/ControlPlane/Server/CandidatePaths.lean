import ControlPlane.Db.ClaimLoop
import ControlPlane.Server.History

/-! # The two ways to find candidates

A worker of few capabilities is served by keys, computed from the normal form of
what a task requires; a worker of many by containment, of the list as it was
submitted in the list the worker sends. In claim order the second finds a part
of what the first finds: the tasks whose requirements are already written the
way the worker writes its own. -/

namespace ControlPlane
open Keyed Fallible Selection Runs

theorem scanKey_le {p : ClaimPolicy} {scan : Scan} {t u : Task}
    (h : p.scanKey scan t ≤ p.scanKey scan u) : p.sortKey t ≤ p.sortKey u :=
  le_of_append_le (by simp [ClaimPolicy.sortKey]) h

/-- Under the default policy heap order breaks no tie: the key ends in the id. -/
theorem sortBy_scanKey (db : Database) (scan : Scan) (p : Task → Bool) :
    sortBy (priorityFifo.scanKey scan) (db.tasks.rows.filter p) =
      sortBy (fun t => t.candidate.sortKey) (db.tasks.rows.filter p) := by
  have hnd := sortKeys_nodup db candidate_sortKey_id p
  have hle : ∀ t u : Task, priorityFifo.scanKey scan t ≤ priorityFifo.scanKey scan u →
      t.candidate.sortKey ≤ u.candidate.sortKey := by
    intro t u h
    have hle := scanKey_le h
    rw [priorityFifo_sortKey, priorityFifo_sortKey] at hle
    exact hle
  have hperm := sortBy_perm (priorityFifo.scanKey scan) (db.tasks.rows.filter p)
  refine sorted_unique (hperm.trans (sortBy_perm _ _).symm) ?_ ?_
    (sortBy_sorted (fun t : Task => t.candidate.sortKey) _)
  · exact (hperm.map _).nodup_iff.mpr hnd
  · exact (sortBy_sorted (priorityFifo.scanKey scan) _).imp fun {t u} h => hle t u h

/-- **The merge of the branches is exact.** For every table and every list of keys
without repetition: the eligible rows under one of the keys, in claim order, are a
queue, and the merged branches return the first `need` of it, each once. -/
theorem merged_branches_exact (db : Database) (now : Time) {keys : List String}
    (hkeys : keys.Nodup) (need : Nat) (seen : List TaskId) (scan : Scan) :
    ∃ queue : List Task,
      (∀ t, t ∈ queue ↔ t ∈ db.tasks.rows ∧ t.capabilityKey ∈ keys ∧
        t.claimable now = true ∧ scan.offers seen t = true) ∧
      (queue.Pairwise fun t u => t.candidate.sortKey < u.candidate.sortKey) ∧
      mergedBranches db now keys need seen scan = (queue.take need).map Task.candidate ∧
      ((mergedBranches db now keys need seen scan).map Candidate.id).Nodup := by
  have hmerge := mergedBranches_eq db now hkeys need seen scan
  refine ⟨_, fun t => ?_, sortBy_strict (sortKeys_nodup db candidate_sortKey_id _), hmerge, ?_⟩
  · rw [mem_sortBy, List.mem_filter]
    simp only [Bool.and_eq_true, decide_eq_true_eq]
  · rw [hmerge, List.map_map]
    refine List.Nodup.sublist ((List.take_sublist need _).map Task.id) ?_
    exact ((sortBy_perm _ _).map Task.id).nodup_iff.mpr (db.tasks.filter_keys_nodup _)

/-- Three tasks under two keys; the urgent one needs a GPU. -/
def twoKeys : List Call :=
  [⟨0, .createTenant 1 "tenant" 10 1000⟩,
   ⟨0, .submitTask 1 { tenantId := 1, taskType := "demo", payload := [] }⟩,
   ⟨0, .submitTask 2 { tenantId := 1, taskType := "demo", payload := [] }⟩,
   ⟨0, .submitTask 3
     { tenantId := 1, taskType := "demo", payload := [], priority := 1,
       requiredCapabilities := ["gpu"] }⟩]

theorem merged_branches_exact_twoKeys :
    (mergedBranches (@history PyText.plain .empty twoKeys) 1 ["", "gpu"] 2 [] {}).map
        Candidate.id = [3, 1] ∧
      ((mergedBranches (@history PyText.plain .empty twoKeys) 1 ["", "gpu"] 2 [] {}).map
        Candidate.id).Nodup := by
  obtain ⟨queue, -, -, -, hnd⟩ :=
    merged_branches_exact (@history PyText.plain .empty twoKeys) 1
      (show ["", "gpu"].Nodup by decide) 2 [] {}
  exact ⟨by decide +kernel, hnd⟩

variable [PyText]

/-- In a history, what containment in a normal form lets through has a key of
that normal form. -/
theorem key_of_contained {calls : List Call} {t : Task} {caps : List String}
    (ht : t ∈ (history .empty calls).tasks.rows) (hc : t.containedBy (normalised caps) = true) :
    t.capabilityKey ∈ satisfiableCapabilityKeys caps := by
  rw [history_capabilityKey calls ht]
  refine capabilityKey_mem_of_satisfies (satisfies_of_listed fun c hc' => ?_)
  simpa using List.all_eq_true.mp hc c hc'

/-- **The containment branch** finds, in the same order, those of the keyed
branch whose requirements the worker lists. -/
theorem containmentQueue_eq (calls : List Call) (now : Time) (caps : List String) (scan : Scan) :
    containmentQueue (history .empty calls) now (normalised caps) priorityFifo scan =
      (keyedQueue (history .empty calls) now (normalised caps)).filter fun t =>
        t.containedBy (normalised caps) := by
  unfold containmentQueue keyedQueue
  rw [sortBy_scanKey, ← sortBy_filter (sortKeys_nodup _ candidate_sortKey_id _), List.filter_filter,
    satisfiableCapabilityKeys_normalised]
  congr 1
  refine List.filter_congr fun t ht => ?_
  cases hc : t.containedBy (normalised caps) with
  | false => simp
  | true => simp [key_of_contained ht hc]

/-- The worker can claim the task in some round: a candidate query finds it. -/
def CanClaim (db : Database) (now : Time) (caps : List String) (ctid : TaskId → Nat)
    (t : Task) : Prop :=
  ∃ need, t.candidate ∈ fetchCandidates db now caps priorityFifo need [] { ctid := ctid }

omit [PyText] in
theorem offers_all (ctid : TaskId → Nat) (t : Task) :
    Scan.offers { ctid := ctid } [] t = true := by
  simp [Scan.offers]

theorem canClaim_iff {db : Database} {now : Time} {caps : List String} {ctid : TaskId → Nat}
    {t : Task} (ht : t ∈ db.tasks.rows) :
    CanClaim db now caps ctid t ↔ t ∈ claimQueue db now caps priorityFifo { ctid := ctid } := by
  unfold CanClaim
  have hall : (claimQueue db now caps priorityFifo { ctid := ctid }).filter
      (Scan.offers { ctid := ctid } []) = claimQueue db now caps priorityFifo { ctid := ctid } :=
    List.filter_eq_self.mpr fun u _ => offers_all ctid u
  constructor
  · intro h
    obtain ⟨need, hmem⟩ := h
    rw [fetchCandidates_eq, hall] at hmem
    obtain ⟨u, hu, he⟩ := List.mem_map.mp hmem
    have hu := List.mem_of_mem_take hu
    have hid : u.id = t.id := congrArg Candidate.id he
    have hrow : u ∈ db.tasks.rows := Table.mem_of_find? (mem_claimQueue hu).1
    exact Table.eq_of_key_eq hrow ht hid ▸ hu
  · intro h
    refine ⟨(claimQueue db now caps priorityFifo { ctid := ctid }).length, ?_⟩
    rw [fetchCandidates_eq, hall, List.take_length]
    exact List.mem_map_of_mem h

/-- Which tasks each branch finds. -/
theorem mem_claimQueue_iff {calls : List Call} {now : Time} {caps : List String} {scan : Scan}
    {t : Task} (ht : t ∈ (history .empty calls).tasks.rows) :
    t ∈ claimQueue (history .empty calls) now (normalised caps) priorityFifo scan ↔
      t.claimable now = true ∧
        if (normalised caps).length ≤ maxKeyedClaimCapabilities then
          SpelledBy t.requiredCapabilities caps
        else ∀ c ∈ t.requiredCapabilities, c ∈ normalised caps := by
  unfold claimQueue
  rw [normalised_normalised]
  split
  · unfold keyedQueue
    rw [mem_sortBy, List.mem_filter, satisfiableCapabilityKeys_normalised,
      history_capabilityKey calls ht, Bool.and_eq_true, decide_eq_true_eq, capabilityKey_mem_iff]
    exact and_iff_right ht
  · unfold containmentQueue
    rw [mem_sortBy, List.mem_filter, Bool.and_eq_true]
    refine (and_iff_right ht).trans (and_congr_right' ?_)
    simp [Task.containedBy]

/-- The QUEUED, due tasks the worker's entries spell are listed the worker's way. -/
def ListedAsOffered (db : Database) (now : Time) (caps : List String) : Prop :=
  ∀ t ∈ db.tasks.rows, t.claimable now = true → SpelledBy t.requiredCapabilities caps →
    ∀ c ∈ t.requiredCapabilities, c ∈ normalised caps

theorem mem_keyedQueue_iff {calls : List Call} {now : Time} {caps : List String} {t : Task} :
    t ∈ keyedQueue (history .empty calls) now (normalised caps) ↔
      t ∈ (history .empty calls).tasks.rows ∧ t.claimable now = true ∧
        SpelledBy t.requiredCapabilities caps := by
  unfold keyedQueue
  rw [mem_sortBy, List.mem_filter, satisfiableCapabilityKeys_normalised]
  refine and_congr_right fun ht => ?_
  rw [history_capabilityKey calls ht, Bool.and_eq_true, decide_eq_true_eq, capabilityKey_mem_iff]

/-- **The two branches agree exactly on requirements listed as offered.** In
every history and for every worker, as the worker normalises its capabilities:
for every need and every set of tasks already seen the branches find the same
candidates in the same order, if and only if every QUEUED, due task whose
requirements the worker's entries spell lists only entries of the worker. And
then a worker that gains capabilities can claim all it could claim before. -/
theorem candidate_paths_agree_iff (calls : List Call) (now : Time) (caps : List String)
    (ctid : TaskId → Nat) :
    ((∀ need seen,
        keyedCandidates (history .empty calls) now (normalised caps) need seen { ctid := ctid } =
          containmentCandidates (history .empty calls) now (normalised caps) priorityFifo need seen
            { ctid := ctid }) ↔
      ListedAsOffered (history .empty calls) now caps) ∧
    (ListedAsOffered (history .empty calls) now caps →
      ∀ caps', (∀ c ∈ normalised caps, c ∈ normalised caps') →
        ∀ t ∈ (history .empty calls).tasks.rows,
          CanClaim (history .empty calls) now (normalised caps) ctid t →
            CanClaim (history .empty calls) now (normalised caps') ctid t) := by
  have hqueue := containmentQueue_eq calls now caps { ctid := ctid }
  have hlisted : ∀ t : Task, t.containedBy (normalised caps) = true ↔
      ∀ c ∈ t.requiredCapabilities, c ∈ normalised caps := by
    intro t
    simp [Task.containedBy]
  refine ⟨⟨fun hagree t ht hc hspell => ?_, fun hlist need seen => ?_⟩,
    fun hlist caps' hsub t ht hcan => ?_⟩
  · -- ask for the whole queue: the filter of the other branch drops none of it
    have hall := hagree (keyedQueue (history .empty calls) now (normalised caps)).length []
    rw [keyedCandidates_eq, containmentCandidates_eq, hqueue] at hall
    rw [List.filter_eq_self.mpr fun u _ => offers_all ctid u,
      List.filter_eq_self.mpr fun u _ => offers_all ctid u, List.take_length,
      List.take_of_length_le (List.length_filter_le ..)] at hall
    have hlen := congrArg List.length hall
    rw [List.length_map, List.length_map] at hlen
    have hkept := List.length_filter_eq_length_iff.mp hlen.symm
    exact (hlisted t).mp (hkept t (mem_keyedQueue_iff.mpr ⟨ht, hc, hspell⟩))
  · rw [keyedCandidates_eq, containmentCandidates_eq, hqueue]
    rw [List.filter_eq_self (p := fun t : Task => t.containedBy (normalised caps)) |>.mpr]
    intro t ht
    obtain ⟨hrow, hc, hspell⟩ := mem_keyedQueue_iff.mp ht
    exact (hlisted t).mpr (hlist t hrow hc hspell)
  · obtain ⟨hc, hmatch⟩ := (mem_claimQueue_iff ht).mp ((canClaim_iff ht).mp hcan)
    refine (canClaim_iff ht).mpr ((mem_claimQueue_iff ht).mpr ⟨hc, ?_⟩)
    have hfew : (normalised caps).length ≤ (normalised caps').length :=
      ((normalised_nodup caps).subperm hsub).length_le
    split at hmatch
    · split
      · exact hmatch.mono hsub
      · exact fun c hc' => hsub c (hlist t ht hc hmatch c hc')
    · rw [if_neg (by omega)]
      exact fun c hc' => hsub c (hmatch c hc')

/-- A task whose requirements hold a blank entry beside the one that counts. -/
def blankEntry : List Call :=
  [⟨0, .createTenant 1 "tenant" 10 1000⟩,
   ⟨0, .submitTask 7
     { tenantId := 1, taskType := "demo", payload := [], requiredCapabilities := ["gpu", ""] }⟩]

omit [PyText] in
/-- By key the task is for a worker with a GPU; by containment it is for nobody.
A worker of five capabilities that gains a sixth can no longer claim it. -/
theorem candidate_paths_differ_blankEntry :
    (@keyedCandidates PyText.plain (@history PyText.plain .empty blankEntry) 1 ["gpu"] 1 [] {}).map
        Candidate.id = [7] ∧
      containmentCandidates (@history PyText.plain .empty blankEntry) 1 ["gpu"] priorityFifo 1 []
        {} = [] ∧
      (@fetchCandidates PyText.plain (@history PyText.plain .empty blankEntry) 1
        ["a", "b", "c", "d", "gpu"] priorityFifo 1 [] {}).map Candidate.id = [7] ∧
      @fetchCandidates PyText.plain (@history PyText.plain .empty blankEntry) 1
        ["a", "b", "c", "d", "e", "gpu"] priorityFifo 1 [] {} = [] := by
  decide +kernel

end ControlPlane
