import ControlPlane.Server.Discipline

/-! # The task queries keep to the discipline

Each writes what its statements have locked: the `UPDATE` of one row that row,
the locking reads of claims and of the reaper what they returned, a bulk
cancellation what its two `UPDATE`s visited. A row cannot change between the lock
and the commit, so what a locking read has seen of it is what is written over. -/

namespace ControlPlane
open Keyed Fallible Transactions

variable [PyText] {governed : Prop} {r : Request} {H : Lock → Prop} {s : Store}

/-! ## Queries of one statement -/

theorem performOn_ok {c : Call} {s₁ s₂ : Store} {a : Answer} (hinv : s₁.Integrity governed)
    (hstand : c.op.Standalone) (hsub : ∀ newId args, c.op ≠ .submitTask newId args)
    (hlock : ∀ i, c.op.writesRow i → H (.task i)) (h : performOn c s₁ = .ok (s₂, a)) :
    s₂.Integrity governed ∧ StoreWrites H s₁ s₂ := by
  unfold performOn at h
  split at h
  · rename_i db reply hperf
    cases h
    refine writes_of_steps hinv hinv.registry (.refl _) hstand hsub (fun i => ?_)
      fun i hw _ => hlock i hw
    have hstep := commit_step s₁.db c i
    rw [commit_of_ok hperf] at hstep
    exact hstep
  · cases h

theorem rowTx_ok {i : TaskId} {c : Call} (hr : r.Quiet) (hstand : c.op.Standalone)
    (hsub : ∀ newId args, c.op ≠ .submitTask newId args) (hrow : ∀ j, c.op.writesRow j → i = j) :
    (discipline governed).Ok r (rowTx i c) H s := by
  intro s₁ other _ _ _ _ _
  refine commit_ok hr fun s₂ s₃ a _ hinv h => ?_
  refine performOn_ok hinv hstand hsub (fun j hj => Or.inr ?_) h
  rw [hrow j hj]
  exact List.mem_singleton_self _

/-- The row a cancellation has read is still what it was when it commits. -/
theorem cancelTx_ok {now : Time} {i : TaskId} (hr : r.Quiet) :
    (discipline governed).Ok r (cancelTx now i) H s := by
  intro s₁ other _ _ _ _ _
  dsimp only
  split
  · refine commit_ok hr fun s₂ s₃ a _ hinv h => ?_
    cases h
    exact writes_of_registry hinv rfl hinv.registry (.refl _)
  · rename_i row hrow
    refine commit_ok hr fun s₂ s₃ a hrel hinv h => ?_
    have hlock : Lock.task i ∈ if (s₁.db.task? i).isSome then [Lock.task i] else [] := by
      rw [hrow]
      exact List.mem_singleton_self _
    rw [cancelOn_eq (rely_locked hrel (Or.inr hlock) hrow)] at h
    refine performOn_ok hinv ?_ (by simp) (fun j hj => Or.inr ?_) h
    · intro j ty a w data hop
      cases hop
    · obtain rfl : i = j := hj
      exact hlock

/-! ## The reaper -/

theorem reapTx_ok {now : Time} {o : Overdue} {limit : Int} {scan : Scan} (hr : r.Quiet) :
    (discipline governed).Ok r (reapTx now o limit scan) H s := by
  intro s₁ other _ _ _ _ _
  dsimp only
  split
  · exact fail_ok hr _
  refine commit_ok hr fun s₂ s₃ a hrel hinv h => ?_
  generalize hts : overdueTasks s₁.db now o limit (scan.beside other) = ts at hrel h ⊢
  have hrows : ∀ t ∈ ts, s₂.db.task? t.id = some t ∧ t.state = .running ∧ o.holds now t = true := by
    intro t ht
    have hlocked : Lock.task t.id ∈ ts.map fun t => Lock.task t.id := List.mem_map.mpr ⟨t, ht, rfl⟩
    rw [← hts] at ht
    obtain ⟨hrow, hrun, hov⟩ := mem_overdueTasks ht
    exact ⟨rely_locked hrel (Or.inr hlocked) hrow, hrun, hov⟩
  have hnodup : (ts.map Task.id).Nodup := by
    rw [← hts]
    exact overdueTasks_nodup ..
  unfold recoverOn at h
  split at h
  · rename_i db res hrun
    cases h
    obtain ⟨-, -, hin, hout⟩ := reapRows_ok hnodup hrows hrun
    refine writes_of_steps (c := ⟨now, .reap o limit scan⟩) hinv hinv.registry (.refl _) ?_ ?_ ?_ ?_
    · intro i ty a w data hop
      cases hop
    · intro newId args hop
      cases hop
    · intro i
      by_cases hi : ∃ t ∈ ts, t.id = i
      · obtain ⟨t, ht, rfl⟩ := hi
        obtain ⟨hrow, hrunning, hov⟩ := hrows t ht
        rw [hin t ht]
        exact .reaped rfl hrow hrunning hov
      · exact .of_eq (hout i fun t ht he => hi ⟨t, ht, he⟩)
    · intro i _ hne
      by_cases hi : ∃ t ∈ ts, t.id = i
      · obtain ⟨t, ht, rfl⟩ := hi
        exact Or.inr (List.mem_map.mpr ⟨t, ht, rfl⟩)
      · exact absurd (congrArg TaskView.row (hout i fun t ht he => hi ⟨t, ht, he⟩)) hne
  · cases h

/-! ## Claims -/

/-- What the loop has seen stays claimable while its rows are locked. -/
theorem LoopState.Sound.later {now : Time} {loop : LoopState} {s' : Store}
    (h : loop.Sound s.db now) (hlock : ∀ i ∈ loop.seenIds, H (.task i))
    (hrel : (discipline governed).Rely H s s') : loop.Sound s'.db now where
  claimed := h.claimed
  nodup := h.nodup
  claimable i hi := by
    obtain ⟨t, ht, hc⟩ := h.claimable i hi
    exact ⟨t, rely_locked hrel (hlock i hi) ht, hc⟩

theorem claimBatch_fresh (now : Time) (args : ClaimArgs) (scan : Scan) (loop : LoopState)
    (s : Store) (other : Lock → Bool) :
    ((claimBatch now args scan loop s other).map Candidate.id).Nodup ∧
      ∀ i ∈ (claimBatch now args scan loop s other).map Candidate.id, i ∉ loop.seenIds ∧
        ∃ t, s.db.task? i = some t ∧ t.claimable now = true := by
  unfold claimBatch
  dsimp only
  split
  · exact ⟨List.nodup_nil, by simp⟩
  · exact fetchCandidates_fresh ..

theorem claimBatch_locked (now : Time) (args : ClaimArgs) (scan : Scan) (loop : LoopState)
    (s : Store) (other : Lock → Bool) :
    ∀ i ∈ (claimBatch now args scan loop s other).map Candidate.id,
      i ∈ claimLocks now args scan loop s other := by
  intro i hi
  obtain ⟨c, hc, rfl⟩ := List.mem_map.mp hi
  unfold claimBatch at hc
  unfold claimLocks
  dsimp only at hc ⊢
  split at hc
  · cases hc
  · rename_i hneed
    rw [if_neg hneed]
    exact fetchCandidates_locked hc

/-- The grant writes the rows the loop claimed. -/
theorem grantOn_ok {now : Time} {args : ClaimArgs} {loop : LoopState} {s₁ s₂ : Store} {a : Answer}
    (hinv : s₁.Integrity governed) (hloop : loop.Sound s₁.db now)
    (hlock : ∀ i ∈ loop.seenIds, H (.task i))
    (h : grantOn now args loop.claimedIds s₁ = .ok (s₂, a)) :
    s₂.Integrity governed ∧ StoreWrites H s₁ s₂ := by
  unfold grantOn at h
  split at h
  · cases h
    exact writes_of_registry hinv rfl hinv.registry (.refl _)
  · split at h
    · rename_i db rows hgrant
      cases h
      obtain ⟨-, -, hin, hout⟩ := grantLeases_ok (hloop.nodup.sublist hloop.claimed) hgrant
      refine writes_of_steps (c := ⟨now, .claimTasks args fun _ => {}⟩) hinv hinv.registry (.refl _)
        ?_ ?_ ?_ ?_
      · intro i ty a w data hop
        cases hop
      · intro newId args hop
        cases hop
      · intro i
        by_cases hi : i ∈ loop.claimedIds
        · obtain ⟨t, ht, hc⟩ := hloop.claimable i (hloop.claimed.subset hi)
          obtain rfl : t.id = i := Database.row_id ht
          rw [hin t hi ht]
          exact .claimed rfl ht hc
        · exact .of_eq (hout i hi)
      · intro i _ hne
        by_cases hi : i ∈ loop.claimedIds
        · exact hlock i (hloop.claimed.subset hi)
        · exact absurd (congrArg TaskView.row (hout i hi)) hne
    · cases h

omit [PyText] in
/-- The loop after a round that found this batch. -/
theorem LoopState.Sound.spent {now : Time} {loop : LoopState} {batch : List Candidate}
    (h : loop.Sound s.db now) (limit : Int) (hnodup : (batch.map Candidate.id).Nodup)
    (hfresh : ∀ i ∈ batch.map Candidate.id, i ∉ loop.seenIds ∧
      ∃ t, s.db.task? i = some t ∧ t.claimable now = true)
    (new : List TenantId) (rows : List (TenantId × Int)) :
    (batch.foldl (spend limit) (recordSlack { loop with
        seenIds := loop.seenIds ++ batch.map Candidate.id
        rounds := loop.rounds + 1 } new rows)).Sound s.db now ∧
      (batch.foldl (spend limit) (recordSlack { loop with
        seenIds := loop.seenIds ++ batch.map Candidate.id
        rounds := loop.rounds + 1 } new rows)).seenIds =
          loop.seenIds ++ batch.map Candidate.id := by
  obtain ⟨more, hclaimed, hsub, hseen, -, -⟩ := spendBatch_claimed limit batch
    (recordSlack { loop with
      seenIds := loop.seenIds ++ batch.map Candidate.id
      rounds := loop.rounds + 1 } new rows)
  exact ⟨h.extend hnodup hfresh hseen hclaimed hsub, hseen⟩

omit [PyText] in
theorem batch_locked {loop : LoopState} {batch : List Candidate} {locks : List TaskId} {i : TaskId}
    (hlock : ∀ i ∈ loop.seenIds, H (.task i)) (hbatch : ∀ i ∈ batch.map Candidate.id, i ∈ locks)
    (hi : i ∈ loop.seenIds ++ batch.map Candidate.id) :
    H (.task i) ∨ Lock.task i ∈ locks.map Lock.task := by
  rcases List.mem_append.mp hi with hi | hi
  · exact Or.inl (hlock i hi)
  · exact Or.inr (List.mem_map_of_mem (hbatch i hi))

/-- By induction on the rounds that are left: every id the loop has seen is
locked, and claimable as long as it is. -/
theorem claimTx_ok {now : Time} {args : ClaimArgs} {scans : Nat → Scan} (hr : r.Quiet)
    (n : Nat) (loop : LoopState) (H : Lock → Prop) (s : Store) (hloop : loop.Sound s.db now)
    (hlock : ∀ i ∈ loop.seenIds, H (.task i)) :
    (discipline governed).Ok r (claimTx now args scans n loop) H s := by
  induction n generalizing loop H s with
  | zero =>
    exact commit_ok hr fun s₁ s₂ a hrel hinv h => grantOn_ok hinv (hloop.later hlock hrel) hlock h
  | succ n ih =>
    rw [claimTx]
    intro s₁ other hrel _ _ _ _
    have hloop₁ := hloop.later hlock hrel
    obtain ⟨hnodup, hfresh⟩ := claimBatch_fresh now args (scans loop.rounds) loop s₁ other
    have hbatch := claimBatch_locked now args (scans loop.rounds) loop s₁ other
    dsimp only
    generalize claimLocks now args (scans loop.rounds) loop s₁ other = locks at hbatch ⊢
    generalize claimBatch now args (scans loop.rounds) loop s₁ other = batch at hnodup hfresh hbatch ⊢
    split
    · refine commit_ok hr fun s₂ s₃ a hrel₂ hinv h => ?_
      have hlock₂ : ∀ i ∈ loop.seenIds, H (.task i) ∨
          Lock.task i ∈ locks.map Lock.task := fun i hi => Or.inl (hlock i hi)
      exact grantOn_ok hinv (hloop₁.later hlock₂ hrel₂) hlock₂ h
    · intro s₂ other₂ hrel₂ _ _ _ _ s₃ other₃ hrel₃ _ _ _ _
      obtain ⟨hnext, hseen⟩ := hloop₁.spent args.limit hnodup hfresh (newTenantIds { loop with
        seenIds := loop.seenIds ++ batch.map Candidate.id
        rounds := loop.rounds + 1 } batch)
        (slackRows s₂.db (newTenantIds { loop with
          seenIds := loop.seenIds ++ batch.map Candidate.id
          rounds := loop.rounds + 1 } batch))
      have hlock₂ := fun i hi =>
        batch_locked hlock hbatch (hseen ▸ hi : i ∈ _ ++ batch.map Candidate.id)
      have hlater := (hnext.later hlock₂ hrel₂).later (fun i hi => Or.inl (hlock₂ i hi)) hrel₃
      exact ih _ _ s₃ hlater fun i hi => Or.inl (Or.inl (hlock₂ i hi))

/-! ## Bulk cancellation -/

/-- The visits lock what they take, and keep the locks held before. -/
theorem visitTx_ok {p : Task → Bool} {k : List TaskId → Program}
    (hk : ∀ taken (H' : Lock → Prop) s', (∀ l, H l → H' l) → (∀ i ∈ taken, H' (.task i)) →
      (discipline governed).Ok r (k taken) H' s') (todo taken : List TaskId) (H' : Lock → Prop)
    (s : Store) (hmono : ∀ l, H l → H' l) (htaken : ∀ i ∈ taken, H' (.task i)) :
    (discipline governed).Ok r (visitTx p k todo taken) H' s := by
  induction todo generalizing taken H' s with
  | nil =>
    rw [visitTx]
    exact hk taken H' s hmono htaken
  | cons i todo ih =>
    rw [visitTx]
    intro s₁ other _ _ _ _ _
    refine ih _ _ s₁ (fun l hl => Or.inl (hmono l hl)) fun j hj => ?_
    dsimp only
    split
    · rename_i hsel
      rw [if_pos hsel] at hj
      rcases List.mem_append.mp hj with hj | hj
      · exact Or.inl (htaken j hj)
      · exact Or.inr (by rw [List.mem_singleton.mp hj]; exact List.mem_singleton_self _)
    · rename_i hsel
      rw [if_neg hsel] at hj
      exact Or.inl (htaken j hj)

theorem updateTx_ok {point : Point} {p : Task → Bool} {scan : Scan} {k : List TaskId → Program}
    (hk : ∀ taken (H' : Lock → Prop) s', (∀ l, H l → H' l) → (∀ i ∈ taken, H' (.task i)) →
      (discipline governed).Ok r (k taken) H' s') :
    (discipline governed).Ok r (updateTx point p scan k) H s := by
  intro s₁ other _ _ _ _ _
  exact visitTx_ok hk _ [] _ s₁ (fun l hl => Or.inl hl) (by simp)

theorem sweepTx_ok {versions : List VersionId} {scan : Scan} {k : List TaskId → List TaskId → Program}
    (hk : ∀ queued running (H' : Lock → Prop) s', (∀ i ∈ queued, H' (.task i)) →
      (∀ i ∈ running, H' (.task i)) → (discipline governed).Ok r (k queued running) H' s') :
    (discipline governed).Ok r (sweepTx versions scan k) H s := by
  unfold sweepTx
  split
  · exact hk [] [] H s (by simp) (by simp)
  · refine updateTx_ok fun queued H₁ s₁ _ hqueued => updateTx_ok fun running H₂ s₂ hmono hrunning => ?_
    exact hk queued running H₂ s₂ (fun i hi => hmono _ (hqueued i hi)) hrunning

/-- What a bulk cancellation writes: tasks it locked, each by a step of its own. -/
theorem writeSweep_ok {db db' : Database} {now : Time} {versions : List VersionId} {reason : String}
    {queued running : List TaskId} {n : Nat}
    (h : writeSweep db now versions reason queued running = .ok (db', n)) :
    (∀ i, TaskStep ⟨now, .cancelAgentTasks versions reason⟩ i (db.view i) (db'.view i)) ∧
      ∀ i, db'.task? i ≠ db.task? i → i ∈ queued ∨ i ∈ running := by
  unfold writeSweep at h
  split at h
  · obtain ⟨rfl, -⟩ := Prod.mk.inj (Fallible.pure_ok.mp h)
    exact ⟨fun i => .skip, fun i hne => absurd rfl hne⟩
  have hdone : ∀ t, (running.contains ((agentDisabledWrite now reason).row t).id &&
      agentRunning versions ((agentDisabledWrite now reason).row t)) = false := by
    intro t
    rw [agentRunning_disabled, Bool.and_false]
  obtain ⟨-, hview⟩ := cancelSelected_ok hdone h
  have hcan : (Op.cancelAgentTasks versions reason).cancels = fun _ => True := by
    funext i
    exact propext ⟨fun _ => trivial, fun _ => Or.inr ⟨versions, reason, rfl⟩⟩
  refine ⟨fun i => ?_, fun i hne => ?_⟩
  · rw [hview i]
    unfold cancelSelectedView
    split
    · exact .skip
    rename_i t hrow
    split
    · rename_i hq
      simp only [agentQueued, Bool.and_eq_true, beq_iff_eq] at hq
      exact .cancelled (by rw [hcan]; trivial) hrow hq.2.2 (Or.inr ⟨reason, rfl⟩) rfl
    split
    · rename_i hu
      simp only [agentRunning, Bool.and_eq_true, beq_iff_eq, Bool.not_eq_true'] at hu
      exact .flagged (by rw [hcan]; trivial) hrow hu.2.1.2 hu.2.2 rfl
    · exact .skip
  · by_contra hout
    rw [not_or] at hout
    refine hne ?_
    rw [← Database.view_row, hview i, ← Database.view_row]
    unfold cancelSelectedView
    cases hrow : (db.view i).row with
    | none => exact hrow
    | some t =>
      have hid : t.id = i := Database.row_id hrow
      simp [hid, hout.1, hout.2, hrow]

omit [PyText] in
/-- The row of a task after a bulk cancellation. -/
theorem writeSweep_row {db db' : Database} {now : Time} {versions : List VersionId} {reason : String}
    {queued running : List TaskId} {n : Nat}
    (h : writeSweep db now versions reason queued running = .ok (db', n)) {i : TaskId} {t : Task}
    (ht : db.task? i = some t) : db'.task? i = some
      (if queued.contains i && agentQueued versions t then (agentDisabledWrite now reason).row t
      else if running.contains i && agentRunning versions t then (flagWrite now).row t else t) := by
  have hid : t.id = i := Database.row_id ht
  unfold writeSweep at h
  split at h
  · rename_i hnil
    obtain ⟨rfl, -⟩ := Prod.mk.inj (Fallible.pure_ok.mp h)
    subst hnil
    simp [agentQueued, agentRunning, ofVersions_nil, ht]
  · have hdone : ∀ t, (running.contains ((agentDisabledWrite now reason).row t).id &&
        agentRunning versions ((agentDisabledWrite now reason).row t)) = false := fun t => by
      rw [agentRunning_disabled, Bool.and_false]
    obtain ⟨-, hview⟩ := cancelSelected_ok hdone h
    rw [← Database.view_row, hview i]
    unfold cancelSelectedView
    rw [show (db.view i).row = some t from ht]
    simp only [hid]
    split
    · rfl
    split
    · rfl
    · exact ht

theorem sweepOn_ok {now : Time} {versions : List VersionId} {reason : String}
    {queued running : List TaskId} {s₁ s₂ : Store} {a : Answer} (hinv : s₁.Integrity governed)
    (hq : ∀ i ∈ queued, H (.task i)) (hu : ∀ i ∈ running, H (.task i))
    (h : sweepOn now versions reason queued running s₁ = .ok (s₂, a)) :
    s₂.Integrity governed ∧ StoreWrites H s₁ s₂ := by
  unfold sweepOn at h
  split at h
  · rename_i db n hsweep
    cases h
    obtain ⟨hsteps, hrows⟩ := writeSweep_ok hsweep
    refine writes_of_steps hinv hinv.registry (.refl _) ?_ ?_ hsteps ?_
    · intro i ty a w data hop
      cases hop
    · intro newId args hop
      cases hop
    · intro i _ hne
      rcases hrows i hne with hi | hi
      · exact hq i hi
      · exact hu i hi
  · cases h

/-! ## Submission -/

omit [PyText] in
theorem SubmitArgs.key_eq {args : SubmitArgs} {κ : TenantId × String} (hκ : args.idemKey = some κ)
    (t : Task) : (t.tenantId == args.tenantId && t.idempotencyKey == args.idempotencyKey) = true ↔
      t.idemKey = some κ := by
  obtain ⟨k, hk, rfl⟩ := Option.map_eq_some_iff.mp hκ
  simp [Task.idemKey, hk, and_comm]

omit [PyText] in
/-- The follow-up of an insert that found its key taken meets the row that has it. -/
theorem existingSubmission_of_key {db : Database} {args : SubmitArgs} {κ : TenantId × String}
    {i : TaskId} {t : Task} (hκ : args.idemKey = some κ) (ht : db.task? i = some t)
    (hkey : t.idemKey = some κ) :
    (args.differs t → existingSubmission db args = .error (.payloadMismatch i)) ∧
      (¬ args.differs t → existingSubmission db args = .ok ⟨false, t⟩) := by
  have hmem := Keyed.Table.mem_of_find? ht
  have hfind : db.tasks.rows.find? (fun u =>
      u.tenantId == args.tenantId && u.idempotencyKey == args.idempotencyKey) = some t := by
    cases hfind : db.tasks.rows.find? fun u =>
        u.tenantId == args.tenantId && u.idempotencyKey == args.idempotencyKey with
    | none => exact absurd ((args.key_eq hκ t).mpr hkey) (List.find?_eq_none.mp hfind t hmem)
    | some u =>
      have hsel := List.find?_some hfind
      have hu := (args.key_eq hκ u).mp hsel
      have humem := List.mem_of_find?_eq_some hfind
      have hid := db.tasks_idem u humem t hmem (by rw [hu]; rfl) (hu.trans hkey.symm)
      rw [Keyed.Table.eq_of_key_eq humem hmem hid]
  unfold existingSubmission SubmitArgs.differs
  rw [hfind]
  dsimp only
  constructor
  · intro h
    rw [if_neg (Bool.eq_false_iff.mp h), Database.row_id ht]
  · intro h
    rw [if_pos (Bool.not_eq_false _ ▸ h)]

/-- A submission whose key a row has is answered with that row or the mismatch with
it, and changes nothing. -/
theorem submitTask_held {db : Database} {now : Time} {newId : TaskId} {args : SubmitArgs}
    {κ : TenantId × String} {i : TaskId} {t : Task}
    (haccepted : (submittedTask now newId args).refused = none) (hκ : args.idemKey = some κ)
    (ht : db.task? i = some t) (hkey : t.idemKey = some κ) :
    (args.differs t → submitTask db now newId args = .error (.payloadMismatch i)) ∧
      (¬ args.differs t → submitTask db now newId args = .ok (db, ⟨false, t⟩)) := by
  have hins : insertTask db (submittedTask now newId args) = .ok none := by
    rcases insertTask_cases db (submittedTask now newId args) with ⟨c, hc, -⟩ | ⟨_, -, -, hins⟩ |
      ⟨hfree, -⟩
    · rw [haccepted] at hc
      cases hc
    · exact hins
    · exact absurd hkey (hfree _ hκ t (Keyed.Table.mem_of_find? ht))
  obtain ⟨hmismatch, hfound⟩ := existingSubmission_of_key hκ ht hkey
  rw [existingSubmission_eq hins]
  constructor
  · intro h
    rw [hmismatch h]
    rfl
  · intro h
    rw [hfound h]
    rfl

/-- The answer to an insert that found its key taken: the row is there and stays,
so it is that row or the mismatch with it. -/
theorem existingTx_ok {now : Time} {newId : TaskId} {args : SubmitArgs} {κ : TenantId × String}
    {answer : SubmitResult → Answer} {refuse : Raised → Failure}
    (hpost : ∀ x s, SubmitOutcome now newId args s x →
      RequestPost r ((x.map answer).mapError refuse) s)
    (hκ : args.idemKey = some κ) {i : TaskId} {t : Task} (ht : s.db.task? i = some t)
    (hkey : t.idemKey = some κ) :
    (discipline governed).Ok r (existingTx args answer refuse) H s := by
  intro s₁ other hrel _ _ _ _
  obtain ⟨t₁, ht₁, hpinned⟩ := rely_holds hrel ⟨t, ht, rfl⟩
  have hkey₁ : t₁.idemKey = some κ := (Task.idemKey_of_pinned hpinned).trans hkey
  obtain ⟨hmismatch, hfound⟩ := existingSubmission_of_key hκ ht₁ hkey₁
  dsimp only
  by_cases hdiffers : args.differs t₁
  · rw [hmismatch hdiffers]
    intro s₂ hrel₂ _
    exact hpost (.error (.payloadMismatch i)) s₂
      ⟨t₁, κ, rely_holds hrel₂ ⟨t₁, ht₁, rfl⟩, hκ, hkey₁, hdiffers⟩
  · rw [hfound hdiffers]
    intro s₂ hrel₂ hinv₂
    refine ⟨fun s₃ a hw => ?_, fun e hw => by cases hw⟩
    cases hw
    obtain ⟨hinv, hwrites⟩ := writes_of_registry hinv₂ rfl hinv₂.registry (.refl _)
    refine ⟨hinv, hwrites, hpost (.ok ⟨false, t₁⟩) s₂ ⟨?_, ⟨κ, hκ, hkey₁⟩, hdiffers⟩⟩
    rw [Database.row_id ht₁]
    exact rely_holds hrel₂ ⟨t₁, ht₁, rfl⟩

/-- What the insert of a submission commits while its key is free. -/
theorem insertOn_ok {now : Time} {newId : TaskId} {args : SubmitArgs} {s₁ : Store}
    (hinv : s₁.Integrity governed) (hfree : ∀ κ, args.idemKey = some κ → s₁.free κ)
    (hlock : ∀ κ, args.idemKey = some κ → H (.idem κ))
    (hpinned : governed → (submittedTask now newId args).pinned.Integrity s₁.reg) :
    (∀ s₂ res, insertOn now newId args s₁ = .ok (s₂, res) → s₂.Integrity governed ∧
      StoreWrites H s₁ s₂ ∧ SubmitOutcome now newId args s₂ (.ok res)) ∧
      ∀ e, insertOn now newId args s₁ = .error e → ∃ reason, e = .integrity reason := by
  have hrows : ∀ κ, (submittedTask now newId args).idemKey = some κ →
      ∀ u ∈ s₁.db.tasks.rows, u.idemKey ≠ some κ := fun κ hκ u hu =>
    hfree κ hκ u.id u (Keyed.Table.find?_key hu)
  unfold insertOn
  split
  · rcases submitTask_free hrows with ⟨db, hsub⟩ | ⟨reason, hsub⟩
    · rw [hsub]
      refine ⟨fun s₂ res h => ?_, fun e h => (by cases h)⟩
      cases h
      obtain ⟨-, ⟨-, hfresh, hview⟩ | ⟨hno, -⟩⟩ := submitTask_ok hsub
      swap
      · cases hno
      have hnew : db.task? newId = some (submittedTask now newId args) := by
        rw [← Database.view_row, hview, Function.update_self]
        rfl
      have hold : ∀ i, i ≠ newId → db.task? i = s₁.db.task? i := fun i hi => by
        rw [← Database.view_row, hview, Function.update_of_ne hi, Database.view_row]
      refine ⟨hinv.step hinv.registry (.refl _) fun i t' ht' => ?_, ⟨.refl _, ⟨⟨now, .submitTask newId
        args⟩, ?_, fun i => ?_⟩, fun i t ht hne => ?_, fun i t ht hnone κ hκ => ?_⟩, rfl,
        ⟨_, hnew, rfl⟩⟩
      · by_cases hi : i = newId
        · subst hi
          obtain rfl := Option.eq_some_unique hnew ht'
          exact Or.inr hpinned
        · exact Or.inl ⟨t', (hold i hi).symm.trans ht', rfl⟩
      · intro i ty a w data hop
        cases hop
      · rcases view_update (j := i) hview with ⟨rfl, hi⟩ | ⟨-, hi⟩
        · rw [show db.view i = submittedView now i args from hi]
          exact .submitted rfl (Database.view_absent hfresh)
        · exact .of_eq hi
      · by_cases hi : i = newId
        · rw [hi, hfresh] at ht
          cases ht
        · exact absurd ((hold i hi).trans ht) hne
      · by_cases hi : i = newId
        · subst hi
          obtain rfl := Option.eq_some_unique hnew ht
          exact hlock κ hκ
        · rw [show db.task? i = s₁.db.task? i from hold i hi, hnone] at ht
          cases ht
    · rw [hsub]
      refine ⟨fun s₂ res h => (by cases h), fun e h => ?_⟩
      cases h
      exact ⟨reason, rfl⟩
  · refine ⟨fun s₂ res h => (by cases h), fun e h => ?_⟩
    cases h
    exact ⟨_, rfl⟩

/-- A submission ends as it may, whoever makes it. -/
theorem submitTx_ok {now : Time} {newId : TaskId} {args : SubmitArgs}
    {answer : SubmitResult → Answer} {refuse : Raised → Failure}
    (hpost : ∀ x s, SubmitOutcome now newId args s x →
      RequestPost r ((x.map answer).mapError refuse) s)
    (hpinned : governed → (submittedTask now newId args).pinned.Integrity s.reg) :
    (discipline governed).Ok r (submitTx now newId args answer refuse) H s := by
  intro s₁ other hrel _ _ _ _
  have hpinned₁ := fun hg => (hpinned hg).keeps (rely_registry hrel)
  dsimp only
  rcases insertTask_cases s₁.db (submittedTask now newId args) with ⟨c, -, hins⟩ |
    ⟨κ, hκ, ⟨u, hu, hkey⟩, hins⟩ | ⟨hfree, ⟨db, hins⟩ | ⟨e, hins⟩⟩
  · rw [hins]
    exact fun s₂ _ _ => hpost (.error _) s₂ ⟨_, rfl⟩
  · rw [hins]
    exact existingTx_ok hpost hκ (Keyed.Table.find?_key hu) hkey
  · rw [hins]
    intro s₂ hrel₂ hinv₂
    have hlock : ∀ κ, args.idemKey = some κ → H (.idem κ) ∨ Lock.idem κ ∈ args.idemLocks := by
      intro κ hκ
      unfold SubmitArgs.idemLocks
      rw [hκ]
      exact Or.inr (by simp)
    have hfree₂ : ∀ κ, args.idemKey = some κ → s₂.free κ := fun κ hκ =>
      rely_free hrel₂ (hlock κ hκ) fun i t ht => hfree κ hκ t (Keyed.Table.mem_of_find? ht)
    obtain ⟨hreturns, hraises⟩ := insertOn_ok (H := fun l => H l ∨ l ∈ args.idemLocks) hinv₂ hfree₂
      hlock fun hg => (hpinned₁ hg).keeps (rely_registry hrel₂)
    dsimp only
    cases hon : insertOn now newId args s₂ with
    | ok p =>
      refine ⟨fun s₃ a hw => ?_, fun e hw => by cases hw⟩
      cases hw
      obtain ⟨hinv₃, hwrites, hx⟩ := hreturns p.1 p.2 hon
      exact ⟨hinv₃, hwrites, hpost (.ok p.2) p.1 hx⟩
    | error e =>
      refine ⟨fun s₃ a hw => (by cases hw), fun e' hw => ?_⟩
      cases hw
      obtain ⟨reason, rfl⟩ := hraises e hon
      exact hpost (.error _) s₂ ⟨reason, rfl⟩
  · rw [hins]
    exact fun s₂ _ _ => hpost (.error _) s₂ ⟨_, rfl⟩

/-! ## Every query -/

/-- **The task queries keep to the discipline**: those that record only events of
their own, and submissions where the pinned rows are not governed. -/
theorem callTx_ok {op : Op} (hop : r.op = .call op) (hstand : op.Standalone)
    (hsub : ∀ newId args, op = .submitTask newId args → ¬ governed) :
    (discipline governed).Ok r (callTx ⟨r.now, op⟩) H s := by
  have hquiet : (∀ newId args, op ≠ .submitTask newId args) → r.Quiet := by
    intro hno newId args hsubmits
    cases hsubmits with
    | call hcall =>
      rw [hop] at hcall
      exact hno newId args (Operation.call.inj hcall)
    | direct taskType hapi => rw [hop] at hapi; cases hapi
    | routed taskType resolution hapi => rw [hop] at hapi; cases hapi
  have hplain : (∀ newId args, op ≠ .submitTask newId args) → (∀ i, ¬ op.writesRow i) →
      (discipline governed).Ok r (.commit .other (performOn ⟨r.now, op⟩) : Program) H s := fun hno hrow =>
    commit_ok (hquiet hno) fun s₁ s₂ a _ hinv h =>
      performOn_ok hinv hstand hno (fun i hi => absurd hi (hrow i)) h
  cases op with
  | submitTask newId args =>
    refine submitTx_ok (fun x s hx => ⟨fun newId' args' hop' => ?_, fun _ _ _ _ hop' => ?_⟩)
      fun hg => absurd hg (hsub newId args rfl)
    · rw [hop] at hop'
      cases hop'
      exact ⟨x, hx, rfl⟩
    · rw [hop] at hop'
      cases hop'
  | claimTasks args scans =>
    exact claimTx_ok (hquiet (by simp)) maxRounds {} H s ⟨List.Sublist.refl _, List.nodup_nil, by simp⟩
      (by simp)
  | renewLease i w a ttl => exact rowTx_ok (hquiet (by simp)) hstand (by simp) fun j hj => hj
  | complete e i a w => exact rowTx_ok (hquiet (by simp)) hstand (by simp) fun j hj => hj
  | cancelTask i => exact cancelTx_ok (hquiet (by simp))
  | reap o limit scan => exact reapTx_ok (hquiet (by simp))
  | cancelAgentTasks versions reason =>
    refine sweepTx_ok fun queued running H' s' hq hu => ?_
    exact commit_ok (hquiet (by simp)) fun s₁ s₂ a _ hinv h => sweepOn_ok hinv hq hu h
  | createTenant newId name c q => exact hplain (by simp) fun i hi => hi
  | registerWorker w c caps => exact hplain (by simp) fun i hi => hi
  | heartbeat w => exact hplain (by simp) fun i hi => hi
  | setWorkerStatus w status => exact hplain (by simp) fun i hi => hi
  | markDeadWorkers n => exact hplain (by simp) fun i hi => hi
  | recordEvent i ty a w data => exact hplain (by simp) fun i hi => hi

end ControlPlane
