import ControlPlane.Db.ClaimLoop

/-! # The claim is a greedy pass

With no lock held by anyone else, the rounds of a claim walk down one queue, and
what they take is what a single greedy pass takes over the part they walked. The
pass comes back empty exactly when nobody in the first `maxRounds * limit` places
of the queue has slack. -/

namespace ControlPlane
open Keyed Fallible Selection Quota

/-- What a tenant may still run: its limit less its RUNNING tasks. -/
def Database.slackOf (db : Database) (tenantId : TenantId) : Int :=
  ((db.tenants.find? tenantId).map fun n =>
    n.maxConcurrentTasks - (runningCount db tenantId : Int)).getD 0

/-- No transaction but this one holds a lock. -/
def quiet (ctid : TaskId → Nat) : Nat → Scan := fun _ => { ctid := ctid }

/-- The tasks one greedy pass over `xs` takes. -/
abbrev greedy (db : Database) (limit : Int) (xs : List Task) : List Task :=
  select Task.tenantId limit.toNat db.slackOf xs

/-! ## Spending a batch -/

/-- The accounts of the round loop: what it has taken, and for each tenant it
knows, what is left. -/
structure LoopState.Accounts (db : Database) (taken : List Task) (s : LoopState) : Prop where
  claimed : s.claimedIds = taken.map Task.id
  slack : ∀ o ∈ s.slackKnown,
    (s.slack o).getD 0 = db.slackOf o - takenFor Task.tenantId o taken

theorem spend_accounts {db : Database} (limit : Int) {taken : List Task} {s : LoopState} {t : Task}
    (h : s.Accounts db taken) (hknown : t.tenantId ∈ s.slackKnown) :
    (spend limit s t.candidate).Accounts db
      (consider Task.tenantId limit.toNat db.slackOf taken t) ∧
      (spend limit s t.candidate).slackKnown = s.slackKnown ∧
      (s.slack = (spend limit s t.candidate).slack ∨
        ∃ n, (spend limit s t.candidate).slack = Function.update s.slack t.tenantId (some n)) := by
  have hleft := h.slack _ hknown
  have hlen : s.claimedIds.length = taken.length := by rw [h.claimed, List.length_map]
  have hadm : Admits Task.tenantId limit.toNat db.slackOf taken t ↔
      ¬ limit ≤ (s.claimedIds.length : Int) ∧ ¬ (s.slack t.tenantId).getD 0 ≤ 0 := by
    unfold Admits
    rw [hleft, hlen]
    omega
  unfold spend consider
  by_cases hfull : limit ≤ (s.claimedIds.length : Int)
  · rw [if_pos hfull, if_neg fun ha => (hadm.mp ha).1 hfull]
    exact ⟨h, rfl, Or.inl rfl⟩
  by_cases hout : (s.slack t.candidate.tenantId).getD 0 ≤ 0
  · rw [if_neg hfull, if_pos hout, if_neg fun ha => (hadm.mp ha).2 hout]
    exact ⟨h, rfl, Or.inl rfl⟩
  rw [if_neg hfull, if_neg hout, if_pos (hadm.mpr ⟨hfull, hout⟩)]
  refine ⟨⟨by simp [h.claimed, Task.candidate], fun o ho => ?_⟩, rfl, Or.inr ⟨_, rfl⟩⟩
  rw [takenFor_snoc]
  by_cases hne : o = t.tenantId
  · subst hne
    show (Function.update s.slack t.tenantId (some ((s.slack t.tenantId).getD 0 - 1)) t.tenantId).getD
      0 = _
    rw [Function.update_self, Option.getD_some, hleft, if_pos rfl]
    push_cast
    omega
  · show (Function.update s.slack t.tenantId _ o).getD 0 = _
    rw [Function.update_of_ne hne, h.slack o ho, if_neg (Ne.symm hne)]
    simp

theorem spendBatch_accounts {db : Database} (limit : Int) : ∀ (ts : List Task) {taken : List Task}
    {s : LoopState}, s.Accounts db taken → (∀ t ∈ ts, t.tenantId ∈ s.slackKnown) →
    (∀ o, o ∉ s.slackKnown → s.slack o = none) →
    ((ts.map Task.candidate).foldl (spend limit) s).Accounts db
      (ts.foldl (consider Task.tenantId limit.toNat db.slackOf) taken) ∧
      ((ts.map Task.candidate).foldl (spend limit) s).slackKnown = s.slackKnown ∧
      ∀ o, o ∉ s.slackKnown → ((ts.map Task.candidate).foldl (spend limit) s).slack o = none
  | [], taken, s, h, _, hnone => ⟨h, rfl, hnone⟩
  | t :: ts, taken, s, h, hknown, hnone => by
    obtain ⟨h₁, hk₁, hs₁⟩ := spend_accounts limit h (hknown t (by simp))
    have hnone₁ : ∀ o, o ∉ (spend limit s t.candidate).slackKnown →
        (spend limit s t.candidate).slack o = none := by
      intro o ho
      rw [hk₁] at ho
      rcases hs₁ with hs₁ | ⟨n, hs₁⟩
      · rw [← hs₁]; exact hnone o ho
      · rw [hs₁, Function.update_of_ne (fun he : o = t.tenantId => ho (he ▸ hknown t (by simp)))]
        exact hnone o ho
    obtain ⟨h₂, hk₂, hnone₂⟩ := spendBatch_accounts limit ts h₁
      (fun u hu => hk₁ ▸ hknown u (by simp [hu])) hnone₁
    rw [List.map_cons, List.foldl_cons, List.foldl_cons]
    exact ⟨h₂, hk₂.trans hk₁, fun o ho => hnone₂ o (hk₁ ▸ ho)⟩

/-! ## Learning the slack of new tenants -/

theorem slackRows_lookup (db : Database) (tenantIds : List TenantId) (o : TenantId) :
    (slackRows db tenantIds).lookup o =
      if tenantIds.contains o then
        (db.tenants.find? o).map fun n => n.maxConcurrentTasks - (runningCount db n.id : Int)
      else none :=
  Table.lookup_selected Tenant.id (fun o => tenantIds.contains o)
    (fun n => n.maxConcurrentTasks - (runningCount db n.id : Int)) o db.tenants.rows

theorem slackRows_slackOf {db : Database} {tenantIds : List TenantId} {o : TenantId}
    (h : o ∈ tenantIds) : ((slackRows db tenantIds).lookup o).getD 0 = db.slackOf o := by
  rw [slackRows_lookup, if_pos (by simpa using h)]
  unfold Database.slackOf
  cases hn : db.tenants.find? o with
  | none => rfl
  | some n => rw [Option.map_some, Option.map_some, Table.key_of_find? hn]

/-- After a batch's tenants are learned, the accounts cover them. -/
theorem learnSlack_accounts {db : Database} {taken : List Task} {s : LoopState} (ts : List Task)
    (h : s.Accounts db taken) (htaken : ∀ t ∈ taken, t.tenantId ∈ s.slackKnown)
    (hnone : ∀ o, o ∉ s.slackKnown → s.slack o = none) :
    (learnSlack db s (ts.map Task.candidate)).Accounts db taken ∧
      (∀ t ∈ ts, t.tenantId ∈ (learnSlack db s (ts.map Task.candidate)).slackKnown) ∧
      (∀ o ∈ s.slackKnown, o ∈ (learnSlack db s (ts.map Task.candidate)).slackKnown) ∧
      ∀ o, o ∉ (learnSlack db s (ts.map Task.candidate)).slackKnown →
        (learnSlack db s (ts.map Task.candidate)).slack o = none := by
  have hmem : ∀ o, o ∈ newTenantIds s (ts.map Task.candidate) ↔
      (∃ t ∈ ts, t.tenantId = o) ∧ o ∉ s.slackKnown := by
    intro o
    simp [newTenantIds, Task.candidate]
  unfold learnSlack recordSlack
  dsimp only
  split
  · rename_i hnil
    refine ⟨h, fun t ht => ?_, fun o ho => ho, hnone⟩
    by_contra hk
    have := (hmem t.tenantId).mpr ⟨⟨t, ht, rfl⟩, hk⟩
    rw [hnil] at this
    cases this
  · refine ⟨⟨h.claimed, fun o ho => ?_⟩, fun t ht => ?_, fun o ho => List.mem_append_left _ ho,
      fun o ho => ?_⟩
    · dsimp only
      by_cases hk : o ∈ s.slackKnown
      · -- known before: the new rows do not mention it
        have hno : o ∉ newTenantIds s (ts.map Task.candidate) := fun hn => ((hmem o).mp hn).2 hk
        rw [slackRows_lookup, if_neg (by simpa using hno), Option.none_or, h.slack o hk]
      · have hn : o ∈ newTenantIds s (ts.map Task.candidate) :=
          (List.mem_append.mp ho).resolve_left hk
        have hzero : takenFor Task.tenantId o taken = 0 := by
          refine List.countP_eq_zero.mpr fun t ht he => hk ?_
          exact of_decide_eq_true he ▸ htaken t ht
        rw [hnone o hk, Option.or_none, slackRows_slackOf hn, hzero]
        simp
    · by_cases hk : t.tenantId ∈ s.slackKnown
      · exact List.mem_append_left _ hk
      · exact List.mem_append_right _ ((hmem _).mpr ⟨⟨t, ht, rfl⟩, hk⟩)
    · have ho' := fun hk => ho (List.mem_append_left _ hk)
      have hn : o ∉ newTenantIds s (ts.map Task.candidate) := fun hn =>
        ho (List.mem_append_right _ hn)
      dsimp only
      rw [slackRows_lookup, if_neg (by simpa using hn), Option.none_or]
      exact hnone o ho'

/-! ## The rounds -/

/-- After the rounds so far, the loop has walked the first `m` places of the queue. -/
structure LoopState.Tracks (db : Database) (queue : List Task) (limit : Int) (m : Nat)
    (s : LoopState) : Prop where
  seen : s.seenIds = (queue.take m).map Task.id
  accounts : s.Accounts db (greedy db limit (queue.take m))
  known : ∀ t ∈ queue.take m, t.tenantId ∈ s.slackKnown
  fresh : ∀ o, o ∉ s.slackKnown → s.slack o = none

theorem tracks_start (db : Database) (queue : List Task) (limit : Int) :
    LoopState.Tracks db queue limit 0 {} where
  seen := by simp
  accounts := ⟨by simp [select], by simp⟩
  known := by simp
  fresh _ _ := rfl

variable [PyText]

/-- With no lock held, a round's batch is the next stretch of the queue. -/
theorem fetchCandidates_next {db : Database} {now : Time} {args : ClaimArgs} {ctid : TaskId → Nat}
    {s : LoopState} {m need : Nat}
    (hseen : s.seenIds = ((claimQueue db now args.workerCapabilities args.policy
      { ctid := ctid }).take m).map Task.id) :
    fetchCandidates db now args.workerCapabilities args.policy need s.seenIds { ctid := ctid } =
      (((claimQueue db now args.workerCapabilities args.policy { ctid := ctid }).drop m).take
        need).map Task.candidate := by
  rw [fetchCandidates_eq]
  congr 2
  rw [← filter_not_taken (claimQueue_ids_nodup ..) m, hseen]
  refine List.filter_congr fun t _ => ?_
  simp [Scan.offers]

/-- A round that did not break walks `need` places further; a round that broke
had reached the limit or the end of the queue. -/
theorem claimRound_tracks {db : Database} {now : Time} {args : ClaimArgs} {ctid : TaskId → Nat}
    {s : LoopState} {m : Nat}
    (h : s.Tracks db (claimQueue db now args.workerCapabilities args.policy { ctid := ctid })
      args.limit m) :
    match claimRound db now args { ctid := ctid } s with
    | none => args.limit ≤ s.claimedIds.length ∨
        (claimQueue db now args.workerCapabilities args.policy { ctid := ctid }).take m =
          claimQueue db now args.workerCapabilities args.policy { ctid := ctid }
    | some s' =>
      s'.Tracks db (claimQueue db now args.workerCapabilities args.policy { ctid := ctid })
        args.limit (m + (args.limit - s.claimedIds.length).toNat) ∧
      s.claimedIds.length < args.limit ∧ s'.rounds = s.rounds + 1 ∧
      m < (claimQueue db now args.workerCapabilities args.policy { ctid := ctid }).length := by
  generalize hQ : claimQueue db now args.workerCapabilities args.policy { ctid := ctid } = Q at *
  have hbatch : fetchCandidates db now args.workerCapabilities args.policy
      (args.limit - s.claimedIds.length).toNat s.seenIds { ctid := ctid } =
      ((Q.drop m).take (args.limit - s.claimedIds.length).toNat).map Task.candidate := by
    rw [fetchCandidates_next (m := m) (by rw [hQ]; exact h.seen), hQ]
  unfold claimRound
  dsimp only
  rw [hbatch]
  generalize hneed : (args.limit - s.claimedIds.length).toNat = need
  by_cases hfull : args.limit - s.claimedIds.length ≤ 0
  · rw [if_pos hfull]
    exact Or.inl (by omega)
  rw [if_neg hfull]
  by_cases hnil : ((Q.drop m).take need).map Task.candidate = []
  · rw [if_pos hnil]
    refine Or.inr (List.take_of_length_le ?_)
    have hlen := congrArg List.length hnil
    simp only [List.length_map, List.length_take, List.length_drop, List.length_nil] at hlen
    omega
  rw [if_neg hnil]
  -- the round proper: the batch extends the prefix, its tenants are learned, its slack is spent
  have hsplit : Q.take (m + need) = Q.take m ++ (Q.drop m).take need := List.take_add
  let s₁ : LoopState := { s with
    seenIds := s.seenIds ++ (((Q.drop m).take need).map Task.candidate).map Candidate.id
    rounds := s.rounds + 1 }
  obtain ⟨hacc, hnew, hold, hfresh⟩ := learnSlack_accounts (s := s₁) ((Q.drop m).take need)
    ⟨h.accounts.claimed, h.accounts.slack⟩
    (fun t ht => h.known t ((select_sublist ..).subset ht)) h.fresh
  obtain ⟨hacc', hknown', hfresh'⟩ := spendBatch_accounts args.limit _ hacc hnew hfresh
  obtain ⟨more, -, -, hseen', -, hrounds'⟩ := spendBatch_claimed args.limit
    (((Q.drop m).take need).map Task.candidate)
    (learnSlack db s₁ (((Q.drop m).take need).map Task.candidate))
  obtain ⟨-, hlseen, hlrounds⟩ :=
    learnSlack_ids db s₁ (((Q.drop m).take need).map Task.candidate)
  have hmore : m < Q.length := by
    by_contra hend
    exact hnil (by rw [List.drop_eq_nil_of_le (Nat.not_lt.mp hend), List.take_nil, List.map_nil])
  refine ⟨⟨?_, ?_, ?_, ?_⟩, by omega, hrounds'.trans hlrounds, hmore⟩
  · rw [hseen', hlseen]
    show s.seenIds ++ _ = _
    rw [h.seen, hsplit, List.map_append, List.map_map]
    rfl
  · rw [hsplit, greedy, select_append]
    exact hacc'
  · intro t ht
    rw [hknown']
    rw [hsplit] at ht
    rcases List.mem_append.mp ht with ht | ht
    · exact hold _ (h.known t ht)
    · exact hnew t ht
  · intro o ho
    exact hfresh' o (hknown' ▸ ho)

/-- **The rounds of a claim**, with no lock held by anyone else: they walk some
prefix of the queue, take what a greedy pass over it takes, and stop because the
limit or the end of the queue was reached or no round was left, each having examined
somebody. -/
theorem claimRounds_tracks {db : Database} {now : Time} {args : ClaimArgs} {ctid : TaskId → Nat} :
    ∀ {n : Nat} {s : LoopState} {m : Nat},
    s.Tracks db (claimQueue db now args.workerCapabilities args.policy { ctid := ctid })
      args.limit m →
    ∃ m', (claimRounds db now args (quiet ctid) n s).Tracks db
        (claimQueue db now args.workerCapabilities args.policy { ctid := ctid }) args.limit m' ∧
      (args.limit ≤ (claimRounds db now args (quiet ctid) n s).claimedIds.length ∨
        (claimQueue db now args.workerCapabilities args.policy { ctid := ctid }).take m' =
          claimQueue db now args.workerCapabilities args.policy { ctid := ctid } ∨
        (claimRounds db now args (quiet ctid) n s).rounds = s.rounds + n ∧
          ((claimQueue db now args.workerCapabilities args.policy { ctid := ctid }).take m).length + n ≤
            ((claimQueue db now args.workerCapabilities args.policy { ctid := ctid }).take m').length) ∧
      m' ≤ m + n * args.limit.toNat
  | 0, s, m, h => ⟨m, h, Or.inr (Or.inr ⟨rfl, le_rfl⟩), by omega⟩
  | n + 1, s, m, h => by
    have hround := claimRound_tracks h
    unfold claimRounds
    simp only [quiet] at hround ⊢
    split
    · rename_i hnone
      rw [hnone] at hround
      refine ⟨m, h, ?_, Nat.le_add_right _ _⟩
      rcases hround with hfull | hend
      · exact Or.inl hfull
      · exact Or.inr (Or.inl hend)
    · rename_i s' hsome
      rw [hsome] at hround
      obtain ⟨hs', hroom, hrounds, hmore⟩ := hround
      obtain ⟨m', hm', hstop, hle⟩ := claimRounds_tracks (n := n) hs'
      rw [hrounds] at hstop
      refine ⟨m', hm', ?_, ?_⟩
      swap
      · rw [Nat.succ_mul]
        omega
      rcases hstop with hstop | hstop | ⟨hstop, hlen⟩
      · exact Or.inl hstop
      · exact Or.inr (Or.inl hstop)
      · refine Or.inr (Or.inr ⟨by omega, ?_⟩)
        rw [List.length_take] at hlen ⊢
        omega

theorem claimRounds_claimed_mono (db : Database) (now : Time) (args : ClaimArgs)
    (scans : Nat → Scan) (n : Nat) (s : LoopState) :
    s.claimedIds.length ≤ (claimRounds db now args scans n s).claimedIds.length := by
  induction n generalizing s with
  | zero => exact le_refl _
  | succ n ih =>
    unfold claimRounds
    split
    · exact le_refl _
    · rename_i s' hsome
      obtain ⟨_, more, -, -, hc, -⟩ := claimRound_ids hsome
      have := ih s'
      rw [hc, List.length_append] at this
      omega

/-- Rounds that claim nothing walk `limit` places each, past tenants without slack. -/
theorem claimRounds_idle {db : Database} {now : Time} {args : ClaimArgs} {ctid : TaskId → Nat}
    (hlimit : 1 ≤ args.limit) : ∀ {n : Nat} {s : LoopState} {m : Nat},
    s.Tracks db (claimQueue db now args.workerCapabilities args.policy { ctid := ctid })
      args.limit m →
    (claimRounds db now args (quiet ctid) n s).claimedIds = [] →
    ∀ t ∈ (claimQueue db now args.workerCapabilities args.policy { ctid := ctid }).take
      (m + n * args.limit.toNat), db.slackOf t.tenantId ≤ 0
  | 0, s, m, h, hnil => by
    have hgreedy : greedy db args.limit _ = [] :=
      List.map_eq_nil_iff.mp (h.accounts.claimed.symm.trans hnil)
    rw [Nat.zero_mul, Nat.add_zero]
    exact (select_eq_nil_iff _ _ _ (by omega)).mp hgreedy
  | n + 1, s, m, h, hnil => by
    have hempty : s.claimedIds = [] := by
      have := claimRounds_claimed_mono db now args (quiet ctid) (n + 1) s
      rw [hnil] at this
      exact List.length_eq_zero_iff.mp (Nat.le_zero.mp this)
    have hround := claimRound_tracks h
    unfold claimRounds at hnil
    simp only [quiet] at hround hnil
    split at hnil
    · rename_i hnone
      rw [hnone] at hround
      rcases hround with hfull | hend
      · rw [hempty] at hfull
        simp only [List.length_nil] at hfull
        omega
      · -- the queue ended inside the part already walked
        have hgreedy : greedy db args.limit _ = [] :=
          List.map_eq_nil_iff.mp (h.accounts.claimed.symm.trans hempty)
        rw [hend] at hgreedy
        intro t ht
        exact (select_eq_nil_iff _ _ _ (by omega)).mp hgreedy t (List.mem_of_mem_take ht)
    · rename_i s' hsome
      rw [hsome] at hround
      obtain ⟨hs', -⟩ := hround
      have hidle := claimRounds_idle hlimit (n := n) hs' hnil
      rw [hempty] at hidle
      rw [Nat.succ_mul, Nat.add_comm (n * _), ← Nat.add_assoc]
      simpa using hidle

/-- A claim chooses nothing exactly when nobody in the first `maxRounds * limit`
places of the queue has slack. -/
theorem claimLoop_eq_nil_iff {db : Database} {now : Time} {args : ClaimArgs}
    {ctid : TaskId → Nat} (hlimit : 1 ≤ args.limit) :
    (claimLoop db now args (quiet ctid)).claimedIds = [] ↔
      ∀ t ∈ (claimQueue db now args.workerCapabilities args.policy { ctid := ctid }).take
        (maxRounds * args.limit.toNat), db.slackOf t.tenantId ≤ 0 := by
  have hstart := tracks_start db
    (claimQueue db now args.workerCapabilities args.policy { ctid := ctid }) args.limit
  constructor
  · intro hnil
    have hidle := claimRounds_idle hlimit hstart hnil
    rwa [Nat.zero_add] at hidle
  · intro hall
    obtain ⟨m, hm, -, hle⟩ := claimRounds_tracks (n := maxRounds) hstart
    unfold claimLoop
    rw [hm.accounts.claimed, List.map_eq_nil_iff]
    refine (select_eq_nil_iff _ _ _ (by omega)).mpr fun t ht => hall t ?_
    exact (List.take_sublist_take_left (by omega)).subset ht

/-- Why a claim of these tasks can abort: its worker is not registered, or the
ledger already has a row for one of the attempts. -/
def ClaimAborts (db : Database) (w : WorkerId) (chosen : List Task) : Prop :=
  db.workers.find? w = none ∨ ∃ t ∈ chosen, (db.attempt? t.id (t.attempt + 1)).isSome = true

theorem claimTasks_error {db : Database} {now : Time} {args : ClaimArgs} {scans : Nat → Scan}
    {chosen : List Task} (hchosen : ∀ t ∈ chosen, db.task? t.id = some t)
    (hids : (claimLoop db now args scans).claimedIds = chosen.map Task.id) {e : Raised}
    (h : claimTasks db now args scans = .error e) : chosen ≠ [] ∧ ClaimAborts db args.workerId chosen := by
  constructor
  · rintro rfl
    unfold claimTasks at h
    dsimp only at h
    rw [hids, List.map_nil, if_pos rfl] at h
    cases h
  · by_contra hno
    unfold ClaimAborts at hno
    push Not at hno
    obtain ⟨hw, hfree⟩ := hno
    rcases claimTasks_fresh db now args scans (fun t hi ht => by
      rw [hids] at hi
      obtain ⟨u, hu, hid⟩ := List.mem_map.mp hi
      have hut := hchosen u hu
      rw [hid, ht] at hut
      obtain rfl := Option.some.inj hut
      exact Option.not_isSome_iff_eq_none.mp (hfree t hu)) with ⟨db', rows, hok⟩ | ⟨-, hnone⟩
    · rw [hok] at h; cases h
    · exact hw hnone

/-! ## The claim against its greedy specification -/

/-- The tasks a worker may claim by key, in claim order. -/
def claimEligible (db : Database) (now : Time) (workerCapabilities : List String) : List Task :=
  sortBy (fun t => [(t.priority : ℚ), t.availableAt, (t.id : ℚ)]) (db.tasks.rows.filter fun t =>
    decide (t.state = .queued ∧ t.availableAt ≤ now ∧
      t.capabilityKey ∈ satisfiableCapabilityKeys workerCapabilities))

theorem claimQueue_keyed {db : Database} {now : Time} {caps : List String} {policy : ClaimPolicy}
    {scan : Scan} (hcaps : (normalised caps).length ≤ maxKeyedClaimCapabilities) :
    claimQueue db now caps policy scan = claimEligible db now caps := by
  unfold claimQueue keyedQueue claimEligible
  rw [if_pos hcaps]
  congr 2
  funext t
  rw [Bool.eq_iff_iff]
  simp [Task.claimable, and_assoc]

/-- What a claim of these tasks leaves: each of them granted, in order, and
every other row as it was. -/
structure Granted (db : Database) (now : Time) (args : ClaimArgs) (chosen : List Task)
    (db' : Database) (rows : List Task) : Prop where
  rows_eq : rows = chosen.map (claimWrite now args.workerId args.leaseTtlS).row
  granted : ∀ t ∈ chosen, ∃ t', db'.task? t.id = some t' ∧ t' ∈ rows ∧ t'.state = .running ∧
    t'.attempt = t.attempt + 1 ∧ t'.leaseWorkerId = some args.workerId ∧
    t'.leaseExpiresAt = some (now + seconds args.leaseTtlS) ∧ t'.pinned = t.pinned
  others : ∀ i, i ∉ chosen.map Task.id → db'.task? i = db.task? i

theorem claimTasks_granted {db db' : Database} {now : Time} {args : ClaimArgs} {scans : Nat → Scan}
    {rows chosen : List Task} (hchosen : ∀ t ∈ chosen, db.task? t.id = some t)
    (hids : (claimLoop db now args scans).claimedIds = chosen.map Task.id)
    (h : claimTasks db now args scans = .ok (db', rows)) :
    Granted db now args chosen db' rows := by
  obtain ⟨-, hrows, hin, hout⟩ := claimTasks_ok h
  rw [hids] at hrows hin hout
  have hmap : rows = chosen.map (claimWrite now args.workerId args.leaseTtlS).row := by
    rw [hrows]
    unfold grantedRows
    rw [List.filterMap_map]
    refine (List.filterMap_congr (g := some ∘ (claimWrite now args.workerId args.leaseTtlS).row)
      fun t ht => ?_).trans (congrFun List.filterMap_eq_map chosen)
    simp [hchosen t ht]
  refine ⟨hmap, fun t ht => ?_, fun i hi => congrArg TaskView.row (hout i hi)⟩
  obtain ⟨s, hs, -, hmem, hv⟩ := hin t.id (List.mem_map_of_mem ht)
  obtain rfl : t = s := Option.eq_some_unique (hchosen t ht) hs
  exact ⟨_, congrArg TaskView.row hv, hmem, rfl, rfl, rfl, rfl, (claimWrite ..).pinned t⟩

end ControlPlane
