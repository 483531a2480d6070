import ControlPlane.Server.WorkerDeath

/-! # What a worker takes on

A worker claims no more attempts than it has room for, and one that has learned
that it was declared DEAD claims nothing, hands nothing back and writes its own
row no more: what is left of it are the attempts in flight. Both are invariants of
the worker's own state, which only its own steps change. -/

namespace ControlPlane
open Keyed Fallible Runs

/-! ## The limit of a claim -/

theorem spend_length (limit : Int) (s : LoopState) (row : Candidate)
    (h : (s.claimedIds.length : Int) ≤ max limit 0) :
    ((spend limit s row).claimedIds.length : Int) ≤ max limit 0 := by
  unfold spend
  dsimp only
  split
  · exact h
  · rename_i hroom
    split
    · exact h
    · rw [List.length_append, List.length_singleton]
      omega

theorem spends_length (limit : Int) (batch : List Candidate) (s : LoopState)
    (h : (s.claimedIds.length : Int) ≤ max limit 0) :
    ((batch.foldl (spend limit) s).claimedIds.length : Int) ≤ max limit 0 := by
  induction batch generalizing s with
  | nil => exact h
  | cons row batch ih => exact ih _ (spend_length limit s row h)

section Claims
variable [PyText]

theorem claimRound_length {db : Database} {now : Time} {args : ClaimArgs} {scan : Scan}
    {s s' : LoopState} (h : claimRound db now args scan s = some s')
    (hs : (s.claimedIds.length : Int) ≤ max args.limit 0) :
    (s'.claimedIds.length : Int) ≤ max args.limit 0 := by
  unfold claimRound at h
  dsimp only at h
  split at h
  · cases h
  split at h <;> cases h
  refine spends_length _ _ _ ?_
  rw [learnSlack_eq]
  exact hs

theorem claimRounds_length (db : Database) (now : Time) (args : ClaimArgs) (scans : Nat → Scan)
    (n : Nat) (s : LoopState) (hs : (s.claimedIds.length : Int) ≤ max args.limit 0) :
    ((claimRounds db now args scans n s).claimedIds.length : Int) ≤ max args.limit 0 := by
  induction n generalizing s with
  | zero => exact hs
  | succ n ih =>
    unfold claimRounds
    split
    · exact hs
    · rename_i s' hround
      exact ih s' (claimRound_length hround hs)

/-- A claim returns no more rows than it may. -/
theorem claimTasks_length {db db' : Database} {now : Time} {args : ClaimArgs} {scans : Nat → Scan}
    {rows : List Task} (h : claimTasks db now args scans = .ok (db', rows)) :
    (rows.length : Int) ≤ max args.limit 0 := by
  obtain ⟨-, rfl, -, -⟩ := claimTasks_ok h
  have hids : ((claimLoop db now args scans).claimedIds.length : Int) ≤ max args.limit 0 :=
    claimRounds_length db now args scans maxRounds {} (le_max_right _ _)
  have hle : (grantedRows db now args.workerId args.leaseTtlS
      (claimLoop db now args scans).claimedIds).length ≤
      (claimLoop db now args scans).claimedIds.length := List.length_filterMap_le ..
  omega

end Claims

/-! ## Invariants of a worker's own state -/

/-- A property that every worker has when it starts and that its own steps keep. -/
structure WorkerInvariant [PyText] (I : Worker → Prop) : Prop where
  started : ∀ config : WorkerConfig, 1 ≤ config.capacity → I { config }
  moved : ∀ {w : WorkerId} {p : Worker} {a : WorkerAction} {m : Move Worker} (db : Database)
    (now : Time), runForever w p a = some m → I p → I (m.run db now).2

variable [PyText]

omit [PyText] in
theorem registerWorker_row {db db' : Database} {now : Time} {w : WorkerId} {c : Int}
    {caps : List String} {r : WorkerRow} (h : registerWorker db now w c caps = .ok (db', r)) :
    1 ≤ c ∧ db'.workers.find? w = some r ∧ r.lastHeartbeatAt = now ∧ r.status = .alive := by
  simp only [registerWorker] at h
  split at h
  · cases h
  · split at h
    · cases h
    · rename_i hp
      cases h
      refine ⟨by omega, ?_, rfl, rfl⟩
      rw [Table.find?_insert? hp, if_pos rfl]

/-- What a step does to the workers: nothing, one starts, or one makes a step. -/
theorem step_workers {s s' : System} {a : Action} (h : SystemStep s a s') :
    (s'.workers = s.workers ∧ ∀ w b, a ≠ .worker w b) ∨
      (∃ w config row, a = .start w config ∧ s.workers w = none ∧ 1 ≤ config.capacity ∧
        registerWorker s.db s.clock w config.capacity (normalised config.capabilities) =
          .ok (s'.db, row) ∧
        s'.workers = Function.update s.workers w
          (some { config := { config with capabilities := normalised config.capabilities } })) ∨
      ∃ w p b m, a = .worker w b ∧ s.workers w = some p ∧ runForever w p b = some m ∧
        s'.workers = Function.update s.workers w (some (m.run s.db s.clock).2) := by
  unfold SystemStep step at h
  cases a with
  | advance d =>
    dsimp only at h
    split at h <;> cases h
    exact .inl ⟨rfl, nofun⟩
  | external op =>
    dsimp only at h
    split at h <;> cases h
    exact .inl ⟨rfl, nofun⟩
  | start w config =>
    dsimp only at h
    split at h
    · cases h
    rename_i hnone
    split at h
    · rename_i db r hok
      cases h
      obtain ⟨row, hreg, -⟩ := mapSnd_ok (show (registerWorker s.db s.clock w config.capacity
        (normalised config.capabilities)).map (Prod.map id .worker) = .ok (db, r) from hok)
      obtain ⟨hcap, hrow, -⟩ := registerWorker_row hreg
      exact .inr (.inl ⟨w, config, row, rfl, by simpa using hnone, hcap, hreg, rfl⟩)
    · cases h
  | worker w b =>
    dsimp only at h
    obtain ⟨p, hp, h⟩ := Option.bind_eq_some_iff.mp h
    obtain ⟨m, hm, rfl⟩ := Option.map_eq_some_iff.mp h
    exact .inr (.inr ⟨w, p, b, m, rfl, hp, hm, rfl⟩)

/-- All workers have the property. -/
def System.Each (I : Worker → Prop) (s : System) : Prop := ∀ w p, s.workers w = some p → I p

theorem WorkerInvariant.step {I : Worker → Prop} (hI : WorkerInvariant I) {s s' : System}
    {a : Action} (h : SystemStep s a s') (hs : s.Each I) : s'.Each I := by
  intro v q hq
  rcases step_workers h with ⟨he, -⟩ | ⟨w, config, row, -, -, hcap, -, he⟩ | ⟨w, p, b, m, -, hp, hm, he⟩
  · exact hs v q (he ▸ hq)
  · rw [he] at hq
    rcases update_some hq with ⟨rfl, rfl⟩ | hq
    · exact hI.started _ hcap
    · exact hs v q hq
  · rw [he] at hq
    rcases update_some hq with ⟨rfl, rfl⟩ | hq
    · exact hI.moved s.db s.clock hm (hs v p hp)
    · exact hs v q hq

/-- **What every worker keeps of its own state holds in every run of the system.** -/
theorem WorkerInvariant.run {I : Worker → Prop} (hI : WorkerInvariant I) {acts : List Action}
    {s : System} (h : Run SystemStep .initial acts s) : s.Each I :=
  h.invariant (fun hs hst => hI.step hst hs) fun w p hp => by cases hp

/-! ## What a step makes of a worker -/

/-- The worker is about to claim. -/
def Stage.isClaiming : Stage → Bool
  | claiming => true
  | _ => false

/-- The worker is in its main loop. -/
def Stage.inLoop : Stage → Bool
  | polling => true
  | claiming => true
  | _ => false

/-- The worker hands back what it owns. -/
def Stage.isHandingBack : Stage → Bool
  | handingBack _ => true
  | _ => false

omit [PyText] in
theorem Stage.not_claiming {stage : Stage} (h : stage.inLoop = false) : stage.isClaiming = false := by
  cases stage <;> first | rfl | cases h

/-- The steps of a worker, by what they make of its own state. -/
inductive OwnMove (db : Database) (now : Time) (w : WorkerId) (p : Worker) :
    WorkerAction → Worker → Prop
  /-- the attempts go on, some may have been dropped; the main coroutine is where it was -/
  | within {a : WorkerAction} {q : Worker} (hconfig : q.config = p.config)
      (hrows : (q.inflight.map Attempt.row).Sublist (p.inflight.map Attempt.row))
      (hstage : q.stage = p.stage)
      (hstopping : p.stopping = true → q.stopping = true) (hfenced : q.fenced = p.fenced) :
      OwnMove db now w p a q
  | polled (hstage : p.stage = .polling) (hgoing : p.stopping = false) (hfree : 0 < p.free) :
      OwnMove db now w p .poll { p with stage := .claiming }
  | claimed {scans : Nat → Scan} (hstage : p.stage = .claiming) :
      OwnMove db now w p (.claim scans)
        (p.dispatch ((perform db now (.claimTasks (p.claimArgs w) scans)).map Prod.snd))
  /-- a heartbeat was refused -/
  | declaredDead (hstage : p.stage = .polling)
      (hreply : (perform db now (.heartbeat w)).map Prod.snd = .ok (.alive false)) :
      OwnMove db now w p .heartbeat { p with fenced := true, stopping := true }
  /-- the main coroutine is on its way out -/
  | leaving {a : WorkerAction} {q : Worker} (hconfig : q.config = p.config)
      (hrows : (q.inflight.map Attempt.row).Sublist (p.inflight.map Attempt.row))
      (hfenced : q.fenced = p.fenced) (hstopping : q.stopping = p.stopping)
      (hloop : q.stage.inLoop = false)
      (hhanding : q.stage.isHandingBack = true → p.fenced = false ∨ p.stage.isHandingBack = true) :
      OwnMove db now w p a q

omit [PyText] in
/-- An attempt that goes on is of the same row. -/
theorem map_row_set {l : List Attempt} {k : Nat} {x y : Attempt} (hx : l[k]? = some x)
    (hrow : y.row = x.row) : (l.set k y).map Attempt.row = l.map Attempt.row := by
  obtain ⟨hk, rfl⟩ := List.getElem?_eq_some_iff.mp hx
  have hk' : k < (l.map Attempt.row).length := by simpa using hk
  have hsame : y.row = (l.map Attempt.row)[k] := by simp [hrow]
  rw [List.map_set, hsame, List.set_getElem_self]

theorem runForever_own {w : WorkerId} {p : Worker} {a : WorkerAction} {m : Move Worker}
    (h : runForever w p a = some m) (db : Database) (now : Time) :
    OwnMove db now w p a (m.run db now).2 := by
  have hleave : ∀ {a : WorkerAction} {stage : Stage}, stage.inLoop = false →
      stage.isHandingBack = false → OwnMove db now w p a { p with stage := stage } := fun hc hb =>
    .leaving rfl (List.Sublist.refl _) rfl rfl hc fun he => by rw [hb] at he; cases he
  have hback : ∀ {a : WorkerAction} {owned : Owned} {stage : Stage}, p.stage.isHandingBack = true →
      stage.inLoop = false → OwnMove db now w p a { p with owned := owned, stage := stage } :=
    fun hp hc => .leaving rfl (List.Sublist.refl _) rfl rfl hc fun _ => .inr hp
  unfold runForever at h
  split at h
  · cases h
    exact .within rfl (List.Sublist.refl _) rfl (fun _ => rfl) rfl
  · cases h
    exact .leaving rfl (List.nil_sublist _) rfl rfl rfl nofun
  · split at h
    · cases h
    · obtain ⟨x, hx, h⟩ := Option.bind_eq_some_iff.mp h
      obtain ⟨n, hn, rfl⟩ := Option.map_eq_some_iff.mp h
      rw [Move.run_map]
      have hsame := map_row_set hx ((runAttempt_move hn).row db now)
      exact .within rfl (hsame ▸ List.Sublist.refl _) rfl id rfl
  · rename_i hstage
    split at h
    · cases h
    · cases h
      dsimp only [Move.run]
      split
      · exact .within rfl (List.Sublist.refl _) rfl id rfl
      · rename_i hreply
        exact .declaredDead hstage hreply
      · exact hleave rfl rfl
  · rename_i hstage
    split at h <;> cases h
    rename_i hgo
    simp only [Bool.or_eq_true, decide_eq_true_eq, not_or, Bool.not_eq_true, not_le] at hgo
    exact .polled hstage hgo.1 hgo.2
  · cases h
    exact .within rfl (List.filter_sublist.map _) rfl id rfl
  · cases h
    exact hleave rfl rfl
  · split at h <;> cases h
    exact hleave rfl rfl
  · rename_i hstage
    cases h
    exact .claimed hstage
  · cases h
    exact hleave rfl rfl
  · split at h <;> cases h
    · exact hleave rfl rfl
    · exact hleave rfl rfl
  · cases h
    exact hleave rfl rfl
  · split at h <;> cases h
    refine .leaving rfl (List.Sublist.refl _) rfl rfl ?_ fun he => .inl ?_
    · dsimp only [Move.run]
      split <;> rfl
    · by_contra hf
      dsimp only [Move.run] at he
      rw [if_pos (by simpa using hf)] at he
      cases he
  · rename_i hstage
    cases h
    exact hback (by rw [hstage]; rfl) rfl
  · rename_i hstage
    cases h
    exact hback (by rw [hstage]; rfl) rfl
  · rename_i hstage
    cases h
    exact hback (by rw [hstage]; rfl) rfl
  · rename_i hstage
    cases h
    exact hback (by rw [hstage]; rfl) rfl
  · cases h

theorem OwnMove.config {db : Database} {now : Time} {w : WorkerId} {p q : Worker} {a : WorkerAction}
    (h : OwnMove db now w p a q) : q.config = p.config := by
  cases h with
  | within hconfig hrows hstage hstopping hfenced => exact hconfig
  | polled hstage hgoing hfree => rfl
  | claimed hstage =>
    unfold Worker.dispatch
    split <;> rfl
  | declaredDead hstage hreply => rfl
  | leaving hconfig hrows hfenced hstopping hloop hhanding => exact hconfig

/-! ## Room for what is claimed -/

/-- No more attempts are in flight than the worker has room for, and there is
room for one where a claim is on its way. -/
structure Worker.Fits (p : Worker) : Prop where
  inflight : (p.inflight.length : Int) ≤ p.config.capacity
  room : p.stage.isClaiming = true → 0 < p.free

theorem Worker.Fits.dispatch {w : WorkerId} {p : Worker} (h : p.Fits) (hstage : p.stage = .claiming)
    {db : Database} {now : Time} {scans : Nat → Scan} :
    (p.dispatch ((perform db now (.claimTasks (p.claimArgs w) scans)).map Prod.snd)).Fits := by
  have hfree : 0 < p.free := h.room (by rw [hstage]; rfl)
  unfold Worker.dispatch
  split
  · rename_i rows hreply
    obtain ⟨rows', hclaim, he⟩ := mapSnd_ok (reply_ok hreply)
    obtain rfl := Reply.claimed.inj he
    have hlen := claimTasks_length hclaim
    have hlimit : (p.claimArgs w).limit ≤ p.free := min_le_left _ _
    refine ⟨?_, nofun⟩
    rw [List.length_append, List.length_map]
    unfold Worker.free at hlimit hfree
    push_cast
    omega
  · exact ⟨h.inflight, nofun⟩

theorem OwnMove.fits {db : Database} {now : Time} {w : WorkerId} {p q : Worker} {a : WorkerAction}
    (h : OwnMove db now w p a q) (hp : p.Fits) : q.Fits := by
  cases h with
  | within hconfig hrows hstage hstopping hfenced =>
    have hlength := hrows.length_le
    rw [List.length_map, List.length_map] at hlength
    refine ⟨?_, fun hc => ?_⟩
    · have := hp.inflight
      rw [hconfig]
      omega
    · have := hp.room (hstage ▸ hc)
      unfold Worker.free at this ⊢
      rw [hconfig]
      omega
  | polled hstage hgoing hfree => exact ⟨hp.inflight, fun _ => hfree⟩
  | claimed hstage => exact hp.dispatch hstage
  | declaredDead hstage hreply => exact ⟨hp.inflight, hp.room⟩
  | leaving hconfig hrows hfenced hstopping hloop hhanding =>
    have hlength := hrows.length_le
    rw [List.length_map, List.length_map] at hlength
    refine ⟨?_, fun hc => by rw [Stage.not_claiming hloop] at hc; cases hc⟩
    have := hp.inflight
    rw [hconfig]
    omega

theorem fits_invariant : WorkerInvariant Worker.Fits where
  started config hcap := ⟨by simpa using le_trans zero_le_one hcap, nofun⟩
  moved db now hm hp := (runForever_own hm db now).fits hp

/-- **A worker never has more attempts in flight than its capacity**, in any run of the
system. -/
theorem inflight_within_capacity {acts : List Action} {s : System}
    (h : Run SystemStep .initial acts s) {w : WorkerId} {p : Worker} (hp : s.workers w = some p) :
    (p.inflight.length : Int) ≤ p.config.capacity :=
  (fits_invariant.run h w p hp).inflight

/-- A worker with room for two has claimed one task. -/
def oneInFlight : List Action :=
  [.external (.createTenant 1 "tenant" 10 1000),
    .external (.submitTask 7 { tenantId := 1, taskType := "demo", payload := [] }),
    .start "worker" { capacity := 2, capabilities := [] }, .worker "worker" .poll,
    .worker "worker" (.claim fun _ => {})]

omit [PyText] in
theorem inflight_within_capacity_oneInFlight : ∃ s p,
    Run (@SystemStep PyText.plain) .initial oneInFlight s ∧ s.workers "worker" = some p ∧
    p.inflight.length = 1 ∧ (p.inflight.length : Int) ≤ p.config.capacity := by
  have hrun : ((exec (@step PyText.plain) .initial oneInFlight).bind fun s =>
      (s.workers "worker").map fun p => p.inflight.length) = some 1 := by decide +kernel
  obtain ⟨s, hs, hp⟩ := Option.bind_eq_some_iff.mp hrun
  obtain ⟨p, hp, hlen⟩ := Option.map_eq_some_iff.mp hp
  have h : Run (@SystemStep PyText.plain) .initial oneInFlight s := Run.of_exec hs
  exact ⟨s, p, h, hp, hlen, @inflight_within_capacity PyText.plain _ s h "worker" p hp⟩

/-! ## A worker's row -/

/-- What a call makes of a worker's row. -/
inductive RowStep (c : Call) (w : WorkerId) (r : WorkerRow) : WorkerRow → Prop
  | kept : RowStep c w r r
  | beat (hop : c.op = .heartbeat w) (halive : r.status ≠ .dead) :
      RowStep c w r { r with lastHeartbeatAt := c.now }
  | marked {status : WorkerStatus} (hop : c.op = .setWorkerStatus w status) :
      RowStep c w r { r with status := status }
  | died {deadAfterS : Int} (hop : c.op = .markDeadWorkers deadAfterS)
      (hstale : stale c.now deadAfterS r = true) : RowStep c w r { r with status := .dead }

omit [PyText] in
theorem updateWorkers_find? {db : Database} {w : WorkerId} {r : WorkerRow}
    (hr : db.workers.find? w = some r) (p : WorkerRow → Bool) (f : WorkerRow → WorkerRow)
    (hf : ∀ r, (f r).id = r.id) :
    (updateWorkers db p f hf).workers.find? w = some (if p r then f r else r) := by
  unfold updateWorkers
  rw [Table.find?_modify, hr]
  rfl

/-- A worker's row never goes; its heartbeats, the writes of its status and the sweep
for silent workers are all that change it. -/
theorem commit_workerRow {db : Database} {w : WorkerId} {r : WorkerRow}
    (hr : db.workers.find? w = some r) (c : Call) :
    ∃ r', (commit db c).workers.find? w = some r' ∧ RowStep c w r r' := by
  have hid : r.id = w := Table.key_of_find? hr
  by_cases hwrites : c.op.writesParties = false
  · exact ⟨r, by rw [(commit_parties hwrites).workers, hr], .kept⟩
  rcases commit_eq db c with ⟨x, h⟩ | h
  swap
  · exact ⟨r, by rw [h, hr], .kept⟩
  generalize commit db c = db' at h
  obtain ⟨now, op⟩ := c
  cases op with
  | createTenant newId name m q =>
    obtain ⟨t, h, -⟩ := mapSnd_ok h
    exact ⟨r, by rw [createTenant_workers h, hr], .kept⟩
  | registerWorker v m caps =>
    obtain ⟨t, h, -⟩ := mapSnd_ok h
    exact ⟨r, registerWorker_kept h hr, .kept⟩
  | heartbeat v =>
    cases h
    refine ⟨_, updateWorkers_find? hr .., ?_⟩
    split
    · rename_i hbeats
      simp only [beats, Bool.and_eq_true, beq_iff_eq, bne_iff_ne] at hbeats
      obtain rfl : w = v := hid.symm.trans hbeats.1
      exact .beat rfl hbeats.2
    · exact .kept
  | setWorkerStatus v status =>
    cases h
    refine ⟨_, updateWorkers_find? hr .., ?_⟩
    split
    · rename_i hv
      obtain rfl : w = v := hid.symm.trans (beq_iff_eq.mp hv)
      exact .marked rfl
    · exact .kept
  | markDeadWorkers s =>
    cases h
    refine ⟨_, updateWorkers_find? hr .., ?_⟩
    split
    · rename_i hstale
      exact .died rfl hstale
    · exact .kept
  | _ => exact absurd rfl hwrites

/-- A refused heartbeat means that the row says DEAD. -/
theorem heartbeat_refused {db : Database} {now : Time} {w : WorkerId} {r : WorkerRow}
    (hr : db.workers.find? w = some r)
    (h : (perform db now (.heartbeat w)).map Prod.snd = .ok (.alive false)) : r.status = .dead := by
  have hfalse : db.workers.rows.any (beats w) = false := Reply.alive.inj (Except.ok.inj h)
  have hrow := List.any_eq_false.mp hfalse r (Table.mem_of_find? hr)
  simpa [beats, Table.key_of_find? hr] using hrow

/-- A worker that runs is registered. -/
def System.Registered (s : System) : Prop :=
  ∀ w p, s.workers w = some p → ∃ r, s.db.workers.find? w = some r

theorem step_row {s s' : System} {a : Action} (h : SystemStep s a s') {w : WorkerId} {r : WorkerRow}
    (hr : s.db.workers.find? w = some r) : ∃ r', s'.db.workers.find? w = some r' ∧
      (r' = r ∨ ∃ op, s.op? a = some op ∧ RowStep ⟨s.clock, op⟩ w r r') := by
  rw [step_db h]
  split
  · exact ⟨r, hr, .inl rfl⟩
  · rename_i op hop
    obtain ⟨r', hr', hrow⟩ := commit_workerRow hr ⟨s.clock, op⟩
    exact ⟨r', hr', .inr ⟨op, hop, hrow⟩⟩

theorem step_registered {s s' : System} {a : Action} (h : SystemStep s a s') (hs : s.Registered) :
    s'.Registered := by
  have hkept : ∀ w, (∃ r, s.db.workers.find? w = some r) → ∃ r, s'.db.workers.find? w = some r := by
    intro w hw
    obtain ⟨r, hr⟩ := hw
    obtain ⟨r', hr', -⟩ := step_row h hr
    exact ⟨r', hr'⟩
  intro v q hq
  rcases step_workers h with ⟨he, -⟩ | ⟨w, config, row, -, -, -, hreg, he⟩ | ⟨w, p, b, m, -, hp, hm, he⟩
  · exact hkept v (hs v q (he ▸ hq))
  · rw [he] at hq
    rcases update_some hq with ⟨rfl, rfl⟩ | hq
    · exact ⟨row, (registerWorker_row hreg).2.1⟩
    · exact hkept v (hs v q hq)
  · rw [he] at hq
    rcases update_some hq with ⟨rfl, rfl⟩ | hq
    · exact hkept v (hs v p hp)
    · exact hkept v (hs v q hq)

/-! ## A fenced worker -/

/-- A worker that knows it was declared DEAD neither claims nor hands back. -/
def Worker.Withdrawn (p : Worker) : Prop :=
  p.fenced = true →
    p.stopping = true ∧ p.stage.isClaiming = false ∧ p.stage.isHandingBack = false

theorem OwnMove.withdrawn {db : Database} {now : Time} {w : WorkerId} {p q : Worker}
    {a : WorkerAction} (h : OwnMove db now w p a q) (hp : p.Withdrawn) : q.Withdrawn := by
  cases h with
  | within hconfig hrows hstage hstopping hfenced =>
    intro hf
    obtain ⟨hstop, hrest⟩ := hp (hfenced ▸ hf)
    exact ⟨hstopping hstop, by rwa [hstage]⟩
  | polled hstage hgoing hfree =>
    intro hf
    rw [(hp hf).1] at hgoing
    cases hgoing
  | claimed hstage =>
    intro hf
    have hold : p.fenced = true := by
      unfold Worker.dispatch at hf
      split at hf <;> exact hf
    have hclaiming := (hp hold).2.1
    rw [hstage] at hclaiming
    cases hclaiming
  | declaredDead hstage hreply =>
    refine fun _ => ⟨rfl, ?_, ?_⟩
    · show p.stage.isClaiming = false
      rw [hstage]
      rfl
    · show p.stage.isHandingBack = false
      rw [hstage]
      rfl
  | leaving hconfig hrows hfenced hstopping hloop hhanding =>
    intro hf
    obtain ⟨hstop, -, hback⟩ := hp (hfenced ▸ hf)
    refine ⟨hstopping ▸ hstop, Stage.not_claiming hloop, Bool.eq_false_iff.mpr fun he => ?_⟩
    rcases hhanding he with hno | hbefore
    · rw [← hfenced, hf] at hno
      cases hno
    · rw [hback] at hbefore
      cases hbefore

theorem withdrawn_invariant : WorkerInvariant Worker.Withdrawn where
  started _ _ := nofun
  moved db now hm hp := (runForever_own hm db now).withdrawn hp

/-- A transaction of an attempt in flight. -/
inductive AttemptOp (w : WorkerId) (x : Attempt) : Op → Prop
  | renewed {ttl : Int} : AttemptOp w x (.renewLease x.row.id w x.row.attempt ttl)
  | noted {ty : EventType} {data : Json} :
      AttemptOp w x (.recordEvent x.row.id ty (some x.row.attempt) (some w) data)
  | finalized {outcome : Outcome} {cancelRequested : Bool} {rng : Draws} {ending : Ending}
      (h : finalizeEnding x.row outcome cancelRequested rng = some ending) :
      AttemptOp w x (.complete ending x.row.id x.row.attempt w)

omit [PyText] in
theorem runAttempt_op {w : WorkerId} {ttl : Int} {x : Attempt} {owned : Owned} {a : AttemptAction}
    {m : Move (Attempt × Owned)} {op : Op} (h : runAttempt w ttl x owned a = some m)
    (hop : m.op? = some op) : AttemptOp w x op := by
  cases runAttempt_move h with
  | renewal hphase hn =>
    rw [Move.op?_map] at hop
    rw [renewUntilStopped_op hn hop]
    exact .renewed
  | silent hlike hreport => cases hop
  | noted hnext => cases hop; exact .noted
  | finalized hphase hending hnext => cases hop; exact .finalized hending

omit [PyText] in
/-- The main coroutine of a fenced worker commits nothing. -/
theorem runForever_fenced {w : WorkerId} {p : Worker} {a : WorkerAction} {m : Move Worker} {op : Op}
    (h : runForever w p a = some m) (hp : p.Withdrawn) (hf : p.fenced = true)
    (hop : m.op? = some op) : ∃ x ∈ p.inflight, AttemptOp w x op := by
  obtain ⟨hstop, hclaiming, hback⟩ := hp hf
  unfold runForever at h
  split at h
  · cases h; cases hop
  · cases h; cases hop
  · split at h
    · cases h
    · obtain ⟨x, hx, h⟩ := Option.bind_eq_some_iff.mp h
      obtain ⟨n, hn, rfl⟩ := Option.map_eq_some_iff.mp h
      rw [Move.op?_map] at hop
      exact ⟨x, List.mem_of_getElem? hx, runAttempt_op hn hop⟩
  · rw [if_pos hf] at h
    cases h
  · split at h <;> cases h
    cases hop
  · cases h; cases hop
  · cases h; cases hop
  · split at h <;> cases h <;> cases hop
  · rename_i hstage
    rw [hstage] at hclaiming
    cases hclaiming
  · cases h; cases hop
  · rw [if_pos hf] at h
    cases h
    cases hop
  · cases h; cases hop
  · split at h <;> cases h
    cases hop
  · rename_i hstage
    rw [hstage] at hback
    cases hback
  · cases h; cases hop
  · rename_i hstage
    rw [hstage] at hback
    cases hback
  · cases h; cases hop
  · cases h

theorem OwnMove.fenced {db : Database} {now : Time} {w : WorkerId} {p q : Worker} {a : WorkerAction}
    (h : OwnMove db now w p a q) (hf : q.fenced = true) : p.fenced = true ∨
      a = .heartbeat ∧ (perform db now (.heartbeat w)).map Prod.snd = .ok (.alive false) := by
  cases h with
  | within hconfig hrows hstage hstopping hfenced => exact .inl (hfenced ▸ hf)
  | polled hstage hgoing hfree => exact .inl hf
  | claimed hstage =>
    unfold Worker.dispatch at hf
    split at hf <;> exact .inl hf
  | declaredDead hstage hreply => exact .inr ⟨rfl, hreply⟩
  | leaving hconfig hrows hfenced hstopping hloop hhanding => exact .inl (hfenced ▸ hf)

/-- A step of a fenced worker: it stays one and takes nothing on. -/
theorem OwnMove.still {db : Database} {now : Time} {w : WorkerId} {p q : Worker} {a : WorkerAction}
    (h : OwnMove db now w p a q) (hp : p.Withdrawn) (hf : p.fenced = true) :
    q.fenced = true ∧ (q.inflight.map Attempt.row).Sublist (p.inflight.map Attempt.row) := by
  obtain ⟨hstop, hclaiming, -⟩ := hp hf
  cases h with
  | within hconfig hrows hstage hstopping hfenced => exact ⟨hfenced ▸ hf, hrows⟩
  | polled hstage hgoing hfree =>
    rw [hstop] at hgoing
    cases hgoing
  | claimed hstage =>
    rw [hstage] at hclaiming
    cases hclaiming
  | declaredDead hstage hreply => exact ⟨rfl, List.Sublist.refl _⟩
  | leaving hconfig hrows hfenced hstopping hloop hhanding => exact ⟨hfenced ▸ hf, hrows⟩

/-- What the system says of its fenced workers. -/
structure System.Fencing (s : System) : Prop where
  withdrawn : s.Each Worker.Withdrawn
  registered : s.Registered
  dead : ∀ w p, s.workers w = some p → p.fenced = true → s.db.Dead w

omit [PyText] in
theorem initial_fencing : System.initial.Fencing where
  withdrawn w p hp := by cases hp
  registered w p hp := by cases hp
  dead w p hp := by cases hp

omit [PyText] in
theorem Issues.status {w v : WorkerId} {p : Worker} {a : WorkerAction} {status : WorkerStatus}
    (h : Issues w p a (.setWorkerStatus v status)) : v = w := by
  generalize hop : Op.setWorkerStatus v status = op at h
  cases h with
  | liveness hlive =>
    obtain rfl | ⟨status, rfl⟩ := hlive
    · cases hop
    · cases hop
      rfl
  | claimed => cases hop
  | renewed hx => cases hop
  | noted hx => cases hop
  | finalized hx hphase hending => cases hop
  | handedBack hstage => cases hop

omit [PyText] in
theorem Issues.renewal {w v : WorkerId} {p : Worker} {a : WorkerAction} {i : TaskId} {n ttl : Int}
    (h : Issues w p a (.renewLease i v n ttl)) : v = w ∧ ttl = p.config.leaseTtlS := by
  generalize hop : Op.renewLease i v n ttl = op at h
  cases h with
  | liveness hlive => obtain rfl | ⟨status, rfl⟩ := hlive <;> cases hop
  | claimed => cases hop
  | renewed hx =>
    cases hop
    exact ⟨rfl, rfl⟩
  | noted hx => cases hop
  | finalized hx hphase hending => cases hop
  | handedBack hstage => cases hop

omit [PyText] in
theorem Issues.not_markDead {w : WorkerId} {p : Worker} {a : WorkerAction} {n : Int} :
    ¬ Issues w p a (.markDeadWorkers n) := by
  intro h
  generalize hop : Op.markDeadWorkers n = op at h
  cases h with
  | liveness hlive => obtain rfl | ⟨status, rfl⟩ := hlive <;> cases hop
  | claimed => cases hop
  | renewed hx => cases hop
  | noted hx => cases hop
  | finalized hx hphase hending => cases hop
  | handedBack hstage => cases hop

/-- The transactions of a fenced worker are those of its attempts in flight. -/
theorem fenced_commits {s : System} {w : WorkerId} {p : Worker} {b : WorkerAction} {op : Op}
    (hop : s.op? (.worker w b) = some op)
    (hp : s.workers w = some p) (hw : p.Withdrawn) (hf : p.fenced = true) :
    ∃ x ∈ p.inflight, AttemptOp w x op := by
  unfold System.op? at hop
  dsimp only at hop
  rw [hp, Option.bind_some] at hop
  obtain ⟨m, hm, hop⟩ := Option.bind_eq_some_iff.mp hop
  exact runForever_fenced hm hw hf hop

/-- Only a worker's own steps write its status, and a fenced one does not. -/
theorem step_stays_dead {s s' : System} {a : Action} (h : SystemStep s a s') (hs : s.Fencing)
    {w : WorkerId} {p : Worker} (hp : s.workers w = some p) (hf : p.fenced = true) : s'.db.Dead w := by
  obtain ⟨r, hr, hdead⟩ := hs.dead w p hp hf
  obtain ⟨r', hr', rfl | ⟨op, hop, hrow⟩⟩ := step_row h hr
  · exact ⟨r', hr', hdead⟩
  refine ⟨r', hr', ?_⟩
  cases hrow with
  | kept => exact hdead
  | beat hbeat halive => exact hdead
  | died hmark hstale => rfl
  | @marked status hmark =>
    obtain rfl : op = .setWorkerStatus w status := hmark
    obtain ⟨-, hext⟩ | ⟨v, capacity, caps, hreg⟩ | ⟨v, p', b, rfl, hp', hissues⟩ := step_issues h hop
    · cases hext
    · cases hreg
    · obtain rfl : w = v := hissues.status
      obtain rfl : p = p' := Option.eq_some_unique hp hp'
      obtain ⟨x, -, hx⟩ := fenced_commits hop hp (hs.withdrawn w p hp) hf
      cases hx

omit [PyText] in
theorem runForever_heartbeat {w : WorkerId} {p : Worker} {m : Move Worker}
    (h : runForever w p .heartbeat = some m) : m.op? = some (.heartbeat w) := by
  unfold runForever at h
  cases hstage : p.stage with
  | polling =>
    simp only [hstage] at h
    split at h <;> cases h
    rfl
  | _ =>
    simp only [hstage] at h
    cases h

theorem step_fencing {s s' : System} {a : Action} (h : SystemStep s a s') (hs : s.Fencing) :
    s'.Fencing where
  withdrawn := withdrawn_invariant.step h hs.withdrawn
  registered := step_registered h hs.registered
  dead := by
    intro v q hq hf
    rcases step_workers h with
      ⟨he, -⟩ | ⟨w, config, row, -, -, -, -, he⟩ | ⟨w, p, b, m, rfl, hp, hm, he⟩
    · exact step_stays_dead h hs (he ▸ hq) hf
    · rw [he] at hq
      rcases update_some hq with ⟨-, rfl⟩ | hq
      · cases hf
      · exact step_stays_dead h hs hq hf
    · rw [he] at hq
      rcases update_some hq with ⟨rfl, rfl⟩ | hq
      swap
      · exact step_stays_dead h hs hq hf
      rcases (runForever_own hm s.db s.clock).fenced hf with hbefore | ⟨rfl, hrefused⟩
      · exact step_stays_dead h hs hp hbefore
      · -- it learns of its death here, and a refused heartbeat writes nothing
        obtain ⟨r, hr⟩ := hs.registered v p hp
        have hdead := heartbeat_refused hr hrefused
        obtain ⟨r', hr', rfl | ⟨op, hop, hrow⟩⟩ := step_row h hr
        · exact ⟨r', hr', hdead⟩
        refine ⟨r', hr', ?_⟩
        cases hrow with
        | kept => exact hdead
        | beat hbeat halive => exact hdead
        | died hmark hstale => rfl
        | marked hmark =>
          unfold System.op? at hop
          dsimp only at hop
          rw [hp, Option.bind_some, hm, Option.bind_some, runForever_heartbeat hm] at hop
          obtain rfl := Option.some.inj hop
          cases hmark

/-- What is left of a fenced worker: the step commits only what belongs to attempts it
has in flight, and what it has in flight afterwards it had before. -/
structure OnlyFinishes (w : WorkerId) (s : System) (a : Action) (s' : System) : Prop where
  commits : ∀ p b op, a = .worker w b → s.workers w = some p → s.op? a = some op →
    ∃ x ∈ p.inflight, AttemptOp w x op
  takes : ∀ p q, s.workers w = some p → s'.workers w = some q →
    (q.inflight.map Attempt.row).Sublist (p.inflight.map Attempt.row)

/-- The worker knows that it was declared DEAD. -/
def System.Fenced (s : System) (w : WorkerId) : Prop :=
  ∃ p, s.workers w = some p ∧ p.fenced = true

theorem step_fenced {s s' : System} {a : Action} (h : SystemStep s a s') (hs : s.Fencing)
    {w : WorkerId} (hw : s.Fenced w) : s'.Fenced w ∧ OnlyFinishes w s a s' := by
  obtain ⟨p, hp, hf⟩ := hw
  have hcommits : ∀ p b op, a = .worker w b → s.workers w = some p → s.op? a = some op →
      ∃ x ∈ p.inflight, AttemptOp w x op := by
    intro p' b op ha hp' hop
    subst ha
    obtain rfl : p = p' := Option.eq_some_unique hp hp'
    exact fenced_commits hop hp (hs.withdrawn w p hp) hf
  have hsame : s'.workers w = some p → s'.Fenced w ∧ OnlyFinishes w s a s' := by
    intro hp'
    refine ⟨⟨p, hp', hf⟩, hcommits, fun p₁ q hp₁ hq => ?_⟩
    rw [Option.some.inj (hp₁.symm.trans hp), Option.some.inj (hq.symm.trans hp')]
  rcases step_workers h with
    ⟨he, -⟩ | ⟨v, config, row, -, hnone, -, -, he⟩ | ⟨v, p', b, m, -, hp', hm, he⟩
  · exact hsame (he ▸ hp)
  · have hne : w ≠ v := by
      rintro rfl
      rw [hnone] at hp
      cases hp
    exact hsame (by rw [he, Function.update_of_ne hne, hp])
  · by_cases hv : w = v
    · subst hv
      obtain rfl : p = p' := Option.eq_some_unique hp hp'
      obtain ⟨hstill, hle⟩ := (runForever_own hm s.db s.clock).still (hs.withdrawn w p hp) hf
      have hq : s'.workers w = some (m.run s.db s.clock).2 := by rw [he, Function.update_self]
      refine ⟨⟨_, hq, hstill⟩, hcommits, fun p₁ q hp₁ hq' => ?_⟩
      rw [Option.some.inj (hp₁.symm.trans hp), Option.some.inj (hq'.symm.trans hq)]
      exact hle
    · exact hsame (by rw [he, Function.update_of_ne hv, hp])

/-- **Self-fencing is for good.** Once a worker has learned that it was declared DEAD,
then in every continuation, whatever everybody else does, its row says DEAD, it claims
nothing and hands nothing back: all it still commits belongs to attempts it had in
flight. -/
theorem fenced_for_good {acts : List Action} {s : System} (h : Run SystemStep .initial acts s)
    {w : WorkerId} (hw : s.Fenced w) {more : List Action} {s' : System}
    (h' : Run SystemStep s more s') : s'.db.Dead w ∧
      Run (fun u a v => SystemStep u a v ∧ u.db.Dead w ∧ OnlyFinishes w u a v) s more s' := by
  have hs : s.Fencing := h.invariant (fun hu hst => step_fencing hst hu) initial_fencing
  have hdead : ∀ u : System, u.Fencing ∧ u.Fenced w → u.db.Dead w := by
    intro u hu
    obtain ⟨p, hp, hf⟩ := hu.2
    exact hu.1.dead w p hp hf
  have hstep : ∀ (u : System) (a : Action) (v : System), (u.Fencing ∧ u.Fenced w) →
      SystemStep u a v → v.Fencing ∧ v.Fenced w :=
    fun u a v hu hst => ⟨step_fencing hst hu.1, (step_fenced hst hu.1 hu.2).1⟩
  have hend := h'.invariant (I := fun u => u.Fencing ∧ u.Fenced w)
    (fun hu hst => hstep _ _ _ hu hst) ⟨hs, hw⟩
  have hrun := h'.within (I := fun u => u.Fencing ∧ u.Fenced w)
    (fun hu hst => hstep _ _ _ hu hst) ⟨hs, hw⟩
  refine ⟨hdead s' hend, hrun.mono fun hst => ?_⟩
  exact ⟨hst.2.1, hdead _ hst.1, (step_fenced hst.2.1 hst.1.1 hst.1.2).2⟩

/-- A worker misses its heartbeats, is declared dead, and hears of it at its next one. -/
def declaredDead : List Action :=
  [.start "worker" { capacity := 1, capabilities := [] }, .advance 60,
    .external (.markDeadWorkers 30), .worker "worker" .heartbeat]

omit [PyText] in
theorem fenced_for_good_drained : ∃ s s', Run (@SystemStep PyText.plain) .initial declaredDead s ∧
    Run (@SystemStep PyText.plain) s [.worker "worker" .drain, .worker "worker" .announce] s' ∧
    s'.db.Dead "worker" := by
  have hrun : ((exec (@step PyText.plain) .initial declaredDead).bind fun s =>
      (exec (@step PyText.plain) s [.worker "worker" .drain, .worker "worker" .announce]).map
        fun _ => (s.workers "worker").map Worker.fenced) = some (some true) := by
    decide +kernel
  obtain ⟨s, hs, hrun⟩ := Option.bind_eq_some_iff.mp hrun
  obtain ⟨s', hs', hfenced⟩ := Option.map_eq_some_iff.mp hrun
  obtain ⟨p, hp, hf⟩ := Option.map_eq_some_iff.mp hfenced
  have h : Run (@SystemStep PyText.plain) .initial declaredDead s := Run.of_exec hs
  have h' : Run (@SystemStep PyText.plain) s
      [.worker "worker" .drain, .worker "worker" .announce] s' := Run.of_exec hs'
  exact ⟨s, s', h, h', (@fenced_for_good PyText.plain _ s h "worker" ⟨p, hp, hf⟩ _ s' h').1⟩

end ControlPlane
