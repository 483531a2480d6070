import ControlPlane.Server.Cancellation
import ControlPlane.Server.Pinning

/-! # What disabling an agent reaches

The sweep of a disabling is two `UPDATE`s with snapshots of their own: the first
takes what is QUEUED, the second what is RUNNING. A task that is put into QUEUED
in between, or later, is in neither. Where that does not happen, every task of
the agent has ended or is flagged from when the disabling has committed; the
proof follows the transaction from statement to statement (`SweepPhase`). -/

namespace ControlPlane
open Keyed Fallible Transactions Runs

/-- The task is pinned to a version of the agent. -/
def Registry.ofAgent (reg : Registry) (a : AgentId) (t : Task) : Prop :=
  t.agentVersionId.bind reg.versionAgent = some a

/-- The task has ended, or is flagged and not waiting to be claimed. -/
def Task.Stopped (t : Task) : Prop :=
  t.state.isTerminal = true ∨ (t.cancelRequested = true ∧ t.state ≠ .queued)

/-- **Nothing of the agent was missed.** -/
def Store.Swept (s : Store) (a : AgentId) : Prop :=
  ∀ i t, s.db.task? i = some t → s.reg.ofAgent a t → t.Stopped

/-- The commit puts a task of the agent into QUEUED: a submission, a retry, a
hand-back or a recovery. -/
def Requeues (a : AgentId) (s s' : Store) : Prop :=
  ∃ t' ∈ s'.db.tasks.rows, s'.reg.ofAgent a t' ∧ t'.state = .queued ∧
    (s.db.task? t'.id).map Task.state ≠ some .queued

theorem agentRunning_iff {versions : List VersionId} {t : Task} :
    agentRunning versions t = true ↔ (∃ v, t.agentVersionId = some v ∧ v ∈ versions) ∧
      t.state = .running ∧ t.cancelRequested = false := by
  simp [agentRunning, Task.ofVersions, Option.any_eq_true, and_assoc]

theorem state_cases (s : State) : s = .queued ∨ s = .running ∨ s.isTerminal = true := by
  cases s <;> simp [State.isTerminal, State.terminal]

variable [PyText]

/-! ## One commit of another transaction -/

/-- The agent of a pinned task does not change with the registry. -/
theorem ofAgent_before {reg reg' : Registry} {a : AgentId} {t : Task} (hk : reg.Keeps reg')
    (ht : t.pinned.Integrity reg) (h : reg'.ofAgent a t) : reg.ofAgent a t := by
  obtain ⟨v, hv, hagent⟩ := Option.bind_eq_some_iff.mp h
  obtain ⟨w, hw, -⟩ := ht.2 v hv
  have hown : reg.versionAgent v = some w.agentId := by
    unfold Registry.versionAgent
    rw [hw]
    rfl
  obtain rfl := Option.eq_some_unique (hk.versionAgent hown) hagent
  exact Option.bind_eq_some_iff.mpr ⟨v, hv, hown⟩

/-- What ended stays, and a flagged task stays flagged; only a return to QUEUED
would undo it. -/
theorem TaskStep.stopped {c : Call} {i : TaskId} {v v' : TaskView} {t t' : Task}
    (h : TaskStep c i v v') (ht : v.row = some t) (ht' : v'.row = some t') (hs : t.Stopped)
    (hq : t'.state = .queued → t.state = .queued) : t'.Stopped := by
  rcases hs with hterm | ⟨hf, hne⟩
  · obtain ⟨u, hu, -, hsame⟩ := h.legal ht
    obtain rfl := Option.eq_some_unique hu ht'
    rw [hsame hterm]
    exact Or.inl hterm
  · obtain ⟨u, hu, hflag⟩ := h.flag_kept ht hf
    obtain rfl := Option.eq_some_unique hu ht'
    exact Or.inr ⟨hflag, fun he => hne (hq he)⟩

/-- One task of the agent across a commit that requeues none of them. -/
theorem pinned_before {a : AgentId} {H : Lock → Prop} {s s' : Store} (hinv : s.Integrity True)
    (hw : StoreWrites H s s') (hquiet : ¬ Requeues a s s') {i : TaskId} {t' : Task}
    (ht' : s'.db.task? i = some t') (hof : s'.reg.ofAgent a t') :
    ∃ t, s.db.task? i = some t ∧ s.reg.ofAgent a t ∧ (t' ≠ t → H (.task i)) ∧
      (t.Stopped → t'.Stopped) ∧ (t.state = .running → t'.state = .running ∨ t'.Stopped) := by
  obtain ⟨c, -, hsteps⟩ := hw.tasks.steps
  have hnot : t'.state = .queued → ∃ t, s.db.task? i = some t ∧ t.state = .queued := by
    intro hq
    have hid : t'.id = i := Database.row_id ht'
    by_contra hno
    refine hquiet ⟨t', Table.mem_of_find? ht', hof, hq, fun he => hno ?_⟩
    exact Option.map_eq_some_iff.mp (hid ▸ he)
  cases ht : s.db.task? i with
  | none =>
    -- a new row is QUEUED
    obtain ⟨args, -, rfl⟩ := (hsteps i).row_new ht ht'
    obtain ⟨t, ht₁, -⟩ := hnot rfl
    rw [ht] at ht₁
    cases ht₁
  | some t =>
    obtain ⟨u, hu, hpinned⟩ := (hsteps i).row_pinned ht
    obtain rfl := Option.eq_some_unique hu ht'
    have hversion : u.agentVersionId = t.agentVersionId :=
      congrArg Task.Pinned.agentVersionId hpinned
    have hback : u.state = .queued → t.state = .queued := by
      intro hq
      obtain ⟨t₁, ht₁, hq₁⟩ := hnot hq
      obtain rfl := Option.eq_some_unique ht ht₁
      exact hq₁
    refine ⟨t, rfl, ?_, fun hne => ?_, fun hs => (hsteps i).stopped ht hu hs hback, fun hrun => ?_⟩
    · refine ofAgent_before hw.registry.keeps (hinv.tasks trivial i t ht) ?_
      unfold Registry.ofAgent at hof ⊢
      rw [← hversion]
      exact hof
    · refine hw.tasks.rows i t ht fun hsame => hne ?_
      exact Option.eq_some_unique hu hsame
    · rcases state_cases u.state with hq | hr | hterm
      · rw [hback hq] at hrun
        cases hrun
      · exact Or.inl hr
      · exact Or.inr (Or.inl hterm)

theorem Store.Swept.other {a : AgentId} {H : Lock → Prop} {s s' : Store} (h : s.Swept a)
    (hinv : s.Integrity True) (hw : StoreWrites H s s') (hquiet : ¬ Requeues a s s') :
    s'.Swept a := by
  intro i t' ht' hof
  obtain ⟨t, ht, hof₁, -, hstopped, -⟩ := pinned_before hinv hw hquiet ht' hof
  exact hstopped (h i t ht hof₁)

/-! ## The phases of a disabling -/

/-- The versions are all the agent has. -/
def Lists (a : AgentId) (versions : List VersionId) (reg : Registry) : Prop :=
  ∀ v, reg.versionAgent v = some a → v ∈ versions

/-- What is left of a disabling once its second `UPDATE` has taken its snapshot. -/
def Flagging (now : Time) (a : AgentId) (p : Program) : Prop :=
  ∃ versions reason queued todo taken, p = visitTx (agentRunning versions)
    (fun running => .commit .other (disableOn now a versions reason queued running)) todo taken

/-- What is left of a disabling, with the locks it holds and what its statements
have established of the committed data. -/
inductive SweepPhase (now : Time) (a : AgentId) (scan : Scan) (H : Lock → Prop) (s : Store) :
    Program → Prop
  | start (hnone : ∀ i, ¬ H (.task i)) : SweepPhase now a scan H s (disableTx now a scan)
  | failing {e : Failure} : SweepPhase now a scan H s (.fail e)
  | listing {reason : String} (hagent : H (.agent a)) (hnone : ∀ i, ¬ H (.task i)) :
    SweepPhase now a scan H s (.read .other fun s =>
      let versionIds := (listVersions s.reg a).map AgentVersion.id
      lockVersionsTx (sweepTx versionIds scan fun queued running =>
        .commit .other (disableOn now a versionIds reason queued running)) versionIds)
  | locking {versions rest : List VersionId} {reason : String} (hagent : H (.agent a))
      (hnone : ∀ i, ¬ H (.task i)) (hall : Lists a versions s.reg) :
    SweepPhase now a scan H s (lockVersionsTx (sweepTx versions scan fun queued running =>
      .commit .other (disableOn now a versions reason queued running)) rest)
  | queueing {versions : List VersionId} {reason : String} {todo taken : List TaskId}
      (hagent : H (.agent a)) (hall : Lists a versions s.reg) (honly : ∀ i, H (.task i) → i ∈ taken)
      (htaken : ∀ i ∈ taken, H (.task i) ∧ s.matches (agentQueued versions) i = true) :
    SweepPhase now a scan H s (visitTx (agentQueued versions) (fun queued =>
      updateTx (.updateRunning versions queued) (agentRunning versions) scan fun running =>
        .commit .other (disableOn now a versions reason queued running)) todo taken)
  | flagging {versions : List VersionId} {reason : String} {queued todo taken : List TaskId}
      (hagent : H (.agent a)) (hall : Lists a versions s.reg)
      (hqueued : ∀ i ∈ queued, H (.task i) ∧ s.matches (agentQueued versions) i = true)
      (htaken : ∀ i ∈ taken, H (.task i) ∧ s.matches (agentRunning versions) i = true)
      (hcover : ∀ i t, s.db.task? i = some t → s.reg.ofAgent a t →
        t.Stopped ∨ i ∈ queued ∨ i ∈ taken ∨ (t.state = .running ∧ i ∈ todo)) :
    SweepPhase now a scan H s (visitTx (agentRunning versions) (fun running =>
      .commit .other (disableOn now a versions reason queued running)) todo taken)

/-- How far a disabling is; once it has committed, nothing of the agent is missed. -/
inductive Disabling (now : Time) (a : AgentId) (scan : Scan) (H : Lock → Prop) (s : Store) :
    Status Store Lock Failure Answer Point → Prop
  | running {p : Program} (h : SweepPhase now a scan H s p) : Disabling now a scan H s (.running p)
  | done {ans : Answer} (h : s.Swept a) : Disabling now a scan H s (.done (.ok ans))
  | failed {e : Failure} : Disabling now a scan H s (.done (.error e))
  | aborted : Disabling now a scan H s .aborted

/-! ## Steps of the others -/

section Others

variable {a : AgentId} {H H' : Lock → Prop} {s s' : Store}

theorem matches_locked (hw : StoreWrites H' s s') (hfree : ∀ l, H l → ¬ H' l) {p : Task → Bool}
    {i : TaskId} (h : H (.task i) ∧ s.matches p i = true) :
    H (.task i) ∧ s'.matches p i = true := by
  refine ⟨h.1, ?_⟩
  obtain ⟨t, ht, hp⟩ := Store.matches_iff.mp h.2
  refine Store.matches_iff.mpr ⟨t, ?_, hp⟩
  by_contra hchanged
  exact hfree _ h.1 (hw.tasks.rows i t ht hchanged)

/-- No version of the agent appears while its row is locked. -/
theorem lists_locked (hw : StoreWrites H' s s') (hfree : ∀ l, H l → ¬ H' l) (hagent : H (.agent a))
    {versions : List VersionId} (h : Lists a versions s.reg) : Lists a versions s'.reg := by
  intro v hv
  obtain ⟨w, hw', hwa⟩ := Option.map_eq_some_iff.mp hv
  cases hold : s.reg.version? v with
  | none =>
    have hnumbered := hw.registry.versions v w hw' hold
    rw [hwa] at hnumbered
    exact absurd hnumbered (hfree _ hagent)
  | some u =>
    have hown : s.reg.versionAgent v = some u.agentId := by
      unfold Registry.versionAgent
      rw [hold]
      rfl
    obtain rfl := Option.eq_some_unique (hw.registry.keeps.versionAgent hown) hv
    exact h v hown

/-- What the others commit keeps the phase; after the snapshot of the second
`UPDATE`, as long as they requeue nothing. -/
theorem SweepPhase.other {now : Time} {scan : Scan} {p : Program} (h : SweepPhase now a scan H s p)
    (hinv : s.Integrity True) (hw : StoreWrites H' s s') (hfree : ∀ l, H l → ¬ H' l)
    (hquiet : Flagging now a p → ¬ Requeues a s s') : SweepPhase now a scan H s' p := by
  cases h with
  | start hnone => exact .start hnone
  | failing => exact .failing
  | listing hagent hnone => exact .listing hagent hnone
  | locking hagent hnone hall => exact .locking hagent hnone (lists_locked hw hfree hagent hall)
  | queueing hagent hall honly htaken =>
    exact .queueing hagent (lists_locked hw hfree hagent hall) honly fun i hi =>
      matches_locked hw hfree (htaken i hi)
  | flagging hagent hall hqueued htaken hcover =>
    refine .flagging hagent (lists_locked hw hfree hagent hall)
      (fun i hi => matches_locked hw hfree (hqueued i hi))
      (fun i hi => matches_locked hw hfree (htaken i hi)) fun i t' ht' hof => ?_
    obtain ⟨t, ht, hof₁, -, hstopped, hrunning⟩ :=
      pinned_before hinv hw (hquiet ⟨_, _, _, _, _, rfl⟩) ht' hof
    rcases hcover i t ht hof₁ with hs | hi | hi | ⟨hrun, hi⟩
    · exact Or.inl (hstopped hs)
    · exact Or.inr (Or.inl hi)
    · exact Or.inr (Or.inr (Or.inl hi))
    · exact (hrunning hrun).symm.imp_right fun hr => Or.inr (Or.inr ⟨hr, hi⟩)

end Others

/-! ## Its own steps -/

instance storeOfAgent (reg : Registry) (a : AgentId) (t : Task) : Decidable (reg.ofAgent a t) :=
  inferInstanceAs (Decidable (_ = _))

instance requeuesIn (a : AgentId) (s s' : Store) : Decidable (Requeues a s s') :=
  inferInstanceAs (Decidable (∃ t' ∈ s'.db.tasks.rows, _))

/-- The transaction holds the rows of the agent's QUEUED tasks. -/
def Server.HoldsQueued (m : Server) (k : Nat) (a : AgentId) : Prop :=
  ∀ t ∈ m.db.db.tasks.rows, m.db.reg.ofAgent a t → t.state = .queued → m.held k (.task t.id)

instance serverHoldsQueued (m : Server) (k : Nat) (a : AgentId) : Decidable (m.HoldsQueued k a) :=
  inferInstanceAs (Decidable (∀ t ∈ m.db.db.tasks.rows, _ → _ → m.locks _ = some k))

section Own

variable {now : Time} {a : AgentId} {scan : Scan} {m m' : Server} {k : Nat}
  {status : Status Store Lock Failure Answer Point} {versions : List VersionId} {reason : String}

omit [PyText] in
theorem ofAgent_listed {reg : Registry} {t : Task} (hall : Lists a versions reg)
    (h : reg.ofAgent a t) : ∃ v, t.agentVersionId = some v ∧ v ∈ versions := by
  obtain ⟨v, hv, hagent⟩ := Option.bind_eq_some_iff.mp h
  exact ⟨v, hv, hall v hagent⟩

/-- The commit ends the rows of the first `UPDATE` and flags those of the second;
nothing else of the agent is left to reach. -/
theorem disableOn_swept {queued running : List TaskId} {s s' : Store} {ans : Answer}
    (hinv : s.Integrity True) (hqueued : ∀ i ∈ queued, s.matches (agentQueued versions) i = true)
    (hrunning : ∀ i ∈ running, s.matches (agentRunning versions) i = true)
    (hcover : ∀ i t, s.db.task? i = some t → s.reg.ofAgent a t →
      t.Stopped ∨ i ∈ queued ∨ i ∈ running)
    (h : disableOn now a versions reason queued running s = .ok (s', ans)) : s'.Swept a := by
  obtain ⟨⟨n, hsweep⟩, hwrite, -⟩ := disableOn_ok h
  obtain ⟨hsteps, -⟩ := writeSweep_ok hsweep
  intro i t' ht' hof
  cases ht : s.db.task? i with
  | none =>
    obtain ⟨args, hop, -⟩ := (hsteps i).row_new ht ht'
    cases hop
  | some t =>
    obtain ⟨u, hu, hpinned⟩ := (hsteps i).row_pinned ht
    obtain rfl := Option.eq_some_unique hu ht'
    have hof₁ : s.reg.ofAgent a t := by
      refine ofAgent_before hwrite.keeps (hinv.tasks trivial i t ht) ?_
      unfold Registry.ofAgent at hof ⊢
      rw [← show u.agentVersionId = t.agentVersionId from
        congrArg Task.Pinned.agentVersionId hpinned]
      exact hof
    have hrow := writeSweep_row hsweep ht
    rw [ht'] at hrow
    obtain hrow := Option.some.inj hrow
    split at hrow
    · exact Or.inl (hrow ▸ rfl)
    rename_i hnq
    split at hrow
    · rename_i hr
      obtain ⟨-, hrun, -⟩ := agentRunning_iff.mp (Bool.and_eq_true _ _ ▸ hr : _ ∧ _).2
      refine Or.inr ⟨hrow ▸ rfl, fun hq => ?_⟩
      rw [hrow, show ((flagWrite now).row t).state = t.state from rfl, hrun] at hq
      cases hq
    rename_i hnr
    subst hrow
    rcases hcover i _ ht hof₁ with hs | hi | hi
    · exact hs
    · obtain ⟨t₁, ht₁, hsel⟩ := Store.matches_iff.mp (hqueued i hi)
      obtain rfl := Option.eq_some_unique ht ht₁
      simp [hi, hsel] at hnq
    · obtain ⟨t₁, ht₁, hsel⟩ := Store.matches_iff.mp (hrunning i hi)
      obtain rfl := Option.eq_some_unique ht ht₁
      simp [hi, hsel] at hnr

/-- After the snapshot of the second `UPDATE`: the visits, then the commit. -/
theorem flagging_moved {queued todo taken : List TaskId} (hinv : m.db.Integrity True)
    (hagent : m.held k (.agent a)) (hall : Lists a versions m.db.reg)
    (hqueued : ∀ i ∈ queued, m.held k (.task i) ∧ m.db.matches (agentQueued versions) i = true)
    (htaken : ∀ i ∈ taken, m.held k (.task i) ∧ m.db.matches (agentRunning versions) i = true)
    (hcover : ∀ i t, m.db.db.task? i = some t → m.db.reg.ofAgent a t →
      t.Stopped ∨ i ∈ queued ∨ i ∈ taken ∨ (t.state = .running ∧ i ∈ todo))
    (hm : Moved m m' k (visitTx (agentRunning versions) (fun running =>
      .commit .other (disableOn now a versions reason queued running)) todo taken) status) :
    Disabling now a scan (m'.held k) m'.db status := by
  cases todo with
  | nil =>
    rw [visitTx] at hm
    cases hm with
    | commit hw =>
      refine .done (disableOn_swept hinv (fun i hi => (hqueued i hi).2) (fun i hi => (htaken i hi).2)
        (fun i t ht hof => ?_) hw)
      rcases hcover i t ht hof with hs | hi | hi | ⟨-, hi⟩
      · exact Or.inl hs
      · exact Or.inr (Or.inl hi)
      · exact Or.inr (Or.inr hi)
      · cases hi
    | raise hdb hw => exact .failed
    | abort hdb => exact .aborted
  | cons j todo =>
    rw [visitTx] at hm
    cases hm with
    | stmt hdb hwaits htakes hheld =>
      refine .running ?_
      rw [hdb]
      have hmono : ∀ {l}, m.held k l → m'.held k l := fun hl => (hheld _).mpr (Or.inl hl)
      dsimp only at hheld ⊢
      by_cases hsel : m.db.matches (agentRunning versions) j = true
      · rw [if_pos hsel] at hheld ⊢
        refine .flagging (hmono hagent) hall (fun i hi => ⟨hmono (hqueued i hi).1, (hqueued i hi).2⟩)
          (fun i hi => ?_) fun i t ht hof => ?_
        · rcases List.mem_append.mp hi with hi | hi
          · exact ⟨hmono (htaken i hi).1, (htaken i hi).2⟩
          · obtain rfl := List.mem_singleton.mp hi
            exact ⟨(hheld _).mpr (Or.inr (List.mem_singleton_self _)), hsel⟩
        · rcases hcover i t ht hof with hs | hi | hi | ⟨hrun, hi⟩
          · exact Or.inl hs
          · exact Or.inr (Or.inl hi)
          · exact Or.inr (Or.inr (Or.inl (List.mem_append_left _ hi)))
          · rcases List.mem_cons.mp hi with rfl | hi
            · exact Or.inr (Or.inr (Or.inl (by simp)))
            · exact Or.inr (Or.inr (Or.inr ⟨hrun, hi⟩))
      · rw [if_neg hsel]
        refine .flagging (hmono hagent) hall (fun i hi => ⟨hmono (hqueued i hi).1, (hqueued i hi).2⟩)
          (fun i hi => ⟨hmono (htaken i hi).1, (htaken i hi).2⟩) fun i t ht hof => ?_
        rcases hcover i t ht hof with hs | hi | hi | ⟨hrun, hi⟩
        · exact Or.inl hs
        · exact Or.inr (Or.inl hi)
        · exact Or.inr (Or.inr (Or.inl hi))
        · rcases List.mem_cons.mp hi with rfl | hi
          · -- a RUNNING row of the agent that is not selected is flagged
            refine Or.inl (Or.inr ⟨?_, by rw [hrun]; simp⟩)
            by_contra hflag
            exact hsel (Store.matches_iff.mpr ⟨t, ht, agentRunning_iff.mpr
              ⟨ofAgent_listed hall hof, hrun, Bool.eq_false_iff.mpr hflag⟩⟩)
          · exact Or.inr (Or.inr (Or.inr ⟨hrun, hi⟩))
    | abort hdb => exact .aborted

/-- The first `UPDATE`: its visits, then the snapshot of the second. -/
theorem queueing_moved {todo taken : List TaskId} (hagent : m.held k (.agent a))
    (hall : Lists a versions m.db.reg) (honly : ∀ i, m.held k (.task i) → i ∈ taken)
    (htaken : ∀ i ∈ taken, m.held k (.task i) ∧ m.db.matches (agentQueued versions) i = true)
    (hholds : todo = [] → m.HoldsQueued k a)
    (hm : Moved m m' k (visitTx (agentQueued versions) (fun queued =>
      updateTx (.updateRunning versions queued) (agentRunning versions) scan fun running =>
        .commit .other (disableOn now a versions reason queued running)) todo taken) status) :
    Disabling now a scan (m'.held k) m'.db status := by
  cases todo with
  | nil =>
    rw [visitTx, updateTx] at hm
    cases hm with
    | stmt hdb hwaits htakes hheld =>
      refine .running ?_
      rw [hdb]
      have hmono : ∀ {l}, m.held k l → m'.held k l := fun hl => (hheld _).mpr (Or.inl hl)
      refine .flagging (hmono hagent) hall (fun i hi => ⟨hmono (htaken i hi).1, (htaken i hi).2⟩)
        (by simp) fun i t ht hof => ?_
      have hid : t.id = i := Database.row_id ht
      rcases state_cases t.state with hq | hrun | hterm
      · exact Or.inr (Or.inl (honly i (hid ▸ hholds rfl t (Table.mem_of_find? ht) hof hq)))
      · by_cases hflag : t.cancelRequested = true
        · exact Or.inl (Or.inr ⟨hflag, by rw [hrun]; simp⟩)
        · refine Or.inr (Or.inr (Or.inr ⟨hrun, mem_selected.mpr (Store.matches_iff.mpr ⟨t, ht, ?_⟩)⟩))
          exact agentRunning_iff.mpr ⟨ofAgent_listed hall hof, hrun, Bool.eq_false_iff.mpr hflag⟩
      · exact Or.inl (Or.inl hterm)
    | abort hdb => exact .aborted
  | cons j todo =>
    rw [visitTx] at hm
    cases hm with
    | stmt hdb hwaits htakes hheld =>
      refine .running ?_
      rw [hdb]
      have hmono : ∀ {l}, m.held k l → m'.held k l := fun hl => (hheld _).mpr (Or.inl hl)
      dsimp only at hheld ⊢
      by_cases hsel : m.db.matches (agentQueued versions) j = true
      · rw [if_pos hsel] at hheld ⊢
        refine .queueing (hmono hagent) hall (fun i hi => ?_) fun i hi => ?_
        · rcases (hheld _).mp hi with hold | hnew
          · exact List.mem_append_left _ (honly i hold)
          · rw [List.mem_singleton, Lock.task.injEq] at hnew
            rw [hnew]
            simp
        · rcases List.mem_append.mp hi with hi | hi
          · exact ⟨hmono (htaken i hi).1, (htaken i hi).2⟩
          · obtain rfl := List.mem_singleton.mp hi
            exact ⟨(hheld _).mpr (Or.inr (List.mem_singleton_self _)), hsel⟩
      · rw [if_neg hsel] at hheld ⊢
        refine .queueing (hmono hagent) hall (fun i hi => ?_)
          fun i hi => ⟨hmono (htaken i hi).1, (htaken i hi).2⟩
        rcases (hheld _).mp hi with hold | hnew
        · exact honly i hold
        · cases hnew
    | abort hdb => exact .aborted

/-- The locks on the versions; without versions there is nothing to cancel. -/
theorem locking_moved {rest : List VersionId} (hinv : m.db.Integrity True)
    (hagent : m.held k (.agent a)) (hnone : ∀ i, ¬ m.held k (.task i))
    (hall : Lists a versions m.db.reg)
    (hm : Moved m m' k (lockVersionsTx (sweepTx versions scan fun queued running =>
      .commit .other (disableOn now a versions reason queued running)) rest) status) :
    Disabling now a scan (m'.held k) m'.db status := by
  cases rest with
  | nil =>
    rw [lockVersionsTx, sweepTx] at hm
    split at hm
    · rename_i hnil
      have hcommit : Moved m m' k (visitTx (agentRunning versions) (fun running =>
        .commit .other (disableOn now a versions reason [] running)) [] []) status := hm
      refine flagging_moved hinv hagent hall (by simp) (by simp) (fun i t ht hof => ?_) hcommit
      obtain ⟨v, -, hv⟩ := ofAgent_listed hall hof
      rw [hnil] at hv
      cases hv
    rw [updateTx] at hm
    cases hm with
    | stmt hdb hwaits htakes hheld =>
      refine .running ?_
      rw [hdb]
      have hkeep : ∀ {l}, m'.held k l ↔ m.held k l := by simp [hheld]
      refine .queueing (hkeep.mpr hagent) hall (fun i hi => absurd (hkeep.mp hi) (hnone i)) ?_
      simp
    | abort hdb => exact .aborted
  | cons v rest =>
    rw [lockVersionsTx] at hm
    cases hm with
    | stmt hdb hwaits htakes hheld =>
      refine .running ?_
      rw [hdb]
      refine .locking ((hheld _).mpr (Or.inl hagent)) (fun i hi => ?_) hall
      simp [hheld, hnone i] at hi
    | abort hdb => exact .aborted

omit [PyText] in
/-- The versions are listed after the agent is locked. -/
theorem listVersions_lists (reg : Registry) (a : AgentId) :
    Lists a ((listVersions reg a).map AgentVersion.id) reg := by
  intro v hv
  obtain ⟨w, hw, rfl⟩ := Option.map_eq_some_iff.mp hv
  obtain rfl : w.id = v := Table.key_of_find? hw
  refine List.mem_map_of_mem ?_
  simp [listVersions, Table.mem_of_find? hw]

/-- **One step of a disabling**, which the snapshot of its second `UPDATE` takes
only while it holds every QUEUED row of the agent. -/
theorem SweepPhase.moved {p : Program} (h : SweepPhase now a scan (m.held k) m.db p)
    (hinv : m.db.Integrity True)
    (hholds : ∀ versions queued, p.point? = some (.updateRunning versions queued) →
      m.HoldsQueued k a)
    (hm : Moved m m' k p status) : Disabling now a scan (m'.held k) m'.db status := by
  cases h with
  | start hnone =>
    unfold disableTx at hm
    cases hm with
    | stmt hdb hwaits htakes hheld =>
      refine .running ?_
      rw [hdb]
      dsimp only at hheld ⊢
      split
      · exact .failing
      · rename_i agent hrow
        refine .listing ((hheld _).mpr (Or.inr (by simp [hrow]))) fun i hi => ?_
        simp [hheld, hnone i, hrow] at hi
    | abort hdb => exact .aborted
  | failing =>
    cases hm with
    | fail hdb => exact .failed
    | abort hdb => exact .aborted
  | listing hagent hnone =>
    unfold Tx.read at hm
    cases hm with
    | stmt hdb hwaits htakes hheld =>
      refine .running ?_
      rw [hdb]
      exact .locking ((hheld _).mpr (Or.inl hagent)) (fun i hi => by simp [hheld, hnone i] at hi)
        (listVersions_lists m.db.reg a)
    | abort hdb => exact .aborted
  | locking hagent hnone hall => exact locking_moved hinv hagent hnone hall hm
  | queueing hagent hall honly htaken =>
    refine queueing_moved hagent hall honly htaken (fun hnil => ?_) hm
    subst hnil
    exact hholds _ _ rfl
  | flagging hagent hall hqueued htaken hcover =>
    exact flagging_moved hinv hagent hall hqueued htaken hcover hm

end Own

/-! ## Runs -/

/-- The second `UPDATE` of the disabling has taken its snapshot, and the
disabling was not refused or rolled back. -/
def Swept (now : Time) (a : AgentId) : Status Store Lock Failure Answer Point → Prop
  | .running p => Flagging now a p
  | .done (.ok _) => True
  | _ => False

/-- **A step the disabling can take**: its second `UPDATE` begins while the
transaction has the row of every QUEUED task of the agent, and from then on no
other commit puts one into QUEUED. -/
structure Undisturbed (a : AgentId) (k : Nat) (m : Server) (act : Action Request) (m' : Server) :
    Prop where
  held : ∀ x p versions queued, act = .next k → m.txs[k]? = some x → x.status = .running p →
    p.point? = some (.updateRunning versions queued) → m.HoldsQueued k a
  quiet : ∀ x, act ≠ .next k → m.txs[k]? = some x → Swept x.op.now a x.status →
    ¬ Requeues a m.db m'.db

/-- The disabling `k` is as far as `Disabling` says. -/
def Tracked (a : AgentId) (k : Nat) (now : Time) (scan : Scan) (m : Server) : Prop :=
  ∀ x, m.txs[k]? = some x → x.op = ⟨now, .api (.disable a scan)⟩ →
    Disabling now a scan (m.held k) m.db x.status

theorem tracked_step {a : AgentId} {k : Nat} {now : Time} {scan : Scan} {m m' : Server}
    {ac : Action Request} (h : Tracked a k now scan m) (hact : act requestTx m ac = some m')
    (hsound : Discipline.Sound (discipline True) m)
    (hcommits : Discipline.Commits (discipline True) m ac m') (hun : Undisturbed a k m ac m') :
    Tracked a k now scan m' := by
  intro x' hx' hop
  rcases act_session hact hx' with ⟨hne, hold, hheld⟩ | ⟨hnone, hst, hheld⟩ |
    ⟨x, p, hx, hopx, hst, hmoved, hcase⟩
  · have hd := h x' hold hop
    rw [hheld]
    rcases hcommits with hdb | ⟨j, rfl, hw⟩
    · rw [hdb]
      exact hd
    have hfree : ∀ l, m.held k l → ¬ m.held j l := by
      intro l hl hj
      refine hne (congrArg _ ?_)
      exact Option.some.inj ((show m.locks l = some j from hj).symm.trans hl)
    have hquiet : Swept now a x'.status → ¬ Requeues a m.db m'.db := by
      intro hs
      exact hun.quiet x' hne hold (hop ▸ hs)
    generalize x'.status = status at hd hquiet
    cases hd with
    | running hp => exact .running (hp.other hsound.inv hw hfree hquiet)
    | done hs => exact .done (hs.other hsound.inv hw (hquiet trivial))
    | failed => exact .failed
    | aborted => exact .aborted
  · rw [hst, hop]
    refine .running (.start fun i hi => ?_)
    rw [hheld] at hi
    exact Nat.not_lt.mpr (List.getElem?_eq_none_iff.mp hnone) (hsound.owned _ _ hi)
  · have hd := h x hx (hopx ▸ hop)
    rw [hst] at hd
    rcases hcase with rfl | habort
    · cases hd with
      | running hp =>
        exact hp.moved hsound.inv (fun versions queued hpoint =>
          hun.held x p versions queued rfl hx hst hpoint) hmoved
    · rw [habort]
      exact .aborted

/-- The agent that the transaction has disabled. -/
def Server.disabled (m : Server) (k : Nat) : Option AgentId :=
  match m.txs[k]? with
  | some ⟨⟨_, .api (.disable a _)⟩, .done (.ok _)⟩ => some a
  | _ => none

/-- **An undisturbed disabling misses nothing.** In every interleaving of the
statements of requests in which each step is one the disabling can take, every
task of the agent has ended or is flagged, and none is QUEUED, in every state
after the disabling has committed. -/
theorem disable_misses_nothing {a : AgentId} {k : Nat} {m : Server} {acts : List (Action Request)}
    (hrun : Run (fun m ac m' => act requestTx m ac = some m' ∧ Undisturbed a k m ac m')
      Server.empty acts m)
    (hbegun : ∀ r ∈ begun acts, r.Standalone ∧ r.Governed) (hdone : m.disabled k = some a) :
    m.db.Swept a := by
  unfold Server.disabled at hdone
  split at hdone
  case h_2 => cases hdone
  rename_i now b scan ans hx
  obtain rfl : a = b := (Option.some.inj hdone).symm
  have hempty : Discipline.Sound (discipline True) Server.empty := empty_sound
  have hinv : Discipline.Sound (discipline True) m ∧ Tracked a k now scan m := by
    refine hrun.labelled.invariant (I := fun m => Discipline.Sound (discipline True) m ∧
      Tracked a k now scan m) ?_ ⟨hempty, fun x hx => by cases hx⟩
    rintro s ac t ⟨hs, htr⟩ ⟨hac, hact, hun⟩
    have hreq : ∀ r, ac = .begin r → r.Standalone ∧ r.Governed := by
      rintro r rfl
      exact hbegun r (mem_begun.mpr hac)
    obtain ⟨hsound, hcommits⟩ := Discipline.act_sound hs hact fun r hr _ _ =>
      requestTx_ok (hreq r hr).1 fun _ => (hreq r hr).2
    exact ⟨hsound, tracked_step htr hact hs hcommits hun⟩
  cases hinv.2 _ hx rfl with
  | done hs => exact hs

/-- An agent with a route, and a worker that has claimed its only task. -/
def agentAtWork : List (Action Request) :=
  .begin ⟨0, .call (.createTenant 1 "acme" 10 1000)⟩ :: steps 0 1 ++
  .begin ⟨0, .call (.registerWorker "worker" 5 [])⟩ :: steps 1 1 ++
  .begin ⟨1, .api (.createAgent 1 1 "summarizer" none)⟩ :: steps 2 2 ++
  .begin ⟨2, .api (.createVersion 1 1 { maxAttempts := 5 })⟩ :: steps 3 3 ++
  .begin ⟨3, .api (.activate 1 { versionId := 1 })⟩ :: steps 4 4 ++
  .begin ⟨4, .api (.setRoute 1 "summarize" 1)⟩ :: steps 5 2 ++
  .begin ⟨5, .api (.submit 1 { tenantId := 1, target := .routed "summarize" }
    { globalQueueShedThreshold := 100 })⟩ :: steps 6 5 ++
  .begin ⟨6, .call (.claimTasks { workerId := "worker", limit := 1, leaseTtlS := 30 } fun _ => {})⟩ ::
    steps 7 5

/-- A second task is QUEUED; the worker renews its lease between the two `UPDATE`s. -/
def renewedMeanwhile : List (Action Request) :=
  agentAtWork ++ .begin ⟨7, .api (.submit 2 { tenantId := 1, target := .routed "summarize" }
    { globalQueueShedThreshold := 100 })⟩ :: steps 8 5 ++
  .begin ⟨8, .api (.disable 1 {})⟩ :: steps 9 5 ++
  .begin ⟨9, .call (.renewLease 1 "worker" 1 30)⟩ :: steps 10 2 ++ steps 9 3

/-- The second `UPDATE` of a bulk cancellation. -/
def Point.isUpdateRunning : Point → Bool
  | .other => false
  | .updateRunning .. => true

/-- A check that finds every step `Undisturbed` excludes. -/
def disturbs (a : AgentId) (k : Nat) (m : Server) (ac : Action Request) (m' : Server) : Bool :=
  match m.txs[k]?, ac with
  | none, _ => false
  | some x, .next j =>
    if j = k then match x.status with
      | .running p => p.point?.any Point.isUpdateRunning && !decide (m.HoldsQueued k a)
      | _ => false
    else decide (Requeues a m.db m'.db)
  | some _, _ => decide (Requeues a m.db m'.db)

omit [PyText] in
theorem undisturbed_of_check {a : AgentId} {k : Nat} {m m' : Server} {ac : Action Request}
    (h : disturbs a k m ac m' = false) : Undisturbed a k m ac m' := by
  unfold disturbs at h
  constructor
  · rintro x p versions queued rfl hx hst hpoint
    rw [hx] at h
    simpa [hst, hpoint, Point.isUpdateRunning] using h
  · intro x hne hx _ hre
    rw [hx] at h
    cases ac with
    | begin o => simp [hre] at h
    | abort j => simp [hre] at h
    | next j =>
      have hj : j ≠ k := fun he => hne (he ▸ rfl)
      simp [hre, hj] at h

omit [PyText] in
theorem disable_misses_nothing_renewed :
    ∃ m, Run (fun m ac m' => act (@requestTx PyText.plain) m ac = some m' ∧
      Undisturbed 1 9 m ac m') Server.empty renewedMeanwhile m ∧ m.db.Swept 1 ∧
      m.db.db.tasks.rows.map (fun t => (t.id, t.state, t.cancelRequested)) =
        [(1, .running, true), (2, .cancelled, true)] := by
  have hend : (exec (fun (m : Server) ac =>
      if (act (@requestTx PyText.plain) m ac).any (disturbs 1 9 m ac) then none
      else act (@requestTx PyText.plain) m ac) Server.empty renewedMeanwhile).map (fun m : Server =>
        (m.disabled 9, m.db.db.tasks.rows.map fun t => (t.id, t.state, t.cancelRequested))) =
      some (some 1, [(1, .running, true), (2, .cancelled, true)]) := by decide +kernel
  obtain ⟨m, hm, hseen⟩ := Option.map_eq_some_iff.mp hend
  obtain ⟨hdone, hrows⟩ := Prod.mk.inj hseen
  have hrun := (Run.of_guarded hm).mono fun {s ac t} (hst : _ ∧ _) =>
    And.intro hst.1 (undisturbed_of_check (a := 1) (k := 9) (by simpa [hst.1] using hst.2))
  have hbegun : ∀ r ∈ begun renewedMeanwhile, r.Standalone ∧ r.Governed := by decide
  exact ⟨m, hrun, @disable_misses_nothing PyText.plain 1 9 m _ hrun hbegun hdone, hrows⟩

/-- The attempt fails, and its retry commits, after the first `UPDATE` has found
nothing QUEUED and before the second looks for RUNNING rows. -/
def retriedBetween : List (Action Request) :=
  agentAtWork ++ .begin ⟨7, .api (.disable 1 {})⟩ :: steps 8 4 ++
  .begin ⟨8, .call (.complete (.retry "TRANSIENT" "boom" 0) 1 1 "worker")⟩ :: steps 9 2 ++ steps 8 2

/-- A submission has its route when the disabling begins, and inserts after it. -/
def insertedAfter : List (Action Request) :=
  agentAtWork ++ .begin ⟨7, .api (.submit 2 { tenantId := 1, target := .routed "summarize" }
    { globalQueueShedThreshold := 100 })⟩ :: steps 8 3 ++
  .begin ⟨8, .api (.disable 1 {})⟩ :: steps 9 7 ++ steps 8 2

omit [PyText] in
/-- The disabling has committed, every transaction has ended, and a task of the
agent is QUEUED without a flag. -/
theorem disable_misses_requeued :
    (exec (act (@requestTx PyText.plain)) Server.empty retriedBetween).map (fun m : Server =>
      (m.disabled 8, m.txs.all fun x => x.status.ended,
        (m.db.db.tasks.rows.filter fun t => m.db.reg.ofAgent 1 t).map fun t =>
          (t.state, t.cancelRequested))) = some (some 1, true, [(.queued, false)]) ∧
    (exec (act (@requestTx PyText.plain)) Server.empty insertedAfter).map (fun m : Server =>
      (m.disabled 9, m.txs.all fun x => x.status.ended,
        (m.db.db.tasks.rows.filter fun t => m.db.reg.ofAgent 1 t).map fun t =>
          (t.state, t.cancelRequested))) =
      some (some 1, true, [(.running, true), (.queued, false)]) := by
  decide +kernel

end ControlPlane
