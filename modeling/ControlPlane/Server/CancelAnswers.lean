import ControlPlane.Db.Explained
import ControlPlane.Server.Cancellation
import ControlPlane.Server.Pinning
import ControlPlane.Server.Submission

/-! # Cancellations, recorded once and answered truthfully

A cancellation reads its row under a lock and writes on what it has read; the bulk
form writes the same flag and the same events in two `UPDATE`s. Each of the two
events is written together with what it records, the flag or the end of the task,
and neither is ever undone, so there is at most one of each. The row cannot change
between the locking read and the commit, so the answer fits the row as committed. -/

namespace ControlPlane
open Keyed Fallible Transactions Runs

/-! ## The events of a cancellation -/

def TaskView.count (v : TaskView) (ty : EventType) : Nat :=
  v.events.countP fun e => e.eventType == ty

def TaskView.flagged (v : TaskView) : Nat := (v.row.any Task.cancelRequested).toNat

def TaskView.cancelled (v : TaskView) : Nat := (v.row.any fun t => decide (t.state = .cancelled)).toNat

/-- A request is on record only where the flag is, an end only where the row is CANCELLED. -/
structure TaskView.Recorded (v : TaskView) : Prop where
  requested : v.count .cancelRequested ≤ v.flagged
  ended : v.count .taskCancelled ≤ v.cancelled

theorem TaskView.count_append {v v' : TaskView} {es : List TaskEvent}
    (h : v'.events = v.events ++ es) (ty : EventType) :
    v'.count ty = v.count ty + es.countP fun e => e.eventType == ty := by
  unfold count
  rw [h, List.countP_append]

/-- Events that record something new are written with it. -/
theorem TaskView.Recorded.extend {v v' : TaskView} {es : List TaskEvent} (h : v.Recorded)
    (hev : v'.events = v.events ++ es)
    (hflag : v.flagged + es.countP (fun e => e.eventType == .cancelRequested) ≤ v'.flagged)
    (hend : v.cancelled + es.countP (fun e => e.eventType == .taskCancelled) ≤ v'.cancelled) :
    v'.Recorded := by
  constructor
  · rw [TaskView.count_append hev]
    exact (Nat.add_le_add_right h.requested _).trans hflag
  · rw [TaskView.count_append hev]
    exact (Nat.add_le_add_right h.ended _).trans hend

theorem standaloneEvents_not_cancel {ty : EventType} (h : ty ∈ standaloneEvents) :
    ty ≠ .cancelRequested ∧ ty ≠ .taskCancelled := by
  cases ty <;> simp_all [standaloneEvents]

variable [PyText]

/-- One case for each kind of step. A completion writes the end it makes; nothing else but a
cancellation writes either event. -/
theorem TaskStep.recorded {c : Call} {i : TaskId} {v v' : TaskView} (h : TaskStep c i v v')
    (hop : c.op.Standalone) (hv : v.Recorded) : v'.Recorded := by
  cases h with
  | skip => exact hv
  | noted e hrec =>
    obtain ⟨a, w, data, hrec⟩ := hrec
    obtain ⟨hreq, hcan⟩ := standaloneEvents_not_cancel (hop _ _ _ _ _ hrec)
    refine hv.extend rfl ?_ ?_
    · simp [hreq, TaskView.flagged]
    · simp [hcan, TaskView.cancelled]
  | submitted hsub hnew =>
    constructor <;> simp [TaskView.count, submittedView, createdEvent]
  | @claimed args scans t hclaim hr hc =>
    have hq : t.state = .queued := by
      simp only [Task.claimable, Bool.and_eq_true, beq_iff_eq] at hc
      exact hc.1
    refine hv.extend rfl ?_ ?_
    · simp [TaskView.flagged, hr, claimView, claimWrite, claimedEvent]
    · simp [TaskView.cancelled, hr, claimView, claimWrite, claimedEvent, hq]
  | @renewed w a ttl t hren hr hf =>
    refine hv.extend (List.append_nil _).symm ?_ ?_
    · simp [TaskView.flagged, hr, renewWrite]
    · simp [TaskView.cancelled, hr, renewWrite]
  | @completed e a w t hcomp hr hf =>
    obtain ⟨hstate, -, -, hflag, -⟩ := e.row_fields c.now t
    refine hv.extend rfl ?_ ?_
    · cases e <;> simp [TaskView.flagged, hr, Ending.view, hflag, Ending.eventType]
    · cases e <;> simp [TaskView.cancelled, hr, Ending.view, hstate, hf.1, Ending.eventType,
        Ending.toState]
  | @reaped o limit scan t hreap hr hrun ho =>
    obtain ⟨hstate, -, -, hflag, -⟩ := o.row_fields c.now t
    have hty : ∀ {ty : EventType}, ty = .cancelRequested ∨ ty = .taskCancelled →
        (reapEventType t.attempt t.maxAttempts == ty) = false := by
      unfold reapEventType
      rintro ty (rfl | rfl) <;> split <;> rfl
    refine hv.extend rfl ?_ ?_
    · simp [TaskView.flagged, hr, Overdue.view, hflag, hty]
    · simp [TaskView.cancelled, hr, Overdue.view, hrun, hty]
  | @cancelled t t' e hcan hr hq ht' he =>
    obtain ⟨hstate, -, -, hflag, -⟩ := cancelled_fields ht'
    refine hv.extend rfl ?_ ?_
    · simp [TaskView.flagged, hr, hflag, he, Bool.toNat_le]
    · simp [TaskView.cancelled, hr, hq, hstate, he]
  | @flagged t e hcan hr hrun hf he =>
    refine hv.extend rfl ?_ ?_
    · simp [TaskView.flagged, hr, hf, flagWrite, he]
    · simp [TaskView.cancelled, hr, hrun, flagWrite, he]

theorem StoreWrites.recorded {H : Lock → Prop} {s s' : Store} (h : StoreWrites H s s')
    (hs : ∀ i, (s.db.view i).Recorded) (i : TaskId) : (s'.db.view i).Recorded := by
  obtain ⟨c, hop, hsteps⟩ := h.tasks.steps
  exact (hsteps i).recorded hop (hs i)

theorem StoreWrites.flag_kept {H : Lock → Prop} {s s' : Store} (h : StoreWrites H s s') {i : TaskId}
    (hs : ∃ t, s.db.task? i = some t ∧ t.cancelRequested = true) :
    ∃ t, s'.db.task? i = some t ∧ t.cancelRequested = true := by
  obtain ⟨t, ht, hf⟩ := hs
  obtain ⟨c, -, hsteps⟩ := h.tasks.steps
  exact (hsteps i).flag_kept ht hf

/-! ## The answer of a cancellation -/

/-- What an outcome says of the row; NOT_FOUND says that there is none. -/
def CancelOutcome.describes : CancelOutcome → Task → Prop
  | .notFound, _ => False
  | .cancelled, t => t.state = .cancelled
  | .alreadyCancelled, t => t.state = .cancelled
  | .requested, t => t.state = .running ∧ t.cancelRequested = true
  | .alreadyRequested, t => t.state = .running ∧ t.cancelRequested = true
  | .alreadyTerminal, t => t.state = .succeeded ∨ t.state = .failed

/-- The answer is the row as it is, and what it says of it is so. -/
structure CancelResult.Truthful (res : CancelResult) (row : Option Task) : Prop where
  found : res.outcome ≠ .notFound → ∃ t, row = some t ∧ res.outcome.describes t
  row : res.outcome ≠ .notFound → res.task = row

omit [PyText] in
theorem truthful_of_row {outcome : CancelOutcome} {row : Option Task} {t : Task}
    (hrow : row = some t) (h : outcome.describes t) :
    outcome ≠ .notFound ∧ (⟨outcome, row⟩ : CancelResult).Truthful row := by
  refine ⟨?_, fun _ => ⟨t, hrow, h⟩, fun _ => rfl⟩
  rintro rfl
  exact h

/-- **A cancellation on the row it has read** returns, so it does not fail on its
assertion, and its answer is the row it leaves. -/
theorem cancelSeen_truthful {db : Database} {now : Time} {i : TaskId} {row : Task}
    (hrow : db.task? i = some row) :
    ∃ db' res, cancelSeen db now i row = .ok (db', res) ∧ res.outcome ≠ .notFound ∧
      res.Truthful (db'.task? i) := by
  unfold cancelSeen
  by_cases hcancelled : row.state = .cancelled
  · rw [if_pos hcancelled]
    exact ⟨_, _, rfl, truthful_of_row hrow hcancelled⟩
  rw [if_neg hcancelled]
  by_cases hterminal : row.state.isTerminal = true
  · rw [if_pos hterminal]
    refine ⟨_, _, rfl, truthful_of_row hrow ?_⟩
    cases hst : row.state <;> simp_all [State.isTerminal, State.terminal, CancelOutcome.describes]
  rw [if_neg hterminal]
  by_cases hqueued : row.state = .queued
  · rw [if_pos hqueued]
    have hmem : row.state ∈ [State.queued] := List.mem_singleton.mpr hqueued
    have hmatch : ({} : Expect).firstFailing now [.queued] (some row) = none :=
      Expect.firstFailing_none.mpr ⟨hmem, rfl⟩
    have hchecked : ((transitionWrite now .cancelled (cancelFields now)).row row).Checked :=
      CallerFields.cancellation.checked (Database.row_checked hrow) hmem
    obtain ⟨db₁, happly, hmoved⟩ := transition_applies db now i .taskCancelled {} (cancelFields now)
      (.obj [("reason", .str "cancelled_before_start")]) (List.cons_ne_nil _ _)
      (by simp [State.isLegal, State.allowed]) hrow hmatch hchecked
    have hleft := hmoved.row
    rw [Database.row_id hrow] at hleft
    refine ⟨db₁, ⟨.cancelled, some (cancelledTask now row)⟩, ?_, ?_⟩
    · rw [happly, ok_bind]
      rfl
    · rw [hleft]
      exact truthful_of_row rfl rfl
  rw [if_neg hqueued]
  have hrunning : row.state = .running := by
    cases hst : row.state <;> simp_all [State.isTerminal, State.terminal]
  by_cases hflag : row.cancelRequested = true
  · rw [if_pos hflag]
    exact ⟨_, _, rfl, truthful_of_row hrow ⟨hrunning, hflag⟩⟩
  · rw [if_neg hflag]
    obtain ⟨db₁, hup⟩ := updateTasks_succeeds db (fun t => t.id == i) (flagWrite now)
      fun t ht _ => db.tasks_checked t ht
    obtain ⟨htasks, -⟩ := updateTasks_ok hup
    have hleft : db₁.task? i = some ((flagWrite now).row row) := by
      rw [task?_of_tasks htasks, hrow, Option.map_some, if_pos]
      exact beq_iff_eq.mpr (Database.row_id hrow)
    obtain ⟨db₂, hev⟩ := insertEvent_succeeds
      (e := ⟨i, some row.attempt, .cancelRequested, none, .obj [("source", .str "api")], now⟩)
      (show (db₁.task? i).isSome = true by rw [hleft]; rfl)
    have hkept : db₂.task? i = db₁.task? i := by
      unfold Database.task?
      rw [(insertEvent_ok hev).2.1]
    refine ⟨db₂, ⟨.requested, db₂.task? i⟩, ?_, truthful_of_row (hkept.trans hleft) ⟨hrunning, rfl⟩⟩
    rw [hup, ok_bind]
    exact (congrArg (· >>= _) hev).trans rfl

/-- Where a cancellation stands: not begun; with nothing to cancel; with the row it has
read, which it has locked and which is what is committed; or ended. -/
inductive CancelPhase (now : Time) (i : TaskId) (H : Lock → Prop) (s : Store) :
    Status Store Lock Failure Answer Point → Prop
  | start : CancelPhase now i H s (.running (cancelTx now i))
  | absent {write : Store → Except Failure (Store × Answer)}
    (hwrite : ∀ s, write s = .ok (s, .reply (.cancelled ⟨.notFound, none⟩))) :
    CancelPhase now i H s (.running (.commit .other write))
  | seen {row : Task} (hlock : H (.task i)) (hrow : s.db.task? i = some row) :
    CancelPhase now i H s (.running (.commit .other (cancelOn now i row)))
  | answered {a : Answer} : CancelPhase now i H s (.done (.ok a))
  | aborted : CancelPhase now i H s .aborted

/-- The row stays what it was read to be, whatever the others commit. -/
theorem CancelPhase.other {now : Time} {i : TaskId} {H H' : Lock → Prop} {s s' : Store}
    {status : Status Store Lock Failure Answer Point} (h : CancelPhase now i H s status)
    (hfree : ∀ l, H l → ¬ H' l) (hw : StoreWrites H' s s') : CancelPhase now i H s' status := by
  cases h with
  | start => exact .start
  | absent hwrite => exact .absent hwrite
  | seen hlock hrow =>
    refine .seen hlock ?_
    by_contra hchanged
    exact hfree _ hlock (hw.tasks.rows i _ hrow hchanged)
  | answered => exact .answered
  | aborted => exact .aborted

/-- One's own steps: the locking read, and the commit, which answers truthfully. -/
theorem CancelPhase.moved {now : Time} {i : TaskId} {m m' : Server} {k : Nat} {p : Program}
    {status : Status Store Lock Failure Answer Point}
    (h : CancelPhase now i (m.held k) m.db (.running p)) (hm : Moved m m' k p status) :
    CancelPhase now i (m'.held k) m'.db status ∧
      ∀ res, status = .done (.ok (.reply (.cancelled res))) → res.Truthful (m'.db.db.task? i) := by
  cases h with
  | start =>
    cases hm with
    | stmt hdb hwaits htakes hheld =>
      refine ⟨?_, by simp⟩
      dsimp only
      split
      · exact .absent fun _ => rfl
      · rename_i row hrow
        refine .seen ((hheld _).mpr (Or.inr ?_)) (hdb ▸ hrow)
        dsimp only
        rw [hrow]
        exact List.mem_singleton_self _
    | abort hdb => exact ⟨.aborted, by simp⟩
  | absent hwrite =>
    cases hm with
    | commit hw =>
      refine ⟨.answered, fun res hres => ?_⟩
      rw [hwrite] at hw
      obtain ⟨-, ha⟩ := Prod.mk.inj (Except.ok.inj hw)
      rw [← ha] at hres
      cases hres
      exact ⟨fun hno => absurd rfl hno, fun hno => absurd rfl hno⟩
    | raise hdb hw =>
      rw [hwrite] at hw
      cases hw
    | abort hdb => exact ⟨.aborted, by simp⟩
  | @seen row hlock hrow =>
    obtain ⟨db', res, hseen, -, htruthful⟩ := @cancelSeen_truthful _ m.db.db now i row hrow
    have hwrite : cancelOn now i row m.db =
        .ok ({ m.db with db := db' }, .reply (.cancelled res)) := by
      unfold cancelOn
      rw [hseen]
    cases hm with
    | commit hw =>
      refine ⟨.answered, fun res' hres => ?_⟩
      rw [hwrite] at hw
      obtain ⟨hdb, ha⟩ := Prod.mk.inj (Except.ok.inj hw)
      rw [← ha] at hres
      cases hres
      rw [← hdb]
      exact htruthful
    | raise hdb hw =>
      rw [hwrite] at hw
      cases hw
    | abort hdb => exact ⟨.aborted, by simp⟩

/-- The answer will be that there is no such task. -/
def AnswersNotFound (status : Status Store Lock Failure Answer Point) : Prop :=
  ∃ write, status = .running (.commit .other write) ∧
    ∀ s, write s = .ok (s, .reply (.cancelled ⟨.notFound, none⟩))

/-- NOT_FOUND is answered by whoever reads no row, and by nobody else. -/
theorem notFound_iff {m m' : Server} {k : Nat}
    {x x' : Session Store Lock Failure Answer Point Request} {now : Time} {i : TaskId}
    (hact : act requestTx m (.next k) = some m') (hx : m.txs[k]? = some x)
    (hstart : x.status = .running (cancelTx now i)) (hx' : m'.txs[k]? = some x') :
    m.db.db.task? i = none ↔ AnswersNotFound x'.status := by
  rw [act_next hx] at hact
  rw [advance_stmt hstart hact, List.getElem?_set_self (List.getElem?_eq_some_iff.mp hx).1] at hx'
  rw [← Option.some.inj hx']
  dsimp only
  cases hrow : m.db.db.task? i with
  | none => exact iff_of_true rfl ⟨_, rfl, fun _ => rfl⟩
  | some row =>
    refine iff_of_false (by simp) ?_
    rintro ⟨write, hwrite, hall⟩
    obtain ⟨db', res, hseen, hfound, -⟩ := cancelSeen_truthful hrow
    have hanswer : cancelOn now i row m.db = .ok (m.db, .reply (.cancelled ⟨.notFound, none⟩)) := by
      cases hwrite
      exact hall m.db
    unfold cancelOn at hanswer
    rw [hseen] at hanswer
    have hres := (Prod.mk.inj (Except.ok.inj hanswer)).2
    cases hres
    exact hfound rfl

/-! ## Every interleaving -/

/-- Every cancellation of the task is in one of its phases. -/
def CancelsIn (i : TaskId) (m : Server) : Prop :=
  ∀ (k : Nat) x, m.txs[k]? = some x → x.op.op = .call (.cancelTask i) →
    CancelPhase x.op.now i (m.held k) m.db x.status

theorem requestTx_cancel {r : Request} {i : TaskId} (h : r.op = .call (.cancelTask i)) :
    requestTx r = cancelTx r.now i := by
  obtain ⟨now, op⟩ := r
  obtain rfl : op = .call (.cancelTask i) := h
  rfl

theorem cancelsIn_step {i : TaskId} {m m' : Server} {a : Action Request} (hm : CancelsIn i m)
    (h : KeptStep m a m') : CancelsIn i m' := by
  obtain ⟨hact, -, -, hcommits⟩ := h
  intro k x' hx' hop
  rcases act_session hact hx' with ⟨hne, hold, hheld⟩ | ⟨-, hst, -⟩ |
    ⟨x, p, hx, hsame, hst, hmoved, -⟩
  · rw [hheld]
    rcases hcommits with he | ⟨j, rfl, hwrites⟩
    · rw [he]
      exact hm k x' hold hop
    · refine (hm k x' hold hop).other (fun l hl hl' => ?_) hwrites
      have hkj : some k = some j := hl.symm.trans hl'
      exact hne (by rw [Option.some.inj hkj])
  · rw [hst, requestTx_cancel hop]
    exact .start
  · rw [hsame] at hop ⊢
    have hphase := hm k x hx hop
    rw [hst] at hphase
    exact (hphase.moved hmoved).1

/-- What cancellations promise of a reachable state and of all that follow it. -/
structure CancelledOnce (i : TaskId) (m m' : Server) : Prop where
  requestedOnce : (m.db.db.view i).count .cancelRequested ≤ 1
  cancelledOnce : (m.db.db.view i).count .taskCancelled ≤ 1
  flagStays : ∀ t, m.db.db.task? i = some t → t.cancelRequested = true →
    ∃ t', m'.db.db.task? i = some t' ∧ t'.cancelRequested = true
  neverFails : ∀ (k : Nat) x e, m.txs[k]? = some x → x.op.op = .call (.cancelTask i) →
    x.status ≠ .done (.error e)
  answers : ∀ (k : Nat) m₁ x res, act requestTx m (.next k) = some m₁ → m₁.txs[k]? = some x →
    x.op.op = .call (.cancelTask i) → x.status = .done (.ok (.reply (.cancelled res))) →
      res.Truthful (m₁.db.db.task? i)
  notFound : ∀ (k : Nat) m₁ x x', act requestTx m (.next k) = some m₁ → m.txs[k]? = some x →
    x.status = .running (cancelTx x.op.now i) → m₁.txs[k]? = some x' →
      (m.db.db.task? i = none ↔ AnswersNotFound x'.status)

omit [PyText] in
theorem TaskView.Recorded.once {v : TaskView} (h : v.Recorded) :
    v.count .cancelRequested ≤ 1 ∧ v.count .taskCancelled ≤ 1 :=
  ⟨h.requested.trans (Bool.toNat_le _), h.ended.trans (Bool.toNat_le _)⟩

/-- **Cancellations are recorded once and answered truthfully.** In every interleaving of
the statements of cancellations, bulk cancellations and all other requests, with any
of them rolled back: each of the two events is written for a task at most once, the flag
stays, no cancellation fails on its assertion, or at all, at the commit of each the row
is as its answer says, and none is answered that there was no task unless there was none
when it read. -/
theorem cancellations_recorded_once {m m' : Server} {acts acts' : List (Action Request)}
    (hrun : Interleaves .empty acts m) (hlater : Interleaves m acts' m')
    (hbegun : ∀ r ∈ begun (acts ++ acts'), r.Standalone) (i : TaskId) : CancelledOnce i m m' := by
  have hstand : ∀ r, Action.begin r ∈ acts ++ acts' → r.Standalone := fun r hr =>
    hbegun r (mem_begun.mpr hr)
  have hempty : Discipline.Sound (discipline False) Server.empty := empty_sound
  obtain ⟨hsound, hkept⟩ := requests_sound hrun hempty (fun r hr => hstand r (by simp [hr]))
    fun h => h.elim
  obtain ⟨-, hkept'⟩ := requests_sound hlater hsound (fun r hr => hstand r (by simp [hr]))
    fun h => h.elim
  have hrecorded : ∀ j, (m.db.db.view j).Recorded :=
    hkept.invariant (I := fun s : Server => ∀ j, (s.db.db.view j).Recorded)
      (fun hs h => commits_keep (P := fun s : Store => ∀ j, (s.db.view j).Recorded)
        (fun hw => hw.recorded) h.2.2.2 hs)
      fun j => ⟨by simp [TaskView.count, Server.empty, Store.empty, Database.view, Database.empty],
        by simp [TaskView.count, Server.empty, Store.empty, Database.view, Database.empty]⟩
  have hcancels : CancelsIn i m :=
    hkept.invariant (I := CancelsIn i) (fun hs h => cancelsIn_step hs h) fun k x hx => by
      simp [Server.empty] at hx
  obtain ⟨hrequested, hended⟩ := (hrecorded i).once
  refine ⟨hrequested, hended, fun t ht hf => ?_, fun k x e hx hop hfail => ?_,
    fun k m₁ x' res hact hx' hop' hdone => ?_,
    fun k m₁ x x' hact hx hstart hx' => notFound_iff hact hx hstart hx'⟩
  · exact hkept'.invariant
      (I := fun s : Server => ∃ u, s.db.db.task? i = some u ∧ u.cancelRequested = true)
      (fun hs h => commits_keep (P := fun s : Store => ∃ u, s.db.task? i = some u ∧
        u.cancelRequested = true) (fun hw => hw.flag_kept) h.2.2.2 hs) ⟨t, ht, hf⟩
  · have hphase := hcancels k x hx hop
    rw [hfail] at hphase
    cases hphase
  · rcases act_session hact hx' with ⟨hne, -, -⟩ | ⟨-, hst, -⟩ | ⟨x, p, hx, hop, hst, hmoved, -⟩
    · exact absurd rfl hne
    · rw [hst] at hdone
      cases hdone
    · rw [hop] at hop'
      have hphase := hcancels k x hx hop'
      rw [hst] at hphase
      exact (hphase.moved hmoved).2 res hdone

/-- Two clients cancel the same QUEUED task; the second waits for the row. -/
def cancelledTwice : List (Action Request) :=
  .begin ⟨0, .call (.createTenant 1 "acme" 10 1000)⟩ :: steps 0 1 ++
  .begin ⟨1, .call (.submitTask 7 { tenantId := 1, taskType := "demo", payload := [] })⟩ ::
    steps 1 2 ++
  .begin ⟨2, .call (.cancelTask 7)⟩ :: .begin ⟨2, .call (.cancelTask 7)⟩ :: steps 2 2 ++ steps 3 2

omit [PyText] in
theorem cancellations_recorded_once_twice :
    ∃ m, @Interleaves PyText.plain .empty cancelledTwice m ∧
      @CancelledOnce PyText.plain 7 m m ∧
      (m.db.db.view 7).count .taskCancelled = 1 := by
  have hend : (exec (act (@requestTx PyText.plain)) Server.empty cancelledTwice).map (fun m =>
      (m.db.db.view 7).count .taskCancelled) = some 1 := by decide +kernel
  obtain ⟨m, hm, hcount⟩ := Option.map_eq_some_iff.mp hend
  have hrun : @Interleaves PyText.plain .empty cancelledTwice m := Run.of_exec hm
  have hbegun : ∀ r ∈ begun (cancelledTwice ++ []), r.Standalone := by decide
  exact ⟨m, hrun, @cancellations_recorded_once PyText.plain m m _ [] hrun (.nil m) hbegun 7, hcount⟩

end ControlPlane
