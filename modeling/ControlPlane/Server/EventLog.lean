import ControlPlane.Lib.Journal
import ControlPlane.Server.Legality

/-! # The event log determines the state

Four pieces of code write the events of a change of state: `transition`, the
claim, the bulk cancellation and the submission. Whichever it is, one event is
written for the change and none without it, so the events of a task, folded in
order, give its state back; and the claims among them number its attempts. -/

namespace ControlPlane
open Keyed Fallible Runs Journal

/-- The state an event moves its task to. -/
def EventType.target : EventType → Option State
  | .taskCreated => some .queued
  | .taskClaimed => some .running
  | .retryScheduled | .taskRecovered | .taskAbandoned => some .queued
  | .taskSucceeded => some .succeeded
  | .taskFailed => some .failed
  | .taskCancelled => some .cancelled
  | _ => none

def TaskEvent.target (e : TaskEvent) : Option State := e.eventType.target

/-- The attempts the TASK_CLAIMED events carry, in order. -/
def claimedAttempts (es : List TaskEvent) : List (Option Int) :=
  (es.filter fun e => e.eventType == .taskClaimed).map TaskEvent.attempt

theorem claimedAttempts_append (es fs : List TaskEvent) :
    claimedAttempts (es ++ fs) = claimedAttempts es ++ claimedAttempts fs := by
  simp [claimedAttempts]

/-- The events the worker records on their own, beside the queries that change
the state: the uses of a tool and the rejection of its own stale write. -/
def standaloneEvents : List EventType :=
  [.toolAccessAllowed, .toolAccessDenied, .toolExecuted, .toolExecutionFailed, .staleWriteRejected]

/-- A transaction of the program: what it records on its own is one of these. -/
def Op.Standalone (op : Op) : Prop :=
  ∀ i ty a w data, op = .recordEvent i ty a w data → ty ∈ standaloneEvents

theorem standaloneEvents_target {ty : EventType} (h : ty ∈ standaloneEvents) :
    ty.target = none ∧ ty ≠ .taskClaimed := by
  cases ty <;> simp_all [standaloneEvents, EventType.target]

theorem Ending.eventType_target (e : Ending) : e.eventType.target = some e.toState := by
  cases e <;> rfl

theorem Ending.eventType_ne_claimed (e : Ending) : e.eventType ≠ .taskClaimed := by
  cases e <;> simp [Ending.eventType]

theorem reapEventType_target (a m : Int) :
    (reapEventType a m).target = some (reapToState a m) ∧ reapEventType a m ≠ .taskClaimed := by
  unfold reapEventType reapToState
  split <;> simp [EventType.target]

/-! ## One step -/

/-- What a step appends to the events of a task, beside what it does to its row. -/
structure Logs (v v' : TaskView) (es : List TaskEvent) : Prop where
  events : v'.events = v.events ++ es
  records : Records TaskEvent.target (v.row.map Task.state) (v'.row.map Task.state) es
  kept : v'.row = none → v.row = none
  numbered :
    (claimedAttempts es = [] ∧
        ∀ t', v'.row = some t' → (v.row = none ∧ t'.attempt = 0) ∨
          ∃ t, v.row = some t ∧ t'.attempt = t.attempt) ∨
      ∃ t t', v.row = some t ∧ v'.row = some t' ∧ t'.attempt = t.attempt + 1 ∧
        claimedAttempts es = [some (t.attempt + 1)]

namespace Logs

variable {v v' : TaskView} {es : List TaskEvent} {t t' : Task}

theorem row_kept (hr : v.row = some t) (hr' : v'.row = some t') (ha : t'.attempt = t.attempt) :
    ∀ u, v'.row = some u → (v.row = none ∧ u.attempt = 0) ∨
      ∃ s, v.row = some s ∧ u.attempt = s.attempt := by
  intro u hu
  obtain rfl := Option.eq_some_unique hr' hu
  exact Or.inr ⟨t, hr, ha⟩

/-- A step that leaves state and attempt alone appends no change of state. -/
theorem still (he : v'.events = v.events ++ es) (hr : v'.row.map Task.state = v.row.map Task.state)
    (ha : v'.row.map Task.attempt = v.row.map Task.attempt)
    (hes : ∀ e ∈ es, e.target = none ∧ e.eventType ≠ .taskClaimed) : Logs v v' es where
  events := he
  records := by
    unfold Records
    rw [if_pos hr]
    exact List.filterMap_eq_nil_iff.mpr fun e h => (hes e h).1
  kept hnone := by
    rw [hnone] at hr
    exact Option.map_eq_none_iff.mp hr.symm
  numbered := by
    refine Or.inl ⟨?_, fun t' ht' => ?_⟩
    · unfold claimedAttempts
      rw [List.filter_eq_nil_iff.mpr fun e h => by simpa using (hes e h).2]
      rfl
    · rw [ht'] at ha
      obtain ⟨t, ht, hat⟩ := Option.map_eq_some_iff.mp ha.symm
      exact Or.inr ⟨t, ht, hat.symm⟩

/-- A step that moves a row along with the event of the move, among others that
are no change of state. -/
theorem moved {e : TaskEvent} {more : List TaskEvent} (he : v'.events = v.events ++ e :: more)
    (hr : v.row = some t) (hr' : v'.row = some t') (hne : t'.state ≠ t.state)
    (ha : t'.attempt = t.attempt) (hty : e.target = some t'.state)
    (hclaim : e.eventType ≠ .taskClaimed)
    (hmore : ∀ f ∈ more, f.target = none ∧ f.eventType ≠ .taskClaimed) :
    Logs v v' (e :: more) where
  events := he
  records := by
    have hrest : changes TaskEvent.target more = [] :=
      List.filterMap_eq_nil_iff.mpr fun f h => (hmore f h).1
    have hchanged : ¬ v'.row.map Task.state = v.row.map Task.state := by
      rw [hr, hr', Option.map_some, Option.map_some, Option.some.injEq]
      exact hne
    unfold Records
    rw [if_neg hchanged, show changes TaskEvent.target (e :: more) =
      t'.state :: changes TaskEvent.target more from List.filterMap_cons_some hty, hrest, hr']
    rfl
  kept hnone := by
    rw [hnone] at hr'
    cases hr'
  numbered := by
    refine Or.inl ⟨?_, row_kept hr hr' ha⟩
    unfold claimedAttempts
    rw [List.filter_eq_nil_iff.mpr]
    · rfl
    · intro f hf
      rcases List.mem_cons.mp hf with rfl | hf
      · simpa using hclaim
      · simpa using (hmore f hf).2

end Logs

variable [PyText]

/-- **One step of a task** writes exactly the event of the change it makes. -/
theorem TaskStep.logs {c : Call} {i : TaskId} {v v' : TaskView} (h : TaskStep c i v v')
    (hop : c.op.Standalone) : ∃ es, Logs v v' es := by
  cases h with
  | skip => exact ⟨[], .still (List.append_nil _).symm rfl rfl (by simp)⟩
  | noted e hrec =>
    obtain ⟨a, w, data, hrec⟩ := hrec
    refine ⟨[e], .still rfl rfl rfl fun f hf => ?_⟩
    obtain rfl := List.mem_singleton.mp hf
    exact standaloneEvents_target (hop _ _ _ _ _ hrec)
  | submitted hsub hv =>
    subst hv
    refine ⟨_, ⟨rfl, rfl, fun h => ?_, Or.inl ⟨rfl, fun t' ht' => Or.inl ⟨rfl, ?_⟩⟩⟩⟩
    · cases h
    · obtain rfl := Option.some.inj ht'
      rfl
  | @claimed args scans t hclaim hr hc =>
    have hq := (Task.claimable_iff.mp hc).1
    refine ⟨_, ⟨rfl, ?_, fun h => ?_, Or.inr ⟨t, _, hr, rfl, rfl, rfl⟩⟩⟩
    · rw [hr, Option.map_some, hq]
      rfl
    · cases h
  | @renewed w a ttl t hren hr hf =>
    refine ⟨[], .still (List.append_nil _).symm ?_ ?_ (by simp)⟩
    · rw [hr]
      rfl
    · rw [hr]
      rfl
  | @completed e a w t hcomp hr hf =>
    obtain ⟨hs, ha, -⟩ := e.row_fields c.now t
    refine ⟨_, .moved rfl hr rfl ?_ ha ?_ e.eventType_ne_claimed (by simp)⟩
    · rw [hs, hf.1]
      exact e.toState_not_running
    · rw [hs]
      exact e.eventType_target
  | @reaped o limit scan t hreap hr hs ho =>
    obtain ⟨hs', ha, -⟩ := o.row_fields c.now t
    obtain ⟨htarget, hclaim⟩ := reapEventType_target t.attempt t.maxAttempts
    refine ⟨_, .moved rfl hr rfl ?_ ha ?_ hclaim fun f hf => ?_⟩
    · rw [hs', hs]
      exact reapToState_not_running _ _
    · rw [hs']
      exact htarget
    · obtain rfl := List.mem_singleton.mp hf
      exact ⟨rfl, by simp⟩
  | @cancelled t t' e hcan hr hq ht' he =>
    obtain ⟨hs, ha, -⟩ := cancelled_fields ht'
    refine ⟨[e], .moved rfl hr rfl ?_ ha ?_ ?_ (by simp)⟩
    · rw [hs, hq]
      simp
    · rw [TaskEvent.target, he, hs]
      rfl
    · rw [he]
      simp
  | @flagged t e hcan hr hs hf he =>
    refine ⟨[e], .still rfl ?_ ?_ fun f hf => ?_⟩
    · rw [hr]
      rfl
    · rw [hr]
      rfl
    · obtain rfl := List.mem_singleton.mp hf
      exact ⟨by rw [TaskEvent.target, he]; rfl, by rw [he]; simp⟩

/-! ## Whole runs -/

/-- The events of a task say what its row says. -/
structure TaskView.Replayed (v : TaskView) : Prop where
  state : replay TaskEvent.target none v.events = v.row.map Task.state
  attempts : ∀ t, v.row = some t → 0 ≤ t.attempt ∧
    claimedAttempts v.events = (List.range t.attempt.toNat).map fun n : Nat => some ((n : Int) + 1)
  unborn : v.row = none → claimedAttempts v.events = []

omit [PyText] in
/-- The events a step appends keep the log in agreement with the row. -/
theorem Logs.replayed {v v' : TaskView} {es : List TaskEvent} (h : Logs v v' es)
    (hv : v.Replayed) : v'.Replayed where
  state := by
    rw [h.events]
    refine h.records.extend (fun hnone => ?_) hv.state
    rw [h.kept (Option.map_eq_none_iff.mp hnone)]
    rfl
  attempts t' ht' := by
    rw [h.events, claimedAttempts_append]
    rcases h.numbered with ⟨hnil, hrow⟩ | ⟨t, u, hr, hr', ha, hone⟩
    · rw [hnil, List.append_nil]
      rcases hrow t' ht' with ⟨hnone, h0⟩ | ⟨t, hr, ha⟩
      · rw [h0, hv.unborn hnone]
        exact ⟨le_refl _, rfl⟩
      · rw [ha]
        exact hv.attempts t hr
    · obtain rfl := Option.eq_some_unique hr' ht'
      obtain ⟨hn, hold⟩ := hv.attempts t hr
      refine ⟨by omega, ?_⟩
      rw [hone, hold, ha, show (t.attempt + 1).toNat = t.attempt.toNat + 1 by omega,
        List.range_succ, List.map_append]
      simp
      omega
  unborn hnone := by
    rw [h.events, claimedAttempts_append, hv.unborn (h.kept hnone)]
    rcases h.numbered with ⟨hnil, -⟩ | ⟨t, u, hr, hr', -⟩
    · exact hnil
    · rw [hnone] at hr'
      cases hr'

omit [PyText] in
theorem empty_replayed (i : TaskId) : (Database.empty.view i).Replayed where
  state := rfl
  attempts _ ht := by cases ht
  unborn _ := rfl

/-! ## Calls that change nothing -/

def CancelOutcome.refused : CancelOutcome → Bool
  | .notFound | .alreadyRequested | .alreadyCancelled | .alreadyTerminal => true
  | .cancelled | .requested => false

/-- The reply of a call that was rejected, or that repeats one already made. -/
def Reply.refused : Reply → Bool
  | .submitted res => !res.created
  | .renewed res => res.isNone
  | .completed res => !res.isApplied
  | .cancelled res => res.outcome.refused
  | _ => false

/-- The transaction raises or replies with a refusal. -/
def Refused (db : Database) (c : Call) : Prop :=
  match perform db c.now c.op with
  | .error _ => True
  | .ok (_, r) => r.refused = true

omit [PyText] in
theorem cancelTask_refused {db db' : Database} {now : Time} {i : TaskId} {res : CancelResult}
    (h : cancelTask db now i = .ok (db', res)) (hres : res.outcome.refused = true) : db' = db := by
  unfold cancelTask at h
  split at h
  · exact (Prod.mk.inj (pure_ok.mp h)).1.symm
  · unfold cancelSeen at h
    split at h
    · exact (Prod.mk.inj (pure_ok.mp h)).1.symm
    · split at h
      · exact (Prod.mk.inj (pure_ok.mp h)).1.symm
      · split at h
        · obtain ⟨⟨db₁, res₁⟩, -, h⟩ := bind_ok.mp h
          cases res₁ with
          | applied t =>
            obtain ⟨-, rfl⟩ := Prod.mk.inj (pure_ok.mp h)
            cases hres
          | rejected why obs => cases h
        · split at h
          · exact (Prod.mk.inj (pure_ok.mp h)).1.symm
          · obtain ⟨⟨db₁, rows⟩, -, h⟩ := bind_ok.mp h
            obtain ⟨db₂, -, h⟩ := bind_ok.mp h
            obtain ⟨-, rfl⟩ := Prod.mk.inj (pure_ok.mp h)
            cases hres

/-- A refused transaction leaves every task as it was, its events included. -/
theorem Refused.view {db : Database} {c : Call} (h : Refused db c) :
    (commit db c).view = db.view := by
  unfold Refused at h
  rcases hperf : perform db c.now c.op with e | ⟨db', r⟩
  · rw [commit_of_error hperf]
  · rw [hperf] at h
    rw [commit_of_ok hperf]
    obtain ⟨now, op⟩ := c
    cases op with
    | submitTask newId args =>
      obtain ⟨res, hsub, rfl⟩ := mapSnd_ok hperf
      obtain ⟨-, ⟨rfl, -⟩ | ⟨-, -, -, -, rfl⟩⟩ := submitTask_ok hsub
      · cases h
      · rfl
    | renewLease i w a ttl =>
      obtain ⟨res, hren, rfl⟩ := mapSnd_ok hperf
      obtain ⟨-, ⟨t, -, -, rfl, -⟩ | ⟨-, -, hv⟩⟩ := renewLease_ok hren
      · cases h
      · exact hv
    | complete e i a w =>
      obtain ⟨res, hcomp, rfl⟩ := mapSnd_ok hperf
      obtain ⟨-, ⟨t, -, -, rfl, -⟩ | ⟨-, -, hv⟩⟩ := completeAttempt_ok hcomp
      · cases h
      · exact hv
    | cancelTask i =>
      obtain ⟨res, hcan, rfl⟩ := mapSnd_ok hperf
      rw [cancelTask_refused hcan h]
    | createTenant newId name m q => obtain ⟨_, -, rfl⟩ := mapSnd_ok hperf; cases h
    | registerWorker w m caps => obtain ⟨_, -, rfl⟩ := mapSnd_ok hperf; cases h
    | heartbeat w => cases hperf; cases h
    | setWorkerStatus w status => cases hperf; cases h
    | markDeadWorkers s => cases hperf; cases h
    | claimTasks args scans => obtain ⟨_, -, rfl⟩ := mapSnd_ok hperf; cases h
    | reap o limit scan => obtain ⟨_, -, rfl⟩ := mapSnd_ok hperf; cases h
    | cancelAgentTasks versions reason => obtain ⟨_, -, rfl⟩ := mapSnd_ok hperf; cases h
    | recordEvent i ty a w data =>
      obtain ⟨db₁, hrec, he⟩ := map_ok hperf
      cases he
      cases h

/-! ## The log of a run -/

/-- What a transaction appends to the log. -/
structure LogStep (s : Database) (c : Call) (s' : Database) : Prop where
  recorded : ∀ i, ∃ es, (s'.view i).events = (s.view i).events ++ es ∧
    Records TaskEvent.target ((s.task? i).map Task.state) ((s'.task? i).map Task.state) es
  refused : Refused s c → ∀ i, (s'.view i).events = (s.view i).events

theorem commit_logs (db : Database) (c : Call) (hop : c.op.Standalone) :
    LogStep db c (commit db c) where
  recorded i := by
    obtain ⟨es, h⟩ := (commit_step db c i).logs hop
    exact ⟨es, h.events, h.records⟩
  refused h i := by rw [h.view]

/-- **The event log determines the state.** In every history from the empty
database the events of a task fold to its state, its TASK_CLAIMED events carry
the attempts from 1 to `attempt`, and each transaction records a change of state
with one event, or none where it changes nothing. -/
theorem event_log_determines_state (calls : List Call) (hcalls : ∀ c ∈ calls, c.op.Standalone) :
    (∀ i t, (history .empty calls).task? i = some t →
      replay TaskEvent.target none ((history .empty calls).view i).events = some t.state ∧
        claimedAttempts ((history .empty calls).view i).events =
          (List.range t.attempt.toNat).map (fun n : Nat => some ((n : Int) + 1)) ∧
        ((claimedAttempts ((history .empty calls).view i).events).length : Int) = t.attempt) ∧
      Run (fun s c s' => Step s c s' ∧ LogStep s c s') .empty calls (history .empty calls) := by
  have hrun : Run (fun s c s' => Step s c s' ∧ c.op.Standalone) .empty calls
      (history .empty calls) := by
    induction calls using List.reverseRecOn with
    | nil => exact .nil _
    | append_singleton calls c ih =>
      rw [history_append]
      exact (ih fun d hd => hcalls d (by simp [hd])).snoc ⟨rfl, hcalls c (by simp)⟩
  refine ⟨fun i t ht => ?_, hrun.mono fun {s c s'} h => ?_⟩
  · have hrep : ((history .empty calls).view i).Replayed := by
      refine hrun.invariant (I := fun s => (s.view i).Replayed) ?_ (empty_replayed i)
      rintro s c s' hs ⟨rfl, hop⟩
      obtain ⟨es, h⟩ := (commit_step s c i).logs hop
      exact h.replayed hs
    obtain ⟨hn, hclaims⟩ := hrep.attempts t ht
    refine ⟨?_, hclaims, ?_⟩
    · rw [hrep.state, Database.view_row, ht]
      rfl
    · rw [hclaims, List.length_map, List.length_range]
      exact Int.toNat_of_nonneg hn
  · obtain ⟨rfl, hop⟩ := h
    exact ⟨rfl, commit_logs s c hop⟩

/-- A task submitted, claimed, put back for a retry and claimed again. -/
def retriedOnce : List Call :=
  [⟨0, .createTenant 1 "tenant" 10 1000⟩,
   ⟨0, .registerWorker "worker" 5 []⟩,
   ⟨0, .submitTask 7 { tenantId := 1, taskType := "demo", payload := [] }⟩,
   ⟨0, .claimTasks { workerId := "worker", limit := 1, leaseTtlS := 30 } fun _ => {}⟩,
   ⟨1, .complete (.retry "TRANSIENT" "boom" 2) 7 1 "worker"⟩,
   ⟨2, .recordEvent 7 .staleWriteRejected (some 1) (some "worker") (.obj [])⟩,
   ⟨4, .claimTasks { workerId := "worker", limit := 1, leaseTtlS := 30 } fun _ => {}⟩]

omit [PyText] in
theorem retriedOnce_standalone : ∀ c ∈ retriedOnce, c.op.Standalone := by
  intro c hc i ty a w data he
  simp only [retriedOnce, List.mem_cons, List.not_mem_nil, or_false] at hc
  rcases hc with rfl | rfl | rfl | rfl | rfl | rfl | rfl
  all_goals cases he
  simp [standaloneEvents]

omit [PyText] in
theorem event_log_determines_state_retriedOnce :
    replay TaskEvent.target none ((@history PyText.plain .empty retriedOnce).view 7).events =
        some .running ∧
      claimedAttempts ((@history PyText.plain .empty retriedOnce).view 7).events =
        [some 1, some 2] := by
  have hrow : ((@history PyText.plain .empty retriedOnce).task? 7).map
      (fun t => (t.state, t.attempt)) = some (.running, 2) := by decide +kernel
  obtain ⟨t, ht, hst⟩ := Option.map_eq_some_iff.mp hrow
  obtain ⟨hs, ha⟩ := Prod.mk.inj hst
  obtain ⟨hstate, hclaims, -⟩ :=
    (@event_log_determines_state PyText.plain retriedOnce retriedOnce_standalone).1 7 t ht
  rw [hstate, hclaims, hs, ha]
  exact ⟨rfl, rfl⟩

end ControlPlane
