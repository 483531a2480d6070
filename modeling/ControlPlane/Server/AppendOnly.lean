import ControlPlane.Lib.Journal
import ControlPlane.Server.Interleaving

/-! # What is on record stays on record

Events and audit records are only ever appended. What a request appends is not a use
of a tool: those are the worker's own events, which it records beside its queries. -/

namespace ControlPlane
open Keyed Fallible Transactions Runs Journal

/-- The events of the tool runtime. -/
def EventType.ofTools : EventType → Bool
  | .toolAccessAllowed | .toolAccessDenied | .toolExecuted | .toolExecutionFailed => true
  | _ => false

/-- The events grew, and by no use of a tool. -/
abbrev Database.Grows (db db' : Database) : Prop :=
  Journal.Grows (fun e : TaskEvent => e.eventType.ofTools = false) db.events db'.events

/-! ## The queries -/

section

variable {db db' : Database} {now : Time}

theorem insertEvent_grows {e : TaskEvent} (h : insertEvent db e = .ok db')
    (he : e.eventType.ofTools = false) : db.Grows db' :=
  .one (insertEvent_ok h).1 he

theorem insertEvents_grows {es : List TaskEvent} (h : es.foldlM insertEvent db = .ok db')
    (hes : ∀ e ∈ es, e.eventType.ofTools = false) : db.Grows db' := by
  induction es generalizing db with
  | nil =>
    obtain rfl := pure_ok.mp h
    exact .refl _
  | cons e es ih =>
    rw [List.foldlM_cons] at h
    obtain ⟨db₁, hone, hrest⟩ := bind_ok.mp h
    exact (insertEvent_grows hone (hes e List.mem_cons_self)).trans
      (ih hrest fun f hf => hes f (List.mem_cons_of_mem e hf))

theorem insertAttempts_grows {rows : List AttemptRow} (h : rows.foldlM insertAttempt db = .ok db') :
    db.Grows db' :=
  foldlM_invariant (I := fun db₁ => db.Grows db₁)
    (fun hg hstep => hg.trans (.of_eq (insertAttempt_ok hstep).2.2.2.1)) h (.refl _)

theorem updateTasks_grows {p : Task → Bool} {w : TaskWrite} {rows : List Task}
    (h : updateTasks db p w = .ok (db', rows)) : db.Grows db' :=
  .of_eq (updateTasks_ok h).2.2.2.1

theorem transition_grows {i : TaskId} {expected : List State} {dest : State} {ty : EventType}
    {e : Expect} {s : SetFields} {data : Json} {res : TransitionResult}
    (h : transition db now i expected dest ty e s data = .ok (db', res))
    (hty : ty.ofTools = false) : db.Grows db' := by
  unfold transition at h
  obtain ⟨-, -, h⟩ := bind_ok.mp h
  obtain ⟨-, -, h⟩ := bind_ok.mp h
  obtain ⟨⟨db₁, rows⟩, hup, h⟩ := bind_ok.mp h
  dsimp only at h
  split at h
  · obtain ⟨rfl, -⟩ := Prod.mk.inj (pure_ok.mp h)
    exact updateTasks_grows hup
  · obtain ⟨db₂, hev, h⟩ := bind_ok.mp h
    obtain ⟨rfl, -⟩ := Prod.mk.inj (pure_ok.mp h)
    exact (updateTasks_grows hup).trans (insertEvent_grows hev hty)

theorem completeAttempt_grows {e : Ending} {i : TaskId} {a : Int} {w : WorkerId}
    {res : TransitionResult} (h : completeAttempt db now e i a w = .ok (db', res)) :
    db.Grows db' := by
  unfold completeAttempt at h
  obtain ⟨⟨db₁, res₁⟩, htr, h⟩ := bind_ok.mp h
  have hgrows : db.Grows db₁ := transition_grows htr (by cases e <;> rfl)
  dsimp only at h
  split at h
  · obtain ⟨rfl, -⟩ := Prod.mk.inj (pure_ok.mp h)
    exact hgrows
  · obtain ⟨rfl, -⟩ := Prod.mk.inj (pure_ok.mp h)
    exact hgrows

theorem reapOverdue_grows [PyText] {o : Overdue} {i : TaskId} {a m : Int} {w : Option WorkerId}
    {done : Bool}
    (h : reapOverdue db now o i a m w = .ok (db', done)) : db.Grows db' := by
  unfold reapOverdue at h
  obtain ⟨⟨db₁, res⟩, htr, h⟩ := bind_ok.mp h
  have hgrows : db.Grows db₁ := transition_grows htr (by unfold reapEventType; split <;> rfl)
  dsimp only at h
  split at h
  · obtain ⟨rfl, -⟩ := Prod.mk.inj (pure_ok.mp h)
    exact hgrows
  · obtain ⟨db₂, hev, h⟩ := bind_ok.mp h
    obtain ⟨rfl, -⟩ := Prod.mk.inj (pure_ok.mp h)
    -- closing the attempt's row leaves the events alone
    have hlost : db₁.Grows db₂ := insertEvent_grows hev rfl
    exact hgrows.trans hlost

theorem reapRows_grows [PyText] {o : Overdue} {rows : List ReapRow} {r r' : ReapResult}
    (h : rows.foldlM (reapRow now o) (db, r) = .ok (db', r')) : db.Grows db' := by
  refine foldlM_invariant (I := fun s : Database × ReapResult => db.Grows s.1) ?_ h (.refl _)
  intro s row s' hs hrow
  obtain ⟨⟨db₁, done⟩, hone, hrow⟩ := bind_ok.mp hrow
  obtain rfl := pure_ok.mp hrow
  exact hs.trans (reapOverdue_grows hone)

theorem reapBatch_grows [PyText] {o : Overdue} {limit : Int} {scan : Scan} {r : ReapResult}
    (h : reapBatch db now o limit scan = .ok (db', r)) : db.Grows db' := by
  obtain ⟨rows, -, h⟩ := bind_ok.mp h
  exact reapRows_grows h

theorem renewLease_grows {i : TaskId} {w : WorkerId} {a ttl : Int} {res : Option Renewal}
    (h : renewLease db now i w a ttl = .ok (db', res)) : db.Grows db' := by
  obtain ⟨⟨db₁, rows⟩, hup, h⟩ := bind_ok.mp h
  obtain ⟨rfl, -⟩ := Prod.mk.inj (pure_ok.mp h)
  exact updateTasks_grows hup

theorem grantLeases_grows {w : WorkerId} {ttl : Int} {ids : List TaskId} {rows : List Task}
    (h : grantLeases db now w ttl ids = .ok (db', rows)) : db.Grows db' := by
  obtain ⟨⟨db₁, returned⟩, hup, h⟩ := bind_ok.mp h
  obtain ⟨db₂, hev, h⟩ := bind_ok.mp h
  obtain ⟨db₃, hatt, h⟩ := bind_ok.mp h
  obtain ⟨rfl, -⟩ := Prod.mk.inj (pure_ok.mp h)
  refine ((updateTasks_grows hup).trans (insertEvents_grows hev ?_)).trans
    (insertAttempts_grows hatt)
  intro e he
  obtain ⟨t, -, rfl⟩ := List.mem_map.mp he
  rfl

theorem cancelSeen_grows {i : TaskId} {row : Task} {res : CancelResult}
    (h : cancelSeen db now i row = .ok (db', res)) : db.Grows db' := by
  unfold cancelSeen at h
  split at h
  · obtain ⟨rfl, -⟩ := Prod.mk.inj (pure_ok.mp h)
    exact .refl _
  split at h
  · obtain ⟨rfl, -⟩ := Prod.mk.inj (pure_ok.mp h)
    exact .refl _
  split at h
  · obtain ⟨⟨db₁, res₁⟩, htr, h⟩ := bind_ok.mp h
    dsimp only at h
    split at h
    · obtain ⟨rfl, -⟩ := Prod.mk.inj (pure_ok.mp h)
      exact transition_grows htr rfl
    · cases h
  split at h
  · obtain ⟨rfl, -⟩ := Prod.mk.inj (pure_ok.mp h)
    exact .refl _
  · obtain ⟨⟨db₁, rows⟩, hup, h⟩ := bind_ok.mp h
    obtain ⟨db₂, hev, h⟩ := bind_ok.mp h
    obtain ⟨rfl, -⟩ := Prod.mk.inj (pure_ok.mp h)
    exact (updateTasks_grows hup).trans (insertEvent_grows hev rfl)

theorem cancelTask_grows {i : TaskId} {res : CancelResult}
    (h : cancelTask db now i = .ok (db', res)) : db.Grows db' := by
  cases hrow : db.task? i with
  | none =>
    unfold cancelTask at h
    rw [hrow] at h
    obtain ⟨rfl, -⟩ := Prod.mk.inj (pure_ok.mp h)
    exact .refl _
  | some row =>
    rw [cancelTask_seen hrow] at h
    exact cancelSeen_grows h

theorem cancelSelected_grows {reason : String} {queued running : Task → Bool} {n : Nat}
    (h : cancelSelected db now reason queued running = .ok (db', n)) : db.Grows db' := by
  obtain ⟨⟨db₁, queuedRows⟩, h₁, h⟩ := bind_ok.mp h
  obtain ⟨⟨db₂, runningRows⟩, h₂, h⟩ := bind_ok.mp h
  obtain ⟨db₃, h₃, h⟩ := bind_ok.mp h
  obtain ⟨db₄, h₄, h⟩ := bind_ok.mp h
  obtain ⟨rfl, -⟩ := Prod.mk.inj (pure_ok.mp h)
  refine ((updateTasks_grows h₁).trans (updateTasks_grows h₂)).trans
    ((insertEvents_grows h₃ ?_).trans (insertEvents_grows h₄ ?_))
  · intro e he
    obtain ⟨t, -, rfl⟩ := List.mem_map.mp he
    rfl
  · intro e he
    obtain ⟨t, -, rfl⟩ := List.mem_map.mp he
    rfl

theorem writeSweep_grows {versions : List VersionId} {reason : String} {queued running : List TaskId}
    {n : Nat} (h : writeSweep db now versions reason queued running = .ok (db', n)) :
    db.Grows db' := by
  unfold writeSweep at h
  split at h
  · obtain ⟨rfl, -⟩ := Prod.mk.inj (pure_ok.mp h)
    exact .refl _
  · exact cancelSelected_grows h

theorem createTenant_grows {newId : TenantId} {name : String} {c q : Int} {t : Tenant}
    (h : createTenant db newId name c q = .ok (db', t)) : db.Grows db' := by
  simp only [createTenant] at h
  split at h
  · cases h
  · split at h <;> cases h
    exact .refl _

theorem registerWorker_grows {w : WorkerId} {c : Int} {caps : List String} {r : WorkerRow}
    (h : registerWorker db now w c caps = .ok (db', r)) : db.Grows db' := by
  simp only [registerWorker] at h
  split at h
  · cases h
  · split at h <;> cases h
    exact .refl _

theorem submitTask_grows [PyText] {newId : TaskId} {args : SubmitArgs} {res : SubmitResult}
    (h : submitTask db now newId args = .ok (db', res)) : db.Grows db' := by
  unfold submitTask at h
  obtain ⟨inserted, hins, h⟩ := bind_ok.mp h
  cases inserted with
  | some db₁ =>
    obtain ⟨db₂, hev, h⟩ := bind_ok.mp h
    obtain ⟨rfl, -⟩ := Prod.mk.inj (pure_ok.mp h)
    have hkept : db₁.events = db.events := (insertTask_some hins).2.2.2.2.1
    exact (Grows.of_eq hkept).trans (insertEvent_grows hev rfl)
  | none =>
    dsimp only at h
    split at h
    · cases h
    · obtain ⟨-, -, h⟩ := bind_ok.mp h
      obtain ⟨rfl, -⟩ := Prod.mk.inj (pure_ok.mp h)
      exact .refl _

end

variable [PyText]

/-- **A query appends to the events**, and no use of a tool unless that is all it does. -/
theorem perform_grows {db db' : Database} {now : Time} {op : Op} {r : Reply}
    (h : perform db now op = .ok (db', r))
    (hop : ∀ i ty a w data, op = .recordEvent i ty a w data → ty.ofTools = false) :
    db.Grows db' := by
  cases op with
  | createTenant newId name c q =>
    obtain ⟨t, h, -⟩ := mapSnd_ok h
    exact createTenant_grows h
  | registerWorker w c caps =>
    obtain ⟨t, h, -⟩ := mapSnd_ok h
    exact registerWorker_grows h
  | heartbeat w => cases h; exact .refl _
  | setWorkerStatus w status => cases h; exact .refl _
  | markDeadWorkers n => cases h; exact .refl _
  | submitTask newId args =>
    obtain ⟨res, h, -⟩ := mapSnd_ok h
    exact submitTask_grows h
  | claimTasks args scans =>
    obtain ⟨rows, h, -⟩ := mapSnd_ok h
    unfold claimTasks at h
    dsimp only at h
    split at h
    · obtain ⟨rfl, -⟩ := Prod.mk.inj (pure_ok.mp h)
      exact .refl _
    · exact grantLeases_grows h
  | renewLease i w a ttl =>
    obtain ⟨res, h, -⟩ := mapSnd_ok h
    exact renewLease_grows h
  | complete e i a w =>
    obtain ⟨res, h, -⟩ := mapSnd_ok h
    exact completeAttempt_grows h
  | reap o limit scan =>
    obtain ⟨res, h, -⟩ := mapSnd_ok h
    exact reapBatch_grows h
  | cancelTask i =>
    obtain ⟨res, h, -⟩ := mapSnd_ok h
    exact cancelTask_grows h
  | cancelAgentTasks versions reason =>
    obtain ⟨res, h, -⟩ := mapSnd_ok h
    unfold cancelAgentTasks at h
    split at h
    · obtain ⟨rfl, -⟩ := Prod.mk.inj (pure_ok.mp h)
      exact .refl _
    · exact cancelSelected_grows h
  | recordEvent i ty a w data =>
    obtain ⟨db₁, hrec, he⟩ := map_ok h
    cases he
    exact insertEvent_grows hrec (hop i ty a w data rfl)

/-! ## The requests -/

/-- The action of the audit record of a denied use of a tool. -/
def deniedAction : String := "TOOL_ACCESS_DENIED"

/-- Events and audit records grew, and by no use of a tool. -/
structure Store.Grows (s s' : Store) : Prop where
  events : s.db.Grows s'.db
  audit : Journal.Grows (fun e : AuditEvent => e.action ≠ deniedAction) s.audit s'.audit

omit [PyText] in
theorem Store.Grows.refl (s : Store) : s.Grows s := ⟨.refl _, .refl _⟩

/-- The request only records a use of a tool, as a worker does beside its queries. -/
def Request.usesTool (r : Request) : Bool :=
  match r.op with
  | .call (.recordEvent _ ty _ _ _) => ty.ofTools
  | _ => false

theorem performOn_grows {c : Call} {s s' : Store} {a : Answer} (h : performOn c s = .ok (s', a))
    (hop : ∀ i ty a w data, c.op = .recordEvent i ty a w data → ty.ofTools = false) :
    s.Grows s' := by
  unfold performOn at h
  split at h
  · rename_i hperf
    cases h
    exact ⟨perform_grows hperf hop, .refl _⟩
  · cases h

omit [PyText] in
theorem grantOn_grows {now : Time} {args : ClaimArgs} {ids : List TaskId} {s s' : Store} {a : Answer}
    (h : grantOn now args ids s = .ok (s', a)) : s.Grows s' := by
  unfold grantOn at h
  split at h
  · cases h
    exact .refl _
  · split at h
    · rename_i hgrant
      cases h
      exact ⟨grantLeases_grows hgrant, .refl _⟩
    · cases h

theorem claimTx_grows {now : Time} {args : ClaimArgs} {scans : Nat → Scan} (n : Nat)
    (loop : LoopState) : (claimTx now args scans n loop).Writes Store.Grows := by
  induction n generalizing loop with
  | zero => exact fun s s' a h => grantOn_grows h
  | succ n ih =>
    rw [claimTx]
    intro s other
    dsimp only
    split
    · exact fun s s' a h => grantOn_grows h
    · exact fun s _ _ _ => ih _

theorem insertOn_grows {now : Time} {newId : TaskId} {args : SubmitArgs} {s s' : Store}
    {res : SubmitResult} (h : insertOn now newId args s = .ok (s', res)) : s.Grows s' := by
  unfold insertOn at h
  split at h
  · obtain ⟨r, hsub, he⟩ := map_ok h
    cases he
    exact ⟨submitTask_grows hsub, .refl _⟩
  · cases h

theorem submitTx_grows {now : Time} {newId : TaskId} {args : SubmitArgs}
    {answer : SubmitResult → Answer} {refuse : Raised → Failure} :
    (submitTx now newId args answer refuse).Writes Store.Grows :=
  submitTx_inserts (fun _ => .refl _) fun _ _ _ h => insertOn_grows h

theorem callTx_grows {c : Call}
    (hop : ∀ i ty a w data, c.op = .recordEvent i ty a w data → ty.ofTools = false) :
    (callTx c).Writes Store.Grows := by
  have hperform : ∀ s s' a, performOn c s = .ok (s', a) → s.Grows s' :=
    fun s s' a h => performOn_grows h hop
  obtain ⟨now, op⟩ := c
  cases op with
  | submitTask newId args => exact submitTx_grows
  | claimTasks args scans => exact claimTx_grows maxRounds {}
  | reap o limit scan =>
    show (reapTx now o limit scan).Writes Store.Grows
    intro s other
    dsimp only
    split
    · trivial
    · intro s s' a h
      unfold recoverOn at h
      split at h
      · rename_i hrows
        cases h
        exact ⟨reapRows_grows hrows, .refl _⟩
      · cases h
  | cancelAgentTasks versions reason =>
    refine sweepTx_writes fun queued running s s' a h => ?_
    unfold sweepOn at h
    split at h
    · rename_i hsweep
      cases h
      exact ⟨writeSweep_grows hsweep, .refl _⟩
    · cases h
  | renewLease i w a ttl => exact fun _ _ => hperform
  | complete e i a w => exact fun _ _ => hperform
  | cancelTask i =>
    show (cancelTx now i).Writes Store.Grows
    intro s other
    dsimp only
    split
    · intro s s' a h
      cases h
      exact .refl _
    · intro s s' a h
      unfold cancelOn at h
      split at h
      · rename_i hseen
        cases h
        exact ⟨cancelSeen_grows hseen, .refl _⟩
      · cases h
  | _ => exact hperform

omit [PyText] in
theorem setToolStatusOn_grows {t : ToolId} {status : ToolStatus} {action : String} {s s' : Store}
    {a : Answer} (h : setToolStatusOn t status action s = .ok (s', a))
    (haction : action ≠ deniedAction) : s.Grows s' := by
  unfold setToolStatusOn at h
  split at h <;> cases h
  exact ⟨.refl _, .one rfl haction⟩

omit [PyText] in
/-- **What a registry endpoint appends**: the events of a sweep, the record of a change
of a tool or a grant. -/
theorem Committed.grows {now : Time} {e : Endpoint} {s s' : Store} (h : Committed now s s' e)
    (hsubmit : ∀ newId body env, e ≠ .submit newId body env) : s.Grows s' := by
  cases h with
  | createAgent h =>
    unfold createAgentOn at h
    split at h <;> cases h
    exact ⟨.refl _, .refl _⟩
  | createVersion h =>
    obtain ⟨⟨reg, row⟩, -, h⟩ := bind_ok.mp h
    obtain ⟨rfl, -⟩ := Prod.mk.inj (pure_ok.mp h)
    exact ⟨.refl _, .refl _⟩
  | activate h =>
    obtain ⟨⟨reg, row⟩, -, h⟩ := bind_ok.mp h
    cases row with
    | none => cases h
    | some agent =>
      obtain ⟨⟨reg₂, row⟩, -, h⟩ := bind_ok.mp h
      obtain ⟨rfl, -⟩ := Prod.mk.inj (pure_ok.mp h)
      exact ⟨.refl _, .refl _⟩
  | disable h =>
    obtain ⟨⟨reg, row⟩, -, h⟩ := bind_ok.mp h
    cases row with
    | none => cases h
    | some agent =>
      obtain ⟨reg₂, -, h⟩ := bind_ok.mp h
      obtain ⟨⟨db, n⟩, hsweep, h⟩ := bind_ok.mp h
      obtain ⟨rfl, -⟩ := Prod.mk.inj (pure_ok.mp h)
      exact ⟨writeSweep_grows (mapError_ok.mp hsweep), .refl _⟩
  | setRoute h =>
    obtain ⟨reg, -, h⟩ := bind_ok.mp h
    obtain ⟨rfl, -⟩ := Prod.mk.inj (pure_ok.mp h)
    exact ⟨.refl _, .refl _⟩
  | createTool h =>
    unfold createToolOn at h
    split at h <;> cases h
    exact ⟨.refl _, .refl _⟩
  | disableTool h => exact setToolStatusOn_grows h (by decide)
  | enableTool h => exact setToolStatusOn_grows h (by decide)
  | grant h =>
    obtain ⟨reg, -, h⟩ := bind_ok.mp h
    obtain ⟨rfl, -⟩ := Prod.mk.inj (pure_ok.mp h)
    exact ⟨.refl _, .one rfl (by simp [grantAudit, deniedAction])⟩
  | revokeGrant h =>
    unfold revokeGrantOn at h
    split at h <;> cases h
    exact ⟨.refl _, .one rfl (by simp [grantAudit, deniedAction])⟩
  | submit h => exact absurd rfl (hsubmit _ _ _)

/-- **What a request appends** is no use of a tool. -/
theorem requestTx_grows {r : Request} (hr : r.usesTool = false) :
    (requestTx r).Writes Store.Grows := by
  unfold requestTx
  split
  · rename_i e hop
    by_cases hsubmit : ∃ newId body env, e = .submit newId body env
    · obtain ⟨newId, body, env, rfl⟩ := hsubmit
      exact submitEndpointTx_submits fun args => submitTx_grows
    · refine (endpointTx_commits r.now e).mono fun h => h.grows fun newId body env he => ?_
      exact hsubmit ⟨newId, body, env, he⟩
  · rename_i op hop
    refine callTx_grows fun i ty a w data he => ?_
    unfold Request.usesTool at hr
    rw [hop, show op = .recordEvent i ty a w data from he] at hr
    exact hr

end ControlPlane
