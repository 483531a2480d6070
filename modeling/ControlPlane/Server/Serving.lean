import ControlPlane.Server.Grants
import ControlPlane.Server.Interleaving

/-! # Requests served one after another

What a request does to the tasks when nothing happens between its statements: a
submission is admitted, resolved and inserted on one and the same state, and the
disabling of an agent sweeps what a bulk cancellation would. -/

namespace ControlPlane
open Keyed Fallible Transactions

variable [PyText]

/-! ## A submission -/

omit [PyText] in
/-- What becomes of a submission at the gate. -/
def Verdict.gate (v : Verdict) : Except Failure Unit :=
  match v.decision with
  | .rejectTenantBacklog => .error (retryLater .quotaExceeded v)
  | .shedOverloaded => .error (retryLater .overloaded v)
  | .admitted => .ok ()

omit [PyText] in
theorem Verdict.gate_iff {v : Verdict} : v.gate = .ok () ↔ v.admitted = true := by
  unfold Verdict.gate Verdict.admitted
  cases v.decision <;> simp

omit [PyText] in
/-- What the gate sees of a tenant. -/
def Store.verdict (s : Store) (tenant : Tenant) (body : TaskCreate) (env : Surroundings) : Verdict :=
  Admission.decide (queuedCountForTenant s.db body.tenantId) tenant.maxQueuedTasks env.globalQueued
    env.globalQueueShedThreshold

/-- The arguments a submission resolves to. -/
def submissionArgs (reg : Registry) (body : TaskCreate) (carrier : JsonObject) :
    Except Failure SubmitArgs :=
  match body.target with
  | .direct taskType => .ok (body.directArgs taskType carrier)
  | .routed requestType =>
    match resolveRoute reg body.tenantId requestType with
    | .error (.noRoute message) => .error (notFound message [("request_type", .str requestType)])
    | .error (.notRoutable message) => .error (conflict message [("request_type", .str requestType)])
    | .ok resolution =>
      match resolution.taskType? with
      | none => .error .internal
      | some taskType => .ok (body.routedArgs taskType carrier resolution)

/-- `submit_task`, and what `_submit` makes of its result. -/
def submitResolved (now : Time) (newId : TaskId) (args : SubmitArgs) (s : Store) :
    Except Failure (Store × Answer) :=
  match submitTask s.db now newId args with
  | .ok (db, res) => .ok ({ s with db := db }, submittedTaskAnswer res)
  | .error e => .error (submitRefused e)

/-- `_submit` with no other transaction around. -/
def submitAlone (now : Time) (newId : TaskId) (body : TaskCreate) (env : Surroundings) (s : Store) :
    Except Failure (Store × Answer) :=
  match s.db.tenants.find? body.tenantId with
  | none => .error (unknownTenant body.tenantId)
  | some tenant => do
    (s.verdict tenant body env).gate
    let args ← submissionArgs s.reg body env.carrier
    submitResolved now newId args s

/-- What a submission resolves to is for its tenant, and names a version that exists. -/
theorem submissionArgs_ok {reg : Registry} {body : TaskCreate} {carrier : JsonObject}
    {args : SubmitArgs} (h : submissionArgs reg body carrier = .ok args) :
    args.tenantId = body.tenantId ∧ args.idempotencyKey = body.idempotencyKey ∧
      args.payload = body.tracedPayload carrier ∧ args.versionKnown reg = true := by
  unfold submissionArgs at h
  split at h
  · cases h
    exact ⟨rfl, rfl, rfl, rfl⟩
  split at h
  · cases h
  · cases h
  rename_i resolution hresolved
  split at h
  · cases h
  · cases h
    obtain ⟨route, a, v, -, -, -, -, hv, -, rfl⟩ := resolveRoute_ok hresolved
    refine ⟨rfl, rfl, rfl, ?_⟩
    show ((some v.id).all fun i => (reg.version? i).isSome) = true
    rw [Option.all_some, hv]
    rfl

omit [PyText] in
theorem withoutTrace_traced (body : TaskCreate) (carrier : JsonObject) :
    withoutTrace (body.tracedPayload carrier) = withoutTrace body.payload := by
  unfold TaskCreate.tracedPayload withoutTrace
  split
  · rfl
  · exact JsonObject.filter_set ..

theorem submitEndpointTx_alone (now : Time) (newId : TaskId) (body : TaskCreate)
    (env : Surroundings) (s : Store) :
    (submitEndpointTx now newId body env).alone s = submitAlone now newId body env s := by
  have hsubmit : ∀ args, submissionArgs s.reg body env.carrier = .ok args →
      (submitTx now newId args submittedTaskAnswer submitRefused).alone s =
        submitResolved now newId args s := by
    intro args hargs
    rw [submitTx_alone (submissionArgs_ok hargs).2.2.2]
    rfl
  unfold submitEndpointTx submitAlone
  rw [Tx.alone_read]
  cases s.db.tenants.find? body.tenantId with
  | none => rfl
  | some tenant =>
    dsimp only
    rw [Tx.alone_read]
    unfold Store.verdict Verdict.gate
    cases (Admission.decide (queuedCountForTenant s.db body.tenantId) tenant.maxQueuedTasks
      env.globalQueued env.globalQueueShedThreshold).decision with
    | rejectTenantBacklog => rfl
    | shedOverloaded => rfl
    | admitted =>
      rw [ok_bind]
      unfold submissionArgs at hsubmit ⊢
      dsimp only
      cases htarget : body.target with
      | direct taskType =>
        rw [htarget] at hsubmit
        exact hsubmit _ rfl
      | routed requestType =>
        rw [htarget] at hsubmit
        dsimp only at hsubmit ⊢
        rw [Tx.alone_read]
        cases hresolve : resolveRoute s.reg body.tenantId requestType with
        | error e => cases e <;> rfl
        | ok resolution =>
          rw [hresolve] at hsubmit
          dsimp only at hsubmit ⊢
          cases htype : resolution.taskType? with
          | none => rfl
          | some taskType =>
            rw [htype] at hsubmit
            exact hsubmit _ rfl

/-! ## What a request does to the tasks -/

/-- The task tables after a request: what one query leaves, or what was there. -/
inductive Served (s : Store) (r : Request) : Database → Prop
  | idle : Served s r s.db
  | call {op : Op} (hop : r.op = .call op) : Served s r (commit s.db ⟨r.now, op⟩)
  | swept {a : AgentId} {scan : Scan} {versions : List VersionId} {reason : String}
      (hop : r.op = .api (.disable a scan)) :
      Served s r (commit s.db ⟨r.now, .cancelAgentTasks versions reason⟩)
  | submitted {newId : TaskId} {body : TaskCreate} {env : Surroundings} {tenant : Tenant}
      {args : SubmitArgs} (hop : r.op = .api (.submit newId body env))
      (htenant : s.db.tenants.find? body.tenantId = some tenant)
      (hgate : (s.verdict tenant body env).gate = .ok ())
      (hargs : submissionArgs s.reg body env.carrier = .ok args) :
      Served s r (commit s.db ⟨r.now, .submitTask newId args⟩)

theorem performOn_db {c : Call} {s s' : Store} {a : Answer} (h : performOn c s = .ok (s', a)) :
    s'.db = commit s.db c := by
  unfold performOn at h
  split at h
  · rename_i db r hperf
    cases h
    exact (commit_of_ok hperf).symm
  · cases h

theorem submitResolved_db {now : Time} {newId : TaskId} {args : SubmitArgs} {s s' : Store}
    {a : Answer} (h : submitResolved now newId args s = .ok (s', a)) :
    s'.db = commit s.db ⟨now, .submitTask newId args⟩ := by
  unfold submitResolved at h
  split at h
  · rename_i db res hsub
    cases h
    refine (commit_of_ok (r := .submitted res) ?_).symm
    show (submitTask s.db now newId args).map _ = _
    rw [hsub]
    rfl
  · cases h

omit [PyText] in
theorem lockVersionsTx_alone {k : Program} {s : Store} (versions : List VersionId) :
    (lockVersionsTx k versions).alone s = k.alone s := by
  induction versions with
  | nil => rfl
  | cons v versions ih => exact ih

/-- A disabling sweeps as the bulk cancellation of the agent's versions does. -/
theorem disableTx_db {now : Time} {i : AgentId} {scan : Scan} {s s' : Store} {a : Answer}
    (h : (disableTx now i scan).alone s = .ok (s', a)) :
    ∃ versions reason, s'.db = commit s.db ⟨now, .cancelAgentTasks versions reason⟩ := by
  unfold disableTx at h
  rw [Tx.alone_stmt] at h
  split at h
  · cases h
  rename_i agent _
  rw [Tx.alone_read, lockVersionsTx_alone, sweepTx_alone] at h
  obtain ⟨⟨n, hsweep⟩, -⟩ := disableOn_ok h
  rw [writeSweep_alone (selected_agentTasks scan) (selected_agentTasks scan)] at hsweep
  refine ⟨(listVersions s.reg i).map AgentVersion.id, disabledReason agent,
    (commit_of_ok (r := .count n) ?_).symm⟩
  show (cancelAgentTasks s.db now _ _).map _ = _
  rw [hsweep]
  rfl

omit [PyText] in
/-- The other endpoints write the registry only. -/
theorem Committed.db_kept {now : Time} {e : Endpoint} {s s' : Store} (h : Committed now s s' e)
    (hdisable : ∀ i scan, e ≠ .disable i scan) (hsubmit : ∀ newId body env, e ≠ .submit newId body env) :
    s'.db = s.db := by
  cases h with
  | createAgent h => exact (createAgentOn_ok h).1
  | createVersion h => exact (createVersionOn_ok h).1
  | activate h => exact (activateOn_ok h).1
  | disable h => exact absurd rfl (hdisable _ _)
  | setRoute h => exact (setRouteOn_ok h).1
  | createTool h => exact (createToolOn_ok h).1
  | disableTool h => exact (setToolStatusOn_ok h).1
  | enableTool h => exact (setToolStatusOn_ok h).1
  | grant h => exact (grantToolOn_ok h).1
  | revokeGrant h => exact (revokeGrantOn_ok h).1
  | submit h => exact absurd rfl (hsubmit _ _ _)

/-- **What a request served alone does to the tasks.** -/
theorem serve_served {s : Store} {r : Request} (hgov : r.Governed) : Served s r (serve s r).db := by
  unfold serve
  split
  swap
  · exact .idle
  rename_i s' a hok
  obtain ⟨now, op⟩ := r
  cases op with
  | call op =>
    have hknown : op.versionKnown s.reg := fun newId args he =>
      absurd (congrArg Operation.call he) (hgov newId args)
    rw [show (requestTx ⟨now, .call op⟩).alone s = _ from callTx_alone ⟨now, op⟩ s hknown] at hok
    rw [performOn_db hok]
    exact .call rfl
  | api e =>
    have hkept : s'.db = s.db → Served s ⟨now, .api e⟩ s'.db := fun h => h ▸ .idle
    replace hok : (endpointTx now e).alone s = .ok (s', a) := hok
    have hcommit := (endpointTx_commits now e).alone hok
    cases e with
    | disable i scan =>
      obtain ⟨versions, reason, hdb⟩ := disableTx_db hok
      rw [hdb]
      exact .swept rfl
    | submit newId body env =>
      rw [show (endpointTx now (.submit newId body env)).alone s = _ from
        submitEndpointTx_alone now newId body env s] at hok
      unfold submitAlone at hok
      split at hok
      · cases hok
      rename_i tenant htenant
      obtain ⟨u, hgate, hok⟩ := bind_ok.mp hok
      obtain ⟨args, hargs, hok⟩ := bind_ok.mp hok
      rw [submitResolved_db hok]
      exact .submitted rfl htenant hgate hargs
    | _ => exact hkept (hcommit.db_kept (fun _ _ he => by cases he) fun _ _ _ he => by cases he)

end ControlPlane
