import ControlPlane.Server.Pinning
import ControlPlane.Server.Serving

/-! # A client's retry

The repeat of a submission under its idempotency key finds the task by the
follow-up read of its insert, but the insert stands behind the gate and the
route. The repeat is judged there as a new submission would be, on the backlog
to which the task itself belongs and on the route as it is by now: it finds its
task exactly where a new submission would be let through, and where its payload is
still its own once it has been through JSONB. -/

namespace ControlPlane
open Keyed Fallible Transactions Runs

variable [PyText]

/-! ## What stands before the insert -/

/-- The request type leads to an ACTIVE version of an ACTIVE agent, and that to a
task type. -/
def Registry.Releases (reg : Registry) (tenantId : TenantId) (requestType : String) : Prop :=
  ∃ r a v, reg.route? tenantId requestType = some r ∧ reg.agent? r.agentId = some a ∧
    a.status = .active ∧ a.defaultVersionId = some v.id ∧ reg.version? v.id = some v ∧
    v.status = .active ∧ (resolution a v).taskType?.isSome = true

/-- A new submission would be let through, and its values fit their columns. -/
structure Store.LetsThrough (s : Store) (body : TaskCreate) (env : Surroundings) : Prop where
  room : ∀ n, s.db.tenants.find? body.tenantId = some n →
    (queuedCountForTenant s.db body.tenantId : Int) < n.maxQueuedTasks
  calm : env.globalQueueShedThreshold ≤ 0 ∨ (env.globalQueued : Int) < env.globalQueueShedThreshold
  routed : ∀ requestType, body.target = .routed requestType →
    s.reg.Releases body.tenantId requestType
  storable : ∀ args, submissionArgs s.reg body env.carrier = .ok args →
    (submittedTask 0 0 args).pinned.storable = true

theorem resolveRoute_active {reg : Registry} {tenantId : TenantId} {requestType : String}
    {r : AgentRoute} {a : Agent} {v : AgentVersion} (hr : reg.route? tenantId requestType = some r)
    (ha : reg.agent? r.agentId = some a) (hactive : a.status = .active)
    (hdefault : a.defaultVersionId = some v.id) (hv : reg.version? v.id = some v)
    (hstatus : v.status = .active) :
    resolveRoute reg tenantId requestType = .ok (resolution a v) := by
  unfold resolveRoute Registry.routed
  rw [hr, Option.bind_some, ha, Option.map_some, hdefault, Option.bind_some, hv]
  simp [routableAgentStatuses, routableVersionStatuses, hactive, hstatus]

/-- The arguments resolve where the route does; a direct submission has none. -/
theorem submissionArgs_returns_iff {reg : Registry} {body : TaskCreate} {carrier : JsonObject} :
    (∃ args, submissionArgs reg body carrier = .ok args) ↔
      ∀ requestType, body.target = .routed requestType → reg.Releases body.tenantId requestType := by
  unfold submissionArgs
  cases htarget : body.target with
  | direct taskType => simp
  | routed requestType =>
    dsimp only
    constructor
    · intro h rt hrt
      obtain ⟨args, h⟩ := h
      obtain rfl := TaskTarget.routed.inj hrt
      split at h
      · cases h
      · cases h
      rename_i res hres
      split at h
      · cases h
      rename_i taskType htype
      obtain ⟨r, a, v, hr, ha, hactive, hdefault, hv, hstatus, rfl⟩ := resolveRoute_ok hres
      exact ⟨r, a, v, hr, ha, hactive, hdefault, hv, hstatus, by rw [htype]; rfl⟩
    · intro h
      obtain ⟨r, a, v, hr, ha, hactive, hdefault, hv, hstatus, htype⟩ := h requestType rfl
      obtain ⟨taskType, htype⟩ := Option.isSome_iff_exists.mp htype
      rw [resolveRoute_active hr ha hactive hdefault hv hstatus]
      dsimp only
      rw [htype]
      exact ⟨_, rfl⟩

/-! ## The repeat at the insert -/

/-- What the schema of a submission promises. -/
structure TaskCreate.Valid (body : TaskCreate) : Prop where
  priority : 0 ≤ body.priority ∧ body.priority ≤ 32767
  maxAttempts : 1 ≤ body.maxAttempts ∧ body.maxAttempts ≤ 20
  maxExecutionTimeS : 1 ≤ body.maxExecutionTimeS ∧ body.maxExecutionTimeS ≤ 86400
  payload : (Json.obj body.payload).WellFormed

/-- JSONB gives back what the client has sent, the trace aside. -/
def TaskCreate.ReadBack (body : TaskCreate) : Prop := Json.ExactFields (withoutTrace body.payload)

omit [PyText] in
/-- The trace aside, a repeat has the payload that the first submission has left. -/
theorem TaskCreate.Valid.same_iff {body : TaskCreate} (h : body.Valid)
    (carrier carrier' : JsonObject) :
    Json.pyEq (.obj (withoutTrace (Json.jsonbFields (body.tracedPayload carrier))))
      (.obj (withoutTrace (body.tracedPayload carrier'))) = true ↔ body.ReadBack := by
  rw [withoutTrace_jsonb, withoutTrace_traced, withoutTrace_traced]
  exact Json.pyEq_jsonb_iff (.obj (withoutTrace body.payload)) (h.payload.filter _)

/-- What a valid submission resolves to passes the checks of the table. -/
theorem submissionArgs_checked {reg : Registry} {body : TaskCreate} {carrier : JsonObject}
    {args : SubmitArgs} (hvalid : body.Valid) (h : submissionArgs reg body carrier = .ok args)
    (now : Time) (newId : TaskId) : (submittedTask now newId args).violation = none := by
  have hbounds : 1 ≤ args.maxAttempts ∧ 1 ≤ args.maxExecutionTimeS ∧ 0 ≤ args.priority := by
    unfold submissionArgs at h
    split at h
    · cases h
      exact ⟨hvalid.maxAttempts.1, hvalid.maxExecutionTimeS.1, hvalid.priority.1⟩
    split at h
    · cases h
    · cases h
    rename_i res hres
    split at h
    · cases h
    · cases h
      obtain ⟨r, a, v, -, -, -, -, hv, -, rfl⟩ := resolveRoute_ok hres
      have hchecked := reg.versions_checked v (Table.mem_of_find? hv)
      simp [AgentVersion.violation, AgentVersion.constraints] at hchecked
      exact ⟨hchecked.2.1, hchecked.2.2, hvalid.priority.1⟩
  refine (Task.checked_iff _).mpr ⟨hbounds.1, hbounds.2.1, le_refl _, hbounds.2.2, ?_⟩
  simp [submittedTask]

/-- The insert of a repeat does nothing, and the follow-up read finds the task and
compares. -/
theorem submitTask_repeat {db : Database} {reg : Registry} {body : TaskCreate} {args : SubmitArgs}
    {carrier carrier' : JsonObject} {i : TaskId} {t : Task} {key : String} (hvalid : body.Valid)
    (hargs : submissionArgs reg body carrier' = .ok args) (hkey : body.idempotencyKey = some key)
    (ht : db.task? i = some t) (htkey : t.idemKey = some (body.tenantId, key))
    (hpayload : t.payload = Json.jsonbFields (body.tracedPayload carrier))
    (hstorable : (submittedTask 0 0 args).pinned.storable = true) (now : Time) (newId : TaskId) :
    (body.ReadBack → submitTask db now newId args = .ok (db, ⟨false, t⟩)) ∧
      (¬ body.ReadBack → submitTask db now newId args = .error (.payloadMismatch i)) := by
  obtain ⟨htenant, hk, hp, -⟩ := submissionArgs_ok hargs
  have hκ : args.idemKey = some (body.tenantId, key) := by
    unfold SubmitArgs.idemKey
    rw [hk, hkey, htenant]
    rfl
  have hdiffers : args.differs t ↔ ¬ body.ReadBack := by
    unfold SubmitArgs.differs
    rw [hpayload, hp, ← hvalid.same_iff carrier carrier', Bool.not_eq_true]
  have haccepted : (submittedTask now newId args).refused = none :=
    Task.refused_eq_none.mpr ⟨hstorable, submissionArgs_checked hvalid hargs now newId⟩
  obtain ⟨hmismatch, hfound⟩ := submitTask_held haccepted hκ ht htkey
  exact ⟨fun h => hfound fun hd => hdiffers.mp hd h, fun h => hmismatch (hdiffers.mpr h)⟩

/-! ## Every reachable state -/

omit [PyText] in
/-- The submission that has created a task and committed: its request and its trace. -/
def Server.created (m : Server) (k : Nat) : Option (TaskId × TaskCreate × JsonObject) :=
  match m.txs[k]? with
  | some ⟨⟨_, .api (.submit newId body env)⟩, .done (.ok (.task true _))⟩ =>
    some (newId, body, env.carrier)
  | _ => none

/-- The task that a submission created has its key ever after, and its payload as JSONB
gives it back. -/
theorem created_task {m : Server} {acts : List (Action Request)} (hrun : Interleaves .empty acts m)
    (hbegun : ∀ r ∈ begun acts, r.Standalone) {k : Nat} {newId : TaskId} {body : TaskCreate}
    {carrier : JsonObject} (hcreated : m.created k = some (newId, body, carrier)) :
    ∃ t, m.db.db.task? newId = some t ∧ t.tenantId = body.tenantId ∧
      t.idempotencyKey = body.idempotencyKey ∧
      t.payload = Json.jsonbFields (body.tracedPayload carrier) := by
  unfold Server.created at hcreated
  split at hcreated
  case h_2 => cases hcreated
  rename_i now i b env t hx
  obtain ⟨rfl, he⟩ := Prod.mk.inj (Option.some.inj hcreated)
  obtain ⟨rfl, rfl⟩ := Prod.mk.inj he
  have hempty : Discipline.Sound (discipline False) Server.empty := empty_sound
  have hsound := (requests_sound hrun hempty (fun r hr => hbegun r (mem_begun.mpr hr)) False.elim).1
  have hpost : RequestPost ⟨now, .api (.submit i b env)⟩ (.ok (.task true t)) m.db :=
    hsound.done k _ _ hx rfl
  obtain ⟨args, sub, hsub, hout, ha⟩ := hpost.endpoint i b env _ rfl rfl
  obtain ⟨created, task⟩ := sub
  obtain ⟨rfl, rfl⟩ := Answer.task.inj ha
  obtain ⟨hrow, t', ht', hpinned⟩ := hout
  have hbody : args.tenantId = b.tenantId ∧ args.idempotencyKey = b.idempotencyKey ∧
      args.payload = b.tracedPayload env.carrier := by
    cases hsub with
    | call hop => cases hop
    | direct taskType hop =>
      cases hop
      exact ⟨rfl, rfl, rfl⟩
    | routed taskType resolution hop =>
      cases hop
      exact ⟨rfl, rfl, rfl⟩
  rw [hrow] at hpinned
  refine ⟨t', ht', ?_, ?_, ?_⟩
  · exact (congrArg Task.Pinned.tenantId hpinned).trans hbody.1
  · exact (congrArg Task.Pinned.idempotencyKey hpinned).trans hbody.2.1
  · rw [← hbody.2.2]
    exact congrArg Task.Pinned.payload hpinned

/-- **A client's retry finds its task exactly where a new submission would be let
through and its payload is read back as it was sent.** In every reachable state in
which a submission with a key has created its task, the repeat of the request returns
that task as an old one and changes nothing, if and only if the tenant's QUEUED tasks
are below its limit, the system is not shedding, the request type, if there is one, is
still routed to an ACTIVE version, and no large float of the payload is another number
than the one written for it. -/
theorem resubmission_answered_iff {m : Server} {acts : List (Action Request)}
    (hrun : Interleaves .empty acts m) (hbegun : ∀ r ∈ begun acts, r.Standalone) {k : Nat}
    {newId : TaskId} {body : TaskCreate} {carrier : JsonObject}
    (hcreated : m.created k = some (newId, body, carrier)) (hvalid : body.Valid)
    (hkey : body.idempotencyKey.isSome = true) (now : Time) (otherId : TaskId) (env : Surroundings) :
    (∃ t, m.db.db.task? newId = some t ∧
      (requestTx ⟨now, .api (.submit otherId body env)⟩).alone m.db = .ok (m.db, .task false t)) ↔
      m.db.LetsThrough body env ∧ body.ReadBack := by
  obtain ⟨key, hkey⟩ := Option.isSome_iff_exists.mp hkey
  obtain ⟨t₁, ht₁, htenant, htkey, hpayload⟩ := created_task hrun hbegun hcreated
  obtain ⟨n, hn⟩ := Option.isSome_iff_exists.mp (m.db.db.tasks_tenant t₁ (Table.mem_of_find? ht₁))
  rw [htenant] at hn
  have hgate : (m.db.verdict n body env).gate = .ok () ↔
      (queuedCountForTenant m.db.db body.tenantId : Int) < n.maxQueuedTasks ∧
        (env.globalQueueShedThreshold ≤ 0 ∨
          (env.globalQueued : Int) < env.globalQueueShedThreshold) :=
    Verdict.gate_iff.trans (Admission.decide_admitted_iff ..)
  rw [show (requestTx ⟨now, .api (.submit otherId body env)⟩).alone m.db = _ from
    submitEndpointTx_alone now otherId body env m.db]
  unfold submitAlone
  rw [hn]
  dsimp only
  have hidem : t₁.idemKey = some (body.tenantId, key) := by
    unfold Task.idemKey
    rw [htkey, hkey, htenant]
    rfl
  constructor
  · intro h
    obtain ⟨t, -, h⟩ := h
    obtain ⟨u, hpass, h⟩ := bind_ok.mp h
    obtain ⟨args, hargs, h⟩ := bind_ok.mp h
    obtain ⟨hroom, hcalm⟩ := hgate.mp hpass
    have hstorable : (submittedTask 0 0 args).pinned.storable = true := by
      by_contra hno
      have hrefused : (submittedTask now otherId args).refused = some .dataError := if_neg hno
      unfold submitResolved at h
      rw [submitTask_refused hrefused] at h
      cases h
    refine ⟨⟨fun n' hn' => ?_, hcalm, submissionArgs_returns_iff.mp ⟨args, hargs⟩,
      fun args' hargs' => ?_⟩, ?_⟩
    · rw [← Option.eq_some_unique hn hn']
      exact hroom
    · rw [hargs] at hargs'
      cases hargs'
      exact hstorable
    · by_contra hno
      unfold submitResolved at h
      rw [(submitTask_repeat hvalid hargs hkey ht₁ hidem hpayload hstorable now otherId).2 hno] at h
      cases h
  · rintro ⟨h, hreadBack⟩
    obtain ⟨args, hargs⟩ := submissionArgs_returns_iff.mpr h.routed
    refine ⟨t₁, ht₁, ?_⟩
    rw [hgate.mpr ⟨h.room n hn, h.calm⟩, ok_bind, hargs, ok_bind]
    unfold submitResolved
    rw [(submitTask_repeat hvalid hargs hkey ht₁ hidem hpayload (h.storable args hargs) now
      otherId).1 hreadBack]
    rfl

deriving instance DecidableEq for TaskTarget
deriving instance DecidableEq for TaskCreate

/-- A request under a key, for the agent that is routed to. -/
def routedUnderKey : TaskCreate :=
  { tenantId := 1, target := .routed "summarize", payload := [("n", .int 1)]
    idempotencyKey := some "k" }

/-- An agent whose released version a tenant's requests are routed to; the tenant
may queue so many tasks. -/
def agentRouted (maxQueued : Int) : List (Action Request) :=
  .begin ⟨0, .call (.createTenant 1 "acme" 10 maxQueued)⟩ :: steps 0 1 ++
  .begin ⟨1, .api (.createAgent 1 1 "summarizer" none)⟩ :: steps 1 2 ++
  .begin ⟨2, .api (.createVersion 1 1 {})⟩ :: steps 2 3 ++
  .begin ⟨3, .api (.activate 1 { versionId := 1 })⟩ :: steps 3 4 ++
  .begin ⟨4, .api (.setRoute 1 "summarize" 1)⟩ :: steps 4 2

/-- A request has created its task. -/
def submittedAs (body : TaskCreate) (maxQueued : Int) : List (Action Request) :=
  agentRouted maxQueued ++ .begin ⟨5, .api (.submit 1 body
    { carrier := [("traceparent", .str "00-1")] })⟩ :: steps 5 5

def submittedUnderKey (maxQueued : Int) : List (Action Request) :=
  submittedAs routedUnderKey maxQueued

/-- `1e23`, which is no multiple of ten. -/
def float1e23 : PyFloat where
  value := 99999999999999991611392
  written := 100000000000000000000000
  whole _ := rfl

/-- A request under a key whose payload JSONB does not give back. -/
def floatUnderKey : TaskCreate := { routedUnderKey with payload := [("x", .float float1e23)] }

omit [PyText] in
theorem routedUnderKey_valid : routedUnderKey.Valid := by
  constructor <;> simp [routedUnderKey, Json.WellFormed, Json.WellFormedFields]

omit [PyText] in
theorem resubmission_answered_roomy : ∃ m t,
    @Interleaves PyText.plain .empty (submittedUnderKey 1000) m ∧ m.db.db.task? 1 = some t ∧
    (@requestTx PyText.plain ⟨6, .api (.submit 2 routedUnderKey
      { carrier := [("traceparent", .str "00-2")] })⟩).alone m.db = .ok (m.db, .task false t) := by
  have hfirst : (exec (act (@requestTx PyText.plain)) Server.empty (submittedUnderKey 1000)).map
      (fun m : Server => m.created 5) =
      some (some (1, routedUnderKey, [("traceparent", .str "00-1")])) := by decide +kernel
  have hlets : (exec (act (@requestTx PyText.plain)) Server.empty (submittedUnderKey 1000)).map
      (fun m : Server => ((m.db.db.tenants.find? 1).map fun n =>
        decide ((queuedCountForTenant m.db.db 1 : Int) < n.maxQueuedTasks),
        (@submissionArgs PyText.plain m.db.reg routedUnderKey
          [("traceparent", .str "00-2")]).toOption.map fun args =>
            (@submittedTask PyText.plain 0 0 args).pinned.storable)) =
      some (some true, some true) := by decide +kernel
  obtain ⟨m, hm, hcreated⟩ := Option.map_eq_some_iff.mp hfirst
  rw [hm, Option.map_some] at hlets
  obtain ⟨hroom, hroute⟩ := Prod.mk.inj (Option.some.inj hlets)
  have hrun : @Interleaves PyText.plain .empty (submittedUnderKey 1000) m := Run.of_exec hm
  have hbegun : ∀ r ∈ begun (submittedUnderKey 1000), r.Standalone := by decide
  cases hargs : @submissionArgs PyText.plain m.db.reg routedUnderKey
      [("traceparent", .str "00-2")] with
  | error e =>
    rw [hargs] at hroute
    cases hroute
  | ok args =>
    rw [hargs] at hroute
    have hpasses : @Store.LetsThrough PyText.plain m.db routedUnderKey
        { carrier := [("traceparent", .str "00-2")] } := by
      refine @Store.LetsThrough.mk PyText.plain _ _ _ (fun n hn => ?_) (Or.inl (le_refl _))
        ((@submissionArgs_returns_iff PyText.plain ..).mp ⟨args, hargs⟩) fun args' hargs' => ?_
      · rw [show m.db.db.tenants.find? 1 = some n from hn] at hroom
        exact of_decide_eq_true (Option.some.inj hroom)
      · obtain rfl := Except.ok.inj (hargs.symm.trans hargs')
        exact Option.some.inj hroute
    have hreadBack : routedUnderKey.ReadBack := ⟨trivial, trivial⟩
    obtain ⟨t, ht, hanswer⟩ := (@resubmission_answered_iff PyText.plain m _ hrun hbegun 5 1
      routedUnderKey _ hcreated routedUnderKey_valid rfl 6 2 _).mpr ⟨hpasses, hreadBack⟩
    exact ⟨m, t, hrun, ht, hanswer⟩

/-- How a request is refused by the API. -/
def refusedWith : Except Failure (Store × Answer) → Option ErrorKind
  | .error (.api e) => some e.kind
  | _ => none

omit [PyText] in
/-- The repeat is refused: at the tenant's limit, which the task itself has used
up; while the system is shedding; after the agent was disabled; and, with nothing in
its way, because its float came back as an integer. -/
theorem resubmission_refused :
    (exec (act (@requestTx PyText.plain)) Server.empty (submittedUnderKey 1)).map (fun m : Server =>
      ((m.created 5).map fun c => (c.1, c.2.1), refusedWith ((@requestTx PyText.plain
        ⟨6, .api (.submit 2 routedUnderKey {})⟩).alone m.db))) =
      some (some (1, routedUnderKey), some .quotaExceeded) ∧
    (exec (act (@requestTx PyText.plain)) Server.empty (submittedUnderKey 1000)).map
      (fun m : Server => ((m.created 5).map fun c => (c.1, c.2.1),
        refusedWith ((@requestTx PyText.plain ⟨6, .api (.submit 2 routedUnderKey
          { globalQueued := 7, globalQueueShedThreshold := 5 })⟩).alone m.db))) =
      some (some (1, routedUnderKey), some .overloaded) ∧
    (exec (act (@requestTx PyText.plain)) Server.empty (submittedUnderKey 1000 ++
      .begin ⟨6, .api (.disable 1 {})⟩ :: steps 6 7)).map (fun m : Server =>
        ((m.created 5).map fun c => (c.1, c.2.1), refusedWith ((@requestTx PyText.plain
          ⟨7, .api (.submit 2 routedUnderKey {})⟩).alone m.db))) =
      some (some (1, routedUnderKey), some .conflict) ∧
    (exec (act (@requestTx PyText.plain)) Server.empty (submittedAs floatUnderKey 1000)).map
      (fun m : Server => ((m.created 5).map fun c => (c.1, c.2.1), refusedWith
        ((@requestTx PyText.plain ⟨6, .api (.submit 2 floatUnderKey {})⟩).alone m.db))) =
      some (some (1, floatUnderKey), some .conflict) := by
  decide +kernel

end ControlPlane
