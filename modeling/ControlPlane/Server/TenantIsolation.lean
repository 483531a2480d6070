import ControlPlane.Server.Resubmission

/-! # Submissions of one tenant do not see the others

A submission reads its tenant's row, counts its tenant's tasks, follows its
tenant's route and looks for its tenant's key. Only the route leads on by ids
alone, to an agent and to a version; that these are the tenant's own is what the
integrity of the registry says. So a submission ends the same way in any two
states that agree on the rows of its tenant. -/

namespace ControlPlane
open Keyed Fallible Transactions Runs

/-! ## The rows of a tenant -/

/-- Two states have the same rows of a tenant: its own, its tasks, its agents with
their versions, and its routes. -/
structure Store.AgreeOn (o : TenantId) (s s' : Store) : Prop where
  tenant : s.db.tenants.find? o = s'.db.tenants.find? o
  tasks : ∀ t, t.tenantId = o → (t ∈ s.db.tasks.rows ↔ t ∈ s'.db.tasks.rows)
  agents : ∀ a, a.tenantId = o → (a ∈ s.reg.agents.rows ↔ a ∈ s'.reg.agents.rows)
  versions : ∀ a ∈ s.reg.agents.rows, a.tenantId = o → ∀ v, v.agentId = a.id →
    (v ∈ s.reg.versions.rows ↔ v ∈ s'.reg.versions.rows)
  routes : ∀ r, r.tenantId = o → (r ∈ s.reg.routes.rows ↔ r ∈ s'.reg.routes.rows)

namespace Store.AgreeOn

variable {o : TenantId} {s s' : Store}

theorem symm (h : s.AgreeOn o s') : s'.AgreeOn o s where
  tenant := h.tenant.symm
  tasks t ht := (h.tasks t ht).symm
  agents a ha := (h.agents a ha).symm
  versions a ha hao v hv := (h.versions a ((h.agents a hao).mpr ha) hao v hv).symm
  routes r hr := (h.routes r hr).symm

/-- What to compare where the rows can be listed. -/
theorem of_filters (htenant : s.db.tenants.find? o = s'.db.tenants.find? o)
    (htasks : s.db.tasks.rows.filter (fun t => t.tenantId = o) =
      s'.db.tasks.rows.filter fun t => t.tenantId = o)
    (hagents : s.reg.agents.rows.filter (fun a => a.tenantId = o) =
      s'.reg.agents.rows.filter fun a => a.tenantId = o)
    (hversions : s.reg.versions.rows.filter (fun v => s.reg.agentTenant v.agentId = some o) =
      s'.reg.versions.rows.filter fun v => s'.reg.agentTenant v.agentId = some o)
    (hroutes : s.reg.routes.rows.filter (fun r => r.tenantId = o) =
      s'.reg.routes.rows.filter fun r => r.tenantId = o) : s.AgreeOn o s' where
  tenant := htenant
  tasks t ht := by simpa [ht] using iff_of_eq (congrArg (t ∈ ·) htasks)
  agents a ha := by simpa [ha] using iff_of_eq (congrArg (a ∈ ·) hagents)
  versions a ha hao v hv := by
    have ha' : a ∈ s'.reg.agents.rows := by
      have hmem := iff_of_eq (congrArg (a ∈ ·) hagents)
      simp only [List.mem_filter, hao, decide_true, and_true] at hmem
      exact hmem.mp ha
    have howner : s.reg.agentTenant v.agentId = some o := by
      rw [hv, ← hao]
      exact congrArg (Option.map Agent.tenantId) (Table.find?_key ha)
    have howner' : s'.reg.agentTenant v.agentId = some o := by
      rw [hv, ← hao]
      exact congrArg (Option.map Agent.tenantId) (Table.find?_key ha')
    simpa [howner, howner'] using iff_of_eq (congrArg (v ∈ ·) hversions)
  routes r hr := by simpa [hr] using iff_of_eq (congrArg (r ∈ ·) hroutes)

theorem queued (h : s.AgreeOn o s') :
    queuedCountForTenant s.db o = queuedCountForTenant s'.db o := by
  refine Table.countP_congr_rows fun t ht => h.tasks t ?_
  rw [Bool.and_eq_true, beq_iff_eq] at ht
  exact ht.1

/-- A key of the tenant is held by the same task in both. -/
theorem holder (h : s.AgreeOn o s') {t : Task} {key : String} (ht : t ∈ s.db.tasks.rows)
    (hkey : t.idemKey = some (o, key)) : t ∈ s'.db.tasks.rows := by
  obtain ⟨k, -, hk⟩ := Option.map_eq_some_iff.mp hkey
  exact (h.tasks t (Prod.mk.inj hk).1).mp ht

/-- A route of the tenant leads to the same agent and version in both: the agent
is the tenant's, and its default is a version of its own. -/
theorem routed (h : s.AgreeOn o s') (hs : s.reg.Integrity) (requestType : String) :
    s.reg.routed o requestType = s'.reg.routed o requestType := by
  have hroute : s.reg.route? o requestType = s'.reg.route? o requestType :=
    Table.find?_congr_rows fun r hr => h.routes r (congrArg Prod.fst hr)
  unfold Registry.routed
  rw [← hroute]
  cases hr : s.reg.route? o requestType with
  | none => rfl
  | some r =>
    have htenant : r.tenantId = o := congrArg Prod.fst (Table.key_of_find? hr)
    obtain ⟨a, ha, hao⟩ := Option.map_eq_some_iff.mp (hs.routes r (Table.mem_of_find? hr))
    rw [htenant] at hao
    have hmem : a ∈ s.reg.agents.rows := Table.mem_of_find? ha
    have ha' : s'.reg.agent? r.agentId = some a :=
      Table.find?_eq_some.mpr ⟨(h.agents a hao).mp hmem, Table.key_of_find? ha⟩
    have hversion : a.defaultVersionId.bind s.reg.version? =
        a.defaultVersionId.bind s'.reg.version? := by
      cases hd : a.defaultVersionId with
      | none => rfl
      | some i =>
        obtain ⟨v, hv, hva⟩ := Option.map_eq_some_iff.mp (hs.defaults a hmem i hd)
        have hv' : s'.reg.version? i = some v :=
          Table.find?_eq_some.mpr
            ⟨(h.versions a hmem hao v hva).mp (Table.mem_of_find? hv), Table.key_of_find? hv⟩
        rw [Option.bind_some, Option.bind_some, hv, hv']
    rw [Option.bind_some, Option.bind_some, ha, ha', Option.map_some, Option.map_some, hversion]

end Store.AgreeOn

/-! ## The same outcome -/

/-- What a submission has from the process that serves it. -/
structure Arrival where
  now : Time
  newId : TaskId
  env : Surroundings

def Arrival.request (d : Arrival) (body : TaskCreate) : Request :=
  ⟨d.now, .api (.submit d.newId body d.env)⟩

/-- The request brings no trace of its own that the table would refuse, or both arrivals
replace it, or neither does. -/
def TaskCreate.TracedAlike (body : TaskCreate) (d₁ d₂ : Arrival) : Prop :=
  Json.storableFields body.payload = true ∨ (d₁.env.carrier = [] ↔ d₂.env.carrier = [])

/-- The row with the generated id, the timestamps and the trace of one arrival. -/
def TaskCreate.stamp (body : TaskCreate) (d : Arrival) (t : Task) : Task :=
  { t with
    id := d.newId
    payload := Json.jsonbFields (body.tracedPayload d.env.carrier)
    availableAt := body.availableAt.getD d.now
    createdAt := d.now
    updatedAt := d.now }

/-- How a submission ends in one state and in another: refused for the same reason,
with the same old task, or with a new one that differs in its stamp. -/
inductive SameOutcome (body : TaskCreate) (d₁ d₂ : Arrival) (s₁ s₂ : Store) :
    Except Failure (Store × Answer) → Except Failure (Store × Answer) → Prop
  | refused (e : Failure) : SameOutcome body d₁ d₂ s₁ s₂ (.error e) (.error e)
  | found {t : Task} (ht : t.tenantId = body.tenantId) (h₁ : t ∈ s₁.db.tasks.rows)
      (h₂ : t ∈ s₂.db.tasks.rows) :
      SameOutcome body d₁ d₂ s₁ s₂ (.ok (s₁, .task false t)) (.ok (s₂, .task false t))
  | created {t : Task} {db₁ db₂ : Database} (ht : t.tenantId = body.tenantId)
      (h₁ : s₁.db.Inserted (body.stamp d₁ t) db₁) (h₂ : s₂.db.Inserted (body.stamp d₂ t) db₂) :
      SameOutcome body d₁ d₂ s₁ s₂ (.ok ({ s₁ with db := db₁ }, .task true (body.stamp d₁ t)))
        (.ok ({ s₂ with db := db₂ }, .task true (body.stamp d₂ t)))

/-- The status code of the response to a submission. -/
def submitStatus : Except Failure (Store × Answer) → Nat
  | .ok (_, .task false _) => 200
  | .ok _ => 201
  | .error (.api e) => e.kind.statusCode
  | .error _ => 500

theorem SameOutcome.status {body : TaskCreate} {d₁ d₂ : Arrival} {s₁ s₂ : Store}
    {x₁ x₂ : Except Failure (Store × Answer)} (h : SameOutcome body d₁ d₂ s₁ s₂ x₁ x₂) :
    submitStatus x₁ = submitStatus x₂ := by
  cases h <;> rfl

/-- No row of the tenant is written, nor what belongs to a task of it. -/
structure Store.Spares (o : TenantId) (s s' : Store) : Prop where
  agree : s.AgreeOn o s'
  views : ∀ t ∈ s.db.tasks.rows, t.tenantId = o → s'.db.view t.id = s.db.view t.id
  tenants : s'.db.tenants = s.db.tenants
  workers : s'.db.workers = s.db.workers
  registry : s'.reg = s.reg
  audit : s'.audit = s.audit

theorem Store.Spares.refl (o : TenantId) (s : Store) : s.Spares o s where
  agree := ⟨rfl, fun _ _ => Iff.rfl, fun _ _ => Iff.rfl, fun _ _ _ _ _ => Iff.rfl, fun _ _ => Iff.rfl⟩
  views _ _ _ := rfl
  tenants := rfl
  workers := rfl
  registry := rfl
  audit := rfl

/-- The insert of a task is seen through that task only. -/
theorem Database.Inserted.view {db db' : Database} {t : Task} (h : db.Inserted t db') {i : TaskId}
    (hi : i ≠ t.id) : db'.view i = db.view i := by
  have hrow : db'.task? i = db.task? i := by
    unfold Database.task? Table.find?
    rw [h.tasks, List.find?_append]
    simp [Ne.symm hi]
  have hevents : db'.events.filter (fun e => e.taskId = i) =
      db.events.filter (fun e => e.taskId = i) := by
    rw [h.events, List.filter_append]
    simp [Task.creationEvent, Ne.symm hi]
  simp only [Database.view, hrow, h.attempts, hevents]

/-- An insert for one tenant spares the others. -/
theorem Database.Inserted.spares {s : Store} {t : Task} {db' : Database} (h : s.db.Inserted t db')
    (hfresh : s.db.task? t.id = none) {o : TenantId} (ho : o ≠ t.tenantId) :
    s.Spares o { s with db := db' } where
  agree :=
    { tenant := by rw [h.tenants]
      tasks := fun u hu => by
        rw [h.tasks, List.mem_append, List.mem_singleton]
        have hne : u ≠ t := fun he => ho (hu ▸ congrArg Task.tenantId he)
        simp [hne]
      agents := fun _ _ => Iff.rfl
      versions := fun _ _ _ _ _ => Iff.rfl
      routes := fun _ _ => Iff.rfl }
  views u hu _ := h.view fun he => by
    have hsome := Table.find?_key hu
    rw [he, show s.db.tasks.find? t.id = none from hfresh] at hsome
    cases hsome
  tenants := h.tenants
  workers := h.workers
  registry := rfl
  audit := rfl

variable [PyText]

omit [PyText] in
theorem SameOutcome.spares {body : TaskCreate} {d₁ d₂ : Arrival} {s₁ s₂ : Store}
    {x₁ x₂ : Except Failure (Store × Answer)} (h : SameOutcome body d₁ d₂ s₁ s₂ x₁ x₂)
    (hfresh₁ : s₁.db.task? d₁.newId = none) (hfresh₂ : s₂.db.task? d₂.newId = none)
    {o : TenantId} (ho : o ≠ body.tenantId) :
    (∀ s' a, x₁ = .ok (s', a) → s₁.Spares o s') ∧ ∀ s' a, x₂ = .ok (s', a) → s₂.Spares o s' := by
  cases h with
  | refused e => exact ⟨fun _ _ h => (by cases h), fun _ _ h => (by cases h)⟩
  | found ht h₁ h₂ =>
    refine ⟨fun s' a h => ?_, fun s' a h => ?_⟩
    · cases h
      exact .refl o s₁
    · cases h
      exact .refl o s₂
  | @created t db₁ db₂ ht h₁ h₂ =>
    have hother : o ≠ t.tenantId := ht ▸ ho
    refine ⟨fun s' a h => ?_, fun s' a h => ?_⟩
    · cases h
      exact h₁.spares hfresh₁ hother
    · cases h
      exact h₂.spares hfresh₂ hother

/-! ## From the arguments on -/

/-- The trace apart, the arguments do not depend on the arrival. -/
theorem submissionArgs_traced (reg : Registry) (body : TaskCreate) (carrier : JsonObject) :
    submissionArgs reg body carrier = (submissionArgs reg body []).map fun args =>
      { args with payload := body.tracedPayload carrier } := by
  unfold submissionArgs
  cases body.target with
  | direct taskType => rfl
  | routed requestType =>
    dsimp only
    cases resolveRoute reg body.tenantId requestType with
    | error e => cases e <;> rfl
    | ok resolution =>
      dsimp only
      cases resolution.taskType? <;> rfl

theorem submissionArgs_availableAt {reg : Registry} {body : TaskCreate} {carrier : JsonObject}
    {args : SubmitArgs} (h : submissionArgs reg body carrier = .ok args) :
    args.availableAt = body.availableAt := by
  unfold submissionArgs at h
  split at h
  · cases h
    rfl
  split at h
  · cases h
  · cases h
  split at h
  · cases h
  · cases h
    rfl

/-- The arguments with the trace of one arrival. -/
def TaskCreate.traced (body : TaskCreate) (d : Arrival) (args : SubmitArgs) : SubmitArgs :=
  { args with payload := body.tracedPayload d.env.carrier }

theorem submittedTask_traced {body : TaskCreate} {args : SubmitArgs}
    (havailable : args.availableAt = body.availableAt) (d : Arrival) :
    submittedTask d.now d.newId (body.traced d args) = body.stamp d (submittedTask 0 0 args) := by
  unfold submittedTask TaskCreate.stamp TaskCreate.traced
  rw [havailable]

omit [PyText] in
theorem TaskCreate.TracedAlike.storable {body : TaskCreate} {d₁ d₂ : Arrival}
    (h : body.TracedAlike d₁ d₂) :
    Json.storableFields (body.tracedPayload d₁.env.carrier) =
      Json.storableFields (body.tracedPayload d₂.env.carrier) := by
  have hcarrier : ∀ d : Arrival, (Json.obj d.env.carrier).storable = true := fun d =>
    d.env.carrier_storable
  have htrace : storableText "_trace" = true := by decide
  unfold tracedPayload
  rcases h with hbody | halike
  · have hstored : ∀ d : Arrival, Json.storableFields (if d.env.carrier = [] then body.payload
        else body.payload.set "_trace" (.obj d.env.carrier)) = true := by
      intro d
      split
      · exact hbody
      · exact Json.storableFields_set_of hbody htrace (hcarrier d)
    rw [hstored, hstored]
  · by_cases h₁ : d₁.env.carrier = []
    · rw [if_pos h₁, if_pos (halike.mp h₁)]
    · rw [if_neg h₁, if_neg fun h₂ => h₁ (halike.mpr h₂)]
      exact Json.storableFields_set _ _ ((hcarrier d₁).trans (hcarrier d₂).symm)

/-- Either arrival's row is refused for the same reason, or neither's. -/
theorem refused_traced {body : TaskCreate} {d₁ d₂ : Arrival} (h : body.TracedAlike d₁ d₂)
    (args : SubmitArgs) :
    (submittedTask d₁.now d₁.newId (body.traced d₁ args)).refused =
      (submittedTask d₂.now d₂.newId (body.traced d₂ args)).refused := by
  have hstorable : (submittedTask d₁.now d₁.newId (body.traced d₁ args)).pinned.storable =
      (submittedTask d₂.now d₂.newId (body.traced d₂ args)).pinned.storable := by
    simp only [Task.Pinned.storable, Task.pinned, submittedTask, TaskCreate.traced,
      Json.storableFields_jsonb, h.storable]
  unfold Task.refused
  rw [hstorable]
  rfl

/-- The same arguments are inserted, or find the same task, or are refused for the same
reason. -/
theorem submitResolved_same {s₁ s₂ : Store} {body : TaskCreate} {args : SubmitArgs}
    (h : s₁.AgreeOn body.tenantId s₂) (htenant : args.tenantId = body.tenantId)
    (havailable : args.availableAt = body.availableAt)
    (hthere : (s₁.db.tenants.find? body.tenantId).isSome = true) {d₁ d₂ : Arrival}
    (htraced : body.TracedAlike d₁ d₂)
    (hfresh₁ : s₁.db.task? d₁.newId = none) (hfresh₂ : s₂.db.task? d₂.newId = none) :
    SameOutcome body d₁ d₂ s₁ s₂ (submitResolved d₁.now d₁.newId (body.traced d₁ args) s₁)
      (submitResolved d₂.now d₂.newId (body.traced d₂ args) s₂) := by
  have hthere₂ : (s₂.db.tenants.find? body.tenantId).isSome = true := h.tenant ▸ hthere
  have hrow : ∀ d : Arrival, submittedTask d.now d.newId (body.traced d args) =
      body.stamp d (submittedTask 0 0 args) := submittedTask_traced havailable
  unfold submitResolved
  cases hrefused : (submittedTask d₁.now d₁.newId (body.traced d₁ args)).refused with
  | some e =>
    rw [submitTask_refused hrefused, submitTask_refused (refused_traced htraced args ▸ hrefused)]
    exact .refused _
  | none =>
    have hrefused₂ : (submittedTask d₂.now d₂.newId (body.traced d₂ args)).refused = none :=
      refused_traced htraced args ▸ hrefused
    by_cases hheld : ∃ t ∈ s₁.db.tasks.rows, ∃ key, args.idemKey = some (body.tenantId, key) ∧
        t.idemKey = some (body.tenantId, key)
    · obtain ⟨t, ht, key, hκ, hkey⟩ := hheld
      have ht₂ : t ∈ s₂.db.tasks.rows := h.holder ht hkey
      have howner : t.tenantId = body.tenantId := by
        obtain ⟨k, -, hk⟩ := Option.map_eq_some_iff.mp hkey
        exact (Prod.mk.inj hk).1
      obtain ⟨hmismatch₁, hfound₁⟩ := submitTask_held hrefused hκ (Table.find?_key ht) hkey
      obtain ⟨hmismatch₂, hfound₂⟩ := submitTask_held hrefused₂ hκ (Table.find?_key ht₂) hkey
      have hdiffers : (body.traced d₁ args).differs t ↔ (body.traced d₂ args).differs t := by
        unfold SubmitArgs.differs TaskCreate.traced
        rw [withoutTrace_traced, withoutTrace_traced]
      by_cases hd : (body.traced d₁ args).differs t
      · rw [hmismatch₁ hd, hmismatch₂ (hdiffers.mp hd)]
        exact .refused _
      · rw [hfound₁ hd, hfound₂ fun hd₂ => hd (hdiffers.mpr hd₂)]
        exact .found howner ht ht₂
    · have hkeyed : args.idemKey.isSome = true → ∃ key, args.idemKey = some (body.tenantId, key) := by
        intro hsome
        obtain ⟨key, hk⟩ := Option.isSome_iff_exists.mp (Option.isSome_map .. ▸ hsome)
        refine ⟨key, ?_⟩
        unfold SubmitArgs.idemKey
        rw [hk, htenant]
        rfl
      have hfree₁ : args.idemKey.isSome = true → ∀ u ∈ s₁.db.tasks.rows,
          u.idemKey ≠ args.idemKey := by
        intro hsome u hu he
        obtain ⟨key, hκ⟩ := hkeyed hsome
        exact hheld ⟨u, hu, key, hκ, he.trans hκ⟩
      have hfree₂ : args.idemKey.isSome = true → ∀ u ∈ s₂.db.tasks.rows,
          u.idemKey ≠ args.idemKey := by
        intro hsome u hu he
        obtain ⟨key, hκ⟩ := hkeyed hsome
        exact hfree₁ hsome u (h.symm.holder hu (he.trans hκ)) he
      obtain ⟨db₁, h₁, hins₁⟩ := submitTask_creates hrefused hfree₁ hfresh₁
        (show (s₁.db.tenants.find? args.tenantId).isSome = true from htenant ▸ hthere)
      obtain ⟨db₂, h₂, hins₂⟩ := submitTask_creates hrefused₂ hfree₂ hfresh₂
        (show (s₂.db.tenants.find? args.tenantId).isSome = true from htenant ▸ hthere₂)
      rw [hrow] at h₁ h₂ hins₁ hins₂
      rw [h₁, h₂]
      exact .created htenant hins₁ hins₂

/-! ## Every two reachable states -/

theorem submitAlone_same {s₁ s₂ : Store} {body : TaskCreate} (h : s₁.AgreeOn body.tenantId s₂)
    (hint : s₁.reg.Integrity) {d₁ d₂ : Arrival} (hoff₁ : d₁.env.globalQueueShedThreshold ≤ 0)
    (hoff₂ : d₂.env.globalQueueShedThreshold ≤ 0) (htraced : body.TracedAlike d₁ d₂)
    (hfresh₁ : s₁.db.task? d₁.newId = none) (hfresh₂ : s₂.db.task? d₂.newId = none) :
    SameOutcome body d₁ d₂ s₁ s₂ (submitAlone d₁.now d₁.newId body d₁.env s₁)
      (submitAlone d₂.now d₂.newId body d₂.env s₂) := by
  unfold submitAlone
  rw [← h.tenant]
  cases hn : s₁.db.tenants.find? body.tenantId with
  | none => exact .refused _
  | some tenant =>
    dsimp only
    have hverdict : s₁.verdict tenant body d₁.env = s₂.verdict tenant body d₂.env := by
      unfold Store.verdict
      rw [h.queued, Admission.decide_unshed _ _ hoff₁ hoff₂]
    have hargs : submissionArgs s₁.reg body [] = submissionArgs s₂.reg body [] := by
      unfold submissionArgs resolveRoute
      simp only [h.routed hint]
    rw [← hverdict]
    cases (s₁.verdict tenant body d₁.env).gate with
    | error e => exact .refused e
    | ok u =>
      rw [ok_bind, ok_bind, submissionArgs_traced s₁.reg, submissionArgs_traced s₂.reg, ← hargs]
      cases hx : submissionArgs s₁.reg body [] with
      | error e => exact .refused e
      | ok args =>
        exact submitResolved_same h (submissionArgs_ok hx).1 (submissionArgs_availableAt hx)
          (by rw [hn]; rfl) htraced hfresh₁ hfresh₂

/-- **A submission does not see the other tenants, and does not touch them.** With
shedding off, and the ids it generates being new, it ends the same way in a
reachable state and in any other that agrees with it on the rows of its tenant:
with the same status, the same task up to the generated id, the timestamps and the
trace, and the same rows added. No row of another tenant is written in either. -/
theorem submission_isolated {m : Server} {acts : List (Action Request)}
    (hrun : Interleaves .empty acts m) (hbegun : ∀ r ∈ begun acts, r.Standalone) {s : Store}
    {body : TaskCreate} (hagree : m.db.AgreeOn body.tenantId s) {d₁ d₂ : Arrival}
    (hoff₁ : d₁.env.globalQueueShedThreshold ≤ 0) (hoff₂ : d₂.env.globalQueueShedThreshold ≤ 0)
    (htraced : body.TracedAlike d₁ d₂) (hfresh₁ : m.db.db.task? d₁.newId = none)
    (hfresh₂ : s.db.task? d₂.newId = none) :
    SameOutcome body d₁ d₂ m.db s ((requestTx (d₁.request body)).alone m.db)
        ((requestTx (d₂.request body)).alone s) ∧
      submitStatus ((requestTx (d₁.request body)).alone m.db) =
        submitStatus ((requestTx (d₂.request body)).alone s) ∧
      ∀ o, o ≠ body.tenantId →
        (∀ s' a, (requestTx (d₁.request body)).alone m.db = .ok (s', a) → m.db.Spares o s') ∧
        ∀ s' a, (requestTx (d₂.request body)).alone s = .ok (s', a) → s.Spares o s' := by
  have hsound : Discipline.Sound (discipline False) m :=
    (requests_sound hrun empty_sound (fun r hr => hbegun r (mem_begun.mpr hr)) False.elim).1
  have hsame : SameOutcome body d₁ d₂ m.db s ((requestTx (d₁.request body)).alone m.db)
      ((requestTx (d₂.request body)).alone s) := by
    rw [show (requestTx (d₁.request body)).alone m.db = _ from
        submitEndpointTx_alone d₁.now d₁.newId body d₁.env m.db,
      show (requestTx (d₂.request body)).alone s = _ from
        submitEndpointTx_alone d₂.now d₂.newId body d₂.env s]
    exact submitAlone_same hagree (Store.Integrity.registry hsound.inv) hoff₁ hoff₂ htraced hfresh₁
      hfresh₂
  exact ⟨hsame, hsame.status, fun o ho => hsame.spares hfresh₁ hfresh₂ ho⟩

deriving instance DecidableEq for Tenant
deriving instance DecidableEq for Task
deriving instance DecidableEq for Agent
deriving instance DecidableEq for AgentVersion
deriving instance DecidableEq for AgentRoute

/-- Another tenant comes, with an agent and a route of the same names and a task
under the same key. -/
def besideAnother : List (Action Request) :=
  agentRouted 1000 ++
  .begin ⟨5, .call (.createTenant 2 "rival" 10 1)⟩ :: steps 5 1 ++
  .begin ⟨6, .api (.createAgent 2 2 "summarizer" none)⟩ :: steps 6 2 ++
  .begin ⟨7, .api (.createVersion 2 2 {})⟩ :: steps 7 3 ++
  .begin ⟨8, .api (.activate 2 { versionId := 2 })⟩ :: steps 8 4 ++
  .begin ⟨9, .api (.setRoute 2 "summarize" 2)⟩ :: steps 9 2 ++
  .begin ⟨10, .api (.submit 1 { routedUnderKey with tenantId := 2 } {})⟩ :: steps 10 5

omit [PyText] in
/-- The first tenant's submission, before and after the other has come. -/
theorem submission_isolated_besideAnother : ∃ m₁ m₂,
    @Interleaves PyText.plain .empty (agentRouted 1000) m₁ ∧
    @Interleaves PyText.plain .empty besideAnother m₂ ∧
    m₂.db.db.tasks.rows.map Task.tenantId = [2] ∧
    SameOutcome routedUnderKey ⟨11, 1, {}⟩ ⟨12, 2, { globalQueued := 1 }⟩ m₁.db m₂.db
      ((@requestTx PyText.plain ⟨11, .api (.submit 1 routedUnderKey {})⟩).alone m₁.db)
      ((@requestTx PyText.plain ⟨12, .api (.submit 2 routedUnderKey { globalQueued := 1 })⟩).alone
        m₂.db) := by
  have hfirst : (exec (act (@requestTx PyText.plain)) Server.empty (agentRouted 1000)).map
      (fun m : Server => m.db.db.tasks.rows.map Task.id) = some [] := by decide +kernel
  have hsecond : (exec (act (@requestTx PyText.plain)) Server.empty besideAnother).map
      (fun m : Server => m.db.db.tasks.rows.map fun t => (t.id, t.tenantId)) = some [(1, 2)] := by
    decide +kernel
  have htenant : (exec (act (@requestTx PyText.plain)) Server.empty (agentRouted 1000)).map
      (fun m : Server => m.db.db.tenants.find? 1) =
      (exec (act (@requestTx PyText.plain)) Server.empty besideAnother).map
        fun m : Server => m.db.db.tenants.find? 1 := by decide +kernel
  have hagents : (exec (act (@requestTx PyText.plain)) Server.empty (agentRouted 1000)).map
      (fun m : Server => m.db.reg.agents.rows.filter fun a => a.tenantId = 1) =
      (exec (act (@requestTx PyText.plain)) Server.empty besideAnother).map
        fun m : Server => m.db.reg.agents.rows.filter fun a => a.tenantId = 1 := by decide +kernel
  have hversions : (exec (act (@requestTx PyText.plain)) Server.empty (agentRouted 1000)).map
      (fun m : Server => m.db.reg.versions.rows.filter fun v =>
        m.db.reg.agentTenant v.agentId = some 1) =
      (exec (act (@requestTx PyText.plain)) Server.empty besideAnother).map
        fun m : Server => m.db.reg.versions.rows.filter fun v =>
          m.db.reg.agentTenant v.agentId = some 1 := by decide +kernel
  have hroutes : (exec (act (@requestTx PyText.plain)) Server.empty (agentRouted 1000)).map
      (fun m : Server => m.db.reg.routes.rows.filter fun r => r.tenantId = 1) =
      (exec (act (@requestTx PyText.plain)) Server.empty besideAnother).map
        fun m : Server => m.db.reg.routes.rows.filter fun r => r.tenantId = 1 := by decide +kernel
  obtain ⟨m₁, hm₁, hids₁⟩ := Option.map_eq_some_iff.mp hfirst
  obtain ⟨m₂, hm₂, hids₂⟩ := Option.map_eq_some_iff.mp hsecond
  rw [hm₁, hm₂] at htenant hagents hversions hroutes
  have hnone : m₁.db.db.tasks.rows = [] := List.map_eq_nil_iff.mp hids₁
  have howners : ∀ t ∈ m₂.db.db.tasks.rows, (t.id, t.tenantId) = (1, 2) := fun t ht =>
    List.mem_singleton.mp (hids₂ ▸ List.mem_map_of_mem ht)
  have htasks : m₁.db.db.tasks.rows.filter (fun t => t.tenantId = 1) =
      m₂.db.db.tasks.rows.filter fun t => t.tenantId = 1 := by
    rw [hnone, List.filter_nil, eq_comm, List.filter_eq_nil_iff]
    intro t ht
    rw [(Prod.mk.inj (howners t ht)).2]
    decide
  have hagree : m₁.db.AgreeOn routedUnderKey.tenantId m₂.db :=
    .of_filters (Option.some.inj htenant) htasks (Option.some.inj hagents)
      (Option.some.inj hversions) (Option.some.inj hroutes)
  have hfresh₁ : m₁.db.db.task? 1 = none := Table.find?_eq_none.mpr fun t ht => by
    rw [hnone] at ht
    cases ht
  have hfresh₂ : m₂.db.db.task? 2 = none := Table.find?_eq_none.mpr fun t ht => by
    rw [(Prod.mk.inj (howners t ht)).1]
    decide
  have hrun₁ : @Interleaves PyText.plain .empty (agentRouted 1000) m₁ := Run.of_exec hm₁
  have hbegun : ∀ r ∈ begun (agentRouted 1000), r.Standalone := by decide
  refine ⟨m₁, m₂, hrun₁, Run.of_exec hm₂, ?_, (@submission_isolated PyText.plain m₁ _ hrun₁ hbegun
    m₂.db routedUnderKey hagree ⟨11, 1, {}⟩ ⟨12, 2, { globalQueued := 1 }⟩ (le_refl 0) (le_refl 0)
    (Or.inl (by decide)) hfresh₁ hfresh₂).1⟩
  have := congrArg (List.map Prod.snd) hids₂
  rw [List.map_map] at this
  exact this

end ControlPlane
