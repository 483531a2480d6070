import ControlPlane.Server.EventLog
import ControlPlane.Server.RegistryWrites

/-! # The discipline of the server's transactions

What every transaction keeps to, whatever others commit between its statements:
it changes only rows it holds the lock of, it inserts under an idempotency key
only while it holds that key, it numbers versions only under the agent's lock,
and nothing that identifies a row ever changes. What a statement has read may
therefore be used later as far as it is of this kind. The task queries keep to
it, each by the locks its statements take. -/

namespace ControlPlane
open Keyed Fallible Transactions Runs

/-! ## What a commit may do -/

section
variable [PyText]

/-- What a transaction that holds these locks may do to the tasks. -/
structure TaskWrites (H : Lock → Prop) (db db' : Database) : Prop where
  steps : ∃ c : Call, c.op.Standalone ∧ ∀ i, TaskStep c i (db.view i) (db'.view i)
  rows : ∀ i t, db.task? i = some t → db'.task? i ≠ some t → H (.task i)
  keyed : ∀ i t, db'.task? i = some t → db.task? i = none → ∀ κ, t.idemKey = some κ → H (.idem κ)

structure StoreWrites (H : Lock → Prop) (s s' : Store) : Prop where
  registry : RegistryWrite (fun a => H (.agent a)) (fun _ => True) s.reg s'.reg
  tasks : TaskWrites H s.db s'.db

/-- What a pinned row has in common with its version, and its key with its
requirements. -/
def Task.Pinned.Integrity (p : Task.Pinned) (reg : Registry) : Prop :=
  p.capabilityKey = ControlPlane.capabilityKey p.requiredCapabilities ∧
    ∀ v, p.agentVersionId = some v → ∃ w, reg.version? v = some w ∧
      reg.agentTenant w.agentId = some p.tenantId ∧
      p.requiredCapabilities = w.requiredCapabilities ∧ p.maxAttempts = w.maxAttempts ∧
      p.maxExecutionTimeS = w.maxExecutionTimeS

theorem Task.Pinned.Integrity.keeps {p : Task.Pinned} {reg reg' : Registry} (h : p.Integrity reg)
    (hk : reg.Keeps reg') : p.Integrity reg' := by
  refine ⟨h.1, fun v hv => ?_⟩
  obtain ⟨w, hw, htenant, hcaps, hmax, htime⟩ := h.2 v hv
  have hfixed : (reg'.version? v).map AgentVersion.fixed = some w.fixed :=
    hk.version (by rw [hw]; rfl)
  obtain ⟨w', hw', hf⟩ := Option.map_eq_some_iff.mp hfixed
  refine ⟨w', hw', ?_, ?_, ?_, ?_⟩
  · rw [show w'.agentId = w.agentId from congrArg AgentVersion.Fixed.agentId hf]
    exact hk.agentTenant htenant
  · rw [hcaps, show w'.requiredCapabilities = w.requiredCapabilities from
      congrArg AgentVersion.Fixed.requiredCapabilities hf]
  · rw [hmax, show w'.maxAttempts = w.maxAttempts from
      congrArg AgentVersion.Fixed.maxAttempts hf]
  · rw [htime, show w'.maxExecutionTimeS = w.maxExecutionTimeS from
      congrArg AgentVersion.Fixed.maxExecutionTimeS hf]

/-- The integrity of everything stored; that of the pinned rows when all
submissions come through the API. -/
structure Store.Integrity (governed : Prop) (s : Store) : Prop where
  registry : s.reg.Integrity
  tasks : governed → ∀ i t, s.db.task? i = some t → t.pinned.Integrity s.reg

omit [PyText] in
/-! ## What a submission is promised -/

/-- The two payloads differ, `_trace` aside. -/
def SubmitArgs.differs (args : SubmitArgs) (t : Task) : Prop :=
  Json.pyEq (.obj (withoutTrace t.payload)) (.obj (withoutTrace args.payload)) = false

/-- A row as committed, with the columns that were fixed at its submission. -/
def Store.Holds (s : Store) (i : TaskId) (p : Task.Pinned) : Prop :=
  ∃ t, s.db.task? i = some t ∧ t.pinned = p

/-- How a submission may end, judged on what is committed. -/
def SubmitOutcome (now : Time) (newId : TaskId) (args : SubmitArgs) (s : Store) :
    Except Raised SubmitResult → Prop
  | .ok ⟨true, task⟩ => task = submittedTask now newId args ∧ s.Holds newId task.pinned
  | .ok ⟨false, task⟩ => s.Holds task.id task.pinned ∧
      (∃ κ, args.idemKey = some κ ∧ task.idemKey = some κ) ∧ ¬ args.differs task
  | .error (.payloadMismatch i) => ∃ t κ, s.Holds i t.pinned ∧ args.idemKey = some κ ∧
      t.idemKey = some κ ∧ args.differs t
  | .error e => ∃ reason, e = .integrity reason

/-- The request calls `submit_task` with these arguments, if it gets that far. -/
inductive Request.Submits (r : Request) : TaskId → SubmitArgs → Prop
  | call {newId : TaskId} {args : SubmitArgs} (hop : r.op = .call (.submitTask newId args)) :
    Submits r newId args
  | direct {newId : TaskId} {body : TaskCreate} {env : Surroundings} (taskType : String)
      (hop : r.op = .api (.submit newId body env)) :
    Submits r newId (body.directArgs taskType env.carrier)
  | routed {newId : TaskId} {body : TaskCreate} {env : Surroundings} (taskType : String)
      (resolution : Resolution) (hop : r.op = .api (.submit newId body env)) :
    Submits r newId (body.routedArgs taskType env.carrier resolution)

/-- What a request is promised: a call of `submit_task` ends as it may, and a task
in the answer of the endpoint comes from such a call. -/
structure RequestPost (r : Request) (res : Except Failure Answer) (s : Store) : Prop where
  call : ∀ newId args, r.op = .call (.submitTask newId args) → ∃ x,
    SubmitOutcome r.now newId args s x ∧ res = (x.map submitAnswer).mapError .raised
  endpoint : ∀ newId body env a, r.op = .api (.submit newId body env) → res = .ok a →
    ∃ args sub, r.Submits newId args ∧ SubmitOutcome r.now newId args s (.ok sub) ∧
      a = submittedTaskAnswer sub

/-! ## The frame -/

/-- A task stays, with the columns fixed at its submission. -/
theorem TaskWrites.pinned {H : Lock → Prop} {db db' : Database} (h : TaskWrites H db db')
    {i : TaskId} {t : Task} (ht : db.task? i = some t) :
    ∃ t', db'.task? i = some t' ∧ t'.pinned = t.pinned := by
  obtain ⟨c, -, hsteps⟩ := h.steps
  exact (hsteps i).row_pinned ht

theorem StoreWrites.holds {H : Lock → Prop} {s s' : Store} (h : StoreWrites H s s') {i : TaskId}
    {p : Task.Pinned} (hi : s.Holds i p) : s'.Holds i p := by
  obtain ⟨t, ht, rfl⟩ := hi
  exact h.tasks.pinned ht

theorem SubmitOutcome.stable {H : Lock → Prop} {now : Time} {newId : TaskId} {args : SubmitArgs}
    {s s' : Store} {x : Except Raised SubmitResult} (h : StoreWrites H s s')
    (hx : SubmitOutcome now newId args s x) : SubmitOutcome now newId args s' x := by
  match x with
  | .ok ⟨true, task⟩ => exact ⟨hx.1, h.holds hx.2⟩
  | .ok ⟨false, task⟩ => exact ⟨h.holds hx.1, hx.2⟩
  | .error (.payloadMismatch i) =>
    obtain ⟨t, κ, hi, hrest⟩ := hx
    exact ⟨t, κ, h.holds hi, hrest⟩
  | .error (.integrity e) => exact hx
  | .error (.illegalTransition a b) => exact hx
  | .error (.valueError m) => exact hx
  | .error (.assertionError m) => exact hx
  | .error (.lookupError m) => exact hx

theorem RequestPost.stable {H : Lock → Prop} {r : Request} {res : Except Failure Answer}
    {s s' : Store} (h : StoreWrites H s s') (hpost : RequestPost r res s) :
    RequestPost r res s' where
  call newId args hop := by
    obtain ⟨x, hx, hres⟩ := hpost.call newId args hop
    exact ⟨x, hx.stable h, hres⟩
  endpoint newId body env a hop hres := by
    obtain ⟨args, sub, hsub, hx, ha⟩ := hpost.endpoint newId body env a hop hres
    exact ⟨args, sub, hsub, hx.stable h, ha⟩

/-- **The discipline**, in which the pinned rows are governed by the API or not. -/
def discipline (governed : Prop) : Discipline Store Lock Failure Answer Request where
  inv := Store.Integrity governed
  guar := StoreWrites
  post := RequestPost
  stable := fun hpost hwrite _ => hpost.stable hwrite

/-! ## What the others leave -/

section Rely

variable {governed : Prop} {H : Lock → Prop} {s s' : Store}

theorem rely_registry (h : (discipline governed).Rely H s s') : s.reg.Keeps s'.reg := by
  refine (discipline governed).rely_keeps (P := fun u => s.reg.Keeps u.reg) ?_ h (.refl _)
  intro u u' hu hstep
  obtain ⟨H', -, hwrite, -⟩ := hstep
  exact hu.trans hwrite.registry.keeps

theorem rely_holds {i : TaskId} {p : Task.Pinned} (h : (discipline governed).Rely H s s')
    (hi : s.Holds i p) : s'.Holds i p := by
  refine (discipline governed).rely_keeps (P := fun u => u.Holds i p) ?_ h hi
  intro u u' hu hstep
  obtain ⟨H', -, hwrite, -⟩ := hstep
  exact hwrite.holds hu

/-- A row stays as it is while one holds its lock. -/
theorem rely_locked {i : TaskId} {t : Task} (h : (discipline governed).Rely H s s')
    (hlock : H (.task i)) (ht : s.db.task? i = some t) : s'.db.task? i = some t := by
  refine (discipline governed).rely_keeps (P := fun u => u.db.task? i = some t) ?_ h ht
  intro u u' hu hstep
  obtain ⟨H', hfree, hwrite, -⟩ := hstep
  by_contra hchanged
  exact hfree _ hlock (hwrite.tasks.rows i t hu hchanged)

/-- No row has the key. -/
def Store.free (s : Store) (κ : TenantId × String) : Prop :=
  ∀ i t, s.db.task? i = some t → t.idemKey ≠ some κ

/-- A key without a row stays without one while one holds it. -/
theorem rely_free {κ : TenantId × String} (h : (discipline governed).Rely H s s')
    (hlock : H (.idem κ)) (hs : s.free κ) : s'.free κ := by
  refine (discipline governed).rely_keeps (P := fun u => u.free κ) ?_ h hs
  intro u u' hu hstep i t' ht' hkey
  obtain ⟨H', hfree, hwrite, -⟩ := hstep
  cases ht : u.db.task? i with
  | none => exact hfree _ hlock (hwrite.tasks.keyed i t' ht' ht κ hkey)
  | some t =>
    obtain ⟨t'', ht'', hpinned⟩ := hwrite.tasks.pinned ht
    obtain rfl := Option.eq_some_unique ht'' ht'
    exact hu i t ht (by rw [← Task.idemKey_of_pinned hpinned, hkey])

end Rely

/-! ## Commits -/

/-- The rows a query may write. -/
def Op.writesRow (op : Op) (i : TaskId) : Prop :=
  match op with
  | .submitTask newId _ => newId = i
  | .renewLease j _ _ _ => j = i
  | .complete _ j _ _ => j = i
  | .cancelTask j => j = i
  | .claimTasks _ _ => True
  | .reap _ _ _ => True
  | .cancelAgentTasks _ _ => True
  | _ => False

theorem TaskStep.unwritten {c : Call} {i : TaskId} {v v' : TaskView} (h : TaskStep c i v v')
    (hop : ¬ c.op.writesRow i) : v'.row = v.row := by
  have hwrites : ∀ {op}, c.op = op → op.writesRow i → v'.row = v.row := fun he hw =>
    absurd (he ▸ hw) hop
  cases h with
  | skip => rfl
  | noted e hrec => rfl
  | submitted hsub hv => exact hwrites hsub rfl
  | claimed hclaim hr hc => exact hwrites hclaim trivial
  | renewed hren hr hf => exact hwrites hren rfl
  | completed hcomp hr hf => exact hwrites hcomp rfl
  | reaped hreap hr hs ho => exact hwrites hreap trivial
  | cancelled hcan hr hq ht' he =>
    rcases hcan with hone | ⟨versions, reason, hall⟩
    · exact hwrites hone rfl
    · exact hwrites hall trivial
  | flagged hcan hr hs hf he =>
    rcases hcan with hone | ⟨versions, reason, hall⟩
    · exact hwrites hone rfl
    · exact hwrites hall trivial

/-- The integrity after a commit: rows that were there stay pinned, and a new one
has it. -/
theorem Store.Integrity.step {governed : Prop} {s s' : Store} (h : s.Integrity governed)
    (hreg : s'.reg.Integrity) (hkeeps : s.reg.Keeps s'.reg)
    (hrows : ∀ i t', s'.db.task? i = some t' → (∃ t, s.db.task? i = some t ∧ t'.pinned = t.pinned) ∨
      (governed → t'.pinned.Integrity s.reg)) : s'.Integrity governed := by
  refine ⟨hreg, fun hg i t' ht' => ?_⟩
  rcases hrows i t' ht' with ⟨t, ht, hpinned⟩ | hnew
  · rw [hpinned]
    exact (h.tasks hg i t ht).keeps hkeeps
  · exact (hnew hg).keeps hkeeps

/-- A commit that creates no task, with the lock of each row it changes. -/
theorem writes_of_steps {governed : Prop} {H : Lock → Prop} {s s' : Store} {c : Call}
    (h : s.Integrity governed) (hreg : s'.reg.Integrity)
    (hwrite : RegistryWrite (fun a => H (.agent a)) (fun _ => True) s.reg s'.reg)
    (hstand : c.op.Standalone) (hsub : ∀ newId args, c.op ≠ .submitTask newId args)
    (hsteps : ∀ i, TaskStep c i (s.db.view i) (s'.db.view i))
    (hlock : ∀ i, c.op.writesRow i → s'.db.task? i ≠ s.db.task? i → H (.task i)) :
    s'.Integrity governed ∧ StoreWrites H s s' := by
  refine ⟨h.step hreg hwrite.keeps fun i t' ht' => Or.inl ?_, hwrite,
    ⟨⟨c, hstand, hsteps⟩, fun i t ht hne => ?_, fun i t ht hnone => ?_⟩⟩
  · cases ht : s.db.task? i with
    | none =>
      obtain ⟨args, hop, -⟩ := (hsteps i).row_new ht ht'
      exact absurd hop (hsub i args)
    | some t =>
      obtain ⟨u, hu, hpinned⟩ := (hsteps i).row_pinned ht
      obtain rfl := Option.eq_some_unique hu ht'
      exact ⟨t, rfl, hpinned⟩
  · by_cases hw : c.op.writesRow i
    · exact hlock i hw (ht ▸ hne)
    · exact absurd (((hsteps i).unwritten hw).trans ht) hne
  · obtain ⟨args, hop, -⟩ := (hsteps i).row_new hnone ht
    exact absurd hop (hsub i args)

/-- A commit to the registry alone. -/
theorem writes_of_registry {governed : Prop} {H : Lock → Prop} {s s' : Store}
    (h : s.Integrity governed) (hdb : s'.db = s.db) (hreg : s'.reg.Integrity)
    (hwrite : RegistryWrite (fun a => H (.agent a)) (fun _ => True) s.reg s'.reg) :
    s'.Integrity governed ∧ StoreWrites H s s' := by
  refine writes_of_steps (c := ⟨0, .heartbeat ""⟩) h hreg hwrite ?_ ?_ ?_ ?_
  · intro i ty a w data hop
    cases hop
  · intro newId args hop
    cases hop
  · intro i
    exact .of_eq (by rw [hdb])
  · intro i hw
    exact hw.elim

/-! ## Programs -/

/-- The request submits nothing. -/
def Request.Quiet (r : Request) : Prop := ∀ newId args, ¬ r.Submits newId args

theorem Request.Quiet.post {r : Request} (h : r.Quiet) (res : Except Failure Answer) (s : Store) :
    RequestPost r res s where
  call newId args hop := absurd (.call hop) (h newId args)
  endpoint newId _ _ _ hop _ := absurd (.direct "" hop) (h newId _)

section Programs

variable {governed : Prop} {r : Request} {H : Lock → Prop} {s : Store}

theorem fail_ok (hr : r.Quiet) (e : Failure) : (discipline governed).Ok r (.fail e : Program) H s :=
  fun _ _ _ => hr.post _ _

/-- A commit is judged on what the others left by then. -/
theorem commit_ok {point : Point} {write : Store → Except Failure (Store × Answer)} (hr : r.Quiet)
    (h : ∀ s₁ s₂ a, (discipline governed).Rely H s s₁ → s₁.Integrity governed →
      write s₁ = .ok (s₂, a) → s₂.Integrity governed ∧ StoreWrites H s₁ s₂) :
    (discipline governed).Ok r (.commit point write : Program) H s := by
  intro s₁ hrel hinv
  refine ⟨fun s₂ a hw => ?_, fun e _ => hr.post _ _⟩
  obtain ⟨hinv₂, hwrites⟩ := h s₁ s₂ a hrel hinv hw
  exact ⟨hinv₂, hwrites, hr.post _ _⟩

end Programs

end

end ControlPlane
