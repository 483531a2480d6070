import ControlPlane.Server.Pinning

/-! # Stopping an agent for good

Disabling an agent marks its versions DISABLED, and of all writes to a version
only an activation marks it otherwise. An activation looks at the status before
it waits for the agent's row, and marks the version ACTIVE without looking again:
one that has looked before the disabling committed undoes it. When no activation
commits on a version that is DISABLED by then, DISABLED is for good. -/

namespace ControlPlane
open Keyed Fallible Transactions Runs

def Registry.Disabled (reg : Registry) (v : VersionId) : Prop :=
  (reg.version? v).map AgentVersion.status = some .disabled

instance registryDisabled (reg : Registry) (v : VersionId) : Decidable (reg.Disabled v) :=
  inferInstanceAs (Decidable (_ = _))

section

variable {reg reg' : Registry} {v : VersionId}

theorem Registry.Disabled.of_versions (h : reg.Disabled v) (hv : reg'.versions = reg.versions) :
    reg'.Disabled v := by
  unfold Registry.Disabled Registry.version? at h ⊢
  rwa [hv]

theorem setVersionStatus_disabled {u : VersionId} {status : VersionStatus}
    {row : Option AgentVersion} (hset : setVersionStatus reg u status = .ok (reg', row))
    (h : reg.Disabled v) (hu : status = .disabled ∨ u ≠ v) : reg'.Disabled v := by
  obtain ⟨w, hw, hstatus⟩ := Option.map_eq_some_iff.mp h
  have hid : w.id = v := Table.key_of_find? hw
  unfold Registry.Disabled
  rw [setVersionStatus_version hset v, hw, Option.map_some, Option.map_some, Option.some.injEq]
  split
  · rename_i hwu
    exact hu.resolve_right fun hne => hne ((beq_iff_eq.mp hwu).symm.trans hid)
  · exact hstatus

theorem setVersionStatuses_disabled {versions : List VersionId}
    (hset : setVersionStatuses reg .disabled versions = .ok reg') (h : reg.Disabled v) :
    reg'.Disabled v := by
  induction versions generalizing reg with
  | nil =>
    obtain rfl := pure_ok.mp hset
    exact h
  | cons u versions ih =>
    unfold setVersionStatuses at hset
    rw [List.foldlM_cons] at hset
    obtain ⟨reg₁, hfirst, hrest⟩ := bind_ok.mp hset
    obtain ⟨⟨reg₂, row⟩, hone, rfl⟩ := map_ok hfirst
    exact ih hrest (setVersionStatus_disabled hone h (Or.inl rfl))

end

theorem setToolStatusOn_versions {t : ToolId} {status : ToolStatus} {action : String}
    {s s' : Store} {a : Answer} (h : setToolStatusOn t status action s = .ok (s', a)) :
    s'.reg.versions = s.reg.versions := by
  unfold setToolStatusOn at h
  split at h
  · cases h
  · rename_i reg tool hset
    cases h
    obtain rfl := congrArg Prod.fst hset
    rfl

/-- The request activates this version. -/
def Request.activates (r : Request) (v : VersionId) : Prop :=
  ∃ a body, r.op = .api (.activate a body) ∧ body.versionId = v

/-- **What a commit does to a disabled version**: nothing, unless it activates it. -/
theorem Committed.disabled {now : Time} {e : Endpoint} {s s' : Store} {v : VersionId}
    (h : Committed now s s' e) (hv : s.reg.Disabled v)
    (he : ∀ a body, e = .activate a body → body.versionId ≠ v) : s'.reg.Disabled v := by
  cases h with
  | createAgent h =>
    unfold createAgentOn at h
    split at h
    · rename_i hins
      cases h
      obtain ⟨reg₁, hnew, hrow⟩ := map_ok hins
      cases hrow
      exact hv.of_versions (insertAgent_ok hnew).2.1
    · cases h
    · cases h
  | createVersion h =>
    obtain ⟨⟨reg, row⟩, hins, h⟩ := bind_ok.mp h
    obtain ⟨rfl, -⟩ := Prod.mk.inj (pure_ok.mp h)
    obtain ⟨reg₁, hnew, hrow⟩ := map_ok (mapError_ok.mp hins)
    cases hrow
    exact Table.Keeps.insert (insertVersion_ok hnew).1 v _ hv
  | activate h =>
    obtain ⟨⟨reg, row⟩, hdefault, h⟩ := bind_ok.mp h
    obtain ⟨rows, hup, -⟩ := mapSnd_ok (mapError_ok.mp hdefault)
    have hv₁ : reg.Disabled v := hv.of_versions (updateAgents_ok hup).2.2.1
    cases row with
    | none => cases h
    | some agent =>
      obtain ⟨⟨reg₂, row⟩, hset, h⟩ := bind_ok.mp h
      obtain ⟨rfl, -⟩ := Prod.mk.inj (pure_ok.mp h)
      exact setVersionStatus_disabled (mapError_ok.mp hset) hv₁ (Or.inr (he _ _ rfl))
  | disable h =>
    obtain ⟨⟨reg, row⟩, hstatus, h⟩ := bind_ok.mp h
    obtain ⟨rows, hup, -⟩ := mapSnd_ok (mapError_ok.mp hstatus)
    have hv₁ : reg.Disabled v := hv.of_versions (updateAgents_ok hup).2.2.1
    cases row with
    | none => cases h
    | some agent =>
      obtain ⟨reg₂, hset, h⟩ := bind_ok.mp h
      obtain ⟨⟨db, n⟩, -, h⟩ := bind_ok.mp h
      obtain ⟨rfl, -⟩ := Prod.mk.inj (pure_ok.mp h)
      exact setVersionStatuses_disabled (mapError_ok.mp hset) hv₁
  | setRoute h =>
    obtain ⟨reg, hroute, h⟩ := bind_ok.mp h
    obtain ⟨rfl, -⟩ := Prod.mk.inj (pure_ok.mp h)
    exact hv.of_versions (upsertRoute_ok (mapError_ok.mp hroute)).2.2.1
  | createTool h =>
    unfold createToolOn at h
    split at h
    · rename_i hins
      cases h
      obtain ⟨reg₁, hnew, hrow⟩ := map_ok hins
      cases hrow
      exact hv.of_versions (insertTool_ok hnew).2.2.1
    · cases h
    · cases h
  | disableTool h => exact hv.of_versions (setToolStatusOn_versions h)
  | enableTool h => exact hv.of_versions (setToolStatusOn_versions h)
  | grant h =>
    obtain ⟨reg, hgrant, h⟩ := bind_ok.mp h
    obtain ⟨rfl, -⟩ := Prod.mk.inj (pure_ok.mp h)
    rcases insertGrant_ok (mapError_ok.mp hgrant) with ⟨rfl, -⟩ | ⟨-, -, hversions, -⟩
    · exact hv
    · exact hv.of_versions hversions
  | revokeGrant h =>
    unfold revokeGrantOn at h
    split at h
    · cases h
    · rename_i reg hrevoke
      cases h
      obtain rfl := congrArg Prod.fst hrevoke
      exact hv.of_versions rfl
  | submit h => exact hv.of_versions (by rw [h.1])

variable [PyText]

theorem requestTx_disabled (r : Request) : (requestTx r).Writes fun s s' =>
    ∀ v, s.reg.Disabled v → ¬ r.activates v → s'.reg.Disabled v := by
  unfold requestTx
  split
  · rename_i e hop
    refine (endpointTx_commits r.now e).mono ?_
    intro s s' h v hv hr
    refine h.disabled hv fun a body he hbody => ?_
    exact hr ⟨a, body, by rw [hop, he], hbody⟩
  · refine (callTx_writes _).mono ?_
    intro s s' h v hv _
    exact hv.of_versions (by rw [h.1])

/-! ## Every interleaving -/

/-- The next step commits no activation of a version that is DISABLED by now. -/
def Server.Current (m : Server) (a : Action Request) : Prop :=
  ∀ k r v, a = .next k → m.Committing k r → r.activates v → ¬ m.db.reg.Disabled v

/-- **Disabling is for good**: in every state that any requests lead to, a version
that is DISABLED stays DISABLED through every further interleaving of statements
in which no activation commits on a version that was disabled since it looked. -/
theorem disabled_for_good {m m' : Server} {before after : List (Action Request)}
    (hbefore : Interleaves .empty before m)
    (hafter : Run (fun (m : Server) a m' => act requestTx m a = some m' ∧ m.Current a) m after m')
    {v : VersionId} (hv : m.db.reg.Disabled v) : m'.db.reg.Disabled v := by
  let R : Request → Store → Store → Prop := fun r s s' =>
    ∀ v, s.reg.Disabled v → ¬ r.activates v → s'.reg.Disabled v
  have hm : Confined R m := by
    refine hbefore.invariant (I := Confined R) ?_ (Confined.start R .empty)
    intro s a t hs hst
    exact hs.step requestTx_disabled hst
  refine (hafter.invariant (I := fun m : Server => Confined R m ∧ m.db.reg.Disabled v) ?_
    ⟨hm, hv⟩).2
  intro s a t hs hst
  obtain ⟨hconf, hd⟩ := hs
  refine ⟨hconf.step requestTx_disabled hst.1, ?_⟩
  rcases hconf.commits hst.1 with hdb | ⟨k, r, ha, hcommit, hwrite⟩
  · rw [hdb]
    exact hd
  · exact hwrite v hd fun hr => hst.2 k r v ha hcommit hr hd

/-- A check that finds every step `Current` excludes. -/
def Server.overturns (m : Server) : Action Request → Bool
  | .next k => match m.txs[k]? with
    | some ⟨⟨_, .api (.activate _ body)⟩, .running (.commit _ _)⟩ =>
      decide (m.db.reg.Disabled body.versionId)
    | _ => false
  | _ => false

omit [PyText] in
theorem Server.current_of_check {m : Server} {a : Action Request} (h : m.overturns a = false) :
    m.Current a := by
  intro k r v ha hcommit hr hd
  obtain ⟨⟨⟨now, op⟩, status⟩, point, write, hx, rfl, hst⟩ := hcommit
  obtain ⟨i, body, hop, rfl⟩ := hr
  dsimp only at hst hop
  subst ha hst hop
  unfold Server.overturns at h
  simp only [hx, decide_eq_false_iff_not] at h
  exact h hd

/-- An agent with a version that was never released. -/
def agentDrafted : List (Action Request) :=
  .begin ⟨0, .call (.createTenant 1 "acme" 10 1000)⟩ :: steps 0 1 ++
  .begin ⟨1, .api (.createAgent 1 1 "summarizer" none)⟩ :: steps 1 2 ++
  .begin ⟨2, .api (.createVersion 1 1 {})⟩ :: steps 2 3

/-- The agent is disabled; then an activation of its version is refused, and one
of a newer version is not. -/
def activatedAnew : List (Action Request) :=
  .begin ⟨4, .api (.activate 1 { versionId := 1 })⟩ :: steps 4 2 ++
  .begin ⟨5, .api (.createVersion 2 1 {})⟩ :: steps 5 3 ++
  .begin ⟨6, .api (.activate 1 { versionId := 2 })⟩ :: steps 6 4

def stoppedFirst : List (Action Request) :=
  agentDrafted ++ .begin ⟨3, .api (.disable 1 {})⟩ :: steps 3 6

omit [PyText] in
theorem disabled_for_good_anew : ∃ m m', @Interleaves PyText.plain .empty stoppedFirst m ∧
    m.db.reg.Disabled 1 ∧
    Run (fun (m : Server) a m' => act (@requestTx PyText.plain) m a = some m' ∧ m.Current a) m
      activatedAnew m' ∧ m'.db.reg.Disabled 1 ∧ ¬ m'.db.reg.Disabled 2 := by
  have hend : ((exec (act (@requestTx PyText.plain)) Server.empty stoppedFirst).bind fun m =>
      (exec (fun (m : Server) a => if m.overturns a then none
        else act (@requestTx PyText.plain) m a) m activatedAnew).map fun m' : Server =>
          (decide (m.db.reg.Disabled 1), decide (m'.db.reg.Disabled 2))) = some (true, false) := by
    decide +kernel
  obtain ⟨m, hm, hend⟩ := Option.bind_eq_some_iff.mp hend
  obtain ⟨m', hm', hseen⟩ := Option.map_eq_some_iff.mp hend
  obtain ⟨hv, hnew⟩ := Prod.mk.inj hseen
  have hbefore : @Interleaves PyText.plain .empty stoppedFirst m := Run.of_exec hm
  have hafter := (Run.of_guarded hm').mono fun {s a t} hst =>
    And.intro hst.1 (Server.current_of_check hst.2)
  exact ⟨m, m', hbefore, of_decide_eq_true hv, hafter,
    @disabled_for_good PyText.plain m m' _ _ hbefore hafter 1 (of_decide_eq_true hv),
    of_decide_eq_false hnew⟩

/-- The activation has looked at the version before the agent is disabled. -/
def lookedBefore : List (Action Request) :=
  agentDrafted ++ .begin ⟨3, .api (.activate 1 { versionId := 1 })⟩ :: steps 3 1 ++
  .begin ⟨4, .api (.disable 1 {})⟩ :: steps 4 6

omit [PyText] in
/-- The version is DISABLED when the disabling has committed, and ACTIVE at the end. -/
theorem disabled_overturned :
    (exec (act (@requestTx PyText.plain)) Server.empty lookedBefore).map (fun m : Server =>
      ((m.txs[4]?).any fun x => x.status.ended, (m.db.reg.version? 1).map AgentVersion.status)) =
      some (true, some .disabled) ∧
    (exec (act (@requestTx PyText.plain)) Server.empty (lookedBefore ++ steps 3 3)).map
      (fun m : Server => (m.db.reg.version? 1).map AgentVersion.status) = some (some .active) := by
  decide +kernel

end ControlPlane
