import ControlPlane.Server.EmergencyStop

/-! # Releases as a compare-and-set

An activation looks at the version, then updates the agent's row where its default is
the one it expects, and keeps that row locked until it commits. A default therefore
changes only at the commit of an activation, from what that activation expects to what
it releases: the activations that apply form a chain, in the order of their commits. -/

namespace ControlPlane
open Keyed Fallible Transactions Runs

/-! ## The default of an agent -/

/-- The default version of an agent that exists. -/
def Registry.default? (reg : Registry) (a : AgentId) : Option (Option VersionId) :=
  (reg.agent? a).map Agent.defaultVersionId

/-- The agent's row as an activation's `UPDATE` finds it. -/
def ActivateRequest.Finds (body : ActivateRequest) (a : AgentId) (reg : Registry) : Prop :=
  ∃ x, reg.agent? a = some x ∧ activates a body.expected x = true

section Statements

variable {reg reg' : Registry} {a : AgentId} {d : Option VersionId}

theorem Registry.default_of_agents (h : reg'.agents = reg.agents) : reg'.default? a = reg.default? a := by
  unfold Registry.default? Registry.agent?
  rw [h]

/-- Finding the row depends on the default only. -/
theorem ActivateRequest.finds_iff {body : ActivateRequest} :
    body.Finds a reg ↔ ∃ d, reg.default? a = some d ∧ body.expected.all (fun v => d == v) = true := by
  unfold ActivateRequest.Finds Registry.default?
  constructor
  · rintro ⟨x, hx, hp⟩
    simp only [activates, Bool.and_eq_true] at hp
    exact ⟨_, by rw [hx, Option.map_some], hp.2⟩
  · rintro ⟨d, hd, hp⟩
    obtain ⟨x, hx, rfl⟩ := Option.map_eq_some_iff.mp hd
    have hid : x.id = a := Table.key_of_find? hx
    refine ⟨x, hx, ?_⟩
    simp only [activates, Bool.and_eq_true]
    exact ⟨beq_iff_eq.mpr hid, hp⟩

theorem updateAgents_default {p : Agent → Bool} {f : Agent → Agent}
    {hf : ∀ a, (f a).fixed = a.fixed} {rows : List Agent}
    (h : reg.updateAgents p f hf = .ok (reg', rows)) (a : AgentId) :
    reg'.default? a = (reg.agent? a).map fun x => if p x then (f x).defaultVersionId else x.defaultVersionId := by
  have hfind : reg'.agent? a = (reg.agent? a).map fun x => if p x then f x else x := by
    unfold Registry.agent?
    rw [(updateAgents_ok h).1]
    exact Table.find?_modify ..
  unfold Registry.default?
  rw [hfind, Option.map_map]
  congr 1
  funext x
  exact apply_ite Agent.defaultVersionId ..

theorem setAgentStatus_default {now : Time} {i : AgentId} {status : AgentStatus}
    {row : Option Agent} (h : setAgentStatus reg now i status = .ok (reg', row)) :
    reg'.default? a = reg.default? a := by
  obtain ⟨rows, hup, -⟩ := mapSnd_ok h
  rw [updateAgents_default hup]
  unfold Registry.default?
  congr 1
  funext x
  exact ite_self _

theorem setVersionStatus_default {v : VersionId} {status : VersionStatus}
    {row : Option AgentVersion} (h : setVersionStatus reg v status = .ok (reg', row)) :
    reg'.default? a = reg.default? a := by
  obtain ⟨rows, hup, -⟩ := mapSnd_ok h
  exact Registry.default_of_agents (updateVersions_ok hup).2.2.2.1

theorem setVersionStatuses_default {status : VersionStatus} {versions : List VersionId}
    (h : setVersionStatuses reg status versions = .ok reg') : reg'.default? a = reg.default? a := by
  induction versions generalizing reg with
  | nil =>
    obtain rfl := pure_ok.mp h
    rfl
  | cons v versions ih =>
    unfold setVersionStatuses at h
    rw [List.foldlM_cons] at h
    obtain ⟨reg₁, hfirst, hrest⟩ := bind_ok.mp h
    obtain ⟨⟨reg₂, row⟩, hone, rfl⟩ := map_ok hfirst
    rw [ih hrest, setVersionStatus_default hone]

theorem setToolStatusOn_default {t : ToolId} {status : ToolStatus} {action : String}
    {s s' : Store} {ans : Answer} (h : setToolStatusOn t status action s = .ok (s', ans)) :
    s'.reg.default? a = s.reg.default? a := by
  unfold setToolStatusOn at h
  split at h
  · cases h
  · rename_i reg tool hset
    cases h
    obtain rfl := congrArg Prod.fst hset
    rfl

end Statements

/-! ## What a commit does to it -/

section Commits

variable {now : Time} {s s' : Store} {a : AgentId} {ans : Answer}

/-- **An activation that applies** found the agent as it expects it and releases its version;
the defaults of other agents stay. -/
theorem activateOn_default {i : AgentId} {body : ActivateRequest}
    (h : activateOn now i body s = .ok (s', ans)) :
    body.Finds i s.reg ∧ s'.reg.default? i = some (some body.versionId) ∧
      (a ≠ i → s'.reg.default? a = s.reg.default? a) := by
  obtain ⟨⟨reg, row⟩, hdefault, h⟩ := bind_ok.mp h
  obtain ⟨rows, hup, hrow⟩ := mapSnd_ok (mapError_ok.mp hdefault)
  cases row with
  | none => cases h
  | some agent =>
    obtain ⟨⟨reg₂, _⟩, hset, h⟩ := bind_ok.mp h
    obtain ⟨rfl, -⟩ := Prod.mk.inj (pure_ok.mp h)
    -- the row the `UPDATE` returned is the agent's
    obtain ⟨x, hx, hp⟩ : ∃ x ∈ s.reg.agents.rows, activates i body.expected x = true := by
      have hmem : agent ∈ rows := List.mem_of_mem_head? (Option.mem_def.mpr hrow.symm)
      rw [(updateAgents_ok hup).2.1] at hmem
      obtain ⟨x, hx, -⟩ := List.mem_map.mp hmem
      exact ⟨x, List.mem_filter.mp hx⟩
    have hid : x.id = i := by
      simp only [activates, Bool.and_eq_true, beq_iff_eq] at hp
      exact hp.1
    have hfind : s.reg.agent? i = some x := hid ▸ Table.find?_key hx
    refine ⟨⟨x, hfind, hp⟩, ?_, fun hne => ?_⟩
    · rw [setVersionStatus_default (mapError_ok.mp hset), updateAgents_default hup, hfind,
        Option.map_some, if_pos hp]
    · rw [setVersionStatus_default (mapError_ok.mp hset), updateAgents_default hup]
      unfold Registry.default?
      cases hy : s.reg.agent? a with
      | none => rfl
      | some y =>
        have hother : ¬ activates i body.expected y = true := by
          simp only [activates, Bool.and_eq_true, beq_iff_eq, not_and]
          exact fun he => absurd ((Table.key_of_find? hy).symm.trans he) hne
        rw [Option.map_some, Option.map_some, if_neg hother]

/-- Only an activation of the agent changes its default. -/
theorem Committed.default {e : Endpoint} {d : Option VersionId} (h : Committed now s s' e)
    (hd : s.reg.default? a = some d) (he : ∀ body, e ≠ .activate a body) :
    s'.reg.default? a = some d := by
  cases h with
  | createAgent h =>
    unfold createAgentOn at h
    split at h
    · rename_i hins
      cases h
      obtain ⟨reg₁, hnew, hrow⟩ := map_ok hins
      cases hrow
      exact Table.Keeps.insert (insertAgent_ok hnew).1 a d hd
    · cases h
    · cases h
  | createVersion h =>
    obtain ⟨⟨reg, row⟩, hins, h⟩ := bind_ok.mp h
    obtain ⟨rfl, -⟩ := Prod.mk.inj (pure_ok.mp h)
    obtain ⟨reg₁, hnew, hrow⟩ := map_ok (mapError_ok.mp hins)
    cases hrow
    exact (Registry.default_of_agents (insertVersion_ok hnew).2.1).trans hd
  | @activate i body _ h =>
    by_cases hi : a = i
    · subst hi
      exact absurd rfl (he body)
    · exact ((activateOn_default h).2.2 hi).trans hd
  | disable h =>
    obtain ⟨⟨reg, row⟩, hstatus, h⟩ := bind_ok.mp h
    cases row with
    | none => cases h
    | some agent =>
      obtain ⟨reg₂, hset, h⟩ := bind_ok.mp h
      obtain ⟨⟨db, n⟩, -, h⟩ := bind_ok.mp h
      obtain ⟨rfl, -⟩ := Prod.mk.inj (pure_ok.mp h)
      exact ((setVersionStatuses_default (mapError_ok.mp hset)).trans
        (setAgentStatus_default (mapError_ok.mp hstatus))).trans hd
  | setRoute h =>
    obtain ⟨reg, hroute, h⟩ := bind_ok.mp h
    obtain ⟨rfl, -⟩ := Prod.mk.inj (pure_ok.mp h)
    exact (Registry.default_of_agents (upsertRoute_ok (mapError_ok.mp hroute)).2.1).trans hd
  | createTool h =>
    unfold createToolOn at h
    split at h
    · rename_i hins
      cases h
      obtain ⟨reg₁, hnew, hrow⟩ := map_ok hins
      cases hrow
      exact (Registry.default_of_agents (insertTool_ok hnew).2.1).trans hd
    · cases h
    · cases h
  | disableTool h => exact (setToolStatusOn_default h).trans hd
  | enableTool h => exact (setToolStatusOn_default h).trans hd
  | grant h =>
    obtain ⟨reg, hgrant, h⟩ := bind_ok.mp h
    obtain ⟨rfl, -⟩ := Prod.mk.inj (pure_ok.mp h)
    rcases insertGrant_ok (mapError_ok.mp hgrant) with ⟨rfl, -⟩ | ⟨-, hagents, -⟩
    · exact hd
    · exact (Registry.default_of_agents hagents).trans hd
  | revokeGrant h =>
    unfold revokeGrantOn at h
    split at h
    · cases h
    · rename_i reg hrevoke
      cases h
      obtain rfl := congrArg Prod.fst hrevoke
      exact (Registry.default_of_agents rfl).trans hd
  | submit h =>
    rw [h.1]
    exact hd

theorem setVersionStatus_returns (reg : Registry) (v : VersionId) (status : VersionStatus) :
    ∃ reg' row, setVersionStatus reg v status = .ok (reg', row) := by
  obtain ⟨reg', rows, hup⟩ : ∃ reg' rows, reg.updateVersions (fun w => w.id == v)
      (fun w => { w with status := status }) (fun _ => rfl) = .ok (reg', rows) := by
    unfold Registry.updateVersions
    split
    · rename_i w hfound
      have hchanged := List.find?_some hfound
      simp [AgentVersion.fixed] at hchanged
    · exact ⟨_, _, rfl⟩
  unfold setVersionStatus
  rw [hup]
  exact ⟨_, _, rfl⟩

theorem setDefaultVersion_returns {reg : Registry} {body : ActivateRequest} (h : body.Finds a reg)
    (hv : (reg.version? body.versionId).isSome = true) :
    ∃ reg' agent, setDefaultVersion reg now a body.versionId body.expected =
      .ok (reg', some agent) := by
  obtain ⟨x, hx, hp⟩ := h
  obtain ⟨reg', rows, hup⟩ : ∃ reg' rows, reg.updateAgents (activates a body.expected)
      (fun y => { y with defaultVersionId := some body.versionId, updatedAt := now })
      (fun _ => rfl) = .ok (reg', rows) := by
    unfold Registry.updateAgents
    rw [dif_pos]
    · exact ⟨_, _, rfl⟩
    · intro y _ _ v hv'
      obtain rfl := Option.some.inj hv'
      exact hv
  obtain ⟨agent, hagent⟩ : ∃ agent, rows.head? = some agent := by
    have hmem : x ∈ reg.agents.rows.filter (activates a body.expected) :=
      List.mem_filter.mpr ⟨Table.mem_of_find? hx, hp⟩
    rw [← Option.isSome_iff_exists, List.isSome_head?, (updateAgents_ok hup).2.1]
    exact List.ne_nil_of_mem (List.mem_map_of_mem hmem)
  unfold setDefaultVersion
  rw [hup]
  exact ⟨_, _, congrArg (fun row => Except.ok (reg', row)) hagent⟩

/-- An activation that finds the agent as it expects it, and its version, does not raise. -/
theorem activateOn_returns {body : ActivateRequest} (h : body.Finds a s.reg)
    (hv : (s.reg.version? body.versionId).isSome = true) :
    ∃ s' ans, activateOn now a body s = .ok (s', ans) := by
  obtain ⟨reg, agent, hdefault⟩ := @setDefaultVersion_returns now a s.reg body h hv
  obtain ⟨reg', row, hset⟩ := setVersionStatus_returns reg body.versionId .active
  unfold activateOn
  rw [mapError_ok.mpr hdefault, ok_bind]
  dsimp only
  rw [mapError_ok.mpr hset, ok_bind]
  exact ⟨_, _, rfl⟩

end Commits

/-- What a request may commit as far as the defaults of the agents go. -/
structure Request.Releases (r : Request) (s s' : Store) : Prop where
  keeps : s.reg.Keeps s'.reg
  others : ∀ a d, (∀ body, r.op ≠ .api (.activate a body)) → s.reg.default? a = some d →
    s'.reg.default? a = some d
  applies : ∀ a body, r.op = .api (.activate a body) → ∃ ans, activateOn r.now a body s = .ok (s', ans)

section Programs

variable [PyText]

theorem requestTx_releases (r : Request) : (requestTx r).Writes r.Releases := by
  unfold requestTx
  split
  · rename_i e hop
    refine (endpointTx_commits r.now e).mono fun {s s'} h => ⟨h.registry.keeps, fun a d hno hd => ?_,
      fun a body hact => ?_⟩
    · exact h.default hd fun body he => hno body (by rw [hop, he])
    · obtain rfl : e = .activate a body := Operation.api.inj (hop.symm.trans hact)
      cases h with
      | activate h => exact ⟨_, h⟩
  · rename_i op hop
    refine (callTx_writes _).mono fun {s s'} h => ?_
    have hreg : s'.reg = s.reg := h.1
    refine ⟨by rw [hreg]; exact .refl _, fun a d _ hd => by rwa [hreg], fun a body hact => ?_⟩
    rw [hop] at hact
    cases hact

end Programs

/-! ## The phases of an activation -/

/-- The last statement before the commit. -/
def updateVersionTx (now : Time) (a : AgentId) (body : ActivateRequest) : Program :=
  .stmt .other [.version body.versionId] (fun _ _ => [.version body.versionId])
    fun _ _ => .commit .other (activateOn now a body)

/-- What is left when the version has been looked at. -/
def updateAgentTx (now : Time) (a : AgentId) (body : ActivateRequest) : Program :=
  .stmt .other [.agent a]
    (fun s _ => if (s.reg.agent? a).any (activates a body.expected) then [.agent a] else [])
    fun s _ =>
      if (s.reg.agent? a).any (activates a body.expected) then updateVersionTx now a body
      else .fail (activationRejected "default_version_changed_concurrently")

/-- Where an activation stands. Once its `UPDATE` has found the agent as it expects it, it
holds the agent's row, which stays so. -/
inductive ActivatePhase (now : Time) (a : AgentId) (body : ActivateRequest) (H : Lock → Prop)
    (s : Store) : Status Store Lock Failure Answer Point → Prop
  | start : ActivatePhase now a body H s (.running (activateTx now a body))
  | failing {e : Failure} : ActivatePhase now a body H s (.running (.fail e))
  | checked (hversion : (s.reg.version? body.versionId).isSome = true) :
    ActivatePhase now a body H s (.running (updateAgentTx now a body))
  | updated (hlock : H (.agent a)) (hfinds : body.Finds a s.reg)
    (hversion : (s.reg.version? body.versionId).isSome = true) :
    ActivatePhase now a body H s (.running (updateVersionTx now a body))
  | committing (hlock : H (.agent a)) (hfinds : body.Finds a s.reg)
    (hversion : (s.reg.version? body.versionId).isSome = true) :
    ActivatePhase now a body H s (.running (.commit .other (activateOn now a body)))
  | ended {res : Except Failure Answer} : ActivatePhase now a body H s (.done res)
  | aborted : ActivatePhase now a body H s .aborted

section Phases

variable {now : Time} {a : AgentId} {body : ActivateRequest} {H : Lock → Prop} {s s' : Store}
  {status : Status Store Lock Failure Answer Point}

theorem version_kept {v : VersionId} (h : s.reg.Keeps s'.reg)
    (hv : (s.reg.version? v).isSome = true) : (s'.reg.version? v).isSome = true := by
  obtain ⟨w, hw⟩ := Option.isSome_iff_exists.mp hv
  have hfixed := h.version (show (s.reg.version? v).map AgentVersion.fixed = some w.fixed by rw [hw]; rfl)
  obtain ⟨w', hw', -⟩ := Option.map_eq_some_iff.mp hfixed
  rw [hw']
  rfl

theorem ActivateRequest.Finds.kept (h : body.Finds a s.reg)
    (hkeep : ∀ d, s.reg.default? a = some d → s'.reg.default? a = some d) : body.Finds a s'.reg := by
  obtain ⟨d, hd, hp⟩ := ActivateRequest.finds_iff.mp h
  exact ActivateRequest.finds_iff.mpr ⟨d, hkeep d hd, hp⟩

theorem ActivatePhase.other (h : ActivatePhase now a body H s status) (hkeeps : s.reg.Keeps s'.reg)
    (hdefault : H (.agent a) → ∀ d, s.reg.default? a = some d → s'.reg.default? a = some d) :
    ActivatePhase now a body H s' status := by
  cases h with
  | start => exact .start
  | failing => exact .failing
  | checked hversion => exact .checked (version_kept hkeeps hversion)
  | updated hlock hfinds hversion =>
    exact .updated hlock (hfinds.kept (hdefault hlock)) (version_kept hkeeps hversion)
  | committing hlock hfinds hversion =>
    exact .committing hlock (hfinds.kept (hdefault hlock)) (version_kept hkeeps hversion)
  | ended => exact .ended
  | aborted => exact .aborted

/-- One's own steps. -/
theorem ActivatePhase.moved {m m' : Server} {k : Nat} {p : Program}
    (h : ActivatePhase now a body (m.held k) m.db (.running p)) (hm : Moved m m' k p status) :
    ActivatePhase now a body (m'.held k) m'.db status := by
  cases h with
  | start =>
    cases hm with
    | stmt hdb hwaits htakes hheld =>
      rw [hdb]
      dsimp only
      split
      · exact .failing
      · rename_i version hfound
        split
        · exact .failing
        · refine .checked ?_
          obtain ⟨hrow, -⟩ := Option.filter_eq_some_iff.mp hfound
          rw [hrow]
          rfl
    | abort hdb => exact .aborted
  | failing =>
    cases hm with
    | fail hdb => exact .ended
    | abort hdb => exact .aborted
  | checked hversion =>
    cases hm with
    | stmt hdb hwaits htakes hheld =>
      rw [hdb]
      dsimp only at hheld ⊢
      split
      · rename_i hany
        obtain ⟨x, hx, hp⟩ := (Option.any_eq_true ..).mp hany
        refine .updated ((hheld _).mpr (.inr ?_)) ⟨x, hx, hp⟩ hversion
        rw [if_pos hany]
        exact List.mem_singleton_self _
      · exact .failing
    | abort hdb => exact .aborted
  | updated hlock hfinds hversion =>
    cases hm with
    | stmt hdb hwaits htakes hheld =>
      rw [hdb]
      exact .committing ((hheld _).mpr (.inl hlock)) hfinds hversion
    | abort hdb => exact .aborted
  | committing hlock hfinds hversion =>
    cases hm with
    | commit hw => exact .ended
    | raise hdb hw => exact .ended
    | abort hdb => exact .aborted

/-- A transaction about to commit has been through its `UPDATE`. -/
theorem ActivatePhase.finds {point : Point} {write : Store → Except Failure (Store × Answer)}
    (h : ActivatePhase now a body H s (.running (.commit point write))) :
    H (.agent a) ∧ write = activateOn now a body ∧ body.Finds a s.reg ∧
      (s.reg.version? body.versionId).isSome = true := by
  cases h with
  | committing hlock hfinds hversion => exact ⟨hlock, rfl, hfinds, hversion⟩

end Phases

/-! ## Every interleaving -/

/-- An activation of this agent is a compare-and-set. -/
def Request.Guarded (a : AgentId) (r : Request) : Prop :=
  ∀ body, r.op = .api (.activate a body) → body.requireExpected = true

/-- The activations that apply, as the run commits them. -/
def appliedBy (a : AgentId) (m' : Server) : Action Request → Option ActivateRequest
  | .next k => match m'.txs[k]? with
    | some ⟨⟨_, .api (.activate i body)⟩, .done (.ok _)⟩ => if i = a then some body else none
    | _ => none
  | _ => none

/-- Each expects what the one before has released. -/
def Chained (d : Option VersionId) : List ActivateRequest → Option VersionId → Prop
  | [], d' => d' = d
  | body :: rest, d' => body.expectedCurrentVersionId = d ∧ Chained (some body.versionId) rest d'

section Runs

variable [PyText]

def applied (a : AgentId) : Server → List (Action Request) → List ActivateRequest
  | _, [] => []
  | m, x :: acts => match act requestTx m x with
    | none => []
    | some m' => (appliedBy a m' x).toList ++ applied a m' acts

/-- What holds of a server whose activations of the agent are compare-and-sets. -/
structure Releasing (a : AgentId) (m : Server) : Prop where
  confined : Confined Request.Releases m
  phases : ∀ (k : Nat) x body, m.txs[k]? = some x → x.op.op = .api (.activate a body) →
    ActivatePhase x.op.now a body (m.held k) m.db x.status
  guarded : ∀ (k : Nat) x, m.txs[k]? = some x → x.op.Guarded a

theorem requestTx_activate {r : Request} {a : AgentId} {body : ActivateRequest}
    (h : r.op = .api (.activate a body)) : requestTx r = activateTx r.now a body := by
  obtain ⟨now, op⟩ := r
  obtain rfl : op = .api (.activate a body) := h
  rfl

omit [PyText] in
theorem Releasing.start (a : AgentId) : Releasing a Server.empty where
  confined := Confined.start Request.Releases .empty
  phases k x body hx := by simp [Server.empty] at hx
  guarded k x hx := by simp [Server.empty] at hx

variable {a : AgentId} {m m' : Server}

/-- A commit changes the default under nobody who has the agent's row locked. -/
theorem Releasing.default_locked {x : Action Request} {k : Nat} {d : Option VersionId}
    (hm : Releasing a m) (h : act requestTx m x = some m') (hne : x ≠ .next k)
    (hlock : m.held k (.agent a)) (hd : m.db.reg.default? a = some d) :
    m'.db.reg.default? a = some d := by
  rcases hm.confined.commits h with hdb | ⟨j, r, rfl, ⟨y, point, write, hy, rfl, hst⟩, hwrite⟩
  · rwa [hdb]
  · refine hwrite.others a d (fun body hop => ?_) hd
    have hphase := hm.phases j y body hy hop
    rw [hst] at hphase
    have hkj : some k = some j := hlock.symm.trans hphase.finds.1
    exact hne (by rw [Option.some.inj hkj])

theorem Releasing.step {x : Action Request} (hm : Releasing a m) (h : act requestTx m x = some m')
    (hbegin : ∀ r, x = .begin r → r.Guarded a) : Releasing a m' := by
  have hkeeps : m.db.reg.Keeps m'.db.reg := by
    rcases hm.confined.commits h with hdb | ⟨j, r, -, -, hwrite⟩
    · rw [hdb]
      exact .refl _
    · exact hwrite.keeps
  refine ⟨hm.confined.step requestTx_releases h, fun k x' body hx' hop => ?_, fun k x' hx' => ?_⟩
  · rcases act_session h hx' with ⟨hne, hold, hheld⟩ | ⟨-, hst, -⟩ | ⟨y, p, hy, hsame, hst, hmoved, -⟩
    · rw [hheld]
      refine (hm.phases k x' body hold hop).other hkeeps fun hlock d hd => ?_
      exact hm.default_locked h hne hlock hd
    · rw [hst, requestTx_activate hop]
      exact .start
    · rw [hsame] at hop ⊢
      have hphase := hm.phases k y body hy hop
      rw [hst] at hphase
      exact hphase.moved hmoved
  · rcases act_session h hx' with ⟨-, hold, -⟩ | ⟨hnew, -, -⟩ | ⟨y, p, hy, hsame, -⟩
    · exact hm.guarded k x' hold
    · exact hbegin _ (act_new h hnew hx')
    · rw [hsame]
      exact hm.guarded k y hy

/-- **A step and the default**: it stays, unless the step commits an activation, which
expected it and has released its own. -/
theorem Releasing.default_step {x : Action Request} {d : Option VersionId} (hm : Releasing a m)
    (h : act requestTx m x = some m') (hd : m.db.reg.default? a = some d) :
    (appliedBy a m' x = none ∧ m'.db.reg.default? a = some d) ∨
      ∃ body, appliedBy a m' x = some body ∧ body.expectedCurrentVersionId = d ∧
        m'.db.reg.default? a = some (some body.versionId) := by
  cases x with
  | begin r =>
    cases h
    exact .inl ⟨rfl, hd⟩
  | abort j =>
    obtain ⟨y, -, habort⟩ := Option.bind_eq_some_iff.mp h
    split at habort
    · cases habort
      exact .inl ⟨rfl, hd⟩
    · cases habort
  | next k =>
    obtain ⟨y, hy, hadv⟩ := Option.bind_eq_some_iff.mp h
    obtain ⟨p, status, hst, htxs, hmoved, -⟩ := advance_moved hadv
    have hk : k < m.txs.length := (List.getElem?_eq_some_iff.mp hy).1
    have hend : m'.txs[k]? = some { y with status := status } := by
      rw [htxs, List.getElem?_set_self hk]
    cases hmoved with
    | fail hdb => exact .inl ⟨by simp [appliedBy, hend], by rwa [hdb]⟩
    | stmt hdb => exact .inl ⟨by simp [appliedBy, hend], by rwa [hdb]⟩
    | raise hdb => exact .inl ⟨by simp [appliedBy, hend], by rwa [hdb]⟩
    | abort hdb => exact .inl ⟨by simp [appliedBy, hend], by rwa [hdb]⟩
    | commit hw =>
      have hwrite : y.op.Releases m.db m'.db := hm.confined k y _ hy hst _ _ _ hw
      by_cases hop : ∃ body, y.op.op = .api (.activate a body)
      · obtain ⟨body, hop⟩ := hop
        obtain ⟨ans, hans⟩ := hwrite.applies a body hop
        obtain ⟨hfinds, hreleased, -⟩ := activateOn_default (a := a) hans
        obtain ⟨d₀, hd₀, hexpected⟩ := ActivateRequest.finds_iff.mp hfinds
        obtain rfl := Option.eq_some_unique hd hd₀
        refine .inr ⟨body, ?_, ?_, hreleased⟩
        · obtain ⟨⟨now, op⟩, status₀⟩ := y
          obtain rfl : op = .api (.activate a body) := hop
          simp [appliedBy, hend]
        · rw [ActivateRequest.expected, if_pos (hm.guarded k y hy body hop)] at hexpected
          exact (beq_iff_eq.mp hexpected).symm
      · refine .inl ⟨?_, hwrite.others a d (fun body he => hop ⟨body, he⟩) hd⟩
        obtain ⟨⟨now, op⟩, status₀⟩ := y
        unfold appliedBy
        simp only [hend]
        split
        · rename_i i body ans heq
          have hopeq : op = .api (.activate i body) := by
            have hsession := Option.some.inj heq
            injection hsession with hreq
            injection hreq
          exact if_neg fun hi => hop ⟨body, by rw [← hi, hopeq]⟩
        · rfl

theorem Releasing.run {acts : List (Action Request)} (hrun : Interleaves m acts m')
    (hm : Releasing a m) (hguarded : ∀ r, .begin r ∈ acts → r.Guarded a) :
    Releasing a m' ∧ ∀ d, m.db.reg.default? a = some d →
      ∃ d', m'.db.reg.default? a = some d' ∧ Chained d (applied a m acts) d' := by
  induction hrun with
  | nil m => exact ⟨hm, fun d hd => ⟨d, hd, rfl⟩⟩
  | @cons m m₁ m' x acts hstep _ ih =>
    have hm₁ := hm.step hstep fun r hr => hguarded r (by simp [hr])
    obtain ⟨hlast, hchain⟩ := ih hm₁ fun r hr => hguarded r (by simp [hr])
    refine ⟨hlast, fun d hd => ?_⟩
    have happlied : applied a m (x :: acts) = (appliedBy a m₁ x).toList ++ applied a m₁ acts := by
      rw [applied, hstep]
    rcases hm.default_step hstep hd with ⟨hnone, hd₁⟩ | ⟨body, hsome, hexpected, hd₁⟩
    · obtain ⟨d', hd', hrest⟩ := hchain d hd₁
      rw [happlied, hnone]
      exact ⟨d', hd', hrest⟩
    · obtain ⟨d', hd', hrest⟩ := hchain _ hd₁
      rw [happlied, hsome]
      exact ⟨d', hd', hexpected, hrest⟩

/-- What the activations of an agent promise of a run. -/
structure ActivationsChain (a : AgentId) (m : Server) (acts : List (Action Request)) (m' : Server) :
    Prop where
  chained : ∀ d, m.db.reg.default? a = some d →
    ∃ d', m'.db.reg.default? a = some d' ∧ Chained d (applied a m acts) d'
  /-- An activation that gets past its `UPDATE` applies if it is let commit. -/
  decided : ∀ (k : Nat) x body point write, m'.txs[k]? = some x →
    x.op.op = .api (.activate a body) → x.status = .running (.commit point write) →
      ∃ s ans, write m'.db = .ok (s, ans)
  /-- The steps of the others change nothing. -/
  unapplied : ∀ (k : Nat) m₁ x body, act requestTx m' (.next k) = some m₁ → m₁.txs[k]? = some x →
    x.op.op = .api (.activate a body) → appliedBy a m₁ (.next k) = none → m₁.db = m'.db
  aborted : ∀ (k : Nat) m₁, act requestTx m' (.abort k) = some m₁ → m₁.db = m'.db

/-- **Guarded activations form a chain.** However any number of activations of an agent, all
with `require_expected`, and any other requests interleave, statement by statement and
with any of them rolled back: taken in the order of their commits, each that applies
expected what the one before had released, the last one's version is the default in the
end, and one that does not apply changes nothing. -/
theorem activations_chain {before acts : List (Action Request)} (hbefore : Interleaves .empty before m)
    (hrun : Interleaves m acts m') (hguarded : ∀ r ∈ begun (before ++ acts), r.Guarded a) :
    ActivationsChain a m acts m' := by
  have hbegun : ∀ r, Action.begin r ∈ before ++ acts → r.Guarded a := fun r hr =>
    hguarded r (mem_begun.mpr hr)
  obtain ⟨hm, -⟩ := (Releasing.start a).run hbefore fun r hr => hbegun r (by simp [hr])
  obtain ⟨hm', hchain⟩ := hm.run hrun fun r hr => hbegun r (by simp [hr])
  refine ⟨hchain, fun k x body point write hx hop hst => ?_, fun k m₁ x body hact hx hop hnot => ?_,
    fun k m₁ hact => ?_⟩
  · have hphase := hm'.phases k x body hx hop
    rw [hst] at hphase
    obtain ⟨-, rfl, hfinds, hversion⟩ := hphase.finds
    exact activateOn_returns hfinds hversion
  · rcases act_session hact hx with ⟨hne, -⟩ | ⟨hnew, -⟩ | ⟨y, p, hy, hsame, hst, hmoved, -⟩
    · exact absurd rfl hne
    · cases act_new hact hnew hx
    · obtain ⟨⟨now, op⟩, status⟩ := x
      obtain rfl : op = .api (.activate a body) := hop
      dsimp only at hmoved
      cases hmoved with
      | fail hdb => exact hdb
      | stmt hdb => exact hdb
      | raise hdb => exact hdb
      | abort hdb => exact hdb
      | commit hw => simp [appliedBy, hx] at hnot
  · obtain ⟨y, -, habort⟩ := Option.bind_eq_some_iff.mp hact
    split at habort
    · cases habort
      rfl
    · cases habort

/-- The activation a request is. -/
def Request.activation? (r : Request) : Option (AgentId × ActivateRequest) :=
  match r.op with
  | .api (.activate i body) => some (i, body)
  | _ => none

omit [PyText] in
theorem Request.guarded_iff (a : AgentId) (r : Request) :
    r.Guarded a ↔ r.activation?.all (fun x => x.1 != a || x.2.requireExpected) = true := by
  obtain ⟨now, op⟩ := r
  unfold Request.Guarded Request.activation?
  constructor
  · intro h
    split
    · rename_i i body hop
      by_cases hi : i = a
      · subst hi
        simp [h body hop]
      · simp [hi]
    · rfl
  · intro h body hop
    dsimp only at hop
    subst hop
    simpa using h

instance requestGuarded (a : AgentId) (r : Request) : Decidable (r.Guarded a) :=
  decidable_of_iff _ (r.guarded_iff a).symm

/-- An agent with two versions, none of them released. -/
def twoDrafts : List (Action Request) :=
  agentDrafted ++ .begin ⟨3, .api (.createVersion 2 1 {})⟩ :: steps 3 3

def activating (now : Time) (expected : Option VersionId) (v : VersionId) : Action Request :=
  .begin ⟨now, .api (.activate 1 ⟨v, expected, true⟩)⟩

/-- Two operators release at once, and one of them loses; then the second version is
released after the first, and the first again. -/
def releasedInTurn : List (Action Request) :=
  activating 4 none 1 :: activating 4 none 2 :: steps 4 1 ++ steps 5 1 ++ steps 4 3 ++ steps 5 2 ++
    activating 5 (some 1) 2 :: steps 6 4 ++ activating 6 (some 2) 1 :: steps 7 4

omit [PyText] in
theorem activations_chain_inTurn : ∃ m m', @Interleaves PyText.plain .empty twoDrafts m ∧
    @Interleaves PyText.plain m releasedInTurn m' ∧
    @ActivationsChain PyText.plain 1 m releasedInTurn m' ∧
    (@applied PyText.plain 1 m releasedInTurn).map ActivateRequest.versionId = [1, 2, 1] ∧
    m'.db.reg.default? 1 = some (some 1) := by
  have hend : ((exec (act (@requestTx PyText.plain)) Server.empty twoDrafts).bind fun m =>
      (exec (act (@requestTx PyText.plain)) m releasedInTurn).map fun m' : Server =>
        ((@applied PyText.plain 1 m releasedInTurn).map ActivateRequest.versionId,
          m'.db.reg.default? 1)) = some ([1, 2, 1], some (some 1)) := by
    decide +kernel
  obtain ⟨m, hm, hend⟩ := Option.bind_eq_some_iff.mp hend
  obtain ⟨m', hm', hseen⟩ := Option.map_eq_some_iff.mp hend
  obtain ⟨happlied, hdefault⟩ := Prod.mk.inj hseen
  have hbefore : @Interleaves PyText.plain .empty twoDrafts m := Run.of_exec hm
  have hrun : @Interleaves PyText.plain m releasedInTurn m' := Run.of_exec hm'
  have hguarded : ∀ r ∈ begun (twoDrafts ++ releasedInTurn), r.Guarded 1 := by decide
  exact ⟨m, m', hbefore, hrun, @activations_chain PyText.plain 1 m m' _ _ hbefore hrun hguarded,
    happlied, hdefault⟩

end Runs

end ControlPlane
