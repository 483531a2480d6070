import ControlPlane.Server.RegistryWrites

/-! # The grants of a released version

Requests served one after another. The two endpoints that change the grants of a
version refuse while it is ACTIVE, but they look at its present status only: once
its agent is disabled the version is DISABLED, and its grants can be changed
again. Outside such requests the grants of a version that has ever been ACTIVE
stay as they are. -/

namespace ControlPlane
open Keyed Fallible Transactions

/-! ## When the two endpoints succeed -/

/-- The version exists and is not ACTIVE. -/
def Store.Unreleased (s : Store) (v : VersionId) : Prop :=
  ∃ version, s.reg.version? v = some version ∧ version.status ≠ .active

/-- What `grant` requires besides. -/
def Store.Grantable (s : Store) (v : VersionId) (t : ToolId) : Prop :=
  ∃ tool, s.reg.tool? t = some tool ∧ s.reg.versionTenant v = some tool.tenantId

/-- What `revoke_grant` requires besides. -/
def Store.Revocable (s : Store) (v : VersionId) (t : ToolId) : Prop :=
  (∃ tool, s.reg.tool? t = some tool) ∧ s.reg.granted v t = true

theorem grantGuardTx_alone {v : VersionId} {t : ToolId} {k : AgentVersion → Tool → Program}
    {s s' : Store} {a : Answer} : (grantGuardTx v t k).alone s = .ok (s', a) ↔
      ∃ version tool, s.reg.version? v = some version ∧ version.status ≠ .active ∧
        s.reg.tool? t = some tool ∧ (k version tool).alone s = .ok (s', a) := by
  unfold grantGuardTx
  rw [Tx.alone_read]
  constructor
  · intro h
    split at h
    · cases h
    rename_i version hv
    split at h
    · cases h
    rename_i hstatus
    rw [Tx.alone_read] at h
    split at h
    · cases h
    rename_i tool ht
    exact ⟨version, tool, hv, hstatus, ht, h⟩
  · intro h
    obtain ⟨version, tool, hv, hstatus, ht, hk⟩ := h
    rw [hv]
    dsimp only
    rw [if_neg hstatus, Tx.alone_read, ht]
    exact hk

theorem grantToolOn_returns {now : Time} {v : VersionId} {tool : Tool} {s : Store}
    (hv : (s.reg.version? v).isSome = true) (ht : (s.reg.tool? tool.id).isSome = true) :
    ∃ s' a, grantToolOn now v tool s = .ok (s', a) := by
  obtain ⟨reg, hreg⟩ := insertGrant_returns (g := ⟨v, tool.id, now⟩) hv ht
  unfold grantToolOn grantTool
  rw [hreg]
  exact ⟨_, _, rfl⟩

/-- **A grant succeeds** on a version that is not ACTIVE, for a tool of its tenant. -/
theorem grantTx_returns_iff {now : Time} {v : VersionId} {t : ToolId} {s : Store} :
    (∃ s' a, (grantTx now v t).alone s = .ok (s', a)) ↔ s.Unreleased v ∧ s.Grantable v t := by
  constructor
  · intro h
    obtain ⟨s', a, h⟩ := h
    obtain ⟨version, tool, hv, hstatus, ht, hk⟩ := grantGuardTx_alone.mp h
    rw [Tx.alone_read] at hk
    split at hk
    · cases hk
    rename_i agent hagent
    split at hk
    · cases hk
    rename_i htenant
    refine ⟨⟨version, hv, hstatus⟩, tool, ht, ?_⟩
    unfold Registry.versionTenant Registry.versionAgent Registry.agentTenant
    rw [hv, Option.map_some, Option.bind_some, hagent, Option.map_some, not_not.mp htenant]
  · intro h
    obtain ⟨⟨version, hv, hstatus⟩, tool, ht, htenant⟩ := h
    obtain ⟨i, hi, htenant⟩ := Option.bind_eq_some_iff.mp htenant
    obtain ⟨w, hw, rfl⟩ := Option.map_eq_some_iff.mp hi
    obtain rfl : w = version := Option.eq_some_unique hw hv
    obtain ⟨agent, hagent, htenant⟩ := Option.map_eq_some_iff.mp htenant
    have htid : tool.id = t := Table.key_of_find? ht
    have hwrite : ∃ s' a, grantToolOn now v tool s = .ok (s', a) :=
      grantToolOn_returns (by rw [hv]; rfl) (by rw [htid, ht]; rfl)
    obtain ⟨s', a, hgrant⟩ := hwrite
    refine ⟨s', a, grantGuardTx_alone.mpr ⟨w, tool, hv, hstatus, ht, ?_⟩⟩
    rw [Tx.alone_read, hagent]
    dsimp only
    rw [if_neg (not_not.mpr htenant)]
    exact hgrant

theorem revokeGrant_removed (reg : Registry) (v : VersionId) (t : ToolId) :
    (revokeGrant reg v t).2 = reg.granted v t := by
  have hcount : (0 < (reg.grants.rows.filter fun g =>
      g.agentVersionId == v && g.toolId == t).length) ↔ reg.granted v t = true := by
    unfold Registry.granted
    rw [List.length_pos_iff_exists_mem, Option.isSome_iff_exists]
    simp only [List.mem_filter, Bool.and_eq_true, beq_iff_eq, Table.find?_eq_some, ToolGrant.key,
      Prod.mk.injEq]
  show decide (0 < _) = _
  rw [Bool.eq_iff_iff, decide_eq_true_iff]
  exact hcount

/-- **A revocation succeeds** on a version that is not ACTIVE, for a grant it has. -/
theorem revokeGrantTx_returns_iff {v : VersionId} {t : ToolId} {s : Store} :
    (∃ s' a, (revokeGrantTx v t).alone s = .ok (s', a)) ↔ s.Unreleased v ∧ s.Revocable v t := by
  constructor
  · intro h
    obtain ⟨s', a, h⟩ := h
    obtain ⟨version, tool, hv, hstatus, ht, hk⟩ := grantGuardTx_alone.mp h
    have htid : tool.id = t := Table.key_of_find? ht
    rw [Tx.alone_commit, revokeGrantOn, htid] at hk
    have hremoved := revokeGrant_removed s.reg v t
    split at hk
    · cases hk
    · rename_i reg hrevoke
      rw [hrevoke] at hremoved
      exact ⟨⟨version, hv, hstatus⟩, ⟨tool, ht⟩, hremoved.symm⟩
  · intro h
    obtain ⟨⟨version, hv, hstatus⟩, ⟨tool, ht⟩, hgranted⟩ := h
    have htid : tool.id = t := Table.key_of_find? ht
    have hremoved := revokeGrant_removed s.reg v t
    cases hrevoke : revokeGrant s.reg v t with
    | mk reg removed =>
      rw [hrevoke] at hremoved
      obtain rfl : removed = true := hremoved.trans hgranted
      have hrevoked : revokeGrantOn v tool s = .ok (recordAudit { s with reg := reg }
          (grantAudit "TOOL_GRANT_REVOKED" v tool), .done) := by
        rw [revokeGrantOn, htid, hrevoke]
      exact ⟨_, _, grantGuardTx_alone.mpr ⟨version, tool, hv, hstatus, ht, hrevoked⟩⟩

/-! ## Requests one after another -/

variable [PyText]

/-- The request is served without an error. -/
def Succeeds (s : Store) (r : Request) : Prop := ∃ s' a, (requestTx r).alone s = .ok (s', a)

/-- What a request leaves: what it commits, or nothing. -/
def serve (s : Store) (r : Request) : Store :=
  match (requestTx r).alone s with
  | .ok (s', _) => s'
  | .error _ => s

/-- The store after a sequence of requests from the empty one. -/
def served (rs : List Request) : Store := rs.foldl serve .empty

theorem served_snoc (rs : List Request) (r : Request) : served (rs ++ [r]) = serve (served rs) r := by
  unfold served
  rw [List.foldl_append]
  rfl

/-- The request changes the grants of the version, if it changes anything. -/
def Request.regrants (r : Request) (v : VersionId) : Prop := ∃ e, r.op = .api e ∧ e.regrants v

def Store.active (s : Store) (v : VersionId) : Prop :=
  (s.reg.version? v).map AgentVersion.status = some .active

/-- The version has been ACTIVE after some of these requests. -/
def Released (rs : List Request) (v : VersionId) : Prop := ∃ xs, xs <+: rs ∧ (served xs).active v

/-- **The law of released versions**: from when a version has been ACTIVE its
grants stay as they are, and the requests that would change them fail. -/
structure GrantsFrozen (rs : List Request) : Prop where
  kept : ∀ xs ys v, xs ++ ys <+: rs → Released xs v →
    ∀ t, (served (xs ++ ys)).reg.granted v t = (served xs).reg.granted v t
  refused : ∀ xs r v, xs ++ [r] <+: rs → Released xs v → r.regrants v → ¬ Succeeds (served xs) r

/-- A request about the grants of a version that has been ACTIVE and no longer
is, with nothing else in its way. -/
def Reopens (xs : List Request) (r : Request) : Prop :=
  ∃ v t, Released xs v ∧ (served xs).Unreleased v ∧
    (r.op = .api (.grant v t) ∧ (served xs).Grantable v t ∨
      r.op = .api (.revokeGrant v t) ∧ (served xs).Revocable v t)

theorem Released.append {xs : List Request} {v : VersionId} (h : Released xs v) (ys : List Request) :
    Released (xs ++ ys) v := by
  obtain ⟨ws, hws, hactive⟩ := h
  exact ⟨ws, hws.trans (List.prefix_append ..), hactive⟩

theorem requestTx_writes (r : Request) :
    (requestTx r).Writes fun s s' => ∀ v, ¬ r.regrants v → ∀ t,
      s'.reg.granted v t = s.reg.granted v t := by
  obtain ⟨now, op⟩ := r
  cases op with
  | api e =>
    refine (endpointTx_writes now e).mono fun h v hv => h.grants v fun he => hv ⟨e, rfl, he⟩
  | call op =>
    refine (callTx_writes ⟨now, op⟩).mono fun h v _ t => ?_
    rw [h.1]

/-- A request that is not about the grants of a version, or fails, leaves them. -/
theorem serve_granted {s : Store} {r : Request} {v : VersionId}
    (h : ¬ (r.regrants v ∧ Succeeds s r)) (t : ToolId) :
    (serve s r).reg.granted v t = s.reg.granted v t := by
  unfold serve
  split
  · rename_i s' a hok
    exact (requestTx_writes r).alone hok v (fun hr => h ⟨hr, s', a, hok⟩) t
  · rfl

/-- A request about the grants of a released version succeeds by reopening it. -/
theorem reopens_iff {xs : List Request} {r : Request} {v : VersionId} (hv : Released xs v)
    (hr : r.regrants v) (hs : Succeeds (served xs) r) : Reopens xs r := by
  obtain ⟨now, op⟩ := r
  obtain ⟨e, rfl, t, rfl | rfl⟩ := hr
  · obtain ⟨hun, hgrant⟩ := grantTx_returns_iff.mp hs
    exact ⟨v, t, hv, hun, Or.inl ⟨rfl, hgrant⟩⟩
  · obtain ⟨hun, hrevoke⟩ := revokeGrantTx_returns_iff.mp hs
    exact ⟨v, t, hv, hun, Or.inr ⟨rfl, hrevoke⟩⟩

theorem Reopens.succeeds {xs : List Request} {r : Request} (h : Reopens xs r) :
    ∃ v, Released xs v ∧ r.regrants v ∧ Succeeds (served xs) r := by
  obtain ⟨now, op⟩ := r
  obtain ⟨v, t, hv, hun, ⟨rfl, hgrant⟩ | ⟨rfl, hrevoke⟩⟩ := h
  · exact ⟨v, hv, ⟨_, rfl, t, Or.inl rfl⟩, grantTx_returns_iff.mpr ⟨hun, hgrant⟩⟩
  · exact ⟨v, hv, ⟨_, rfl, t, Or.inr rfl⟩, revokeGrantTx_returns_iff.mpr ⟨hun, hrevoke⟩⟩

/-- **Released versions are frozen exactly where none is reopened.** In a
sequence of requests the grants of every version that has been ACTIVE stay and
requests to change them fail, if and only if no request grants or revokes a tool
of a version that has been ACTIVE and is DISABLED by then. -/
theorem grants_frozen_iff (rs : List Request) :
    GrantsFrozen rs ↔ ∀ xs r, xs ++ [r] <+: rs → ¬ Reopens xs r := by
  constructor
  · intro h xs r hpre hre
    obtain ⟨v, hv, hr, hs⟩ := hre.succeeds
    exact h.refused xs r v hpre hv hr hs
  · intro h
    have hrefused : ∀ xs r v, xs ++ [r] <+: rs → Released xs v → r.regrants v →
        ¬ Succeeds (served xs) r := fun xs r v hpre hv hr hs => h xs r hpre (reopens_iff hv hr hs)
    refine ⟨fun xs ys v hpre hv t => ?_, hrefused⟩
    induction ys using List.reverseRecOn with
    | nil => rw [List.append_nil]
    | append_singleton ys r ih =>
      rw [← List.append_assoc] at hpre ⊢
      have hkept := ih ((List.prefix_append ..).trans hpre)
      rw [served_snoc, serve_granted (fun hr => hrefused (xs ++ ys) r v hpre (hv.append ys) hr.1 hr.2) t]
      exact hkept

/-- A version is released, its agent disabled, and then a tool granted to it. -/
def releasedThenDisabled : List Request :=
  [⟨0, .call (.createTenant 1 "acme" 10 1000)⟩, ⟨1, .api (.createAgent 1 1 "summarizer" none)⟩,
    ⟨2, .api (.createVersion 1 1 {})⟩, ⟨3, .api (.createTool 1 { tenantId := 1, name := "search" })⟩,
    ⟨4, .api (.activate 1 { versionId := 1 })⟩, ⟨5, .api (.disable 1 {})⟩]

omit [PyText] in
/-- The grant goes through, and the version that was ACTIVE has a tool it had not. -/
theorem grants_not_frozen :
    ¬ @GrantsFrozen PyText.plain (releasedThenDisabled ++ [⟨6, .api (.grant 1 1)⟩]) := by
  intro h
  have hactive : (@served PyText.plain (releasedThenDisabled.take 5)).active 1 := by
    unfold Store.active
    decide +kernel
  have hkept := @GrantsFrozen.kept PyText.plain _ h (releasedThenDisabled.take 5)
    (releasedThenDisabled.drop 5 ++ [⟨6, .api (.grant 1 1)⟩]) 1 (by simp [releasedThenDisabled])
    ⟨_, List.prefix_rfl, hactive⟩ 1
  have hafter : (@served PyText.plain (releasedThenDisabled.take 5 ++
      (releasedThenDisabled.drop 5 ++ [⟨6, .api (.grant 1 1)⟩]))).reg.granted 1 1 = true := by
    decide +kernel
  have hbefore : (@served PyText.plain (releasedThenDisabled.take 5)).reg.granted 1 1 = false := by
    decide +kernel
  rw [hafter, hbefore] at hkept
  cases hkept

end ControlPlane
