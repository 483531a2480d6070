import ControlPlane.Server.Pinning

/-! # The numbers of an agent's versions

A new version takes the number after the highest one of its agent. That number is
read under the lock of the agent's row, which is held until the version is
committed or rolled back, so the highest number is still the highest when it is
used: the numbers of each agent are `1 … n` in every state, and the unique
constraint on them, which is there as a backstop, never fires. -/

namespace ControlPlane
open Keyed Fallible Transactions Runs

/-! ## Dense numbers -/

namespace Registry

/-- The numbers of the agent's versions. -/
def versionNumbers (reg : Registry) (a : AgentId) : List Int :=
  (reg.versions.rows.filter fun v => v.agentId == a).map AgentVersion.version

def Numbered (reg : Registry) (a : AgentId) (k : Int) : Prop := k ∈ reg.versionNumbers a

/-- `1 … n`. -/
def firstNumbers (n : Nat) : List Int := (List.range n).map fun k : Nat => (k : Int) + 1

/-- Each agent's numbers start at 1 and have no gap. -/
def Dense (reg : Registry) : Prop :=
  ∀ a, ∃ n : Nat, ∀ k, reg.Numbered a k ↔ 1 ≤ k ∧ k ≤ n

variable {reg reg' : Registry} {a : AgentId}

theorem numbered_iff {k : Int} :
    reg.Numbered a k ↔ ∃ v w, reg.version? v = some w ∧ w.agentId = a ∧ w.version = k := by
  unfold Numbered versionNumbers
  simp only [List.mem_map, List.mem_filter, beq_iff_eq]
  constructor
  · intro h
    obtain ⟨w, ⟨hw, ha⟩, hk⟩ := h
    exact ⟨w.id, w, Table.find?_key hw, ha, hk⟩
  · intro h
    obtain ⟨v, w, hw, ha, hk⟩ := h
    exact ⟨w, ⟨Table.mem_of_find? hw, ha⟩, hk⟩

theorem versionNumbers_nodup (reg : Registry) (a : AgentId) : (reg.versionNumbers a).Nodup := by
  refine (reg.versions.rows_nodup.filter _).map_on fun v hv w hw he => ?_
  simp only [List.mem_filter, beq_iff_eq] at hv hw
  exact reg.versions_number.eq hv.1 hw.1 (Prod.ext (hv.2.trans hw.2.symm) he)

theorem mem_firstNumbers {n : Nat} {k : Int} : k ∈ firstNumbers n ↔ 1 ≤ k ∧ k ≤ n := by
  unfold firstNumbers
  simp only [List.mem_map, List.mem_range]
  constructor
  · intro h
    obtain ⟨j, hj, rfl⟩ := h
    omega
  · intro h
    exact ⟨(k - 1).toNat, by omega, by omega⟩

theorem firstNumbers_nodup (n : Nat) : (firstNumbers n).Nodup := by
  refine List.nodup_range.map fun i j h => ?_
  omega

/-- Without a gap, and without a duplicate. -/
theorem Dense.perm (h : reg.Dense) (a : AgentId) :
    ∃ n, (reg.versionNumbers a).Perm (firstNumbers n) := by
  obtain ⟨n, hn⟩ := h a
  refine ⟨n, (List.perm_ext_iff_of_nodup (reg.versionNumbers_nodup a) (firstNumbers_nodup n)).mpr
    fun k => ?_⟩
  rw [mem_firstNumbers]
  exact hn k

theorem foldl_max_firstNumbers (n : Nat) : (firstNumbers n).foldl max 0 = n := by
  induction n with
  | zero => rfl
  | succ n ih =>
    unfold firstNumbers at ih ⊢
    rw [List.range_succ, List.map_append, List.foldl_append, ih]
    simp only [List.map_cons, List.map_nil, List.foldl_cons, List.foldl_nil]
    omega

/-- The next number is the first one that is free. -/
theorem Dense.nextVersion (h : reg.Dense) (a : AgentId) :
    ∃ n : Nat, nextVersion reg a = n + 1 ∧ ∀ k, reg.Numbered a k ↔ 1 ≤ k ∧ k ≤ n := by
  obtain ⟨n, hperm⟩ := h.perm a
  refine ⟨n, ?_, fun k => ?_⟩
  · show (reg.versionNumbers a).foldl max 0 + 1 = n + 1
    rw [hperm.foldl_eq, foldl_max_firstNumbers]
  · unfold Numbered
    rw [hperm.mem_iff, mem_firstNumbers]

theorem Dense.of_numbered (h : reg.Dense)
    (hn : ∀ a k, reg'.Numbered a k ↔ reg.Numbered a k) : reg'.Dense := by
  intro a
  obtain ⟨n, hk⟩ := h a
  exact ⟨n, fun k => (hn a k).trans (hk k)⟩

theorem dense_empty : Registry.empty.Dense := by
  intro a
  refine ⟨0, fun k => ?_⟩
  unfold Numbered versionNumbers Registry.empty
  simp [Table.empty]
  omega

end Registry

/-! ## What a commit does to the numbers -/

section

variable {numbered : AgentId → Prop} {regranted : VersionId → Prop} {reg reg' : Registry}

/-- Nothing is renumbered, and only these agents get versions. -/
theorem RegistryWrite.renumbers (h : RegistryWrite numbered regranted reg reg') {a : AgentId}
    (ha : ¬ numbered a) (k : Int) : reg'.Numbered a k ↔ reg.Numbered a k := by
  have hkept : ∀ v w, reg.version? v = some w →
      ∃ w', reg'.version? v = some w' ∧ w'.agentId = w.agentId ∧ w'.version = w.version := by
    intro v w hw
    obtain ⟨w', hw', hf⟩ := Option.map_eq_some_iff.mp (h.keeps.version (v := v) (by rw [hw]; rfl))
    exact ⟨w', hw', congrArg AgentVersion.Fixed.agentId hf, congrArg AgentVersion.Fixed.version hf⟩
  simp only [Registry.numbered_iff]
  constructor
  · intro hn
    obtain ⟨v, w', hw', hagent, hk⟩ := hn
    cases hold : reg.version? v with
    | none => exact absurd (hagent ▸ h.versions v w' hw' hold) ha
    | some w =>
      obtain ⟨u, hu, hua, hun⟩ := hkept v w hold
      obtain rfl := Option.eq_some_unique hu hw'
      exact ⟨v, w, hold, hua.symm.trans hagent, hun.symm.trans hk⟩
  · intro hn
    obtain ⟨v, w, hw, hagent, hk⟩ := hn
    obtain ⟨w', hw', hwa, hwn⟩ := hkept v w hw
    exact ⟨v, w', hw', hwa.trans hagent, hwn.trans hk⟩

/-- A new version adds its number to those of its agent. -/
theorem createVersion_numbered {row row' : AgentVersion}
    (h : createVersion reg row = .ok (reg', row')) (k : Int) :
    reg'.Numbered row.agentId k ↔ reg.Numbered row.agentId k ∨ k = row.version := by
  unfold createVersion at h
  obtain ⟨reg₁, hins, he⟩ := map_ok h
  cases he
  have hrows := Table.insert?_rows (insertVersion_ok hins).1
  unfold Registry.Numbered Registry.versionNumbers
  rw [hrows, List.filter_append, List.map_append, List.mem_append]
  simp

end

/-- What the unique constraint on the numbers raises. -/
def numberTaken : Failure :=
  .registry (.integrity (.uniqueViolation "uq_agent_versions_agent_version"))

/-- The constraint raises only when the number is taken. -/
theorem createVersionOn_taken {now : Time} {newId : VersionId} {a : AgentId} {n : Int}
    {body : VersionCreate} {s : Store}
    (h : createVersionOn now newId a n body s = .error numberTaken) : s.reg.Numbered a n := by
  have hins : ∀ row : AgentVersion, s.reg.insertVersion row =
      .error (.integrity (.uniqueViolation "uq_agent_versions_agent_version")) →
      s.reg.Numbered row.agentId row.version := by
    intro row hrow
    unfold Registry.insertVersion at hrow
    split at hrow
    · cases hrow
    split at hrow
    · rename_i hn
      obtain ⟨w, hw, he⟩ := hn
      refine Registry.numbered_iff.mpr ⟨w.id, w, Table.find?_key hw, ?_, ?_⟩
      · exact congrArg Prod.fst he
      · exact congrArg Prod.snd he
    split at hrow
    · split at hrow <;> simp at hrow
    · simp at hrow
  unfold createVersionOn createVersion numberTaken at h
  cases hrow : s.reg.insertVersion
    { id := newId, agentId := a, version := n, runtimeSpec := body.runtimeSpec,
      requiredCapabilities := body.requiredCapabilities, config := body.config,
      maxAttempts := body.maxAttempts, maxExecutionTimeS := body.maxExecutionTimeS,
      createdAt := now } with
  | ok reg => rw [hrow] at h; cases h
  | error e =>
    rw [hrow] at h
    cases h
    exact hins _ hrow

/-! ## Every interleaving -/

/-- The request creates a version. -/
def Request.creates (r : Request) : Prop := ∃ newId a body, r.op = .api (.createVersion newId a body)

/-- **The discipline of the numbers**: dense in every state, those of an agent
changed only under its lock, and the constraint never what a creation raises. -/
def numbering : Discipline Store Lock Failure Answer Request where
  inv s := s.reg.Dense
  guar H s s' := ∀ a, ¬ H (.agent a) → ∀ k, s'.reg.Numbered a k ↔ s.reg.Numbered a k
  post r res _ := r.creates → res ≠ .error numberTaken
  stable h _ _ := h

/-- Under the agent's lock the others leave its numbers alone. -/
theorem numbering_rely {H : Lock → Prop} {s s' : Store} {a : AgentId}
    (h : numbering.Rely H s s') (ha : H (.agent a)) (k : Int) :
    s'.reg.Numbered a k ↔ s.reg.Numbered a k := by
  refine numbering.rely_keeps (P := fun u => u.reg.Numbered a k ↔ s.reg.Numbered a k) ?_ h Iff.rfl
  intro u u' hu hstep
  obtain ⟨H', hfree, hguar, -⟩ := hstep
  exact (hguar a (hfree _ ha) k).trans hu

/-- The number that was read is still free when it is used, and still the next. -/
theorem createVersionTx_numbering {r : Request} {now : Time} {newId : VersionId} {a : AgentId}
    {body : VersionCreate} {H : Lock → Prop} {s : Store} :
    numbering.Ok r (createVersionTx now newId a body) H s := by
  intro s₁ other _ _ _ _ _
  dsimp only
  split
  · intro s' _ _ _ he
    cases he
  rename_i agent hagent
  intro s₂ other₂ _ hdense _ _ _ s₃ hrel hinv
  have hlock : H (.agent a) ∨ Lock.agent a ∈ (if (s₁.reg.agent? a).isSome = true then
      [Lock.agent a] else []) := by
    rw [hagent]
    exact Or.inr (List.mem_singleton_self _)
  obtain ⟨n, hnext, hn⟩ := hdense.nextVersion a
  have hstill : ∀ k, s₃.reg.Numbered a k ↔ 1 ≤ k ∧ k ≤ n := fun k =>
    (numbering_rely hrel (Or.inl hlock) k).trans (hn k)
  rw [hnext]
  constructor
  · intro s₄ ans hw
    have hwrite := (createVersionOn_ok hw).2.1
    have hadded : ∀ k, s₄.reg.Numbered a k ↔ s₃.reg.Numbered a k ∨ k = n + 1 := by
      unfold createVersionOn at hw
      obtain ⟨⟨reg, row⟩, hins, hw⟩ := bind_ok.mp hw
      obtain ⟨rfl, -⟩ := Prod.mk.inj (pure_ok.mp hw)
      exact createVersion_numbered (mapError_ok.mp hins)
    have hothers : ∀ b, b ≠ a → ∀ k, s₄.reg.Numbered b k ↔ s₃.reg.Numbered b k := fun b hb k =>
      hwrite.renumbers hb k
    refine ⟨fun b => ?_, fun b hb k => ?_, fun _ he => by cases he⟩
    · by_cases hba : b = a
      · subst hba
        refine ⟨n + 1, fun k => ?_⟩
        rw [hadded, hstill]
        omega
      · obtain ⟨j, hj⟩ := hinv b
        exact ⟨j, fun k => (hothers b hba k).trans (hj k)⟩
    · refine hothers b ?_ k
      rintro rfl
      exact hb (Or.inl hlock)
  · intro e hw _ he
    obtain rfl := Except.error.inj he
    have htaken := (hstill _).mp (createVersionOn_taken hw)
    omega

variable [PyText]

/-- Every request keeps to the discipline; all but the creations of versions
whatever locks they hold. -/
theorem requestTx_numbering (r : Request) {s : Store} :
    numbering.Ok r (requestTx r) (fun _ => False) s := by
  have hkept : ∀ {p : Program} {R : Store → Store → Prop}, ¬ r.creates → p.Writes R →
      (∀ {s s'}, R s s' → ∀ a k, s'.reg.Numbered a k ↔ s.reg.Numbered a k) →
      numbering.Ok r p (fun _ => False) s := by
    intro p R hr hp hR
    refine .of_writes (fun res s h => absurd h hr) (fun H hinv hw => ?_) hp
    exact ⟨hinv.of_numbered (hR hw), fun a _ k => hR hw a k⟩
  unfold requestTx
  split
  · rename_i e hop
    cases e with
    | createVersion newId a body => exact createVersionTx_numbering
    | _ =>
      refine hkept ?_ (endpointTx_writes r.now _) fun h a k => h.renumbers ?_ k
      · intro hr
        obtain ⟨newId, a, body, hc⟩ := hr
        rw [hop] at hc
        cases hc
      · intro hn
        obtain ⟨newId, body, hc⟩ := hn
        cases hc
  · rename_i op hop
    refine hkept ?_ (callTx_writes ⟨r.now, op⟩) fun h a k => by rw [h.1]
    intro hr
    obtain ⟨newId, a, body, hc⟩ := hr
    rw [hop] at hc
    cases hc

/-- **Version numbers are dense**: in every state of every interleaving of the
statements of requests, with rollbacks anywhere, the numbers of each agent are
`1 … n`, each once, and no creation has ended on the constraint. -/
theorem version_numbers_dense {m : Server} {acts : List (Action Request)}
    (hrun : Interleaves .empty acts m) :
    (∀ a, ∃ n, (m.db.reg.versionNumbers a).Perm (Registry.firstNumbers n)) ∧
      ∀ x ∈ m.txs, x.op.creates → ∀ e, x.status = .done (.error e) → e ≠ numberTaken := by
  have hstart : Discipline.Sound numbering Server.empty := .start Registry.dense_empty
  have hsound := (Discipline.sound_run hrun hstart fun r _ s _ => requestTx_numbering r).1
  refine ⟨hsound.inv.perm, fun x hx hcreates e hst he => ?_⟩
  obtain ⟨k, hk⟩ := List.getElem?_of_mem hx
  exact hsound.done k x _ hk hst hcreates (he ▸ rfl)

/-- Three creations for one agent: the second waits for the first, which is
rolled back, and the third is begun before the second has read the highest number. -/
def creationsMeeting : List (Action Request) :=
  .begin ⟨0, .call (.createTenant 1 "acme" 10 1000)⟩ :: steps 0 1 ++
  .begin ⟨1, .api (.createAgent 1 1 "summarizer" none)⟩ :: steps 1 2 ++
  .begin ⟨2, .api (.createVersion 1 1 {})⟩ :: steps 2 2 ++
  [.begin ⟨3, .api (.createVersion 2 1 {})⟩, .abort 2] ++ steps 3 1 ++
  .begin ⟨4, .api (.createVersion 3 1 {})⟩ :: steps 3 2 ++ steps 4 3 ++
  .begin ⟨5, .api (.activate 1 { versionId := 3 })⟩ :: steps 5 4

omit [PyText] in
theorem version_numbers_dense_meeting :
    ∃ m, @Interleaves PyText.plain .empty creationsMeeting m ∧
      m.db.reg.versions.rows.map (fun v => (v.id, v.version)) = [(2, 1), (3, 2)] ∧
      (∀ a, ∃ n, (m.db.reg.versionNumbers a).Perm (Registry.firstNumbers n)) ∧
      ∀ x ∈ m.txs, x.op.creates → ∀ e, x.status = .done (.error e) → e ≠ numberTaken := by
  have hend : (exec (act (@requestTx PyText.plain)) Server.empty creationsMeeting).map
      (fun m : Server => m.db.reg.versions.rows.map fun v => (v.id, v.version)) =
      some [(2, 1), (3, 2)] := by decide +kernel
  obtain ⟨m, hm, hrows⟩ := Option.map_eq_some_iff.mp hend
  have hrun : @Interleaves PyText.plain .empty creationsMeeting m := Run.of_exec hm
  exact ⟨m, hrun, hrows, @version_numbers_dense PyText.plain m _ hrun⟩

end ControlPlane
