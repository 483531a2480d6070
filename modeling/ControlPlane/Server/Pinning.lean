import ControlPlane.Server.Interleaving

/-! # Tenant isolation and pinning

Six tables refer to one another across tenants, and five endpoints each check the
one edge they write, in an earlier statement than the write. The checks suffice:
nothing a check has read can change before the commit, because the columns that
identify a row never do, those of a version by the trigger of its table; so the
columns a task has copied from its version stay equal to them. -/

namespace ControlPlane
open Keyed Fallible Transactions Runs

/-- **Tenant isolation and pinning integrity** of what is committed. -/
structure Store.Isolated [PyText] (s : Store) : Prop where
  routes : ∀ r ∈ s.reg.routes.rows, s.reg.agentTenant r.agentId = some r.tenantId
  defaults : ∀ a ∈ s.reg.agents.rows, ∀ v, a.defaultVersionId = some v →
    s.reg.versionAgent v = some a.id
  grants : ∀ g ∈ s.reg.grants.rows, ∃ tn, s.reg.versionTenant g.agentVersionId = some tn ∧
    s.reg.toolTenant g.toolId = some tn
  tasks : ∀ t ∈ s.db.tasks.rows, ∀ v, t.agentVersionId = some v → ∃ w, s.reg.version? v = some w ∧
    s.reg.agentTenant w.agentId = some t.tenantId ∧
    t.requiredCapabilities = w.requiredCapabilities ∧ t.maxAttempts = w.maxAttempts ∧
    t.maxExecutionTimeS = w.maxExecutionTimeS
  keys : ∀ t ∈ s.db.tasks.rows, t.capabilityKey = capabilityKey t.requiredCapabilities

theorem Store.Integrity.isolated [PyText] {s : Store} (h : s.Integrity True) : s.Isolated where
  routes := h.registry.routes
  defaults := h.registry.defaults
  grants := h.registry.grants
  tasks t ht := (h.tasks trivial t.id t (Table.find?_key ht)).2
  keys t ht := (h.tasks trivial t.id t (Table.find?_key ht)).1

/-- **Every reachable state is isolated**, whatever the order in which the
statements of the requests were executed. -/
theorem reachable_isolated [PyText] {m : Server} {acts : List (Action Request)}
    (hrun : Interleaves .empty acts m)
    (hbegun : ∀ r, .begin r ∈ acts → r.Standalone ∧ r.Governed) : m.db.Isolated := by
  have hsound : Discipline.Sound (discipline True) m :=
    (requests_sound hrun empty_sound (fun r hr => (hbegun r hr).1) fun _ r hr => (hbegun r hr).2).1
  exact Store.Integrity.isolated hsound.inv

/-- The statements of one transaction, until it ends. -/
def steps (k n : Nat) : List (Action Request) := List.replicate n (.next k)

/-- A submission resolves its route; before it inserts, another version of the
agent is created and activated. -/
def submissionOvertaken : List (Action Request) :=
  .begin ⟨0, .call (.createTenant 1 "acme" 10 1000)⟩ :: steps 0 1 ++
  .begin ⟨1, .api (.createAgent 1 1 "summarizer" none)⟩ :: steps 1 2 ++
  .begin ⟨2, .api (.createVersion 1 1 { maxAttempts := 5 })⟩ :: steps 2 3 ++
  .begin ⟨3, .api (.activate 1 { versionId := 1 })⟩ :: steps 3 4 ++
  .begin ⟨4, .api (.setRoute 1 "summarize" 1)⟩ :: steps 4 2 ++
  .begin ⟨5, .api (.submit 1 { tenantId := 1, target := .routed "summarize" }
    { globalQueueShedThreshold := 100 })⟩ :: steps 5 3 ++
  .begin ⟨6, .api (.createVersion 2 1 { maxAttempts := 2 })⟩ :: steps 6 3 ++
  .begin ⟨7, .api (.activate 1 { versionId := 2 })⟩ :: steps 7 4 ++ steps 5 2

theorem reachable_isolated_submissionOvertaken :
    ∃ m, @Interleaves PyText.plain .empty submissionOvertaken m ∧ @Store.Isolated PyText.plain m.db ∧
      ((m.db.db.task? 1).map fun t => (t.agentVersionId, t.maxAttempts)) = some (some 1, 5) ∧
      (m.db.reg.agent? 1).map Agent.defaultVersionId = some (some 2) := by
  have hend : (exec (act (@requestTx PyText.plain)) Server.empty submissionOvertaken).map (fun m =>
      ((m.db.db.task? 1).map fun t => (t.agentVersionId, t.maxAttempts),
        (m.db.reg.agent? 1).map Agent.defaultVersionId)) =
      some (some (some 1, 5), some (some 2)) := by decide +kernel
  obtain ⟨m, hm, hpinned⟩ := Option.map_eq_some_iff.mp hend
  obtain ⟨htask, hagent⟩ := Prod.mk.inj hpinned
  have hrun : @Interleaves PyText.plain .empty submissionOvertaken m := Run.of_exec hm
  have hbegun : ∀ r ∈ begun submissionOvertaken, r.Standalone ∧ r.Governed := by
    decide
  exact ⟨m, hrun, @reachable_isolated PyText.plain m _ hrun fun r hr =>
    hbegun r (mem_begun.mpr hr), htask, hagent⟩

end ControlPlane
