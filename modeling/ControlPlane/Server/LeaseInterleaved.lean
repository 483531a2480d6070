import ControlPlane.Lib.Commits
import ControlPlane.Server.LeaseService
import ControlPlane.Server.Pinning

/-! # The lease service, statement by statement

The transactions are programs of statements that others commit between. What a statement
has read of a row it does not hold may be gone by the time its transaction commits; still
every commit, with what it answers, is one the service of fenced leases could have made
in one step. A claim, a cancellation and a sweep of the reaper hold the rows they have
read; an `UPDATE` looks at its row when it commits. -/

namespace ControlPlane
open Keyed Fallible Transactions Runs

variable [PyText]

/-- What the answer of a request tells about a task. -/
def Request.told (r : Request) (a : Answer) (i : TaskId) :
    List (Fenced.Event WorkerId Time State) :=
  match r.op, a with
  | .call op, .reply reply => Call.told ⟨r.now, op⟩ reply i
  | _, _ => []

/-- The service does, in one step or none, what is committed, and answers what is answered. -/
def Request.Leases (r : Request) (s s' : Store) (a : Answer) : Prop :=
  ∀ i, ∃ es, Run LeaseStep (s.db.job? i) es (s'.db.job? i) ∧
    es.filter Fenced.Event.told = r.told a i

/-- The service does what is committed and tells nobody. -/
def Store.Untold (s s' : Store) : Prop :=
  ∀ i, ∃ es, Run LeaseStep (s.db.job? i) es (s'.db.job? i) ∧
    es.filter Fenced.Event.told = []

omit [PyText] in
theorem Store.Untold.of_db {s s' : Store} (h : s'.db = s.db) : s.Untold s' := by
  intro i
  rw [h]
  exact ⟨[], .nil _, rfl⟩

theorem Store.Untold.of_steps {s s' : Store} {c : Call} (hop : c.op.answersJobs = false)
    (h : ∀ i, TaskStep c i (s.db.view i) (s'.db.view i)) : s.Untold s' := fun i =>
  (h i).untold (fun _ ht => Database.row_checked ht) hop

section Programs

variable {governed : Prop} {r : Request} {H : Lock → Prop} {s : Store}

omit [PyText] in
/-- A request that answers about no single job. -/
theorem Store.Untold.leases {s s' : Store} (h : s.Untold s')
    (hr : ∀ op, r.op = .call op → op.answersJobs = false) (a : Answer) : r.Leases s s' a := by
  intro i
  obtain ⟨es, hrun, htold⟩ := h i
  refine ⟨es, hrun, htold.trans ?_⟩
  unfold Request.told
  split
  · rename_i op reply hop
    exact (Call.told_nothing (c := ⟨r.now, op⟩) (hr op hop) reply i).symm
  · rfl

/-- The endpoints submit a task, cancel those of an agent, or leave the tasks alone. -/
theorem Committed.untold {now : Time} {e : Endpoint} {s s' : Store} (h : Committed now s s' e)
    (hsubmit : ∀ newId body env, e ≠ .submit newId body env) : s.Untold s' := by
  cases h with
  | createAgent h => exact .of_db (createAgentOn_ok h).1
  | createVersion h => exact .of_db (createVersionOn_ok h).1
  | activate h => exact .of_db (activateOn_ok h).1
  | disable h =>
    obtain ⟨⟨n, hsweep⟩, -⟩ := disableOn_ok h
    exact .of_steps rfl (writeSweep_ok hsweep).1
  | setRoute h => exact .of_db (setRouteOn_ok h).1
  | createTool h => exact .of_db (createToolOn_ok h).1
  | disableTool h => exact .of_db (setToolStatusOn_ok h).1
  | enableTool h => exact .of_db (setToolStatusOn_ok h).1
  | grant h => exact .of_db (grantToolOn_ok h).1
  | revokeGrant h => exact .of_db (revokeGrantOn_ok h).1
  | submit h => exact absurd rfl (hsubmit _ _ _)

end Programs

/-! ## Interleavings -/

end ControlPlane
