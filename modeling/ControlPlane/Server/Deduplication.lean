import ControlPlane.Server.CallDiscipline
import ControlPlane.Server.History

/-! # Deduplicated submissions

A repeat under a key is answered with the row that the first submission under it has
inserted. The row keeps what it was submitted with, the payload as JSONB gives it back,
whatever has been done to the task since; of that, the comparison looks at the payload
only. -/

namespace ControlPlane
open Keyed Fallible Runs

/-- Two requests ask for the same kind of work on the same terms. -/
structure SubmitArgs.SameSettings (args first : SubmitArgs) : Prop where
  taskType : first.taskType = args.taskType
  priority : first.priority = args.priority
  maxAttempts : first.maxAttempts = args.maxAttempts
  maxExecutionTimeS : first.maxExecutionTimeS = args.maxExecutionTimeS

def SubmitArgs.SamePayload (args first : SubmitArgs) : Prop :=
  Json.pyEq (.obj (withoutTrace first.payload)) (.obj (withoutTrace args.payload)) = true

/-- Two requests ask for the same task, `_trace` aside. -/
structure SubmitArgs.Agrees (args first : SubmitArgs) : Prop extends args.SameSettings first where
  payload : args.SamePayload first

/-- What a stored row was asked for. -/
def Task.asked (t : Task) : SubmitArgs where
  tenantId := t.tenantId
  taskType := t.taskType
  payload := t.payload
  idempotencyKey := t.idempotencyKey
  priority := t.priority
  maxAttempts := t.maxAttempts
  maxExecutionTimeS := t.maxExecutionTimeS
  agentVersionId := t.agentVersionId
  requiredCapabilities := t.requiredCapabilities

/-- What the row of a request was asked for. -/
def SubmitArgs.stored (args : SubmitArgs) : SubmitArgs :=
  { args with payload := Json.jsonbFields args.payload }

theorem SubmitArgs.samePayload_iff (args : SubmitArgs) (t : Task) :
    args.SamePayload t.asked ↔ ¬ args.differs t := by
  unfold SamePayload differs Task.asked
  simp

variable [PyText]

/-- Nothing an accepted request asked for is lost in its row. -/
theorem asked_of_pinned {t : Task} {now : Time} {i : TaskId} {first : SubmitArgs}
    (h : t.pinned = (submittedTask now i first).pinned) :
    t.idemKey = first.idemKey ∧ t.asked.payload = first.stored.payload ∧
      t.asked.SameSettings first.stored := by
  simp only [Task.pinned, submittedTask, Task.Pinned.mk.injEq] at h
  obtain ⟨-, htenant, htype, hpayload, hkey, hpriority, hattempts, htime, -⟩ := h
  exact ⟨by unfold Task.idemKey SubmitArgs.idemKey; rw [hkey, htenant], hpayload,
    ⟨htype.symm, hpriority.symm, hattempts.symm, htime.symm⟩⟩

/-- One of the transactions is a submission that created its task. -/
def Created (calls : List Call) (now : Time) (i : TaskId) (first : SubmitArgs) : Prop :=
  ∃ before after db' row, calls = before ++ ⟨now, .submitTask i first⟩ :: after ∧
    submitTask (history .empty before) now i first = .ok (db', ⟨true, row⟩)

theorem history_keeps {db : Database} {i : TaskId} {t : Task} (ht : db.task? i = some t)
    (calls : List Call) :
    ∃ t', (history db calls).task? i = some t' ∧ t'.pinned = t.pinned := by
  refine history_invariant
    (I := fun s : Database => ∃ t', s.task? i = some t' ∧ t'.pinned = t.pinned)
    (fun s c hs => ?_) ⟨t, ht, rfl⟩ calls
  obtain ⟨t', ht', hpinned⟩ := hs
  obtain ⟨u, hu, hkept⟩ := (commit_step s c i).row_pinned ht'
  exact ⟨u, hu, hkept.trans hpinned⟩

/-- What an accepted submission asked for is in the table ever after. -/
theorem Created.row {calls : List Call} {now : Time} {i : TaskId} {first : SubmitArgs}
    (h : Created calls now i first) :
    ∃ t, (history .empty calls).task? i = some t ∧
      t.pinned = (submittedTask now i first).pinned := by
  obtain ⟨before, after, db', row, rfl, hsub⟩ := h
  have hperf : perform (history .empty before) now (.submitTask i first) =
      .ok (db', .submitted ⟨true, row⟩) := by
    show (submitTask _ _ _ _).map _ = _
    rw [hsub]
    rfl
  have hrow : db'.task? i = some (submittedTask now i first) := by
    obtain ⟨-, ⟨-, -, hv⟩ | ⟨hold, -⟩⟩ := submitTask_ok hsub
    · exact congrArg TaskView.row ((congrFun hv i).trans (Function.update_self ..))
    · cases hold
  rw [history_append]
  show ∃ t, (history (commit (history .empty before) _) after).task? i = some t ∧ _
  rw [commit_of_ok hperf]
  exact history_keeps hrow after

/-- Every row comes from a submission that created it. -/
theorem row_created {calls : List Call} {i : TaskId} {t : Task}
    (ht : (history .empty calls).task? i = some t) :
    ∃ now first, Created calls now i first ∧ t.pinned = (submittedTask now i first).pinned := by
  have hnone : ¬ (Database.empty.task? i).isSome = true := nofun
  have hsome : ((history .empty calls).task? i).isSome = true := by rw [ht]; rfl
  obtain ⟨before, c, after, u, v, rfl, hu, habsent, hstep, hpresent, -⟩ :=
    (history_run .empty calls).onset (P := fun s : Database => (s.task? i).isSome = true)
      hnone hsome
  obtain rfl := run_history hu
  obtain rfl : commit (history .empty before) c = v := hstep
  obtain ⟨row, hrow⟩ := Option.isSome_iff_exists.mp hpresent
  obtain ⟨first, hop, -⟩ :=
    (commit_step (history .empty before) c i).row_new (Option.not_isSome_iff_eq_none.mp habsent) hrow
  obtain ⟨now, op⟩ := c
  obtain rfl : op = .submitTask i first := hop
  have hcreated : Created (before ++ ⟨now, .submitTask i first⟩ :: after) now i first := by
    rcases commit_eq (history .empty before) ⟨now, .submitTask i first⟩ with ⟨r, h⟩ | h
    · obtain ⟨res, hsub, -⟩ := mapSnd_ok h
      obtain ⟨-, ⟨rfl, -⟩ | ⟨-, -, -, -, hsame⟩⟩ := submitTask_ok hsub
      · exact ⟨before, after, _, _, rfl, hsub⟩
      · rw [hsame] at hpresent
        exact absurd hpresent habsent
    · rw [h] at hpresent
      exact absurd hpresent habsent
  obtain ⟨t', ht', hpinned⟩ := hcreated.row
  obtain rfl := Option.eq_some_unique ht' ht
  exact ⟨now, first, hcreated, hpinned⟩

/-- An old task is returned to a request that the table accepts, under the key it has,
with the payload it has. -/
theorem submitTask_old {db db' : Database} {now : Time} {newId : TaskId} {args : SubmitArgs}
    {res : SubmitResult} (h : submitTask db now newId args = .ok (db', res))
    (hold : res.created = false) :
    (submittedTask now newId args).refused = none ∧ ¬ args.differs res.task ∧
      db.task? res.task.id = some res.task ∧
      ∃ κ, args.idemKey = some κ ∧ res.task.idemKey = some κ := by
  cases hc : (submittedTask now newId args).refused with
  | some e =>
    rw [submitTask_refused hc] at h
    cases h
  | none =>
    rcases insertTask_cases db (submittedTask now newId args) with
      ⟨e, he, -⟩ | ⟨κ, hκ, ⟨u, hu, hkey⟩, -⟩ | ⟨hfree, -⟩
    · rw [hc] at he
      cases he
    · have hrow := Table.find?_key hu
      obtain ⟨hdiffer, hfound⟩ := submitTask_held hc hκ hrow hkey
      by_cases hd : args.differs u
      · rw [hdiffer hd] at h
        cases h
      · rw [hfound hd] at h
        cases h
        exact ⟨rfl, hd, hrow, κ, hκ, hkey⟩
    · rcases submitTask_free hfree with ⟨db₁, hnew⟩ | ⟨e, hraise⟩
      · rw [hnew] at h
        cases h
        cases hold
      · rw [hraise] at h
        cases h

/-- A deduplicated submission is the same submission: an old task is returned only for
what its row was asked for, and a request that reuses the key for anything else raises. -/
structure Deduplicates (calls : List Call) (now : Time) (newId : TaskId) (args : SubmitArgs) :
    Prop where
  same : ∀ db' res, submitTask (history .empty calls) now newId args = .ok (db', res) →
    res.created = false → args.Agrees res.task.asked
  raises : ∀ t i first, Created calls t i first → args.idemKey.isSome = true →
    first.idemKey = args.idemKey → ¬ args.Agrees first.stored →
      ∃ e, submitTask (history .empty calls) now newId args = .error e

/-- The row of the first submission under a key answers for it. -/
theorem agrees_asked_iff {t : Task} {now : Time} {i : TaskId} {first : SubmitArgs}
    (h : t.pinned = (submittedTask now i first).pinned) (args : SubmitArgs) :
    (args.SamePayload t.asked ↔ args.SamePayload first.stored) ∧
      (args.SameSettings t.asked ↔ args.SameSettings first.stored) := by
  obtain ⟨-, hpayload, hsettings⟩ := asked_of_pinned h
  constructor
  · unfold SubmitArgs.SamePayload
    rw [hpayload]
  · constructor
    · intro hs
      exact ⟨hsettings.taskType.trans hs.taskType, hsettings.priority.trans hs.priority,
        hsettings.maxAttempts.trans hs.maxAttempts,
        hsettings.maxExecutionTimeS.trans hs.maxExecutionTimeS⟩
    · intro hs
      exact ⟨hsettings.taskType.symm.trans hs.taskType, hsettings.priority.symm.trans hs.priority,
        hsettings.maxAttempts.symm.trans hs.maxAttempts,
        hsettings.maxExecutionTimeS.symm.trans hs.maxExecutionTimeS⟩

/-- **A repeat is told apart from a different request exactly where the two differ in
nothing but the payload**: the first submission under its key, if the payload its row
keeps is the same and the table accepts the values of the repeat, has the same type,
priority, attempts and execution time. -/
theorem deduplicates_iff (calls : List Call) (now : Time) (newId : TaskId) (args : SubmitArgs) :
    Deduplicates calls now newId args ↔
      ∀ t i first, Created calls t i first → args.idemKey.isSome = true →
        first.idemKey = args.idemKey → (submittedTask now newId args).refused = none →
        args.SamePayload first.stored → args.SameSettings first.stored := by
  constructor
  · intro h t i first hcreated hkeyed hkey haccepted hpayload
    obtain ⟨κ, hκ⟩ := Option.isSome_iff_exists.mp hkeyed
    obtain ⟨row, hrow, hpinned⟩ := hcreated.row
    obtain ⟨hp, hs⟩ := agrees_asked_iff hpinned args
    have hrowkey : row.idemKey = some κ := (asked_of_pinned hpinned).1.trans (hkey.trans hκ)
    have hsame : ¬ args.differs row := (args.samePayload_iff row).mp (hp.mpr hpayload)
    have hsub := (submitTask_held haccepted hκ hrow hrowkey).2 hsame
    exact hs.mp (h.same _ _ hsub rfl).toSameSettings
  · intro h
    constructor
    · intro db' res hsub hold
      obtain ⟨haccepted, hd, hrow, κ, hκ, hrowkey⟩ := submitTask_old hsub hold
      obtain ⟨t, first, hcreated, hpinned⟩ := row_created hrow
      obtain ⟨hp, hs⟩ := agrees_asked_iff hpinned args
      have hpayload : args.SamePayload res.task.asked := (args.samePayload_iff res.task).mpr hd
      have hkey : first.idemKey = args.idemKey :=
        (asked_of_pinned hpinned).1.symm.trans (hrowkey.trans hκ.symm)
      have hkeyed : args.idemKey.isSome = true := by
        rw [hκ]
        rfl
      exact ⟨hs.mpr (h _ _ first hcreated hkeyed hkey haccepted (hp.mp hpayload)), hpayload⟩
    · intro t i first hcreated hkeyed hkey hdiffer
      obtain ⟨κ, hκ⟩ := Option.isSome_iff_exists.mp hkeyed
      obtain ⟨row, hrow, hpinned⟩ := hcreated.row
      obtain ⟨hp, -⟩ := agrees_asked_iff hpinned args
      have hrowkey : row.idemKey = some κ := (asked_of_pinned hpinned).1.trans (hkey.trans hκ)
      cases hc : (submittedTask now newId args).refused with
      | some e => exact ⟨_, submitTask_refused hc⟩
      | none =>
        by_cases hd : args.differs row
        · exact ⟨_, (submitTask_held hc hκ hrow hrowkey).1 hd⟩
        · have hpayload : args.SamePayload first.stored := hp.mp ((args.samePayload_iff row).mpr hd)
          exact absurd ⟨h t i first hcreated hkeyed hkey hc hpayload, hpayload⟩ hdiffer

def patientArgs : SubmitArgs where
  tenantId := 1
  taskType := "summarize"
  payload := []
  idempotencyKey := some "k"

/-- A client submits at priority 100, and then, under the same key and with the same
payload, at priority 1. -/
def repeatedUrgently : List Call :=
  [⟨0, .createTenant 1 "acme" 10 1000⟩, ⟨1, .submitTask 1 patientArgs⟩]

def urgentArgs : SubmitArgs := { patientArgs with priority := 1 }

omit [PyText] in
theorem deduplicated_urgently :
    ¬ @Deduplicates PyText.plain repeatedUrgently 2 2 urgentArgs := by
  intro h
  have hend : ((@submitTask PyText.plain (@history PyText.plain .empty repeatedUrgently) 2 2
      urgentArgs).toOption.map fun p => (p.2.created, p.2.task.priority)) =
        some (false, 100) := by decide +kernel
  cases hsub : @submitTask PyText.plain (@history PyText.plain .empty repeatedUrgently) 2 2
      urgentArgs with
  | error e =>
    rw [hsub] at hend
    cases hend
  | ok p =>
    rw [hsub] at hend
    obtain ⟨hold, hpriority⟩ := Prod.mk.inj (Option.some.inj hend)
    have hasked : p.2.task.priority = 1 :=
      (@Deduplicates.same PyText.plain _ _ _ _ h p.1 p.2 hsub hold).priority
    rw [hpriority] at hasked
    cases hasked

end ControlPlane
