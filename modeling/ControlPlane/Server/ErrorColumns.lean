import ControlPlane.Server.Ledger
import ControlPlane.Server.Legality

/-! # The error columns of a task and of its attempts

Each way an attempt ends writes a pair of error columns into its row of the ledger.
Retries, failures and recoveries write the same pair into the row of the task; a
success, a cancellation and a hand-back leave there what an earlier attempt has
written. The two tables therefore agree in every state of a run exactly if no step of
it ends an attempt in one of these three ways on a row that says something else. -/

namespace ControlPlane
open Keyed Fallible Runs

/-- The row of the highest-numbered finished attempt. -/
structure TaskView.LatestFinished (v : TaskView) (r : AttemptRow) : Prop where
  mem : r ∈ v.attempts
  finished : r.finishedAt.isSome = true
  highest : ∀ s ∈ v.attempts, s.finishedAt.isSome = true → s.attempt ≤ r.attempt

def Task.errors (t : Task) : Option String × Option String := (t.errorClass, t.errorMessage)

def AttemptRow.errors (r : AttemptRow) : Option String × Option String :=
  (r.errorClass, r.errorMessage)

/-- The task's error columns are those of its latest finished attempt, and empty once it
has succeeded. -/
structure TaskView.Described (v : TaskView) (t : Task) : Prop where
  latest : ∀ r, v.LatestFinished r → t.errors = r.errors
  succeeded : t.state = .succeeded → t.errors = (none, none)

/-- What an ending that leaves the columns alone needs of them. -/
def Ending.suits (e : Ending) (t : Task) : Prop :=
  match e with
  | .success _ => t.errors = (none, none)
  | .cancelled => t.errors = (none, none)
  | .abandoned reason => t.errors = (some reason, none)
  | .retry .. => True
  | .failed .. => True

/-- Every attempt the call ends is on a row that suits the ending. -/
def Call.Suits (s : Database) (c : Call) : Prop :=
  ∀ e i a w t, c.op = .complete e i a w → s.task? i = some t → t.HeldBy a w → e.suits t

theorem Ending.suits_iff (e : Ending) (now : Time) (t : Task) :
    e.suits t ↔ (e.row now t).errors = (e.errorClass, e.errorMessage) := by
  cases e <;> simp [suits, row, transitionWrite, setFields, SetFields.apply, errorClass,
    errorMessage, Task.errors]

/-! ## The row that an ending closes -/

section Closed

variable {v v' : TaskView} {t t' : Task} {now : Time} {o : AttemptOutcome} {ec em : Option String}

/-- The attempt that has just been closed is the latest finished one. -/
theorem closed_latest (hv : v.Ledgered) (ht : v.row = some t) (hrun : t.state = .running)
    (hattempts : v'.attempts = closeAttempt now t.attempt o ec em v.attempts) :
    (∃ r, v'.LatestFinished r) ∧ ∀ r, v'.LatestFinished r → r.errors = (ec, em) := by
  have hledger := hv.ledger ht
  have hpos : 0 < t.attempt := hledger.started (by rw [hrun]; decide) (by rw [hrun]; decide)
  obtain ⟨r₀, hr₀, ha₀⟩ := hledger.mem_attempts.mpr ⟨hpos, le_refl t.attempt⟩
  have hclosed : finishedAttempt now o ec em r₀ ∈ v'.attempts := by
    rw [hattempts]
    exact List.mem_map.mpr ⟨r₀, hr₀, if_pos ha₀⟩
  have hle : ∀ s ∈ v'.attempts, s.attempt ≤ t.attempt := by
    intro s hs
    rw [hattempts] at hs
    obtain ⟨u, hu, rfl⟩ := List.mem_map.mp hs
    have hattempt := hledger.attempt_le hu
    split <;> exact hattempt
  refine ⟨⟨_, hclosed, rfl, fun s hs _ => ?_⟩, fun r hr => ?_⟩
  · exact (hle s hs).trans (le_of_eq ha₀.symm)
  · have hhigh := hr.highest _ hclosed rfl
    have hlast : r.attempt = t.attempt :=
      le_antisymm (hle r hr.mem) ((le_of_eq ha₀.symm).trans hhigh)
    have hmem := hr.mem
    rw [hattempts] at hmem
    obtain ⟨u, -, rfl⟩ := List.mem_map.mp hmem
    split at hlast
    · rename_i hu
      rw [if_pos hu]
      rfl
    · rename_i hu
      exact absurd hlast hu

/-- Rows that are still open do not count. -/
theorem TaskView.Described.opened (h : v.Described t) {rows : List AttemptRow}
    (hattempts : v'.attempts = v.attempts ++ rows) (hopen : ∀ r ∈ rows, r.finishedAt = none)
    (herrors : t'.errors = t.errors) (hstate : t'.state = .succeeded → t.state = .succeeded) :
    v'.Described t' := by
  refine ⟨fun r hr => ?_, fun hs => herrors.trans (h.succeeded (hstate hs))⟩
  have hold : ∀ {s}, s ∈ v'.attempts → s.finishedAt.isSome = true → s ∈ v.attempts := by
    intro s hs hf
    rw [hattempts] at hs
    rcases List.mem_append.mp hs with hs | hs
    · exact hs
    · rw [hopen s hs] at hf
      cases hf
  rw [herrors]
  refine h.latest r ⟨hold hr.mem hr.finished, hr.finished, fun s hs hf => ?_⟩
  exact hr.highest s (hattempts ▸ List.mem_append_left _ hs) hf

theorem TaskView.Described.kept (h : v.Described t) (hattempts : v'.attempts = v.attempts)
    (herrors : t'.errors = t.errors) (hstate : t'.state = .succeeded → t.state = .succeeded) :
    v'.Described t' := by
  have hnil : v'.attempts = v.attempts ++ [] := by rw [hattempts, List.append_nil]
  exact h.opened hnil (by simp) herrors hstate

end Closed

variable [PyText]

/-! ## Runs -/

/-- A bulk cancellation has ended the task while it was QUEUED. -/
def SweptQueued (calls : List Call) (i : TaskId) : Prop :=
  ∃ before now versions reason after t t',
    calls = before ++ ⟨now, .cancelAgentTasks versions reason⟩ :: after ∧
      (history .empty before).task? i = some t ∧ t.state = .queued ∧
      (commit (history .empty before) ⟨now, .cancelAgentTasks versions reason⟩).task? i = some t' ∧
      t'.state = .cancelled

/-- Every task that no bulk cancellation has ended is described by its error columns. -/
def Describes (calls : List Call) : Prop :=
  ∀ i t, (history .empty calls).task? i = some t → ¬ SweptQueued calls i →
    ((history .empty calls).view i).Described t

theorem history_snoc (db : Database) (calls : List Call) (c : Call) :
    history db (calls ++ [c]) = commit (history db calls) c :=
  history_append db calls [c]

/-- The sweep is the last call or one of those before it. -/
theorem SweptQueued.snoc {calls : List Call} {c : Call} {i : TaskId} (h : SweptQueued (calls ++ [c]) i) :
    SweptQueued calls i ∨ ∃ versions reason, c.op = .cancelAgentTasks versions reason := by
  obtain ⟨before, now, versions, reason, after, t, t', hcalls, hrest⟩ := h
  rcases List.eq_nil_or_concat after with rfl | ⟨rest, last, rfl⟩
  · obtain ⟨-, hc⟩ := List.append_inj' hcalls rfl
    exact .inr ⟨versions, reason, by rw [List.singleton_inj.mp hc]⟩
  · rw [List.concat_eq_append, ← List.cons_append, ← List.append_assoc] at hcalls
    obtain ⟨hcalls, -⟩ := List.append_inj' hcalls rfl
    exact .inl ⟨before, now, versions, reason, rest, t, t', hcalls, hrest⟩

theorem SweptQueued.later {calls : List Call} {i : TaskId} (h : SweptQueued calls i) (c : Call) :
    SweptQueued (calls ++ [c]) i := by
  obtain ⟨before, now, versions, reason, after, t, t', rfl, hrest⟩ := h
  exact ⟨before, now, versions, reason, after ++ [c], t, t', by simp, hrest⟩

theorem cancelled_stays {db : Database} {i : TaskId} {t : Task} (ht : db.task? i = some t)
    (hs : t.state = .cancelled) (calls : List Call) : (history db calls).task? i = some t := by
  refine history_invariant (I := fun s : Database => s.task? i = some t) (fun s c hrow => ?_) ht calls
  obtain ⟨u, hu, -, hsame⟩ := (commit_step s c i).legal hrow
  rw [← hsame (by rw [hs]; decide)]
  exact hu

/-- A swept task is CANCELLED from then on. -/
theorem SweptQueued.cancelled {calls : List Call} {i : TaskId} (h : SweptQueued calls i) {t : Task}
    (ht : (history .empty calls).task? i = some t) : t.state = .cancelled := by
  obtain ⟨before, now, versions, reason, after, u, u', rfl, -, -, hu', hs⟩ := h
  rw [history_append] at ht
  obtain rfl := Option.eq_some_unique (cancelled_stays hu' hs after) ht
  exact hs

/-- A cancellation of one QUEUED task leaves its error columns. -/
theorem cancelTask_row {db : Database} {now : Time} {i : TaskId} {t t' : Task}
    (ht : db.task? i = some t) (hq : t.state = .queued)
    (ht' : (commit db ⟨now, .cancelTask i⟩).task? i = some t') (hs : t'.state = .cancelled) :
    t' = cancelledTask now t := by
  rcases commit_eq db ⟨now, .cancelTask i⟩ with ⟨r, h⟩ | h
  · obtain ⟨res, h, -⟩ := mapSnd_ok h
    obtain ⟨-, hv⟩ := cancelTask_ok h
    have hview : (cancelView now (db.view i)).row = some (cancelledTask now t) := by
      simp only [cancelView, Database.view_row, ht, hq]
    rw [← Database.view_row, hv, Function.update_self, hview] at ht'
    exact (Option.some.inj ht').symm
  · rw [h, ht] at ht'
    cases ht'
    rw [hq] at hs
    cases hs

/-- One case for each kind of step. -/
theorem Describes.step {calls : List Call} {c : Call} (h : Describes calls)
    (hsuits : c.Suits (history .empty calls)) : Describes (calls ++ [c]) := by
  intro i t' ht' hnot
  have hold : ¬ SweptQueued calls i := fun hs => hnot (hs.later c)
  have hledger := history_ledgered calls i
  have hstep := commit_step (history .empty calls) c i
  rw [history_snoc] at ht' ⊢
  have hrow' : ((commit (history .empty calls) c).view i).row = some t' := ht'
  generalize hv' : (commit (history .empty calls) c).view i = v' at hstep hrow' ⊢
  cases hstep with
  | skip => exact h i t' hrow' hold
  | noted e => exact (h i t' hrow' hold).kept rfl rfl id
  | submitted hop hnew =>
    cases hrow'
    exact ⟨fun r hr => absurd hr.mem (by simp [submittedView]), by simp [submittedTask]⟩
  | @claimed args scans t hop hr hc =>
    cases hrow'
    refine (h i t hr hold).opened rfl ?_ rfl (by simp [claimWrite])
    intro r hr
    rw [List.mem_singleton.mp hr]
    rfl
  | @renewed w a ttl t hop hr hf =>
    cases hrow'
    exact (h i t hr hold).kept rfl rfl id
  | @completed e a w t hop hr hf =>
    cases hrow'
    have herrors := (e.suits_iff c.now t).mp (hsuits e i a w t hop hr hf)
    obtain ⟨-, hlatest⟩ := closed_latest hledger hr hf.1 (show (e.view c.now w t _).attempts = _ from rfl)
    refine ⟨fun r hr' => herrors.trans (hlatest r hr').symm, fun hs => ?_⟩
    rw [herrors]
    rw [(e.row_fields c.now t).1] at hs
    cases e <;> cases hs
    rfl
  | @reaped o limit scan t hop hr hrun ho =>
    cases hrow'
    obtain ⟨-, hlatest⟩ := closed_latest hledger hr hrun (show (o.view c.now t _).attempts = _ from rfl)
    have herrors : (o.row c.now t).errors =
        (some o.errorClass, some (o.errorMessage t.leaseWorkerId)) := by
      unfold Overdue.row reapSetFields
      split <;> rfl
    refine ⟨fun r hr' => herrors.trans (hlatest r hr').symm, fun hs => ?_⟩
    rw [(o.row_fields c.now t).1] at hs
    unfold reapToState at hs
    split at hs <;> cases hs
  | @cancelled t u e hcan hr hq hu he =>
    cases hrow'
    have hs : t'.state = .cancelled := (cancelled_fields hu).1
    obtain ⟨now, op⟩ := c
    rcases hcan with hone | ⟨versions, reason, hall⟩
    · obtain rfl : op = .cancelTask i := hone
      rw [cancelTask_row hr hq ht' hs]
      exact (h i t hr hold).kept rfl rfl (by simp [cancelledTask, transitionWrite, SetFields.apply])
    · obtain rfl : op = .cancelAgentTasks versions reason := hall
      exact absurd ⟨calls, now, versions, reason, [], t, t', rfl, hr, hq, ht', hs⟩ hnot
  | @flagged t e hcan hr hrun hf he =>
    cases hrow'
    exact (h i t hr hold).kept rfl rfl id

/-- **The error columns describe the latest finished attempt in every state of a run
exactly if every step of it suits.** -/
theorem error_columns_described_iff (calls : List Call) :
    (∀ before after, calls = before ++ after → Describes before) ↔
      ∀ before c after, calls = before ++ c :: after → c.Suits (history .empty before) := by
  constructor
  · intro h before c after hcalls e i a w t hop ht hheld
    have hdescribes := h (before ++ [c]) after (by rw [hcalls]; simp)
    obtain ⟨now, op⟩ := c
    obtain rfl : op = .complete e i a w := hop
    have hview := @commit_completed _ _ now e i a w t ht hheld
    have hrow : (history .empty (before ++ [⟨now, .complete e i a w⟩])).task? i =
        some (e.row now t) := by
      rw [history_snoc]
      exact congrArg TaskView.row hview
    have hnot : ¬ SweptQueued (before ++ [⟨now, .complete e i a w⟩]) i := by
      intro hswept
      rcases hswept.snoc with hbefore | ⟨versions, reason, hlast⟩
      · have hcancelled := hbefore.cancelled ht
        rw [hheld.1] at hcancelled
        cases hcancelled
      · cases hlast
    have hd := hdescribes i _ hrow hnot
    rw [history_snoc, hview] at hd
    obtain ⟨⟨r, hr⟩, hlatest⟩ := closed_latest (history_ledgered before i) ht hheld.1
      (show (e.view now w t _).attempts = _ from rfl)
    exact (e.suits_iff now t).mpr ((hd.latest r hr).trans (hlatest r hr))
  · intro h before
    induction before using List.reverseRecOn with
    | nil =>
      intro after _ i t ht
      cases ht
    | append_singleton before c ih =>
      intro after hcalls
      refine (ih (c :: after) (by rw [hcalls]; simp)).step (h before c after ?_)
      rw [hcalls]
      simp

/-- The first attempt fails with a transient error, the second one succeeds. -/
def retriedThenSucceeded : List Call :=
  oneClaim ++
    [⟨2, .complete (.retry "TRANSIENT" "boom" 0) 7 1 "worker"⟩,
     ⟨3, .claimTasks { workerId := "worker", limit := 1, leaseTtlS := 30 } fun _ => {}⟩,
     ⟨4, .complete (.success .null) 7 2 "worker"⟩]

omit [PyText] in
theorem succeeded_with_error : ¬ @Describes PyText.plain retriedThenSucceeded := by
  intro h
  have hend : (((@history PyText.plain .empty retriedThenSucceeded).task? 7).map
      fun t => (t.state, t.errors)) = some (.succeeded, some "TRANSIENT", some "boom") := by
    decide +kernel
  have hnosweep : ∀ c ∈ retriedThenSucceeded, ∀ versions reason,
      c.op ≠ .cancelAgentTasks versions reason := by
    simp [retriedThenSucceeded, oneClaim]
  obtain ⟨t, ht, htask⟩ := Option.map_eq_some_iff.mp hend
  obtain ⟨hstate, herrors⟩ := Prod.mk.inj htask
  have hnot : ¬ @SweptQueued PyText.plain retriedThenSucceeded 7 := by
    rintro ⟨before, now, versions, reason, after, -, -, hcalls, -⟩
    exact hnosweep _ (hcalls ▸ List.mem_append_right before List.mem_cons_self) versions reason rfl
  have hnull := (h 7 t ht hnot).succeeded hstate
  rw [hnull] at herrors
  cases herrors

end ControlPlane
