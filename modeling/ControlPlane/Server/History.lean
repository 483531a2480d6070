import ControlPlane.Server.Calls

/-! # Histories

The database a sequence of transactions leaves, and the columns each step of a
task keeps. A reachable database is one a history leaves from the empty one. -/

namespace ControlPlane
open Keyed Fallible Runs

variable [PyText]

/-- The database after a sequence of transactions. -/
def history (db : Database) (calls : List Call) : Database := calls.foldl commit db

theorem history_run (db : Database) (calls : List Call) : Run Step db calls (history db calls) :=
  Run.of_fold commit calls db

theorem run_history {db db' : Database} {calls : List Call} (h : Run Step db calls db') :
    db' = history db calls := by
  induction h with
  | nil _ => rfl
  | cons hs _ ih => rw [ih, ← (show commit _ _ = _ from hs)]; rfl

theorem history_append (db : Database) (xs ys : List Call) :
    history db (xs ++ ys) = history (history db xs) ys :=
  List.foldl_append

/-- What every transaction does, every transaction of a history did. -/
theorem history_steps {Q : Database → Call → Database → Prop} (hQ : ∀ s c, Q s c (commit s c))
    (db : Database) (calls : List Call) :
    Run (fun s c s' => Step s c s' ∧ Q s c s') db calls (history db calls) :=
  (history_run db calls).mono fun {s c t} (h : commit s c = t) => ⟨h, h ▸ hQ s c⟩

/-- What every transaction does from a state within an invariant, every
transaction of a history that starts there did. -/
theorem history_steps_within {I : Database → Prop} {Q : Database → Call → Database → Prop}
    (hI : ∀ s c, I s → I (commit s c)) (hQ : ∀ s c, I s → Q s c (commit s c)) {db : Database}
    (hdb : I db) (calls : List Call) :
    Run (fun s c s' => Step s c s' ∧ Q s c s') db calls (history db calls) :=
  ((history_run db calls).within (fun {s c t} hs (h : commit s c = t) => h ▸ hI s c hs) hdb).mono
    fun ⟨hs, h, _⟩ => ⟨h, (show commit _ _ = _ from h) ▸ hQ _ _ hs⟩

theorem history_invariant {I : Database → Prop} (hI : ∀ s c, I s → I (commit s c)) {db : Database}
    (hdb : I db) (calls : List Call) : I (history db calls) :=
  (history_run db calls).invariant (fun {s c t} hs (h : commit s c = t) => h ▸ hI s c hs) hdb

/-! ## The row of a task -/

section Rows
omit [PyText]

theorem transitionWrite_fields (now : Time) (dest : State) (s : SetFields) (t : Task) :
    ((transitionWrite now dest s).row t).state = dest ∧
      ((transitionWrite now dest s).row t).attempt = t.attempt ∧
      ((transitionWrite now dest s).row t).leaseWorkerId =
        s.leaseWorkerId.getD t.leaseWorkerId ∧
      ((transitionWrite now dest s).row t).cancelRequested =
        s.cancelRequested.getD t.cancelRequested ∧
      ((transitionWrite now dest s).row t).firstStartedAt = t.firstStartedAt :=
  ⟨rfl, rfl, rfl, rfl, rfl⟩

theorem Ending.setFields_flag (e : Ending) (now : Time) :
    (e.setFields now).cancelRequested = none := by
  cases e <;> rfl

/-- What a completion leaves of the row it ends. -/
theorem Ending.row_fields (e : Ending) (now : Time) (t : Task) :
    (e.row now t).state = e.toState ∧ (e.row now t).attempt = t.attempt ∧
      (e.row now t).leaseWorkerId = none ∧
      (e.row now t).cancelRequested = t.cancelRequested ∧
      (e.row now t).firstStartedAt = t.firstStartedAt := by
  obtain ⟨h₁, h₂, h₃, h₄, h₅⟩ := transitionWrite_fields now e.toState (e.setFields now) t
  rw [(e.setFields_lease now).1] at h₃
  rw [e.setFields_flag now] at h₄
  exact ⟨h₁, h₂, h₃, h₄, h₅⟩

/-- The two rows a cancellation of a QUEUED task can leave. -/
theorem cancelled_fields {now : Time} {t t' : Task}
    (h : t' = cancelledTask now t ∨ ∃ reason, t' = (agentDisabledWrite now reason).row t) :
    t'.state = .cancelled ∧ t'.attempt = t.attempt ∧ t'.leaseWorkerId = t.leaseWorkerId ∧
      t'.cancelRequested = true ∧ t'.firstStartedAt = t.firstStartedAt ∧ t'.pinned = t.pinned := by
  rcases h with rfl | ⟨reason, rfl⟩
  · exact ⟨rfl, rfl, rfl, rfl, rfl, rfl⟩
  · exact ⟨rfl, rfl, rfl, rfl, rfl, rfl⟩

end Rows

theorem reapSetFields_flag (now : Time) (o : Overdue) (a m : Int) (w : Option WorkerId) :
    (reapSetFields now o a m w).cancelRequested = none := by
  unfold reapSetFields
  split <;> rfl

/-- What a recovery leaves of the row it ends. -/
theorem Overdue.row_fields (o : Overdue) (now : Time) (t : Task) :
    (o.row now t).state = reapToState t.attempt t.maxAttempts ∧ (o.row now t).attempt = t.attempt ∧
      (o.row now t).leaseWorkerId = none ∧
      (o.row now t).cancelRequested = t.cancelRequested ∧
      (o.row now t).firstStartedAt = t.firstStartedAt := by
  obtain ⟨h₁, h₂, h₃, h₄, h₅⟩ := transitionWrite_fields now (reapToState t.attempt t.maxAttempts)
    (reapSetFields now o t.attempt t.maxAttempts t.leaseWorkerId) t
  rw [(reapSetFields_lease ..).1] at h₃
  rw [reapSetFields_flag] at h₄
  exact ⟨h₁, h₂, h₃, h₄, h₅⟩

/-- A task never disappears, and its columns fixed at submission stay. -/
theorem TaskStep.row_pinned {c : Call} {i : TaskId} {v v' : TaskView} {t : Task}
    (h : TaskStep c i v v') (ht : v.row = some t) :
    ∃ t', v'.row = some t' ∧ t'.pinned = t.pinned := by
  cases h with
  | skip => exact ⟨t, ht, rfl⟩
  | noted e => exact ⟨t, ht, rfl⟩
  | submitted hop hv => rw [hv] at ht; cases ht
  | claimed hop hr hc =>
    obtain rfl := Option.eq_some_unique hr ht
    exact ⟨_, rfl, (claimWrite ..).pinned _⟩
  | renewed hop hr hf =>
    obtain rfl := Option.eq_some_unique hr ht
    exact ⟨_, rfl, (renewWrite ..).pinned _⟩
  | completed hop hr hf =>
    obtain rfl := Option.eq_some_unique hr ht
    exact ⟨_, rfl, (transitionWrite ..).pinned _⟩
  | reaped hop hr hs ho =>
    obtain rfl := Option.eq_some_unique hr ht
    exact ⟨_, rfl, (transitionWrite ..).pinned _⟩
  | cancelled hop hr hq ht' =>
    obtain rfl := Option.eq_some_unique hr ht
    exact ⟨_, rfl, (cancelled_fields ht').2.2.2.2.2⟩
  | flagged hop hr hs hf =>
    obtain rfl := Option.eq_some_unique hr ht
    exact ⟨_, rfl, (flagWrite _).pinned _⟩

/-- A new row is QUEUED, with no attempt behind it. -/
theorem TaskStep.row_new {c : Call} {i : TaskId} {v v' : TaskView} {t' : Task}
    (h : TaskStep c i v v') (hnone : v.row = none) (ht' : v'.row = some t') :
    ∃ args, c.op = .submitTask i args ∧ t' = submittedTask c.now i args := by
  cases h with
  | skip => rw [hnone] at ht'; cases ht'
  | noted e =>
    rw [show v.row = some t' from ht'] at hnone
    cases hnone
  | submitted hop hv => exact ⟨_, hop, (Option.some.inj ht').symm⟩
  | claimed hop hr hc => rw [hnone] at hr; cases hr
  | renewed hop hr hf => rw [hnone] at hr; cases hr
  | completed hop hr hf => rw [hnone] at hr; cases hr
  | reaped hop hr hs ho => rw [hnone] at hr; cases hr
  | cancelled hop hr hq ht' => rw [hnone] at hr; cases hr
  | flagged hop hr hs hf => rw [hnone] at hr; cases hr

/-- What holds of the columns every submission fixes holds of every row ever since. -/
theorem history_pinned {P : Task.Pinned → Prop}
    (hnew : ∀ now newId args, P (submittedTask now newId args).pinned) (calls : List Call) :
    ∀ i t, (history .empty calls).task? i = some t → P t.pinned := by
  refine history_invariant (I := fun s : Database => ∀ i t, s.task? i = some t → P t.pinned)
    (fun s c hs i t' ht' => ?_) (fun i t ht => by cases ht) calls
  cases hr : s.task? i with
  | none =>
    obtain ⟨args, -, rfl⟩ := (commit_step s c i).row_new hr ht'
    exact hnew ..
  | some t =>
    obtain ⟨u, hu, hpin⟩ := (commit_step s c i).row_pinned hr
    obtain rfl := Option.eq_some_unique hu ht'
    rw [hpin]
    exact hs i t hr

/-- The stored key of a task is the key of its stored requirements. -/
theorem history_capabilityKey (calls : List Call) {t : Task}
    (ht : t ∈ (history .empty calls).tasks.rows) :
    t.capabilityKey = capabilityKey t.requiredCapabilities :=
  history_pinned (P := fun p => p.capabilityKey = ControlPlane.capabilityKey p.requiredCapabilities)
    (fun _ _ _ => rfl) calls t.id t (Table.find?_key ht)

end ControlPlane
