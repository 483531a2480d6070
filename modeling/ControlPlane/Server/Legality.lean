import ControlPlane.Server.History

/-! # Legal transitions and frozen terminal rows

Only `transition` checks the graph of legal states; the claim and the bulk
cancellation write the state with `UPDATE`s of their own, whose guards stand
elsewhere. Whatever writes it, a change of state is an edge of the graph, and
no step changes the row of a task that has ended. -/

namespace ControlPlane
open Keyed Fallible Runs

/-- What a step may do to the row of one task. -/
structure LegalStep (i : TaskId) (s s' : Database) : Prop where
  born : s.task? i = none → ∀ t', s'.task? i = some t' → t'.state = .queued
  kept : ∀ t, s.task? i = some t → ∃ t', s'.task? i = some t' ∧
    (t'.state = t.state ∨ t.state.isLegal t'.state = true) ∧ (t.state.isTerminal = true → t' = t)

theorem not_terminal_of_running {t : Task} (h : t.state = .running) :
    t.state.isTerminal = false := by
  rw [h]; rfl

theorem not_terminal_of_queued {t : Task} (h : t.state = .queued) :
    t.state.isTerminal = false := by
  rw [h]; rfl

theorem Task.claimable_iff {t : Task} {now : Time} :
    t.claimable now = true ↔ t.state = .queued ∧ t.availableAt ≤ now := by
  simp [Task.claimable]

variable [PyText]

/-- One case for each kind of step. -/
theorem TaskStep.legal {c : Call} {i : TaskId} {v v' : TaskView} {t : Task}
    (h : TaskStep c i v v') (ht : v.row = some t) :
    ∃ t', v'.row = some t' ∧ (t'.state = t.state ∨ t.state.isLegal t'.state = true) ∧
      (t.state.isTerminal = true → t' = t) := by
  -- only a QUEUED or RUNNING row is ever written
  have hlive : ∀ {u : Task}, t.state.isTerminal = false → t.state.isTerminal = true → u = t := by
    intro u hf htr
    rw [hf] at htr
    cases htr
  cases h with
  | skip => exact ⟨t, ht, Or.inl rfl, fun _ => rfl⟩
  | noted e => exact ⟨t, ht, Or.inl rfl, fun _ => rfl⟩
  | submitted hop hv => rw [hv] at ht; cases ht
  | claimed hop hr hc =>
    obtain rfl := Option.eq_some_unique hr ht
    have hq := (Task.claimable_iff.mp hc).1
    exact ⟨_, rfl, Or.inr (by rw [hq]; rfl), hlive (not_terminal_of_queued hq)⟩
  | renewed hop hr hf =>
    obtain rfl := Option.eq_some_unique hr ht
    exact ⟨_, rfl, Or.inl rfl, hlive (not_terminal_of_running hf.1.1)⟩
  | @completed e a w s hop hr hf =>
    obtain rfl := Option.eq_some_unique hr ht
    refine ⟨_, rfl, Or.inr ?_, hlive (not_terminal_of_running hf.1)⟩
    rw [hf.1, (e.row_fields c.now s).1]
    exact e.toState_legal
  | @reaped o limit scan s hop hr hs ho =>
    obtain rfl := Option.eq_some_unique hr ht
    refine ⟨_, rfl, Or.inr ?_, hlive (not_terminal_of_running hs)⟩
    rw [hs, (o.row_fields c.now s).1]
    exact reapToState_legal ..
  | cancelled hop hr hq ht' =>
    obtain rfl := Option.eq_some_unique hr ht
    refine ⟨_, rfl, Or.inr ?_, hlive (not_terminal_of_queued hq)⟩
    rw [hq, (cancelled_fields ht').1]
    rfl
  | flagged hop hr hs hf =>
    obtain rfl := Option.eq_some_unique hr ht
    exact ⟨_, rfl, Or.inl rfl, hlive (not_terminal_of_running hs)⟩

theorem commit_legal (db : Database) (c : Call) (i : TaskId) : LegalStep i db (commit db c) where
  born hnone t' ht' := by
    obtain ⟨args, -, rfl⟩ := (commit_step db c i).row_new hnone ht'
    rfl
  kept _ ht := (commit_step db c i).legal ht

/-- A row that has ended is the same at the end of every history. -/
theorem terminal_frozen {db : Database} {i : TaskId} {t : Task} (ht : db.task? i = some t)
    (hterm : t.state.isTerminal = true) (calls : List Call) :
    (history db calls).task? i = some t := by
  refine history_invariant (I := fun s => s.task? i = some t) (fun s c hs => ?_) ht calls
  obtain ⟨t', ht', -, hsame⟩ := (commit_legal s c i).kept t hs
  rw [ht', hsame hterm]

/-- The step moves the task into a terminal state. -/
def entersTerminal (i : TaskId) (s s' : Database) : Bool :=
  (s'.task? i).any (fun t => t.state.isTerminal) &&
    decide ((s.task? i).map Task.state ≠ (s'.task? i).map Task.state)

/-- How many steps of a history move a task into a terminal state. -/
def terminalTransitions (i : TaskId) : Database → List Call → Nat
  | _, [] => 0
  | db, c :: calls => (entersTerminal i db (commit db c)).toNat +
      terminalTransitions i (commit db c) calls

theorem terminalTransitions_ended {i : TaskId} {t : Task} (hterm : t.state.isTerminal = true) :
    ∀ {db : Database} (calls : List Call), db.task? i = some t → terminalTransitions i db calls = 0
  | _, [], _ => rfl
  | db, c :: calls, ht => by
    have hnext : (commit db c).task? i = some t := terminal_frozen ht hterm [c]
    have hno : entersTerminal i db (commit db c) = false := by
      simp [entersTerminal, ht, hnext]
    rw [terminalTransitions, hno, terminalTransitions_ended hterm calls hnext]
    rfl

theorem terminalTransitions_le_one (i : TaskId) :
    ∀ (db : Database) (calls : List Call), terminalTransitions i db calls ≤ 1
  | _, [] => Nat.zero_le 1
  | db, c :: calls => by
    rw [terminalTransitions]
    cases hent : entersTerminal i db (commit db c) with
    | false =>
      have := terminalTransitions_le_one i (commit db c) calls
      simpa using this
    | true =>
      -- after the one terminal transition the row is frozen
      simp only [entersTerminal, Bool.and_eq_true, Option.any_eq_true] at hent
      obtain ⟨⟨t, ht, hterm⟩, -⟩ := hent
      rw [terminalTransitions_ended hterm calls ht]
      rfl

/-- **Legal transitions and frozen terminal rows.** In every history from every
database, each step moves each task along an edge of the graph or not at all
and leaves ended rows alone; so a row that has ended stays as it is, and no
task makes two terminal transitions. -/
theorem transitions_legal_rows_frozen (db : Database) (calls : List Call) :
    Run (fun s c s' => Step s c s' ∧ ∀ i, LegalStep i s s') db calls (history db calls) ∧
      (∀ i, ((db.task? i).all fun t => !t.state.isTerminal) = true ∨
        (history db calls).task? i = db.task? i) ∧
      ∀ i, terminalTransitions i db calls ≤ 1 := by
  refine ⟨history_steps (fun s c i => commit_legal s c i) db calls, fun i => ?_,
    fun i => terminalTransitions_le_one i db calls⟩
  cases ht : db.task? i with
  | none => exact Or.inl rfl
  | some t =>
    by_cases hterm : t.state.isTerminal = true
    · exact Or.inr (terminal_frozen ht hterm calls)
    · exact Or.inl (by simpa using hterm)

end ControlPlane
