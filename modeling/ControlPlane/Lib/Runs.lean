import Mathlib.Data.List.Induction

/-! # Runs of labelled transition systems

A run is a list of labels with the states it passes through. What every step
preserves, every run preserves (`Run.invariant`), and a property that holds at
the end of a run but not at its start was established by some step and has held
ever since (`Run.onset`). A system that mirrors each of its steps by a run of
another has only runs of the other (`Run.simulate`). -/

namespace Runs

universe u v w x

variable {σ : Type u} {α : Type v} {τ : Type w} {β : Type x}

inductive Run (step : σ → α → σ → Prop) : σ → List α → σ → Prop
  | nil (s : σ) : Run step s [] s
  | cons {s t u : σ} {a : α} {xs : List α} : step s a t → Run step t xs u → Run step s (a :: xs) u

namespace Run

variable {step : σ → α → σ → Prop} {s t u : σ} {a : α} {xs ys : List α}

theorem single (h : step s a t) : Run step s [a] t := .cons h (.nil t)

theorem append (h : Run step s xs t) (h' : Run step t ys u) : Run step s (xs ++ ys) u := by
  induction h with
  | nil _ => exact h'
  | cons hs _ ih => exact .cons hs (ih h')

theorem split (h : Run step s (xs ++ ys) u) : ∃ t, Run step s xs t ∧ Run step t ys u := by
  induction xs generalizing s with
  | nil => exact ⟨s, .nil s, h⟩
  | cons a xs ih =>
    cases h with
    | cons hs hr =>
      obtain ⟨t, hxs, hys⟩ := ih hr
      exact ⟨t, .cons hs hxs, hys⟩

theorem snoc (h : Run step s xs t) (h' : step t a u) : Run step s (xs ++ [a]) u :=
  h.append (.single h')

theorem mono {step' : σ → α → σ → Prop} (hm : ∀ {s a t}, step s a t → step' s a t)
    (h : Run step s xs t) : Run step' s xs t := by
  induction h with
  | nil s => exact .nil s
  | cons hs _ ih => exact .cons (hm hs) ih

/-- The labels of the steps are those of the run. -/
theorem labelled (h : Run step s xs t) : Run (fun s a t => a ∈ xs ∧ step s a t) s xs t := by
  induction h with
  | nil s => exact .nil s
  | cons hs _ ih =>
    refine .cons ⟨List.mem_cons_self, hs⟩ (ih.mono fun hst => ?_)
    exact ⟨List.mem_cons_of_mem _ hst.1, hst.2⟩

/-- What holds at the start and is kept by every step holds at the end. -/
theorem invariant {I : σ → Prop} (hstep : ∀ {s a t}, I s → step s a t → I t)
    (h : Run step s xs t) (hs : I s) : I t := by
  induction h with
  | nil _ => exact hs
  | cons h₁ _ ih => exact ih (hstep hs h₁)

/-- A run inside an invariant is a run of the steps between states that satisfy it. -/
theorem within {I : σ → Prop} (hstep : ∀ {s a t}, I s → step s a t → I t)
    (h : Run step s xs t) (hs : I s) : Run (fun s a t => I s ∧ step s a t ∧ I t) s xs t := by
  induction h with
  | nil s => exact .nil s
  | cons h₁ _ ih => exact .cons ⟨hs, h₁, hstep hs h₁⟩ (ih (hstep hs h₁))

/-- An invariant of the state and of the labels so far. -/
theorem history {I : List α → σ → Prop}
    (hstep : ∀ {ys u a v}, I ys u → step u a v → I (ys ++ [a]) v) (h : Run step s xs t)
    (hs : I [] s) : I xs t := by
  induction xs using List.reverseRecOn generalizing t with
  | nil => cases h; exact hs
  | append_singleton xs a ih =>
    obtain ⟨u, hxs, hlast⟩ := h.split
    cases hlast with
    | cons ha hnil => cases hnil; exact hstep (ih hxs) ha

/-- Each step of a run, with the run before it and the labels after it. -/
theorem prefixed (h : Run step s xs t) :
    Run (fun u a v => ∃ ys zs, xs = ys ++ a :: zs ∧ Run step s ys u ∧ step u a v) s xs t := by
  induction h with
  | nil s => exact .nil s
  | cons hs _ ih =>
    refine .cons ⟨[], _, rfl, .nil _, hs⟩ (ih.mono fun hst => ?_)
    obtain ⟨ys, zs, he, hr, hst⟩ := hst
    exact ⟨_ :: ys, zs, congrArg _ he, .cons hs hr, hst⟩

/-- The last step that established a property: it failed before the step, holds
after it and at every later state of the run. -/
theorem onset {P : σ → Prop} (h : Run step s xs t) (hs : ¬ P s) (ht : P t) :
    ∃ ys a zs u v, xs = ys ++ a :: zs ∧ Run step s ys u ∧ ¬ P u ∧ step u a v ∧ P v ∧
      Run (fun s a t => P s ∧ step s a t ∧ P t) v zs t := by
  induction xs using List.reverseRecOn generalizing t with
  | nil => cases h; exact absurd ht hs
  | append_singleton xs a ih =>
    obtain ⟨u, hxs, hlast⟩ := h.split
    cases hlast with
    | cons ha hnil =>
      cases hnil
      by_cases hu : P u
      · obtain ⟨ys, b, zs, u', v, rfl, hys, hu', hb, hv, hzs⟩ := ih hxs hu
        exact ⟨ys, b, zs ++ [a], u', v, by simp, hys, hu', hb, hv, hzs.snoc ⟨hu, ha, ht⟩⟩
      · exact ⟨xs, a, [], u, t, rfl, hxs, hu, ha, ht, .nil t⟩

/-- When each step of one system is matched by a run of another between the
images of its states, so is each of its runs. -/
theorem simulate {step' : τ → β → τ → Prop} {f : σ → τ}
    (hstep : ∀ {s a t}, step s a t → ∃ ys, Run step' (f s) ys (f t)) (h : Run step s xs t) :
    ∃ ys, Run step' (f s) ys (f t) := by
  induction h with
  | nil s => exact ⟨[], .nil _⟩
  | cons h₁ _ ih =>
    obtain ⟨ys, hys⟩ := hstep h₁
    obtain ⟨zs, hzs⟩ := ih
    exact ⟨ys ++ zs, hys.append hzs⟩

end Run

/-! ## Runs of partial functions -/

/-- Execute labels in order; `none` as soon as one is not enabled. -/
def exec (f : σ → α → Option σ) : σ → List α → Option σ
  | s, [] => some s
  | s, a :: xs => (f s a).bind fun t => exec f t xs

theorem exec_cons {f : σ → α → Option σ} {s t : σ} {a : α} (h : f s a = some t) (xs : List α) :
    exec f s (a :: xs) = exec f t xs := by
  rw [exec, h]
  rfl

theorem exec_append (f : σ → α → Option σ) (xs ys : List α) (s : σ) :
    exec f s (xs ++ ys) = (exec f s xs).bind fun t => exec f t ys := by
  induction xs generalizing s with
  | nil => rfl
  | cons a xs ih => simp only [List.cons_append, exec, Option.bind_assoc, ih]

theorem Run.of_exec {f : σ → α → Option σ} {s t : σ} {xs : List α}
    (h : exec f s xs = some t) :
    Run (fun s a t => f s a = some t) s xs t := by
  induction xs generalizing s with
  | nil => cases h; exact .nil _
  | cons a xs ih =>
    simp only [exec, Option.bind_eq_some_iff] at h
    obtain ⟨u, hu, hx⟩ := h
    exact .cons hu (ih hx)

/-- What was executed under a guard is a run of the steps the guard lets through. -/
theorem Run.of_guarded {f : σ → α → Option σ} {p : σ → α → Bool} {s t : σ} {xs : List α}
    (h : exec (fun s a => if p s a then none else f s a) s xs = some t) :
    Run (fun s a t => f s a = some t ∧ p s a = false) s xs t :=
  (Run.of_exec h).mono fun {s a t} hst => by
    split at hst
    · cases hst
    · rename_i hp
      exact ⟨hst, Bool.eq_false_iff.mpr hp⟩

/-- A total function has a run over every list of labels. -/
theorem Run.of_fold (f : σ → α → σ) (xs : List α) (s : σ) :
    Run (fun s a t => f s a = t) s xs (xs.foldl f s) := by
  induction xs generalizing s with
  | nil => exact .nil s
  | cons a xs ih => exact .cons rfl (ih (f s a))

/-! ## What the steps put out -/

/-- The outputs of the steps of an execution, in order. -/
def outputs (f : σ → α → Option σ) (out : σ → α → List β) : σ → List α → List β
  | _, [] => []
  | s, a :: xs => out s a ++ match f s a with
    | some t => outputs f out t xs
    | none => []

theorem outputs_snoc {f : σ → α → Option σ} (out : σ → α → List β) {s t : σ} {xs : List α}
    (h : Run (fun s a t => f s a = some t) s xs t) (a : α) :
    outputs f out s (xs ++ [a]) = outputs f out s xs ++ out t a := by
  induction h with
  | nil s =>
    show out s a ++ _ = [] ++ out s a
    cases f s a <;> simp [outputs]
  | cons hst _ ih => simp only [List.cons_append, outputs, hst, ih, List.append_assoc]

/-- An invariant of the outputs so far and the state, kept by the steps a run is known to
be made of. -/
theorem Run.audited_of {f : σ → α → Option σ} {step : σ → α → σ → Prop}
    (hf : ∀ {u a v}, step u a v → f u a = some v) {out : σ → α → List β}
    {I : List β → σ → Prop} {s t : σ} {xs : List α}
    (hstep : ∀ {os u a v}, I os u → step u a v → I (os ++ out u a) v) (h : Run step s xs t)
    (hs : I [] s) : I (outputs f out s xs) t := by
  have hboth := h.history (I := fun ys u => Run step s ys u ∧ I (outputs f out s ys) u)
    (fun {ys u a v} hu hst => ⟨hu.1.snoc hst, by
      have hrun : Run (fun s a t => f s a = some t) s ys u := hu.1.mono fun h => hf h
      rw [outputs_snoc out hrun]
      exact hstep hu.2 hst⟩)
    ⟨.nil s, hs⟩
  exact hboth.2

/-- An invariant of the outputs so far and the state. -/
theorem Run.audited {f : σ → α → Option σ} {out : σ → α → List β} {I : List β → σ → Prop} {s t : σ}
    {xs : List α} (hstep : ∀ {os u a v}, I os u → f u a = some v → I (os ++ out u a) v)
    (h : Run (fun s a t => f s a = some t) s xs t) (hs : I [] s) : I (outputs f out s xs) t :=
  h.audited_of (fun h => h) hstep hs

end Runs
