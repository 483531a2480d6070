import Mathlib.Logic.Basic
import Mathlib.Data.List.Basic

/-! # Computations that may raise

Inversion rules for `Except`: what a computation that returned must have gone
through. A fold over a list that returned kept whatever each of its steps
keeps (`foldlM_invariant`). A computation avoids an error when it never ends
with it; the rules follow the computation's parts. -/

namespace Fallible

universe u v

variable {ε : Type u} {α β : Type v}

theorem ok_bind {a : α} {f : α → Except ε β} : (Except.ok a >>= f) = f a := rfl

theorem error_bind {e : ε} {f : α → Except ε β} : (Except.error e >>= f) = .error e := rfl

theorem bind_ok {x : Except ε α} {f : α → Except ε β} {b : β} :
    (x >>= f) = .ok b ↔ ∃ a, x = .ok a ∧ f a = .ok b := by
  cases x with
  | error e => simp [bind, Except.bind]
  | ok a => simp [bind, Except.bind]

theorem bind_raises {x : Except ε α} {f : α → Except ε β} {e : ε} :
    (x >>= f) = .error e ↔ x = .error e ∨ ∃ a, x = .ok a ∧ f a = .error e := by
  cases x with
  | error e' => simp [bind, Except.bind]
  | ok a => simp [bind, Except.bind]

theorem pure_ok {a b : α} : (pure a : Except ε α) = .ok b ↔ a = b := by
  simp [pure, Except.pure]

theorem map_ok {x : Except ε α} {f : α → β} {b : β} (h : x.map f = .ok b) :
    ∃ a, x = .ok a ∧ f a = b := by
  cases x with
  | error e => cases h
  | ok a => exact ⟨a, rfl, Except.ok.inj h⟩

theorem mapSnd_ok {γ : Type v} {x : Except ε (α × β)} {f : β → γ} {a : α} {c : γ}
    (h : x.map (Prod.map id f) = .ok (a, c)) : ∃ b, x = .ok (a, b) ∧ c = f b := by
  cases x with
  | error e => cases h
  | ok p =>
    cases h
    exact ⟨_, rfl, rfl⟩

theorem mapError_ok {ε' : Type u} {x : Except ε α} {f : ε → ε'} {a : α} :
    x.mapError f = .ok a ↔ x = .ok a := by
  cases x with
  | error e => simp [Except.mapError]
  | ok b => simp [Except.mapError]

/-- Go on when a condition holds, raise otherwise. -/
def ensure (c : Prop) [Decidable c] (e : ε) : Except ε PUnit := if c then .ok ⟨⟩ else .error e

theorem ensure_ok {c : Prop} [Decidable c] {e : ε} {u : PUnit} : ensure c e = .ok u ↔ c := by
  unfold ensure
  by_cases h : c <;> simp [h]

theorem ensure_eq {c : Prop} [Decidable c] {e : ε} (h : c) : ensure c e = .ok ⟨⟩ := if_pos h

theorem forM_succeeds {γ : Type*} {f : γ → Except ε PUnit} {xs : List γ}
    (h : ∀ x ∈ xs, f x = .ok ⟨⟩) : forM xs f = .ok ⟨⟩ := by
  induction xs with
  | nil => rfl
  | cons y ys ih =>
    rw [List.forM_cons, h y (by simp), ok_bind]
    exact ih fun x hx => h x (by simp [hx])

theorem forM_ok {γ : Type*} {f : γ → Except ε PUnit} {xs : List γ} {u : PUnit}
    (h : forM xs f = .ok u) : ∀ x ∈ xs, f x = .ok ⟨⟩ := by
  induction xs with
  | nil => intro x hx; cases hx
  | cons y ys ih =>
    rw [List.forM_cons] at h
    obtain ⟨⟨⟩, h₁, h₂⟩ := bind_ok.mp h
    intro x hx
    rcases List.mem_cons.mp hx with rfl | hx
    · exact h₁
    · exact ih h₂ x hx

/-- A fold that returned kept every property its steps keep. -/
theorem foldlM_invariant {γ : Type*} {I : α → Prop} {step : α → γ → Except ε α}
    (hstep : ∀ {a c b}, I a → step a c = .ok b → I b) {xs : List γ} {a b : α}
    (h : xs.foldlM step a = .ok b) (ha : I a) : I b := by
  induction xs generalizing a with
  | nil =>
    rw [List.foldlM_nil] at h
    exact pure_ok.mp h ▸ ha
  | cons c xs ih =>
    rw [List.foldlM_cons] at h
    obtain ⟨a', h₁, h₂⟩ := bind_ok.mp h
    exact ih h₂ (hstep ha h₁)

/-! ## Errors that cannot occur -/

/-- The computation does not end with this error. -/
def Avoids (e : ε) (x : Except ε α) : Prop := x ≠ .error e

theorem avoids_ok (e : ε) (a : α) : Avoids e (.ok a : Except ε α) := by
  intro h
  cases h

theorem avoids_error {e e' : ε} (h : e' ≠ e) : Avoids e (.error e' : Except ε α) := by
  intro he
  exact h (Except.error.inj he)

theorem avoids_of_returns {e : ε} {x : Except ε α} (h : ∃ a, x = .ok a) : Avoids e x := by
  obtain ⟨a, rfl⟩ := h
  exact avoids_ok e a

theorem avoids_bind {e : ε} {x : Except ε α} {f : α → Except ε β} (hx : Avoids e x)
    (hf : ∀ a, x = .ok a → Avoids e (f a)) : Avoids e (x >>= f) := by
  cases x with
  | error e' => exact fun he => hx (congrArg Except.error (Except.error.inj he))
  | ok a => exact hf a rfl

theorem avoids_map {e : ε} {x : Except ε α} (f : α → β) (hx : Avoids e x) :
    Avoids e (x.map f) := by
  cases x with
  | error e' => exact fun he => hx (congrArg Except.error (Except.error.inj he))
  | ok a => exact avoids_ok e (f a)

theorem avoids_ensure {c : Prop} [Decidable c] {e e' : ε} (h : e' ≠ e) : Avoids e (ensure c e') := by
  unfold ensure
  split
  · exact avoids_ok e _
  · exact avoids_error h

theorem foldlM_avoids {γ : Type*} {e : ε} {step : α → γ → Except ε α}
    (hstep : ∀ a c, Avoids e (step a c)) (xs : List γ) (a : α) : Avoids e (xs.foldlM step a) := by
  induction xs generalizing a with
  | nil => exact avoids_ok e a
  | cons c xs ih =>
    rw [List.foldlM_cons]
    exact avoids_bind (hstep a c) fun b _ => ih b

end Fallible
