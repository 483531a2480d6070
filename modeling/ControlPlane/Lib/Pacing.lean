import Mathlib.Algebra.Order.Group.Defs
import Mathlib.Tactic.Abel
import Mathlib.Tactic.GCongr

/-! # Periodic duties

A process works in rounds with a pause between them, and in each round does a
duty that leaves no deadline before the present. Rounds and pauses that are not
too long (`Pace.Timely`) bound the time since the duty was last done
(`Pace.Since.le`), and with it by how much any deadline is ever missed, as long as
everything else only keeps deadlines, puts them off or sets new ones ahead. -/

namespace Pacing

universe u v

variable {T : Type u} {σ : Type v}

inductive Pace (T : Type u) where
  /-- in a round begun at `start`, the duty ahead -/
  | ahead (start : T)
  /-- in a round begun at `start`, the duty done -/
  | behind (start : T)
  | resting (since : T)

/-- When the present round or pause was entered. -/
def Pace.entered : Pace T → T
  | ahead start => start
  | behind start => start
  | resting since => since

/-- How long a round and a pause may take. -/
structure Limits (T : Type u) where
  work : T
  rest : T

section
variable [AddCommGroup T] [LinearOrder T]

/-- The longest time between two performances of the duty. -/
def Limits.latency (l : Limits T) : T := l.rest + (l.work + l.work)

/-- The present round or pause has not taken too long. -/
def Pace.Timely (l : Limits T) (now : T) : Pace T → Prop
  | ahead start => now ≤ start + l.work
  | behind start => now ≤ start + l.work
  | resting since => now ≤ since + l.rest

/-- What the time of the last performance says about the present round or pause. -/
def Pace.Since (l : Limits T) (last : T) : Pace T → Prop
  | ahead start => start ≤ last + l.work + l.rest
  | behind start => start ≤ last
  | resting since => since ≤ last + l.work

namespace Pace.Since

variable {l : Limits T} {last now s : T} {p : Pace T}

theorem performed (h : s ≤ now) : (behind s).Since l now := h

variable [IsOrderedAddMonoid T]

theorem finished (h : (behind s).Since l last) (ht : (behind s).Timely l now) :
    (resting now).Since l last :=
  ht.trans (add_le_add_left h _)

theorem begun (h : (resting s).Since l last) (ht : (resting s).Timely l now) :
    (ahead now).Since l last :=
  ht.trans (add_le_add_left h _)

/-- **The duty is never long overdue.** -/
theorem le (h : p.Since l last) (ht : p.Timely l now) (hwork : 0 ≤ l.work) (hrest : 0 ≤ l.rest) :
    now ≤ last + l.latency := by
  cases p with
  | ahead s =>
    calc now ≤ s + l.work := ht
      _ ≤ last + l.work + l.rest + l.work := add_le_add_left h _
      _ = last + l.latency := by unfold Limits.latency; abel
  | behind s =>
    calc now ≤ s + l.work := ht
      _ ≤ last + l.work := add_le_add_left h _
      _ ≤ last + (l.rest + (l.work + l.work)) := by
        gcongr
        exact le_add_of_nonneg_of_le hrest (le_add_of_nonneg_left hwork)
  | resting s =>
    calc now ≤ s + l.rest := ht
      _ ≤ last + l.work + l.rest := add_le_add_left h _
      _ ≤ last + l.work + l.rest + l.work := le_add_of_nonneg_right hwork
      _ = last + l.latency := by unfold Limits.latency; abel

end Pace.Since
end

/-! ## Deadlines -/

variable [LinearOrder T] (pending : σ → T → Prop)

/-- No deadline lies before this time. -/
def Clear (last : T) (s : σ) : Prop := ∀ d, pending s d → last ≤ d

/-- Whatever is due afterwards was due no later before, or is due from now on. -/
def Defers (now : T) (s s' : σ) : Prop := ∀ d', pending s' d' → now ≤ d' ∨ ∃ d, pending s d ∧ d ≤ d'

variable {pending}

theorem Clear.defers {last now : T} {s s' : σ} (h : Clear pending last s) (hle : last ≤ now)
    (hd : Defers pending now s s') : Clear pending last s' := by
  intro d' hd'
  rcases hd d' hd' with hnow | ⟨d, hpend, hlt⟩
  · exact hle.trans hnow
  · exact (h d hpend).trans hlt

variable [AddCommGroup T]

/-- The duty was done at some time, and since then every deadline has been kept. -/
def Current (pending : σ → T → Prop) (l : Limits T) (now : T) (p : Pace T) (s : σ) : Prop :=
  p.entered ≤ now ∧ ∃ last, last ≤ now ∧ p.Since l last ∧ Clear pending last s

namespace Current

variable {l : Limits T} {now now' : T} {p p' : Pace T} {s s' : σ}

/-- Everybody else's step. -/
theorem defers (h : Current pending l now p s) (hnow : now ≤ now') (hd : Defers pending now s s') :
    Current pending l now' p s' := by
  obtain ⟨hentered, last, hlast, hp, hclear⟩ := h
  exact ⟨hentered.trans hnow, last, hlast.trans hnow, hp, hclear.defers hlast hd⟩

theorem performed {start : T} (h : Current pending l now (.ahead start) s)
    (hclear : Clear pending now s') : Current pending l now (.behind start) s' :=
  ⟨h.1, now, le_refl now, .performed h.1, hclear⟩

variable [IsOrderedAddMonoid T]

theorem finished {start : T} (h : Current pending l now (.behind start) s)
    (ht : (Pace.behind start).Timely l now) : Current pending l now (.resting now) s := by
  obtain ⟨-, last, hlast, hp, hclear⟩ := h
  exact ⟨le_refl now, last, hlast, hp.finished ht, hclear⟩

theorem begun {since : T} (h : Current pending l now (.resting since) s)
    (ht : (Pace.resting since).Timely l now) : Current pending l now (.ahead now) s := by
  obtain ⟨-, last, hlast, hp, hclear⟩ := h
  exact ⟨le_refl now, last, hlast, hp.begun ht, hclear⟩

/-- **No deadline is missed by more than the latency.** -/
theorem within (h : Current pending l now p s) (ht : p.Timely l now) (hwork : 0 ≤ l.work)
    (hrest : 0 ≤ l.rest) {d : T} (hd : pending s d) : now ≤ d + l.latency := by
  obtain ⟨-, last, -, hp, hclear⟩ := h
  exact (hp.le ht hwork hrest).trans (add_le_add_left (hclear d hd) _)

end Current

end Pacing
