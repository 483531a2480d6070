import Mathlib.Data.List.Induction
import Mathlib.Data.List.Nodup
import Mathlib.Order.MinMax

/-! # Greedy selection under quotas

One pass over a list takes an element when fewer than `limit` have been taken
and its owner has slack left: its allowance exceeds what has been taken for it.
The pass over a list is the pass over its front continued on the rest
(`select_append`), so it can be computed in instalments. -/

namespace Quota

universe u v

variable {α : Type u} {τ : Type v} [DecidableEq τ] (owner : α → τ) (limit : Nat) (slack : τ → Int)

/-- How many elements of a selection one owner has. -/
def takenFor (o : τ) (taken : List α) : Nat := taken.countP fun x => owner x = o

def Admits (taken : List α) (x : α) : Prop :=
  taken.length < limit ∧ (takenFor owner (owner x) taken : Int) < slack (owner x)

instance (taken : List α) (x : α) : Decidable (Admits owner limit slack taken x) :=
  inferInstanceAs (Decidable (_ ∧ _))

def consider (taken : List α) (x : α) : List α :=
  if Admits owner limit slack taken x then taken ++ [x] else taken

def select (xs : List α) : List α := xs.foldl (consider owner limit slack) []

theorem select_append (xs ys : List α) : select owner limit slack (xs ++ ys) =
    ys.foldl (consider owner limit slack) (select owner limit slack xs) :=
  List.foldl_append

theorem select_singleton {x : α} (hl : 0 < limit) (hs : 0 < slack (owner x)) :
    select owner limit slack [x] = [x] := by
  simp [select, consider, Admits, takenFor, hl, hs]

theorem takenFor_snoc (o : τ) (taken : List α) (x : α) :
    takenFor owner o (taken ++ [x]) = takenFor owner o taken + if owner x = o then 1 else 0 := by
  simp [takenFor, List.countP_append, List.countP_singleton]

/-- A pass adds a selection of what it passes over to what it started from. -/
theorem pass_sublist (xs taken : List α) :
    ∃ more, xs.foldl (consider owner limit slack) taken = taken ++ more ∧ more.Sublist xs := by
  induction xs generalizing taken with
  | nil => exact ⟨[], by simp, List.Sublist.refl _⟩
  | cons x xs ih =>
    rw [List.foldl_cons]
    obtain ⟨more, heq, hsub⟩ := ih (consider owner limit slack taken x)
    unfold consider at heq ⊢
    split at heq
    · rename_i h
      exact ⟨x :: more, by rw [if_pos h, heq]; simp, hsub.cons_cons x⟩
    · rename_i h
      exact ⟨more, by rw [if_neg h, heq], hsub.cons x⟩

theorem select_sublist (xs : List α) : (select owner limit slack xs).Sublist xs := by
  obtain ⟨more, heq, hsub⟩ := pass_sublist owner limit slack xs []
  unfold select
  rw [heq, List.nil_append]
  exact hsub

/-- What every admission keeps, a pass keeps. -/
theorem pass_invariant {I : List α → Prop} (hstep : ∀ taken x, I taken →
    Admits owner limit slack taken x → I (taken ++ [x])) {xs taken : List α} (h : I taken) :
    I (xs.foldl (consider owner limit slack) taken) := by
  induction xs generalizing taken with
  | nil => exact h
  | cons x xs ih =>
    rw [List.foldl_cons]
    refine ih ?_
    unfold consider
    split
    · rename_i ha; exact hstep taken x h ha
    · exact h

theorem length_pass_le {xs taken : List α} (h : taken.length ≤ limit) :
    (xs.foldl (consider owner limit slack) taken).length ≤ limit := by
  refine pass_invariant owner limit slack (I := fun taken => taken.length ≤ limit) ?_ h
  intro taken x _ ha
  have := ha.1
  rw [List.length_append, List.length_singleton]
  omega

theorem length_select_le (xs : List α) : (select owner limit slack xs).length ≤ limit :=
  length_pass_le owner limit slack (Nat.zero_le limit)

/-- The pass comes back empty exactly when nobody it passes has any allowance. -/
theorem select_eq_nil_iff {xs : List α} (hl : 0 < limit) :
    select owner limit slack xs = [] ↔ ∀ x ∈ xs, slack (owner x) ≤ 0 := by
  induction xs using List.reverseRecOn with
  | nil => simp [select]
  | append_singleton xs x ih =>
    rw [select_append]
    simp only [List.foldl_cons, List.foldl_nil, consider]
    by_cases hnil : select owner limit slack xs = []
    · have hadm : Admits owner limit slack [] x ↔ 0 < slack (owner x) := by
        simp [Admits, takenFor, hl]
      have hall := ih.mp hnil
      rw [hnil]
      simp only [hadm]
      constructor
      · intro h y hy
        rcases List.mem_append.mp hy with hy | hy
        · exact hall y hy
        · rw [List.mem_singleton.mp hy]
          split at h
          · cases h
          · omega
      · intro h
        have hx := h x (by simp)
        rw [if_neg (by omega)]
    · have hsome : ¬ ∀ y ∈ xs, slack (owner y) ≤ 0 := fun h => hnil (ih.mpr h)
      constructor
      · intro h
        split at h
        · simp at h
        · exact absurd h hnil
      · intro h
        exact absurd (fun y hy => h y (by simp [hy])) hsome

end Quota
