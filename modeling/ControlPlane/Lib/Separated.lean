import Mathlib.Data.List.Basic

/-! # Words joined by a separator

Joining forgets where the words end: what it keeps is the words cut at every
separator inside them (`parts`). Two lists of nonempty words have one join
exactly when they have the same parts. -/

namespace Separated

universe u

variable {α : Type u} [DecidableEq α]

/-- The words, cut at the separators inside them. -/
def parts (x : α) (words : List (List α)) : List (List α) := words.flatMap fun w => w.splitOn x

variable {x : α} {words words' : List (List α)}

theorem parts_cons (w : List α) : parts x (w :: words) = w.splitOn x ++ parts x words := rfl

theorem parts_eq_nil : parts x words = [] ↔ words = [] := by
  cases words with
  | nil => simp [parts]
  | cons w words => simp [parts_cons, List.splitOn_ne_nil]

/-- Words without the separator are their own parts. -/
theorem parts_of_free (h : ∀ w ∈ words, x ∉ w) : parts x words = words := by
  induction words with
  | nil => rfl
  | cons w words ih =>
    rw [parts_cons, List.splitOn_eq_singleton (h w (by simp)), ih fun v hv => h v (by simp [hv])]
    rfl

/-- Cutting a join gives the parts of its words. -/
theorem splitOn_join (hne : words ≠ []) : ([x].intercalate words).splitOn x = parts x words := by
  induction words with
  | nil => exact absurd rfl hne
  | cons w words ih =>
    cases words with
    | nil => simp [parts]
    | cons v words =>
      rw [List.intercalate_cons_cons, List.append_assoc, List.singleton_append,
        List.splitOn_append_cons_self, ih (by simp), parts_cons w]

omit [DecidableEq α] in
theorem join_ne_nil (hne : words ≠ []) (h : ∀ w ∈ words, w ≠ []) : [x].intercalate words ≠ [] := by
  cases words with
  | nil => exact absurd rfl hne
  | cons w words =>
    cases words with
    | nil =>
      rw [List.intercalate_singleton]
      exact h w (by simp)
    | cons v words =>
      rw [List.intercalate_cons_cons]
      simp

/-- **Joins agree exactly when the parts do.** -/
theorem join_eq_iff (h : ∀ w ∈ words, w ≠ []) (h' : ∀ w ∈ words', w ≠ []) :
    [x].intercalate words = [x].intercalate words' ↔ parts x words = parts x words' := by
  by_cases hnil : words = []
  · subst hnil
    by_cases hnil' : words' = []
    · subst hnil'
      exact ⟨fun _ => rfl, fun _ => rfl⟩
    · constructor
      · intro he
        exact absurd he.symm (join_ne_nil hnil' h')
      · intro he
        exact absurd (parts_eq_nil.mp he.symm) hnil'
  · by_cases hnil' : words' = []
    · subst hnil'
      constructor
      · intro he
        exact absurd he (join_ne_nil hnil h)
      · intro he
        exact absurd (parts_eq_nil.mp he) hnil
    · constructor
      · intro he
        rw [← splitOn_join hnil, he, splitOn_join hnil']
      · intro he
        calc [x].intercalate words
            = [x].intercalate (([x].intercalate words).splitOn x) :=
              (List.intercalate_splitOn x).symm
          _ = [x].intercalate (([x].intercalate words').splitOn x) := by
              rw [splitOn_join hnil, he, splitOn_join hnil']
          _ = [x].intercalate words' := List.intercalate_splitOn x

end Separated
