import Mathlib.Data.List.AList

/-! # Rows grouped into a dictionary

A loop that files each row under its key, starting a key's entry when it meets
it first. What is stored under a key is what the rows with that key alone would
have built (`lookup_group`), and a dictionary that keeps one row a key holds the
row itself when no other has its key (`lookup_index`). -/

namespace Grouping

/-- A Python dict. -/
abbrev Dict (κ β : Type*) := AList fun _ : κ => β

variable {κ β ρ : Type*} [DecidableEq κ]

/-- `for row in rows: d.setdefault(key(row), init)` with `add` applied to the entry. -/
def group (key : ρ → κ) (init : β) (add : β → ρ → β) (rows : List ρ) (d : Dict κ β) : Dict κ β :=
  rows.foldl (fun d r => d.insert (key r) (add ((d.lookup (key r)).getD init) r)) d

theorem lookup_group (key : ρ → κ) (init : β) (add : β → ρ → β) (k : κ)
    (rows : List ρ) (d : Dict κ β) : ((group key init add rows d).lookup k).getD init =
      (rows.filter fun r => key r = k).foldl add ((d.lookup k).getD init) := by
  induction rows generalizing d with
  | nil => rfl
  | cons r rows ih =>
    rw [show group key init add (r :: rows) d =
      group key init add rows (d.insert (key r) (add ((d.lookup (key r)).getD init) r)) from rfl, ih]
    by_cases hk : key r = k
    · subst hk
      simp
    · rw [AList.lookup_insert_ne (Ne.symm hk)]
      simp [hk]

/-- `for row in rows: d[key(row)] = value(row)`. -/
def index (key : ρ → κ) (value : ρ → β) (rows : List ρ) (d : Dict κ β) : Dict κ β :=
  rows.foldl (fun d r => d.insert (key r) (value r)) d

/-- The last row with a key is what is found under it. -/
theorem lookup_index_last (key : ρ → κ) (value : ρ → β) (k : κ) (rows : List ρ)
    (d : Dict κ β) : (index key value rows d).lookup k =
      ((rows.reverse.find? fun r => key r = k).map value).or (d.lookup k) := by
  induction rows generalizing d with
  | nil => rfl
  | cons r rows ih =>
    rw [show index key value (r :: rows) d =
      index key value rows (d.insert (key r) (value r)) from rfl, ih, List.reverse_cons,
      List.find?_append]
    by_cases hk : key r = k
    · subst hk
      cases rows.reverse.find? fun s => key s = key r <;> simp
    · rw [AList.lookup_insert_ne (Ne.symm hk)]
      simp [hk]

/-- When all rows with a key store one value, that is what is found. -/
theorem lookup_index {key : ρ → κ} {value : ρ → β} {r : ρ} {rows : List ρ} (d : Dict κ β)
    (hr : r ∈ rows) (hsame : ∀ s ∈ rows, key s = key r → value s = value r) :
    (index key value rows d).lookup (key r) = some (value r) := by
  rw [lookup_index_last]
  cases hfind : rows.reverse.find? fun s => key s = key r with
  | none =>
    have hno := List.find?_eq_none.mp hfind r (List.mem_reverse.mpr hr)
    simp at hno
  | some s =>
    have hs := List.mem_reverse.mp (List.mem_of_find?_eq_some hfind)
    have hk : key s = key r := by simpa using List.find?_some hfind
    simp [hsame s hs hk]

theorem lookup_index_absent {key : ρ → κ} {value : ρ → β} {k : κ} {rows : List ρ} (d : Dict κ β)
    (h : ∀ r ∈ rows, key r ≠ k) : (index key value rows d).lookup k = d.lookup k := by
  rw [lookup_index_last, List.find?_eq_none.mpr]
  · rfl
  · intro r hr
    simpa using h r (List.mem_reverse.mp hr)

end Grouping
