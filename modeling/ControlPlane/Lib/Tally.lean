import Mathlib.Data.List.Count
import Mathlib.Data.List.Perm.Basic

/-! # Tallies

Increments are logged under the key of what they count. Where the log holds for each
row of a table what that row calls for, and nothing else (`Settles`), the totals of the
log are those of the table (`Settles.perm`), although no total knows the keys. -/

namespace Tally

universe u v w

variable {κ : Type u} {ι : Type v} {ρ : Type w} [DecidableEq κ]

/-- The increments under one key, in order. -/
def entries (k : κ) (log : List (κ × ι)) : List ι :=
  (log.filter fun e => decide (e.1 = k)).map Prod.snd

@[simp] theorem entries_nil (k : κ) : entries k ([] : List (κ × ι)) = [] := rfl

@[simp] theorem entries_append (k : κ) (log more : List (κ × ι)) :
    entries k (log ++ more) = entries k log ++ entries k more := by
  unfold entries
  rw [List.filter_append, List.map_append]

theorem entries_tagged (k : κ) (cs : List ι) : entries k (cs.map fun c => (k, c)) = cs := by
  unfold entries
  rw [List.filter_eq_self.mpr, List.map_map]
  · exact List.map_id cs
  · intro e he
    obtain ⟨c, -, rfl⟩ := List.mem_map.mp he
    exact decide_eq_true rfl

theorem entries_other {k l : κ} (h : l ≠ k) (cs : List ι) :
    entries k (cs.map fun c => (l, c)) = [] := by
  unfold entries
  rw [List.map_eq_nil_iff, List.filter_eq_nil_iff]
  intro e he
  obtain ⟨c, -, rfl⟩ := List.mem_map.mp he
  simpa using h

/-- The log holds what the rows call for, each under the row's key. -/
structure Settles (key : ρ → κ) (owed : ρ → List ι) (rows : List ρ) (log : List (κ × ι)) : Prop where
  nodup : (rows.map key).Nodup
  paid : ∀ r ∈ rows, entries (key r) log = owed r
  only : ∀ e ∈ log, ∃ r ∈ rows, key r = e.1

variable {key : ρ → κ} {owed : ρ → List ι}

/-- What is left once the entries of the first row are taken out. -/
theorem Settles.tail {r : ρ} {rows : List ρ} {log : List (κ × ι)}
    (h : Settles key owed (r :: rows) log) :
    Settles key owed rows (log.filter fun e => !decide (e.1 = key r)) := by
  obtain ⟨hfresh, hnodup⟩ := List.nodup_cons.mp h.nodup
  refine ⟨hnodup, fun s hs => ?_, fun e he => ?_⟩
  · have hne : key s ≠ key r := fun he => hfresh (he ▸ List.mem_map_of_mem hs)
    rw [← h.paid s (List.mem_cons_of_mem r hs)]
    unfold entries
    rw [List.filter_filter]
    refine congrArg _ (List.filter_congr fun e _ => ?_)
    by_cases he : e.1 = key s
    · simp [he, hne]
    · simp [he]
  · obtain ⟨hlog, hne⟩ := List.mem_filter.mp he
    obtain ⟨s, hs, hkey⟩ := h.only e hlog
    rcases List.mem_cons.mp hs with rfl | hs
    · simp [hkey] at hne
    · exact ⟨s, hs, hkey⟩

/-- **The totals of the log are those of the table.** -/
theorem Settles.perm {rows : List ρ} {log : List (κ × ι)} (h : Settles key owed rows log) :
    (log.map Prod.snd).Perm (rows.flatMap owed) := by
  induction rows generalizing log with
  | nil =>
    have hnil : log = [] := by
      refine List.eq_nil_iff_forall_not_mem.mpr fun e he => ?_
      obtain ⟨r, hr, -⟩ := h.only e he
      cases hr
    rw [hnil]
    exact List.Perm.nil
  | cons r rows ih =>
    have hsplit := (List.filter_append_perm (fun e => decide (e.1 = key r)) log).map Prod.snd
    rw [List.map_append] at hsplit
    rw [List.flatMap_cons, ← h.paid r List.mem_cons_self]
    exact hsplit.symm.trans ((ih h.tail).append_left _)

/-- Rows that call for an increment at most once. -/
theorem count_flatMap [DecidableEq ι] (c : ι) (p : ρ → Bool) {rows : List ρ}
    (h : ∀ r ∈ rows, (owed r).count c = if p r then 1 else 0) :
    (rows.flatMap owed).count c = (rows.filter p).length := by
  induction rows with
  | nil => rfl
  | cons r rows ih =>
    rw [List.flatMap_cons, List.count_append, h r List.mem_cons_self,
      ih fun s hs => h s (List.mem_cons_of_mem r hs)]
    by_cases hp : p r = true
    · rw [if_pos hp, List.filter_cons_of_pos hp, List.length_cons, Nat.add_comm]
    · rw [if_neg hp, List.filter_cons_of_neg hp, Nat.zero_add]

/-- A step of one party changes the count of the parties by what it changes it itself. -/
theorem countP_step {l : List ρ} {k : ℕ} {a b : ρ} {p : ρ → Bool} {n : ℕ} (ha : l[k]? = some a)
    (hn : (if p b then 1 else 0) = (if p a then 1 else 0) + n) :
    (l.set k b).countP p = l.countP p + n := by
  obtain ⟨hk, rfl⟩ := List.getElem?_eq_some_iff.mp ha
  have hcounted : (if p l[k] then 1 else 0) ≤ l.countP p := by
    split
    · rename_i hp
      exact List.countP_pos_iff.mpr ⟨_, List.getElem_mem hk, hp⟩
    · exact Nat.zero_le _
  rw [List.countP_set hk, hn]
  omega

end Tally
