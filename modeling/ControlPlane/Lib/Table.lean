import Mathlib.Algebra.BigOperators.Group.List.Basic
import Mathlib.Algebra.GroupWithZero.Nat
import Mathlib.Data.List.Nodup
import Mathlib.Data.List.Perm.Subperm

/-! # Tables under a primary key

A table is a list of rows in scan order together with the proof that no two
rows share a key, so a duplicate key cannot be represented. Rows are read by
key (`find?`), changed in place by a guarded update that keeps every key
(`modify`), added when their key is free (`insert?`) and removed (`delete`).
Further unique columns and foreign keys are properties these operations keep. -/

namespace Keyed

universe u v

/-- Rows in scan order, no two of them with the same key. -/
structure Table (ρ : Type u) {κ : Type v} (key : ρ → κ) where
  rows : List ρ
  nodup : (rows.map key).Nodup

namespace Table

variable {ρ : Type u} {κ : Type v} {key : ρ → κ}

def empty : Table ρ key := ⟨[], List.nodup_nil⟩

@[ext] theorem ext {t s : Table ρ key} (h : t.rows = s.rows) : t = s := by
  cases t; cases s; cases h; rfl

theorem eq_of_key_eq {t : Table ρ key} {r s : ρ} (hr : r ∈ t.rows) (hs : s ∈ t.rows)
    (h : key r = key s) : r = s :=
  List.inj_on_of_nodup_map t.nodup hr hs h

theorem rows_nodup (t : Table ρ key) : t.rows.Nodup := t.nodup.of_map key

/-- The keys of any selection of the rows are distinct. -/
theorem filter_keys_nodup (t : Table ρ key) (p : ρ → Bool) :
    ((t.rows.filter p).map key).Nodup :=
  t.nodup.sublist (List.filter_sublist.map key)

section Lookup
variable [DecidableEq κ]

/-- The row stored under a key. -/
def find? (t : Table ρ key) (k : κ) : Option ρ := t.rows.find? fun r => key r = k

theorem find?_eq_some {t : Table ρ key} {k : κ} {r : ρ} :
    t.find? k = some r ↔ r ∈ t.rows ∧ key r = k := by
  constructor
  · intro h
    exact ⟨List.mem_of_find?_eq_some h, by simpa using List.find?_some h⟩
  · rintro ⟨hr, rfl⟩
    cases h : t.find? (key r) with
    | none =>
      have := List.find?_eq_none.mp h r hr
      simp at this
    | some s =>
      have hs := List.mem_of_find?_eq_some h
      have hk : key s = key r := by simpa using List.find?_some h
      rw [eq_of_key_eq hs hr hk]

theorem find?_eq_none {t : Table ρ key} {k : κ} :
    t.find? k = none ↔ ∀ r ∈ t.rows, key r ≠ k := by
  simp [find?, List.find?_eq_none]

theorem find?_key {t : Table ρ key} {r : ρ} (hr : r ∈ t.rows) : t.find? (key r) = some r :=
  find?_eq_some.mpr ⟨hr, rfl⟩

theorem mem_of_find? {t : Table ρ key} {k : κ} {r : ρ} (h : t.find? k = some r) : r ∈ t.rows :=
  (find?_eq_some.mp h).1

theorem key_of_find? {t : Table ρ key} {k : κ} {r : ρ} (h : t.find? k = some r) : key r = k :=
  (find?_eq_some.mp h).2

/-- A lookup sees the rows under its key only. -/
theorem find?_congr_rows {t t' : Table ρ key} {k : κ}
    (h : ∀ r, key r = k → (r ∈ t.rows ↔ r ∈ t'.rows)) : t.find? k = t'.find? k := by
  apply Option.ext
  intro r
  rw [find?_eq_some, find?_eq_some]
  exact and_congr_left fun hk => h r hk

omit [DecidableEq κ] in
/-- A count sees the rows it selects only, in whatever order they are. -/
theorem countP_congr_rows {t t' : Table ρ key} {p : ρ → Bool}
    (h : ∀ r, p r = true → (r ∈ t.rows ↔ r ∈ t'.rows)) : t.rows.countP p = t'.rows.countP p := by
  rw [List.countP_eq_length_filter, List.countP_eq_length_filter]
  have hperm : (t.rows.filter p).Perm (t'.rows.filter p) := by
    refine (List.perm_ext_iff_of_nodup (t.rows_nodup.filter p) (t'.rows_nodup.filter p)).mpr
      fun r => ?_
    rw [List.mem_filter, List.mem_filter]
    exact and_congr_left (h r)
  exact hperm.length_eq

/-- Looking a key up in a column computed for a selection of the keys. -/
theorem lookup_selected {β : Type*} (key : ρ → κ) (q : κ → Bool) (f : ρ → β) (k : κ)
    (rows : List ρ) : ((rows.filter fun r => q (key r)).map fun r => (key r, f r)).lookup k =
      if q k then (rows.find? fun r => key r = k).map f else none := by
  induction rows with
  | nil => simp
  | cons r rows ih =>
    by_cases hr : key r = k
    · subst hr
      by_cases hq : q (key r) = true
      · simp [hq]
      · simp only [List.filter_cons, hq, Bool.false_eq_true, if_false] at ih ⊢
        exact ih
    · have hr' : (k == key r) = false := beq_eq_false_iff_ne.mpr (Ne.symm hr)
      by_cases hq : q (key r) = true
      · simp only [List.filter_cons, hq, if_true, List.map_cons, List.lookup_cons, hr', ih,
          List.find?_cons, hr, decide_false]
      · simp only [List.filter_cons, hq, Bool.false_eq_true, if_false, ih, List.find?_cons, hr,
          decide_false]

end Lookup

/-! ## Guarded updates -/

/-- Rewrite the rows a predicate selects. The new row keeps its key, so the
table stays keyed without looking at the other rows. -/
def modify (t : Table ρ key) (p : ρ → Bool) (f : ρ → ρ) (hf : ∀ r, key (f r) = key r) :
    Table ρ key where
  rows := t.rows.map fun r => if p r then f r else r
  nodup := by
    have hkey : key ∘ (fun r => if p r then f r else r) = key := by
      funext r
      simp only [Function.comp_apply]
      split
      · exact hf r
      · rfl
    rw [List.map_map, hkey]
    exact t.nodup

/-- The rows an update wrote, as it leaves them. -/
def modified (t : Table ρ key) (p : ρ → Bool) (f : ρ → ρ) : List ρ := (t.rows.filter p).map f

theorem mem_modify {t : Table ρ key} {p : ρ → Bool} {f : ρ → ρ} {hf : ∀ r, key (f r) = key r}
    {s : ρ} : s ∈ (t.modify p f hf).rows ↔ ∃ r ∈ t.rows, (if p r then f r else r) = s := by
  simp [modify]

theorem find?_modify [DecidableEq κ] (t : Table ρ key) (p : ρ → Bool) (f : ρ → ρ)
    (hf : ∀ r, key (f r) = key r) (k : κ) :
    (t.modify p f hf).find? k = (t.find? k).map fun r => if p r then f r else r := by
  cases h : t.find? k with
  | none =>
    rw [Option.map_none, find?_eq_none]
    intro s hs
    obtain ⟨r, hr, rfl⟩ := mem_modify.mp hs
    have hk := find?_eq_none.mp h r hr
    split
    · rw [hf]; exact hk
    · exact hk
  | some r =>
    obtain ⟨hr, hk⟩ := find?_eq_some.mp h
    rw [Option.map_some, find?_eq_some]
    refine ⟨mem_modify.mpr ⟨r, hr, rfl⟩, ?_⟩
    split
    · rw [hf]; exact hk
    · exact hk

/-- What an update wrote, when it selects at most the row under one key. -/
theorem modified_eq [DecidableEq κ] {t : Table ρ key} {p : ρ → Bool} {f : ρ → ρ} {k : κ}
    (hp : ∀ r ∈ t.rows, p r = true → key r = k) :
    t.modified p f = ((t.find? k).filter p).toList.map f := by
  unfold modified
  congr 1
  cases h : t.find? k with
  | none =>
    rw [List.filter_eq_nil_iff.mpr]
    · rfl
    · intro r hr hpr
      exact find?_eq_none.mp h r hr (hp r hr hpr)
  | some r =>
    obtain ⟨hr, hk⟩ := find?_eq_some.mp h
    have honly : ∀ s ∈ t.rows.filter p, s = r := by
      intro s hs
      obtain ⟨hs, hps⟩ := List.mem_filter.mp hs
      exact eq_of_key_eq hs hr ((hp s hs hps).trans hk.symm)
    have hnd := t.rows_nodup.filter p
    by_cases hpr : p r = true
    · have hmem : r ∈ t.rows.filter p := List.mem_filter.mpr ⟨hr, hpr⟩
      have hlen : t.rows.filter p = [r] := by
        match hl : t.rows.filter p with
        | [] => rw [hl] at hmem; cases hmem
        | [s] => rw [honly s (by rw [hl]; simp)]
        | s :: s' :: rest =>
          rw [hl] at hnd honly
          have h1 := honly s (by simp)
          have h2 := honly s' (by simp)
          subst h1
          simp [h2] at hnd
      rw [hlen]
      simp [Option.filter, hpr]
    · rw [List.filter_eq_nil_iff.mpr]
      · simp [Option.filter, hpr]
      · intro s hs hps
        exact hpr (honly s (List.mem_filter.mpr ⟨hs, hps⟩) ▸ hps)

theorem modified_key {t : Table ρ key} {p : ρ → Bool} {f : ρ → ρ} (hf : ∀ r, key (f r) = key r)
    {s : ρ} (h : s ∈ t.modified p f) : ∃ r ∈ t.rows, p r = true ∧ f r = s ∧ key s = key r := by
  obtain ⟨r, hr, rfl⟩ := List.mem_map.mp h
  obtain ⟨hr, hp⟩ := List.mem_filter.mp hr
  exact ⟨r, hr, hp, rfl, hf r⟩

/-- What an update wrote under one key. -/
theorem modified_at [DecidableEq κ] {t : Table ρ key} {p : ρ → Bool} {f : ρ → ρ}
    (hf : ∀ r, key (f r) = key r) (k : κ) :
    ((t.modified p f).filter fun r => key r = k) = ((t.find? k).filter p).toList.map f := by
  have hsel : ((t.modified p f).filter fun r => key r = k) =
      t.modified (fun r => p r && decide (key r = k)) f := by
    unfold modified
    rw [List.filter_map, List.filter_filter]
    congr 2
    funext r
    simp only [Function.comp_apply, hf, Bool.and_comm]
  have hone : ∀ r ∈ t.rows, (p r && decide (key r = k)) = true → key r = k := by
    intro r _ hr
    simpa using (Bool.and_eq_true _ _ ▸ hr : p r = true ∧ decide (key r = k) = true).2
  rw [hsel, modified_eq hone]
  congr 1
  cases h : t.find? k with
  | none => rfl
  | some r => simp [Option.filter, key_of_find? h]

/-! ## Counting -/

/-- Rows that are matched by key are not more than what they are matched with. -/
theorem countP_le {t t' : Table ρ key} {p q : ρ → Bool}
    (h : ∀ r' ∈ t'.rows, p r' = true → ∃ r ∈ t.rows, key r = key r' ∧ q r = true) :
    t'.rows.countP p ≤ t.rows.countP q := by
  have hcount : ∀ (u : Table ρ key) (p : ρ → Bool),
      u.rows.countP p = ((u.rows.filter p).map key).length := fun u p => by
    rw [List.countP_eq_length_filter, List.length_map]
  rw [hcount, hcount]
  have hsub : (t'.rows.filter p).map key ⊆ (t.rows.filter q).map key := by
    intro k hk
    obtain ⟨r', hr', rfl⟩ := List.mem_map.mp hk
    obtain ⟨hr', hp⟩ := List.mem_filter.mp hr'
    obtain ⟨r, hr, hkey, hq⟩ := h r' hr' hp
    exact List.mem_map.mpr ⟨r, List.mem_filter.mpr ⟨hr, hq⟩, hkey⟩
  exact (List.subperm_of_subset (t'.filter_keys_nodup p) hsub).length_le

/-- At most one row has a key. -/
theorem countP_key_le [BEq κ] [LawfulBEq κ] (t : Table ρ key) (k : κ) :
    (t.rows.countP fun r => key r == k) ≤ 1 := by
  have hcount : (t.rows.countP fun r => key r == k) = (t.rows.map key).count k := by
    rw [List.count, List.countP_map]
    rfl
  rw [hcount]
  exact List.nodup_iff_count_le_one.mp t.nodup k

/-- As many rows have one of the keys as there are keys, if each is some row's. -/
theorem countP_keys [DecidableEq κ] {t : Table ρ key} {ks : List κ} (hnd : ks.Nodup)
    (hks : ∀ k ∈ ks, ∃ r ∈ t.rows, key r = k) :
    (t.rows.countP fun r => decide (key r ∈ ks)) = ks.length := by
  rw [List.countP_eq_length_filter, ← List.length_map (f := key)]
  refine ((List.perm_ext_iff_of_nodup (t.filter_keys_nodup _) hnd).mpr fun k => ?_).length_eq
  constructor
  · intro hk
    obtain ⟨r, hr, rfl⟩ := List.mem_map.mp hk
    simpa using (List.mem_filter.mp hr).2
  · intro hk
    obtain ⟨r, hr, rfl⟩ := hks k hk
    exact List.mem_map_of_mem (List.mem_filter.mpr ⟨hr, by simpa using hk⟩)

theorem countP_or_le {α : Type*} (p q : α → Bool) (xs : List α) :
    (xs.countP fun x => p x || q x) ≤ xs.countP p + xs.countP q := by
  induction xs with
  | nil => exact Nat.le_refl _
  | cons x xs ih =>
    simp only [List.countP_cons]
    cases p x <;> cases q x <;> simp <;> omega

/-! ## Insertion -/

section Insert
variable [DecidableEq κ]

/-- Add a row at the end of the scan, unless its key is taken. -/
def insert? (t : Table ρ key) (r : ρ) : Option (Table ρ key) :=
  if h : key r ∈ t.rows.map key then none
  else some ⟨t.rows ++ [r], by
    rw [List.map_append, List.map_singleton]
    exact List.nodup_append.mpr ⟨t.nodup, List.nodup_singleton _, by
      intro a ha b hb
      rw [List.mem_singleton.mp hb]
      exact fun he => h (he ▸ ha)⟩⟩

theorem insert?_eq_none {t : Table ρ key} {r : ρ} :
    t.insert? r = none ↔ (t.find? (key r)).isSome = true := by
  unfold insert?
  split
  · rename_i h
    obtain ⟨s, hs, hk⟩ := List.mem_map.mp h
    simp [show t.find? (key r) = some s from find?_eq_some.mpr ⟨hs, hk⟩]
  · rename_i h
    have hn : t.find? (key r) = none :=
      find?_eq_none.mpr fun s hs hk => h (List.mem_map.mpr ⟨s, hs, hk⟩)
    simp [hn]

theorem insert?_rows {t t' : Table ρ key} {r : ρ} (h : t.insert? r = some t') :
    t'.rows = t.rows ++ [r] := by
  unfold insert? at h
  split at h
  · cases h
  · cases h; rfl

theorem insert?_fresh {t t' : Table ρ key} {r : ρ} (h : t.insert? r = some t') :
    t.find? (key r) = none := by
  cases hf : t.find? (key r) with
  | none => rfl
  | some s =>
    have := insert?_eq_none.mpr (by rw [hf]; rfl : (t.find? (key r)).isSome = true)
    rw [this] at h
    cases h

theorem find?_insert? {t t' : Table ρ key} {r : ρ} (h : t.insert? r = some t') (k : κ) :
    t'.find? k = if key r = k then some r else t.find? k := by
  have hrows := insert?_rows h
  have hfresh := insert?_fresh h
  split
  · rename_i hk
    exact find?_eq_some.mpr ⟨by rw [hrows]; simp, hk⟩
  · rename_i hk
    cases hf : t.find? k with
    | none =>
      refine find?_eq_none.mpr fun s hs => ?_
      rw [hrows, List.mem_append, List.mem_singleton] at hs
      rcases hs with hs | rfl
      · exact find?_eq_none.mp hf s hs
      · exact hk
    | some s =>
      obtain ⟨hs, hks⟩ := find?_eq_some.mp hf
      exact find?_eq_some.mpr ⟨by rw [hrows]; simp [hs], hks⟩

end Insert

/-! ## Deletion -/

/-- Remove the rows a predicate selects. -/
def delete (t : Table ρ key) (p : ρ → Bool) : Table ρ key where
  rows := t.rows.filter fun r => !p r
  nodup := t.filter_keys_nodup _

theorem mem_delete {t : Table ρ key} {p : ρ → Bool} {r : ρ} :
    r ∈ (t.delete p).rows ↔ r ∈ t.rows ∧ p r = false := by
  simp [delete]

/-- The row under a key that no selected row has stays. -/
theorem find?_delete_of_ne [DecidableEq κ] {t : Table ρ key} {p : ρ → Bool} {k : κ}
    (h : ∀ r ∈ t.rows, key r = k → p r = false) : (t.delete p).find? k = t.find? k := by
  cases hf : t.find? k with
  | none =>
    refine find?_eq_none.mpr fun r hr => ?_
    exact find?_eq_none.mp hf r (mem_delete.mp hr).1
  | some r =>
    obtain ⟨hr, hk⟩ := find?_eq_some.mp hf
    exact find?_eq_some.mpr ⟨mem_delete.mpr ⟨hr, h r hr hk⟩, hk⟩

/-! ## Unique columns and foreign keys -/

section Constraints

variable {κ' ρ' : Type*} {key' : ρ' → κ'}

/-- No two rows agree on these columns. -/
def UniqueOn (t : Table ρ key) (c : ρ → κ') : Prop :=
  ∀ r ∈ t.rows, ∀ s ∈ t.rows, c r = c s → key r = key s

theorem UniqueOn.insert [DecidableEq κ] {t t' : Table ρ key} {c : ρ → κ'} {r : ρ} (h : t.UniqueOn c)
    (hi : t.insert? r = some t') (hfree : ∀ s ∈ t.rows, c s ≠ c r) : t'.UniqueOn c := by
  intro s hs u hu he
  rw [insert?_rows hi, List.mem_append, List.mem_singleton] at hs hu
  rcases hs with hs | rfl <;> rcases hu with hu | rfl
  · exact h s hs u hu he
  · exact absurd he (hfree s hs)
  · exact absurd he.symm (hfree u hu)
  · rfl

theorem UniqueOn.modify {t : Table ρ key} {c : ρ → κ'} {p : ρ → Bool} {f : ρ → ρ}
    {hf : ∀ r, key (f r) = key r} (h : t.UniqueOn c)
    (hc : ∀ r ∈ t.rows, p r = true → c (f r) = c r) : (t.modify p f hf).UniqueOn c := by
  have hrow : ∀ s ∈ (t.modify p f hf).rows, ∃ r ∈ t.rows, key s = key r ∧ c s = c r := by
    intro s hs
    obtain ⟨r, hr, rfl⟩ := mem_modify.mp hs
    refine ⟨r, hr, ?_⟩
    split
    · rename_i hp
      exact ⟨hf r, hc r hr hp⟩
    · exact ⟨rfl, rfl⟩
  intro s hs u hu he
  obtain ⟨r, hr, hks, hcs⟩ := hrow s hs
  obtain ⟨r', hr', hku, hcu⟩ := hrow u hu
  rw [hks, hku]
  exact h r hr r' hr' (hcs ▸ hcu ▸ he)

theorem UniqueOn.eq {t : Table ρ key} {c : ρ → κ'} (h : t.UniqueOn c) {r s : ρ} (hr : r ∈ t.rows)
    (hs : s ∈ t.rows) (he : c r = c s) : r = s :=
  eq_of_key_eq hr hs (h r hr s hs he)

/-- What a row refers to, if anything, is the key of a row of the other table. -/
def References [DecidableEq κ'] (t : Table ρ key) (ref : ρ → Option κ') (t' : Table ρ' key') : Prop :=
  ∀ r ∈ t.rows, ∀ k, ref r = some k → (t'.find? k).isSome = true

variable [DecidableEq κ'] {ref : ρ → Option κ'} {t : Table ρ key} {t' t'' : Table ρ' key'}

theorem References.insert [DecidableEq κ] {t₁ : Table ρ key} {r : ρ} (h : t.References ref t')
    (hi : t.insert? r = some t₁) (hr : ∀ k, ref r = some k → (t'.find? k).isSome = true) :
    t₁.References ref t' := by
  intro s hs
  rw [insert?_rows hi, List.mem_append, List.mem_singleton] at hs
  rcases hs with hs | rfl
  · exact h s hs
  · exact hr

theorem References.modify {p : ρ → Bool} {f : ρ → ρ} {hf : ∀ r, key (f r) = key r}
    (h : t.References ref t')
    (hr : ∀ r ∈ t.rows, p r = true → ∀ k, ref (f r) = some k → (t'.find? k).isSome = true) :
    (t.modify p f hf).References ref t' := by
  intro s hs
  obtain ⟨r, hr', rfl⟩ := mem_modify.mp hs
  split
  · rename_i hp
    exact hr r hr' hp
  · exact h r hr'

theorem References.delete {p : ρ → Bool} (h : t.References ref t') :
    (t.delete p).References ref t' :=
  fun r hr => h r (mem_delete.mp hr).1

/-- The other table may grow and change in place. -/
theorem References.target (h : t.References ref t')
    (hkeep : ∀ k, (t'.find? k).isSome = true → (t''.find? k).isSome = true) :
    t.References ref t'' :=
  fun r hr k hk => hkeep k (h r hr k hk)

theorem isSome_insert {r : ρ'} (hi : t'.insert? r = some t'') (k : κ')
    (h : (t'.find? k).isSome = true) : (t''.find? k).isSome = true := by
  rw [find?_insert? hi]
  split
  · rfl
  · exact h

theorem isSome_modify {p : ρ' → Bool} {f : ρ' → ρ'} {hf : ∀ r, key' (f r) = key' r} (k : κ')
    (h : (t'.find? k).isSome = true) : ((t'.modify p f hf).find? k).isSome = true := by
  rw [find?_modify, Option.isSome_map]
  exact h

/-! ## Counting by reference -/

theorem sum_ite_countP {α : Type*} (p : α → Bool) (xs : List α) :
    (xs.map fun x => if p x then 1 else 0).sum = xs.countP p := by
  induction xs with
  | nil => rfl
  | cons x xs ih => rw [List.map_cons, List.sum_cons, ih, List.countP_cons, Nat.add_comm]

/-- Counting what refers to each row counts everything once, if no reference dangles. -/
theorem sum_countP_ref {α : Type*} (t' : Table ρ' key') (ref : α → κ')
    (p : α → Bool) {xs : List α} (h : ∀ x ∈ xs, (t'.find? (ref x)).isSome = true) :
    (t'.rows.map fun r => xs.countP fun x => ref x == key' r && p x).sum = xs.countP p := by
  induction xs with
  | nil => simp
  | cons x xs ih =>
    have hone : (t'.rows.countP fun r => ref x == key' r) = 1 := by
      obtain ⟨r, hr⟩ := Option.isSome_iff_exists.mp (h x List.mem_cons_self)
      have hpos := List.countP_pos_iff (p := fun r => ref x == key' r).mpr
        ⟨r, mem_of_find? hr, beq_iff_eq.mpr (key_of_find? hr).symm⟩
      have hle := t'.countP_key_le (ref x)
      simp only [BEq.comm (b := ref x)] at hle
      omega
    have hhead : (t'.rows.map fun r => if ref x == key' r && p x then 1 else 0).sum =
        if p x then 1 else 0 := by
      cases p x with
      | false => simp
      | true => simp only [Bool.and_true, sum_ite_countP, hone, if_true]
    simp only [List.countP_cons, List.sum_map_add, hhead, ih fun y hy => h y (List.mem_cons_of_mem x hy)]

/-! ## Rows that stay -/

/-- No row goes, and these columns of it do not change. -/
def Keeps (c : ρ' → κ) (t t' : Table ρ' key') : Prop :=
  ∀ k x, (t.find? k).map c = some x → (t'.find? k).map c = some x

variable {c : ρ' → κ}

theorem Keeps.refl (t : Table ρ' key') : Keeps c t t := fun _ _ h => h

theorem Keeps.trans {s : Table ρ' key'} (h : Keeps c t' t'') (h' : Keeps c t'' s) : Keeps c t' s :=
  fun k x hx => h' k x (h k x hx)

theorem Keeps.insert {r : ρ'} (hi : t'.insert? r = some t'') : Keeps c t' t'' := by
  intro k x hx
  rw [find?_insert? hi]
  split
  · rename_i hk
    rw [← hk, insert?_fresh hi] at hx
    cases hx
  · exact hx

theorem Keeps.modify {p : ρ' → Bool} {f : ρ' → ρ'} {hf : ∀ r, key' (f r) = key' r}
    (hc : ∀ r ∈ t'.rows, p r = true → c (f r) = c r) : Keeps c t' (t'.modify p f hf) := by
  intro k x hx
  obtain ⟨r, hr, rfl⟩ := Option.map_eq_some_iff.mp hx
  rw [find?_modify, hr, Option.map_some, Option.map_some]
  split
  · rename_i hp
    rw [hc r (mem_of_find? hr) hp]
  · rfl

/-- A column that is a function of the kept ones is kept. -/
theorem Keeps.column {κ'' : Type*} (h : Keeps c t' t'') (g : κ → κ'') {k : κ'} {x : κ''}
    (hx : (t'.find? k).map (fun r => g (c r)) = some x) :
    (t''.find? k).map (fun r => g (c r)) = some x := by
  obtain ⟨r, hr, rfl⟩ := Option.map_eq_some_iff.mp hx
  obtain ⟨r', hr', he⟩ := Option.map_eq_some_iff.mp (h k (c r) (by rw [hr, Option.map_some]))
  rw [hr', Option.map_some, he]

end Constraints

end Table

end Keyed
