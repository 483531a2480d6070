import Mathlib.Data.List.Lex
import Mathlib.Data.List.Sort
import Mathlib.Data.List.Nodup
import Mathlib.Data.List.Perm.Subperm

/-! # Selecting from a sorted list

Sorting by a key that tells the elements apart commutes with filtering
(`sortBy_filter`), so the first elements of a union of classes can be found by
sorting each class on its own, cutting each, and sorting what is left
(`merge_take`). The price is what the cut classes hold together: it exceeds the
cut as soon as two classes have something and the union is longer
(`cut_length_le_iff`). -/

namespace Selection

universe u v w

variable {α : Type u} {κ : Type v} [LinearOrder κ] (key : α → κ)

def sortBy (xs : List α) : List α := xs.insertionSort fun a b => key a ≤ key b

instance total_key : Std.Total fun a b : α => key a ≤ key b := ⟨fun _ _ => le_total _ _⟩

instance trans_key : IsTrans α fun a b : α => key a ≤ key b := ⟨fun _ _ _ => le_trans⟩

theorem sortBy_perm (xs : List α) : (sortBy key xs).Perm xs := List.perm_insertionSort _ xs

theorem sortBy_sorted (xs : List α) : (sortBy key xs).Pairwise fun a b => key a ≤ key b :=
  List.pairwise_insertionSort _ xs

theorem mem_sortBy {xs : List α} {x : α} : x ∈ sortBy key xs ↔ x ∈ xs :=
  (sortBy_perm key xs).mem_iff

/-- Sorting images by a key is sorting by the key of the image. -/
theorem sortBy_map {β : Type w} (f : β → α) (xs : List β) :
    sortBy key (xs.map f) = (sortBy (fun b => key (f b)) xs).map f := by
  unfold sortBy
  exact (List.map_insertionSort _ _ f xs fun _ _ _ _ => Iff.rfl).symm

variable {key}

/-- A list of distinct keys has one sorted arrangement. -/
theorem sorted_unique {xs ys : List α} (hp : xs.Perm ys) (hnd : (xs.map key).Nodup)
    (hxs : xs.Pairwise fun a b => key a ≤ key b) (hys : ys.Pairwise fun a b => key a ≤ key b) :
    xs = ys :=
  hp.eq_of_pairwise
    (fun _ _ ha hb hab hba => List.inj_on_of_nodup_map hnd ha (hp.mem_iff.mpr hb)
      (le_antisymm hab hba)) hxs hys

theorem sortBy_keys_nodup {xs : List α} (hnd : (xs.map key).Nodup) :
    ((sortBy key xs).map key).Nodup :=
  ((sortBy_perm key xs).map key).nodup_iff.mpr hnd

theorem sortBy_strict {xs : List α} (hnd : (xs.map key).Nodup) :
    (sortBy key xs).Pairwise fun a b => key a < key b := by
  refine ((sortBy_sorted key xs).and (List.pairwise_map.mp (sortBy_keys_nodup hnd))).imp ?_
  intro a b h
  exact lt_of_le_of_ne h.1 h.2

theorem sortBy_filter {xs : List α} (hnd : (xs.map key).Nodup) (p : α → Bool) :
    sortBy key (xs.filter p) = (sortBy key xs).filter p := by
  refine sorted_unique ?_ ?_ (sortBy_sorted key _) ((sortBy_sorted key xs).filter p)
  · exact (sortBy_perm key _).trans ((sortBy_perm key xs).filter p).symm
  · exact sortBy_keys_nodup (hnd.sublist (List.filter_sublist.map key))

/-- A sorted list with the members of another, both without repetition, is its
sorted arrangement. -/
theorem sortBy_eq {xs ys : List α} (hnd : (xs.map key).Nodup) (hnd' : ys.Nodup)
    (hys : ys.Pairwise fun a b => key a ≤ key b) (hmem : ∀ x, x ∈ xs ↔ x ∈ ys) :
    sortBy key xs = ys := by
  have hp : xs.Perm ys := (List.perm_ext_iff_of_nodup (hnd.of_map key) hnd').mpr hmem
  exact sorted_unique ((sortBy_perm key xs).trans hp) (sortBy_keys_nodup hnd)
    (sortBy_sorted key xs) hys

/-- What a filter keeps of the first `n` is among the first `n` it keeps. -/
theorem mem_take_filter {xs : List α} {p : α → Bool} {n : Nat} {x : α} (hx : x ∈ xs.take n)
    (hp : p x = true) : x ∈ (xs.filter p).take n := by
  have hlen : ((xs.take n).filter p).length ≤ n :=
    (List.length_filter_le ..).trans (List.length_take_le ..)
  have hsplit : xs.filter p = (xs.take n).filter p ++ (xs.drop n).filter p := by
    rw [← List.filter_append, List.take_append_drop]
  rw [hsplit, List.take_append, List.take_of_length_le hlen]
  exact List.mem_append_left _ (List.mem_filter.mpr ⟨hx, hp⟩)

/-- Filtering by a property of all of the first `n` leaves them in front. -/
theorem take_filter_of_forall {xs : List α} {p : α → Bool} {n : Nat}
    (hp : ∀ x ∈ xs.take n, p x = true) : (xs.filter p).take n = xs.take n := by
  have hkeep : (xs.take n).filter p = xs.take n := List.filter_eq_self.mpr hp
  have hsplit : xs.filter p = xs.take n ++ (xs.drop n).filter p := by
    conv_lhs => rw [← List.take_append_drop n xs, List.filter_append, hkeep]
  rw [hsplit, List.take_append]
  by_cases hn : n ≤ xs.length
  · rw [List.length_take_of_le hn, Nat.sub_self, List.take_zero, List.append_nil, List.take_take,
      Nat.min_self]
  · rw [List.drop_of_length_le (by omega), List.filter_nil, List.take_nil, List.append_nil,
      List.take_take, Nat.min_self]

section
variable {γ : Type w} [DecidableEq γ]

/-- The first `n` of each class. -/
def cut (key : α → κ) (cls : α → γ) (ks : List γ) (n : Nat) (xs : List α) : List α :=
  ks.flatMap fun k => (sortBy key (xs.filter fun x => cls x = k)).take n

theorem mem_branch {xs : List α} {cls : α → γ} {n : Nat} {k : γ} {x : α}
    (h : x ∈ (sortBy key (xs.filter fun x => cls x = k)).take n) : cls x = k ∧ x ∈ xs := by
  have hm := (mem_sortBy key).mp (List.mem_of_mem_take h)
  simpa [and_comm] using List.mem_filter.mp hm

theorem mem_of_mem_cut {xs : List α} {cls : α → γ} {ks : List γ} {n : Nat} {x : α}
    (h : x ∈ cut key cls ks n xs) : x ∈ xs.filter fun x => cls x ∈ ks := by
  obtain ⟨k, hk, hx⟩ := List.mem_flatMap.mp h
  obtain ⟨hc, hx⟩ := mem_branch hx
  exact List.mem_filter.mpr ⟨hx, by simpa [hc] using hk⟩

theorem cut_nodup (key : α → κ) {xs : List α} (hnd : xs.Nodup) (cls : α → γ) {ks : List γ}
    (hks : ks.Nodup) (n : Nat) : (cut key cls ks n xs).Nodup := by
  refine List.nodup_flatMap.mpr ⟨fun k _ => ?_, hks.imp ?_⟩
  · exact ((sortBy_perm key _).nodup_iff.mpr (hnd.filter _)).sublist (List.take_sublist ..)
  · intro k k' hne x hx hx'
    exact hne ((mem_branch hx).1.symm.trans (mem_branch hx').1)

/-- **The first `n` of a merge.** Cutting every class at `n` before the merge
loses none of the first `n` of the union. -/
theorem merge_take {xs : List α} (hnd : (xs.map key).Nodup) (cls : α → γ) {ks : List γ}
    (hks : ks.Nodup) (n : Nat) :
    (sortBy key (cut key cls ks n xs)).take n =
      (sortBy key (xs.filter fun x => cls x ∈ ks)).take n := by
  classical
  have hE : ∀ p : α → Bool, sortBy key (xs.filter p) = (sortBy key xs).filter p :=
    sortBy_filter hnd
  have hcutnd : ((cut key cls ks n xs).map key).Nodup :=
    (cut_nodup key (hnd.of_map key) cls hks n).map_on fun x hx y hy hxy =>
      List.inj_on_of_nodup_map hnd (List.mem_of_mem_filter (mem_of_mem_cut hx))
        (List.mem_of_mem_filter (mem_of_mem_cut hy)) hxy
  have hunion : sortBy key (xs.filter fun x => cls x ∈ ks) =
      (sortBy key xs).filter fun x => cls x ∈ ks := hE _
  have hmerged : sortBy key (cut key cls ks n xs) =
      (sortBy key (xs.filter fun x => cls x ∈ ks)).filter
        fun x => decide (x ∈ cut key cls ks n xs) := by
    refine sortBy_eq hcutnd ?_ ?_ fun x => ?_
    · rw [hunion]
      exact (((sortBy_perm key xs).nodup_iff.mpr (hnd.of_map key)).filter _).filter _
    · exact (sortBy_sorted key _).filter _
    · rw [List.mem_filter, mem_sortBy]
      refine ⟨fun hx => ⟨mem_of_mem_cut hx, by simpa using hx⟩, fun hx => by simpa using hx.2⟩
  rw [hmerged]
  refine take_filter_of_forall fun x hx => ?_
  -- an element among the first `n` of the union is among the first `n` of its class
  have hmem := List.mem_of_mem_take hx
  rw [mem_sortBy, List.mem_filter] at hmem
  have hk : cls x ∈ ks := by simpa using hmem.2
  have hclass := mem_take_filter (p := fun y => decide (cls y = cls x)) hx (by simp)
  rw [hunion, List.filter_filter] at hclass
  have hpred : (fun y => decide (cls y = cls x) && decide (cls y ∈ ks)) =
      fun y => decide (cls y = cls x) := by
    funext y
    by_cases hy : cls y = cls x <;> simp [hy, hk]
  rw [hpred, ← hE] at hclass
  exact decide_eq_true (List.mem_flatMap.mpr ⟨cls x, hk, hclass⟩)

/-- Two of the classes, each cut, are no longer than all of them. -/
theorem two_branches_le (key : α → κ) {xs : List α} (hnd : xs.Nodup) (cls : α → γ) {ks : List γ}
    {n : Nat} {k k' : γ} (hk : k ∈ ks) (hk' : k' ∈ ks) (hne : k ≠ k') :
    ((sortBy key (xs.filter fun x => cls x = k)).take n).length +
      ((sortBy key (xs.filter fun x => cls x = k')).take n).length ≤
        (cut key cls ks n xs).length := by
  have hbranch : ∀ k, ((sortBy key (xs.filter fun x => cls x = k)).take n).Nodup := fun k =>
    ((sortBy_perm key _).nodup_iff.mpr (hnd.filter _)).sublist (List.take_sublist ..)
  rw [← List.length_append]
  refine (List.Nodup.subperm ?_ ?_).length_le
  · refine List.nodup_append.mpr ⟨hbranch k, hbranch k', ?_⟩
    rintro x hx _ hx' rfl
    exact hne ((mem_branch hx).1.symm.trans (mem_branch hx').1)
  · intro x hx
    rcases List.mem_append.mp hx with hx | hx
    · exact List.mem_flatMap.mpr ⟨k, hk, hx⟩
    · exact List.mem_flatMap.mpr ⟨k', hk', hx⟩

/-- **How much the cut classes hold**: no more than one of them may, just when the
classes hold no more together or only one of them holds anything. -/
theorem cut_length_le_iff {xs : List α} (hnd : xs.Nodup) (cls : α → γ) {ks : List γ}
    (hks : ks.Nodup) {n : Nat} (hn : 0 < n) : (cut key cls ks n xs).length ≤ n ↔
      (xs.filter fun x => cls x ∈ ks).length ≤ n ∨
        ∀ x ∈ xs.filter fun x => cls x ∈ ks, ∀ y ∈ xs.filter fun x => cls x ∈ ks, cls x = cls y := by
  have hcut := cut_nodup key hnd cls hks n
  constructor
  · intro hle
    by_contra hcon
    rw [not_or, Nat.not_le] at hcon
    obtain ⟨hmany, htwo⟩ := hcon
    push Not at htwo
    obtain ⟨x, hx, y, hy, hxy⟩ := htwo
    have hin : ∀ z ∈ xs.filter (fun x => cls x ∈ ks), cls z ∈ ks ∧
        z ∈ sortBy key (xs.filter fun x => cls x = cls z) := fun z hz => by
      obtain ⟨hz, hk⟩ := List.mem_filter.mp hz
      exact ⟨by simpa using hk, (mem_sortBy key).mpr (List.mem_filter.mpr ⟨hz, by simp⟩)⟩
    by_cases hall : ∀ k ∈ ks, (sortBy key (xs.filter fun x => cls x = k)).length ≤ n
    · -- nothing is cut off
      have hsub : (xs.filter fun x => cls x ∈ ks) ⊆ cut key cls ks n xs := fun z hz => by
        obtain ⟨hk, hz⟩ := hin z hz
        exact List.mem_flatMap.mpr ⟨cls z, hk, by rwa [List.take_of_length_le (hall _ hk)]⟩
      have := ((hnd.filter _).subperm hsub).length_le
      omega
    · -- a full class, and one more element of another
      push Not at hall
      obtain ⟨k, hk, hfull⟩ := hall
      obtain ⟨z, hz, hzk⟩ : ∃ z ∈ xs.filter (fun x => cls x ∈ ks), k ≠ cls z := by
        by_cases hkx : k = cls x
        · exact ⟨y, hy, hkx ▸ hxy⟩
        · exact ⟨x, hx, hkx⟩
      obtain ⟨hkz, hz⟩ := hin z hz
      have hpos : 0 < ((sortBy key (xs.filter fun x => cls x = cls z)).take n).length := by
        rw [List.length_take]
        have := List.length_pos_of_mem hz
        omega
      have htwo := two_branches_le key hnd cls (n := n) hk hkz hzk
      rw [List.length_take_of_le hfull.le] at htwo
      omega
  · rintro (hfew | hone)
    · exact (hcut.subperm fun x hx => mem_of_mem_cut hx).length_le.trans hfew
    · rcases hM : cut key cls ks n xs with _ | ⟨x, M⟩
      · exact Nat.zero_le n
      · -- everything is in the class of the first
        have hx : x ∈ cut key cls ks n xs := hM ▸ List.mem_cons_self
        have hsub : cut key cls ks n xs ⊆
            (sortBy key (xs.filter fun y => cls y = cls x)).take n := fun y hy => by
          obtain ⟨k, -, hyk⟩ := List.mem_flatMap.mp hy
          have hyx := hone y (mem_of_mem_cut hy) x (mem_of_mem_cut hx)
          rwa [← (mem_branch hyk).1, hyx] at hyk
        rw [← hM]
        exact (hcut.subperm hsub).length_le.trans (List.length_take_le ..)

end

/-- Leaving out what has been taken from the front leaves the rest. -/
theorem filter_not_taken {β : Type w} [DecidableEq β] {f : α → β} {xs : List α}
    (hnd : (xs.map f).Nodup) (m : Nat) :
    (xs.filter fun x => decide (f x ∉ (xs.take m).map f)) = xs.drop m := by
  conv_lhs => rw [← List.take_append_drop m xs]
  have hdisj : ((xs.take m).map f).Disjoint ((xs.drop m).map f) := by
    rw [← List.take_append_drop m xs, List.map_append] at hnd
    exact List.disjoint_of_nodup_append hnd
  rw [List.filter_append]
  have hgone : ((xs.take m).filter fun x =>
      decide (f x ∉ ((xs.take m ++ xs.drop m).take m).map f)) = [] := by
    rw [List.take_append_drop]
    refine List.filter_eq_nil_iff.mpr fun x hx => ?_
    simpa using List.mem_map_of_mem (f := f) hx
  have hkept : ((xs.drop m).filter fun x =>
      decide (f x ∉ ((xs.take m ++ xs.drop m).take m).map f)) = xs.drop m := by
    rw [List.take_append_drop]
    refine List.filter_eq_self.mpr fun x hx => ?_
    exact decide_eq_true fun hin => hdisj hin (List.mem_map_of_mem hx)
  rw [hgone, hkept, List.nil_append]

/-! ## Keys that extend keys -/

theorem append_lt_append : ∀ {a b c d : List κ}, a.length = c.length → a < c → a ++ b < c ++ d
  | [], _, [], _, _, h => absurd h (lt_irrefl _)
  | x :: a, b, y :: c, d, hlen, h => by
    rw [List.cons_lt_cons_iff] at h
    rw [List.cons_append, List.cons_append, List.cons_lt_cons_iff]
    rcases h with h | ⟨he, h⟩
    · exact Or.inl h
    · exact Or.inr ⟨he, append_lt_append (by simpa using hlen) h⟩

/-- A key followed by tie breakers orders like the key. -/
theorem le_of_append_le {a b c d : List κ} (hlen : a.length = c.length) (h : a ++ b ≤ c ++ d) :
    a ≤ c := by
  by_contra hno
  exact absurd h (not_le.mpr (append_lt_append hlen.symm (not_le.mp hno)))

end Selection
