import Mathlib.Algebra.Order.Floor.Div
import ControlPlane.Lib.Selection

/-! # Keyset pagination

Rows are read in the order of a key that tells them apart, a bounded number at a time.
A page looks one row ahead; if there is such a row, the key of the last row returned is
the cursor, and the next page starts after it. Each page is then the next stretch of one
sorted list (`Pages.invariant`), also when rows that sort before the cursor are added
between two pages. -/

namespace Keyset
open Selection

universe u v

variable {α : Type u} {κ : Type v} [LinearOrder κ] (key : α → κ)

/-- The rows after the cursor, in order. -/
def seek (after : Option κ) (xs : List α) : List α :=
  sortBy key (xs.filter fun x => after.all fun c => decide (c < key x))

/-- One page, and the cursor of the next one. -/
def page (limit : Nat) (after : Option κ) (xs : List α) : List α × Option κ :=
  let rows := (seek key after xs).take (limit + 1)
  if limit < rows.length then (rows.take limit, (rows.take limit).getLast?.map key)
  else (rows, none)

/-- The rows `ys` are the rows `xs` and rows that sort before the cursor. -/
structure Added (c : κ) (xs ys : List α) : Prop where
  kept : ∀ x ∈ xs, x ∈ ys
  before : ∀ y ∈ ys, y ∉ xs → key y < c

/-- Following the cursors: the rows as the last call saw them, the pages so far and the
cursor the last one ended on. -/
inductive Pages (limit : Nat) (xs₀ : List α) : List α → List (List α) → Option κ → Prop
  | first : Pages limit xs₀ xs₀ [(page key limit none xs₀).1] (page key limit none xs₀).2
  | more {xs ys : List α} {pages : List (List α)} {c : κ} :
      Pages limit xs₀ xs pages (some c) → Added key c xs ys → (ys.map key).Nodup →
      Pages limit xs₀ ys (pages ++ [(page key limit (some c) ys).1]) (page key limit (some c) ys).2

variable {key}

/-! ## One page -/

theorem seek_none (xs : List α) : seek key none xs = sortBy key xs := by
  simp [seek]

/-- What the page holds in terms of the rows after its cursor. -/
theorem page_eq (limit : Nat) (after : Option κ) (xs : List α) :
    page key limit after xs =
      ((seek key after xs).take limit, if limit < (seek key after xs).length then
        ((seek key after xs).take limit).getLast?.map key else none) := by
  unfold page
  generalize seek key after xs = rows
  have hlen : limit < (rows.take (limit + 1)).length ↔ limit < rows.length := by
    rw [List.length_take]
    omega
  by_cases h : limit < rows.length
  · have htake : (rows.take (limit + 1)).take limit = rows.take limit := by
      rw [List.take_take, Nat.min_eq_left (Nat.le_succ limit)]
    simp only [hlen, h, if_true, htake]
  · have hshort : rows.length ≤ limit := Nat.not_lt.mp h
    simp only [h, if_false, List.take_of_length_le hshort,
      List.take_of_length_le (hshort.trans (Nat.le_succ limit))]

/-- In a sorted list of distinct keys the rows after one of them are those behind it. -/
theorem filter_after {before after : List α} {a : α}
    (hnd : ((before ++ a :: after).map key).Nodup)
    (hsorted : (before ++ a :: after).Pairwise fun x y => key x ≤ key y) :
    (before ++ a :: after).filter (fun x => decide (key a < key x)) = after := by
  obtain ⟨-, htail, hcross⟩ := List.pairwise_append.mp hsorted
  have hbefore : before.filter (fun x => decide (key a < key x)) = [] := by
    refine List.filter_eq_nil_iff.mpr fun x hx => ?_
    simpa using hcross x hx a List.mem_cons_self
  have hafter : after.filter (fun x => decide (key a < key x)) = after := by
    refine List.filter_eq_self.mpr fun x hx => decide_eq_true (lt_of_le_of_ne ?_ ?_)
    · exact (List.pairwise_cons.mp htail).1 x hx
    · rw [List.map_append, List.map_cons] at hnd
      have hcons := (List.nodup_append.mp hnd).2.1
      intro heq
      exact (List.nodup_cons.mp hcons).1 (heq ▸ List.mem_map_of_mem hx)
  rw [List.filter_append, hbefore, List.filter_cons_of_neg (by simp), hafter, List.nil_append]

theorem seek_sorted {xs : List α} (hnd : (xs.map key).Nodup) (after : Option κ) :
    ((seek key after xs).map key).Nodup ∧
      (seek key after xs).Pairwise fun x y => key x ≤ key y :=
  ⟨sortBy_keys_nodup (hnd.sublist (List.filter_sublist.map key)), sortBy_sorted key _⟩

/-- Seeking again from a row that a page holds. -/
theorem seek_seek {xs : List α} (hnd : (xs.map key).Nodup) {after : Option κ} {a : α}
    (ha : a ∈ seek key after xs) :
    seek key (some (key a)) xs = (seek key after xs).filter fun x => decide (key a < key x) := by
  have hafter : ∀ c ∈ after, c < key a := by
    intro c hc
    rw [seek, mem_sortBy, List.mem_filter, Option.mem_def.mp hc] at ha
    simpa using ha.2
  unfold seek
  rw [← sortBy_filter (hnd.sublist (List.filter_sublist.map key)), List.filter_filter]
  congr 1
  refine List.filter_congr fun x _ => ?_
  cases after with
  | none => simp
  | some c =>
    have hc := hafter c rfl
    by_cases hx : key a < key x
    · simp [hx, hc.trans hx]
    · simp [hx]

/-- The cursor of a page that is not the last one, and what is left after it. -/
theorem page_next {xs : List α} (hnd : (xs.map key).Nodup) {after : Option κ} {limit : Nat}
    (hlimit : 0 < limit) (hmore : limit < (seek key after xs).length) :
    ∃ a ∈ seek key after xs, (page key limit after xs).2 = some (key a) ∧
      seek key (some (key a)) xs = (seek key after xs).drop limit := by
  obtain ⟨m, rfl⟩ : ∃ m, limit = m + 1 := ⟨limit - 1, by omega⟩
  obtain ⟨hkeys, hsorted⟩ := seek_sorted hnd after
  have hm : m < (seek key after xs).length := by omega
  have hlast : (seek key after xs)[m] ∈ seek key after xs := List.getElem_mem hm
  refine ⟨(seek key after xs)[m], hlast, ?_, ?_⟩
  · rw [page_eq]
    dsimp only
    rw [if_pos hmore, List.take_add_one, List.getElem?_eq_getElem hm, Option.toList_some,
      List.getLast?_concat, Option.map_some]
  · rw [seek_seek hnd hlast]
    have hsplit : (seek key after xs).take m ++ (seek key after xs)[m] ::
        (seek key after xs).drop (m + 1) = seek key after xs := by
      rw [List.getElem_cons_drop, List.take_append_drop]
    have hbehind := filter_after (hsplit.symm ▸ hkeys) (hsplit.symm ▸ hsorted)
    rwa [hsplit] at hbehind

/-- The cursor is the key of a row of the page. -/
theorem page_cursor {xs : List α} {after : Option κ} {limit : Nat} {c : κ}
    (h : (page key limit after xs).2 = some c) : ∃ a ∈ seek key after xs, key a = c := by
  rw [page_eq] at h
  dsimp only at h
  split at h
  · obtain ⟨a, hlast, ha⟩ := Option.map_eq_some_iff.mp h
    exact ⟨a, List.mem_of_mem_take (List.mem_of_getLast? hlast), ha⟩
  · cases h

/-- Rows that sort before the cursor are not among those after it. -/
theorem Added.seek_eq {c : κ} {xs ys : List α} (h : Added key c xs ys) (hxs : (xs.map key).Nodup)
    (hys : (ys.map key).Nodup) : seek key (some c) ys = seek key (some c) xs := by
  refine sortBy_eq (hys.sublist (List.filter_sublist.map key)) ?_ (sortBy_sorted key _) fun x => ?_
  · exact (sortBy_perm key _).nodup_iff.mpr ((hxs.of_map key).filter _)
  · rw [seek, mem_sortBy, List.mem_filter, List.mem_filter]
    refine ⟨fun hx => ⟨?_, hx.2⟩, fun hx => ⟨h.kept x hx.1, hx.2⟩⟩
    by_contra hnew
    have hafter : c < key x := by simpa using hx.2
    exact lt_asymm hafter (h.before x hx.1 hnew)

/-! ## All pages -/

/-- Where the pages have got to in the sorted list of the rows of the first call. -/
structure Reached (key : α → κ) (limit : Nat) (sorted : List α) (pages : List (List α))
    (next : Option κ) (ys : List α) : Prop where
  read : pages.flatten = sorted.take (pages.length * limit)
  /-- Every page but the first starts before the end. -/
  needed : pages.length = 1 ∨ (pages.length - 1) * limit < sorted.length
  started : 0 < pages.length
  ended : next = none → sorted.length ≤ pages.length * limit
  ahead : ∀ c, next = some c → pages.length * limit < sorted.length ∧
    seek key (some c) ys = sorted.drop (pages.length * limit)
  cursor : ∀ c, next = some c → ∃ a ∈ sorted, key a = c

/-- One more page, read from where the last one ended. -/
theorem Reached.extend {limit : Nat} {sorted ys : List α} {pages : List (List α)} {after : Option κ}
    (hys : (ys.map key).Nodup) (hlimit : 0 < limit)
    (hread : pages.flatten = sorted.take (pages.length * limit))
    (hneeded : pages = [] ∨ pages.length * limit < sorted.length)
    (hseek : seek key after ys = sorted.drop (pages.length * limit)) :
    Reached key limit sorted (pages ++ [(page key limit after ys).1])
      (page key limit after ys).2 ys := by
  have hcount : (pages ++ [(page key limit after ys).1]).length = pages.length + 1 := by simp
  have hstep : (pages.length + 1) * limit = pages.length * limit + limit := Nat.succ_mul _ _
  have hlen : (seek key after ys).length = sorted.length - pages.length * limit := by
    rw [hseek, List.length_drop]
  constructor
  · rw [hcount, hstep, List.flatten_append, hread, List.flatten_singleton, page_eq, hseek,
      ← List.take_add]
  · rw [hcount, Nat.add_sub_cancel]
    refine hneeded.imp (fun h => ?_) id
    rw [h]
    rfl
  · rw [hcount]
    exact Nat.succ_pos _
  · intro hnone
    rw [hcount, hstep]
    by_contra hshort
    have hmore : limit < (seek key after ys).length := by omega
    obtain ⟨a, -, hnext, -⟩ := page_next hys hlimit hmore
    rw [hnext] at hnone
    cases hnone
  · intro c hc
    have hmore : limit < (seek key after ys).length := by
      by_contra hshort
      rw [page_eq] at hc
      dsimp only at hc
      rw [if_neg hshort] at hc
      cases hc
    obtain ⟨a, -, hnext, hdrop⟩ := page_next hys hlimit hmore
    obtain rfl := Option.some.inj (hnext.symm.trans hc)
    rw [hcount, hstep]
    exact ⟨by omega, by rw [hdrop, hseek, List.drop_drop]⟩
  · intro c hc
    obtain ⟨a, ha, rfl⟩ := page_cursor hc
    rw [hseek] at ha
    exact ⟨a, List.mem_of_mem_drop ha, rfl⟩

/-- **The pages are the sorted list, cut at every `limit`-th row.** -/
theorem Pages.reached {limit : Nat} {xs₀ ys : List α} {pages : List (List α)} {next : Option κ}
    (h : Pages key limit xs₀ ys pages next) (hnd : (xs₀.map key).Nodup) (hlimit : 0 < limit) :
    (ys.map key).Nodup ∧ Reached key limit (sortBy key xs₀) pages next ys := by
  induction h with
  | first =>
    refine ⟨hnd, ?_⟩
    have hstart : seek key none xs₀ = (sortBy key xs₀).drop (([] : List (List α)).length * limit) := by
      simp [seek_none]
    exact Reached.extend hnd hlimit (by simp) (.inl rfl) hstart
  | @more xs ys pages c _ hadded hys ih =>
    obtain ⟨hxs, hreached⟩ := ih
    obtain ⟨hmore, hseek⟩ := hreached.ahead c rfl
    exact ⟨hys, .extend hys hlimit hreached.read (.inr hmore) ((hadded.seek_eq hxs hys).trans hseek)⟩

/-- No more pages are read than there are stretches of `limit` rows, and when there is no
cursor left it is all of them. -/
theorem Reached.count {limit : Nat} {sorted ys : List α} {pages : List (List α)} {next : Option κ}
    (h : Reached key limit sorted pages next ys) (hlimit : 0 < limit) :
    pages.length ≤ max 1 (sorted.length ⌈/⌉ limit) ∧
      (next = none → pages.length = max 1 (sorted.length ⌈/⌉ limit) ∧ pages.flatten = sorted) := by
  have hle : pages.length ≤ max 1 (sorted.length ⌈/⌉ limit) := by
    rcases h.needed with hone | hbefore
    · exact le_max_of_le_left hone.le
    · refine le_max_of_le_right ?_
      by_contra hfew
      have hpred : sorted.length ⌈/⌉ limit ≤ pages.length - 1 := by omega
      rw [ceilDiv_le_iff_le_mul hlimit, Nat.mul_comm] at hpred
      omega
  refine ⟨hle, fun hnone => ⟨le_antisymm hle ?_, ?_⟩⟩
  · refine max_le h.started ?_
    rw [ceilDiv_le_iff_le_mul hlimit, Nat.mul_comm]
    exact h.ended hnone
  · rw [h.read, List.take_of_length_le (h.ended hnone)]

end Keyset
