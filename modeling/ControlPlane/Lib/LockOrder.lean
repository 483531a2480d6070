import Mathlib.Logic.Relation
import Mathlib.Order.Basic

/-! # Ordered locks

Owners hold locks and wait for others. When every owner waits only for locks
that come after those it holds, no chain of waiting owners closes. -/

namespace LockOrder
open Relation

universe u v w

variable {κ : Type u} {L : Type v} {ι : Type w} [Preorder ι]

/-- `k` wants a lock that `j` holds. -/
def WaitsFor (holds wants : κ → L → Prop) (k j : κ) : Prop := k ≠ j ∧ ∃ l, wants k l ∧ holds j l

/-- Nobody wants a lock before one it holds. -/
def Ascending (rank : L → ι) (holds wants : κ → L → Prop) : Prop :=
  ∀ k l t, holds k l → wants k t → rank l < rank t

variable {rank : L → ι} {holds wants : κ → L → Prop}

/-- Along a chain of waiting owners the locks rise. -/
theorem Ascending.chain (h : Ascending rank holds wants) {k j : κ}
    (hchain : TransGen (WaitsFor holds wants) k j) :
    ∃ t l, wants k t ∧ holds j l ∧ rank t ≤ rank l := by
  induction hchain with
  | single hstep =>
    obtain ⟨-, l, hwants, hholds⟩ := hstep
    exact ⟨l, l, hwants, hholds, le_refl _⟩
  | tail _ hstep ih =>
    obtain ⟨t, l, hwants, hholds, hle⟩ := ih
    obtain ⟨-, m, hwants', hholds'⟩ := hstep
    exact ⟨t, m, hwants, hholds', hle.trans (h _ l m hholds hwants').le⟩

/-- **No deadlock.** -/
theorem Ascending.no_cycle (h : Ascending rank holds wants) (k : κ) :
    ¬ TransGen (WaitsFor holds wants) k k := by
  intro hcycle
  obtain ⟨t, l, hwants, hholds, hle⟩ := h.chain hcycle
  exact absurd hle (h k l t hholds hwants).not_ge

end LockOrder
