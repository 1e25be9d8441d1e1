import Mathlib.Algebra.Order.Group.Nat

/-!
# Midpoints of cells

A number is rounded to the middle of its cell, where the cells have the width
of a power of two; it moves by at most half a cell.
-/

namespace MbedtlsKcp

namespace CellMidpoints

/-- The middle of the cell of `value`, which is `2 ^ (shift + 1)` wide. -/
def middle (shift value : Nat) : Nat :=
  value / 2 ^ (shift + 1) * 2 ^ (shift + 1) + 2 ^ shift

theorem middle_le (shift value : Nat) :
    middle shift value ≤ value + 2 ^ shift := by
  have floor := Nat.div_mul_le_self value (2 ^ (shift + 1))
  unfold middle
  omega

theorem le_middle (shift value : Nat) :
    value < middle shift value + 2 ^ shift := by
  have floor := Nat.lt_div_mul_add (a := value) (Nat.two_pow_pos (shift + 1))
  unfold middle
  rw [Nat.pow_succ] at floor ⊢
  omega

end CellMidpoints

end MbedtlsKcp
