import Mathlib.Order.Lattice
import Mathlib.Order.Monotone.Basic
import Mathlib.Tactic.Linarith

/-!
# Fixed-width unsigned arithmetic on natural numbers

Saturating, checked and wrapping operations of a `width`-bit unsigned integer,
on natural numbers.  Saturating subtraction is subtraction of natural numbers.
-/

namespace MachineInt

/-- The largest `width`-bit unsigned integer. -/
def maxValue (width : ℕ) : ℕ := 2 ^ width - 1

def saturatingAdd (width left right : ℕ) : ℕ := min (left + right) (maxValue width)

def saturatingMul (width left right : ℕ) : ℕ := min (left * right) (maxValue width)

def wrappingAdd (width left right : ℕ) : ℕ := (left + right) % 2 ^ width

def checkedAdd (width left right : ℕ) : Option ℕ :=
  if left + right < 2 ^ width then some (left + right) else none

theorem saturatingAdd_of_le {width left right : ℕ} (fits : left + right ≤ maxValue width) :
    saturatingAdd width left right = left + right :=
  min_eq_left fits

theorem saturatingAdd_le_add (width left right : ℕ) :
    saturatingAdd width left right ≤ left + right :=
  min_le_left _ _

/-- Saturating sums do not depend on the grouping of the summands. -/
theorem saturatingAdd_assoc (width first second third : ℕ) :
    saturatingAdd width (saturatingAdd width first second) third =
      saturatingAdd width first (saturatingAdd width second third) := by
  unfold saturatingAdd
  omega

@[simp]
theorem checkedAdd_eq_some {width left right total : ℕ} : checkedAdd width left right = some total ↔
      left + right = total ∧ left + right < 2 ^ width := by
  unfold checkedAdd
  split <;> grind

end MachineInt
