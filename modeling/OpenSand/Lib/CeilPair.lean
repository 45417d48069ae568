import Mathlib.Algebra.Order.Floor.Semiring
import Mathlib.Algebra.Order.Field.Basic
import Mathlib.Tactic.Linarith
import Mathlib.Tactic.FieldSimp

/-!
Conversions in a unit, rounded up both ways.

Rates count units: `rateOf` is the rate of a number of units and `unitsOf` the number of units of
a rate. Both are rounded up. There and back never loses, and a rate gains one unit at most.
-/

namespace OpenSand.CeilPair

variable {K : Type*} [Field K] [LinearOrder K] [IsStrictOrderedRing K] [FloorSemiring K]

def rateOf (unit : K) (number : ℕ) : ℕ := ⌈(number : K) * unit⌉₊

def unitsOf (unit rate : K) : ℕ := ⌈rate / unit⌉₊

variable {unit rate : K}

theorem le_unitsOf_rateOf (pos : 0 < unit) (number : ℕ) :
    number ≤ unitsOf unit (rateOf unit number) := by
  have below : (number : K) ≤ rateOf unit number / unit := by
    rw [le_div_iff₀ pos]
    exact Nat.le_ceil _
  exact_mod_cast below.trans (Nat.le_ceil _)

theorem le_rateOf_unitsOf (pos : 0 < unit) (rate : K) : rate ≤ rateOf unit (unitsOf unit rate) := by
  have units : rate ≤ unitsOf unit rate * unit := by
    rw [← div_le_iff₀ pos]
    exact Nat.le_ceil _
  exact units.trans (Nat.le_ceil _)

theorem rateOf_unitsOf_le (pos : 0 < unit) (nonneg : 0 ≤ rate) :
    rateOf unit (unitsOf unit rate) ≤ ⌈rate + unit⌉₊ := by
  have units : (unitsOf unit rate : K) < rate / unit + 1 :=
    Nat.ceil_lt_add_one (div_nonneg nonneg pos.le)
  refine Nat.ceil_mono ?_
  calc (unitsOf unit rate : K) * unit ≤ (rate / unit + 1) * unit :=
        mul_le_mul_of_nonneg_right units.le pos.le
    _ = rate + unit := by
        field_simp

theorem rateOf_zero : rateOf unit 0 = 0 := by
  rw [rateOf, Nat.cast_zero, zero_mul, Nat.ceil_zero]

theorem unitsOf_zero : unitsOf unit 0 = 0 := by
  rw [unitsOf, zero_div, Nat.ceil_zero]

end OpenSand.CeilPair
