import Mathlib.Data.Nat.Basic

/-!
A random integer scaled to a range.

The outcome of a generator of integers up to `RAND_MAX` is divided by `RAND_MAX` and
multiplied by the width of the range. The quotient is taken exactly. The greatest outcome
is the only one that leaves the range.
-/

namespace OpenSand

/-- `RAND_MAX` of the C library. -/
def RAND_MAX : Nat := 2147483647

/-- An outcome of `rand()`. -/
structure Rand where
  outcome : Nat
  le_max : outcome ≤ RAND_MAX
deriving DecidableEq, Repr

namespace Rand

/-- The least and the greatest outcomes. -/
def least : Rand := ⟨0, Nat.zero_le _⟩
def greatest : Rand := ⟨RAND_MAX, le_refl _⟩

/-- `(rand() / (double)RAND_MAX) * width`, without its fraction. -/
def scale (draw : Rand) (width : Nat) : Nat := draw.outcome * width / RAND_MAX

variable (draw : Rand) (width : Nat)

theorem scale_le : draw.scale width ≤ width := by
  have most : draw.outcome * width ≤ RAND_MAX * width := Nat.mul_le_mul_right width draw.le_max
  calc draw.outcome * width / RAND_MAX
      ≤ RAND_MAX * width / RAND_MAX := Nat.div_le_div_right most
    _ = width := Nat.mul_div_cancel_left width (by decide)

@[simp] theorem scale_zero : draw.scale 0 = 0 := by
  rw [scale, Nat.mul_zero, Nat.zero_div]

/-- Only the greatest outcome leaves a range. -/
theorem scale_lt_iff {width : Nat} (pos : 0 < width) :
    draw.scale width < width ↔ draw.outcome < RAND_MAX := by
  rw [scale, Nat.div_lt_iff_lt_mul (by decide), Nat.mul_comm width]
  exact Nat.mul_lt_mul_right pos

end Rand

end OpenSand
