import Mathlib.Data.Nat.ModEq
import Mathlib.Tactic.Ring

/-!
Unsigned machine words as natural numbers below `2 ^ w`.

`addW` and `subW` are the wrapping sum and difference of the C unsigned types.
They agree with the exact operations as long as the exact result is a word,
and the lemmas below say exactly that; overflow and underflow are the two ways
of leaving that range.
-/

namespace OpenSand.Word

/-- Reduction of a number to a word of `w` bits. -/
def wrap (w a : Nat) : Nat := a % 2 ^ w

/-- Wrapping addition. -/
def addW (w a b : Nat) : Nat := (a + b) % 2 ^ w

/-- Wrapping subtraction. -/
def subW (w a b : Nat) : Nat := (a + (2 ^ w - b % 2 ^ w)) % 2 ^ w

/-- The product of two `int` that are not negative. One that leaves the type is undefined. -/
def mulInt (a b : Nat) : Option Nat := if a * b < 2 ^ 31 then some (a * b) else none

theorem wrap_lt (w a : Nat) : wrap w a < 2 ^ w :=
  Nat.mod_lt _ (Nat.two_pow_pos w)

theorem wrap_le (w a : Nat) : wrap w a ≤ a :=
  Nat.mod_le _ _

theorem wrap_of_lt {w a : Nat} (h : a < 2 ^ w) : wrap w a = a :=
  Nat.mod_eq_of_lt h

theorem wrap_eq_self_iff {w a : Nat} : wrap w a = a ↔ a < 2 ^ w :=
  Nat.mod_eq_iff_lt (Nat.two_pow_pos w).ne'

theorem mulInt_eq_some {a b product : Nat} :
    mulInt a b = some product ↔ a * b < 2 ^ 31 ∧ product = a * b := by
  rw [mulInt, Option.ite_none_right_eq_some, Option.some_inj]
  exact and_congr_right fun _ => eq_comm

/-- A number of five bits is a byte. -/
theorem byte_of_five_bits {n : Nat} (small : n ≤ 0x1F) : (UInt8.ofNat n).toNat = n := by
  rw [UInt8.toNat_ofNat']
  omega

/-- A mask of low bits leaves the numbers that fit in them. -/
theorem and_mask_eq_iff {w n : Nat} : n &&& (2 ^ w - 1) = n ↔ n < 2 ^ w := by
  rw [Nat.and_two_pow_sub_one_eq_mod]
  constructor
  · intro same
    rw [← same]
    exact Nat.mod_lt _ (Nat.two_pow_pos w)
  · exact Nat.mod_eq_of_lt

theorem addW_lt (w a b : Nat) : addW w a b < 2 ^ w :=
  Nat.mod_lt _ (Nat.two_pow_pos w)

theorem subW_lt (w a b : Nat) : subW w a b < 2 ^ w :=
  Nat.mod_lt _ (Nat.two_pow_pos w)

theorem addW_of_lt {w a b : Nat} (h : a + b < 2 ^ w) : addW w a b = a + b :=
  Nat.mod_eq_of_lt h

theorem addW_le (w a b : Nat) : addW w a b ≤ a + b :=
  Nat.mod_le _ _

/-- The wrapping sum of words is exact only below the modulus. -/
theorem addW_eq_iff {w a b : Nat} : addW w a b = a + b ↔ a + b < 2 ^ w :=
  Nat.mod_eq_iff_lt (Nat.two_pow_pos w).ne'

/-- Without underflow the wrapping difference is the exact one. -/
theorem subW_of_le {w a b : Nat} (ha : a < 2 ^ w) (h : b ≤ a) : subW w a b = a - b := by
  have hb : b % 2 ^ w = b := Nat.mod_eq_of_lt (lt_of_le_of_lt h ha)
  have hsum : a + (2 ^ w - b) = (a - b) + 2 ^ w := by omega
  unfold subW
  rw [hb, hsum, Nat.add_mod_right]
  exact Nat.mod_eq_of_lt (by omega)

/-- An underflow leaves a result above the minuend. -/
theorem subW_of_gt {w a b : Nat} (hb : b < 2 ^ w) (h : a < b) :
    subW w a b = a + 2 ^ w - b := by
  have hmod : b % 2 ^ w = b := Nat.mod_eq_of_lt hb
  unfold subW
  rw [hmod, show a + (2 ^ w - b) = a + 2 ^ w - b by omega]
  exact Nat.mod_eq_of_lt (by omega)

/-! ### Changes of a counter -/

theorem addW_of_ge {w a b : Nat} (ha : a < 2 ^ w) (hb : b < 2 ^ w) (h : 2 ^ w ≤ a + b) :
    addW w a b = a + b - 2 ^ w := by
  rw [addW, Nat.mod_eq_sub_mod h]
  exact Nat.mod_eq_of_lt (by omega)

/-- Only 0 leaves a word as it is. -/
theorem addW_eq_right_iff {w a b : Nat} (ha : a < 2 ^ w) (hb : b < 2 ^ w) :
    addW w a b = b ↔ a = 0 := by
  rcases Nat.lt_or_ge (a + b) (2 ^ w) with fits | beyond
  · rw [addW_of_lt fits]
    omega
  · rw [addW_of_ge ha hb beyond]
    omega

theorem addW_comm (w a b : Nat) : addW w a b = addW w b a := by
  rw [addW, addW, Nat.add_comm]

/-- Two words grow by the same amount exactly when both wrap or none does. -/
theorem addW_change_eq_iff {w a b n : Nat} (ha : a < 2 ^ w) (hb : b < 2 ^ w) (hn : n < 2 ^ w) :
    (addW w a n : ℤ) - a = addW w b n - b ↔ (a + n < 2 ^ w ↔ b + n < 2 ^ w) := by
  rcases Nat.lt_or_ge (a + n) (2 ^ w) with la | la <;>
    rcases Nat.lt_or_ge (b + n) (2 ^ w) with lb | lb
  · rw [addW_of_lt la, addW_of_lt lb]
    omega
  · rw [addW_of_lt la, addW_of_ge hb hn lb]
    omega
  · rw [addW_of_ge ha hn la, addW_of_lt lb]
    omega
  · rw [addW_of_ge ha hn la, addW_of_ge hb hn lb]
    omega

/-- A word grows by what another one loses exactly when both wrap or none does. -/
theorem addW_change_eq_subW_iff {w a b n : Nat} (ha : a < 2 ^ w) (hb : b < 2 ^ w)
    (hn : n < 2 ^ w) :
    (addW w a n : ℤ) - a = b - subW w b n ↔ (a + n < 2 ^ w ↔ n ≤ b) := by
  rcases Nat.lt_or_ge (a + n) (2 ^ w) with la | la <;>
    rcases Nat.lt_or_ge b n with lb | lb
  · rw [addW_of_lt la, subW_of_gt hn lb]
    omega
  · rw [addW_of_lt la, subW_of_le hb lb]
    omega
  · rw [addW_of_ge ha hn la, subW_of_gt hn lb]
    omega
  · rw [addW_of_ge ha hn la, subW_of_le hb lb]
    omega

end OpenSand.Word
