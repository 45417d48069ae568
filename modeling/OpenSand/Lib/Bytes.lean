import Mathlib.Data.List.Basic
import Mathlib.Data.Nat.Basic
import Mathlib.Tactic.Ring

/-!
Byte strings with fields at offsets.

`toLE` and `toBE` write a number on a given number of bytes, `ofLE` and `ofBE`
read it back. `slice` and `patch` read and overwrite bytes in place; both fail
when they leave the string. The layout lemmas speak of a string given as
consecutive parts.
-/

namespace OpenSand.Bytes

abbrev Data := List UInt8

/-! ### Numbers on bytes -/

/-- The low bytes of a number, least significant first. -/
def toLE : Nat → Nat → Data
  | 0, _ => []
  | w + 1, n => UInt8.ofNat n :: toLE w (n / 256)

def ofLE : Data → Nat
  | [] => 0
  | b :: bs => b.toNat + 256 * ofLE bs

/-- The low bytes of a number, most significant first. -/
def toBE (w n : Nat) : Data := (toLE w n).reverse

def ofBE (bytes : Data) : Nat := ofLE bytes.reverse

@[simp] theorem toLE_length (w n : Nat) : (toLE w n).length = w := by
  induction w generalizing n with
  | zero => rfl
  | succ w ih => simp [toLE, ih]

@[simp] theorem toBE_length (w n : Nat) : (toBE w n).length = w := by
  simp [toBE]

/-- The bytes of a number hold its low part. -/
theorem ofLE_toLE_mod (w n : Nat) : ofLE (toLE w n) = n % 256 ^ w := by
  induction w generalizing n with
  | zero => simp [toLE, ofLE, Nat.mod_one]
  | succ w ih =>
      have byte : (UInt8.ofNat n).toNat = n % 256 := UInt8.toNat_ofNat'
      rw [toLE, ofLE, ih, byte, pow_succ', Nat.mod_mul]

theorem ofLE_toLE {w n : Nat} (h : n < 256 ^ w) : ofLE (toLE w n) = n := by
  rw [ofLE_toLE_mod, Nat.mod_eq_of_lt h]

theorem ofLE_lt (bytes : Data) : ofLE bytes < 256 ^ bytes.length := by
  induction bytes with
  | nil => simp [ofLE]
  | cons byte bytes ih =>
      have low := byte.toNat_lt
      rw [ofLE, List.length_cons, pow_succ]
      omega

theorem ofBE_toBE {w n : Nat} (h : n < 256 ^ w) : ofBE (toBE w n) = n := by
  rw [ofBE, toBE, List.reverse_reverse, ofLE_toLE h]

/-- Reading little-endian what is stored big-endian. -/
theorem ofLE_reverse (bytes : Data) : ofLE bytes.reverse = ofBE bytes := rfl

theorem ofLE_injective {a b : Data} (hlen : a.length = b.length) (h : ofLE a = ofLE b) :
    a = b := by
  induction a generalizing b with
  | nil => exact (List.length_eq_zero_iff.mp hlen.symm).symm
  | cons x xs ih =>
      cases b with
      | nil => cases hlen
      | cons y ys =>
          have hx := x.toNat_lt
          have hy := y.toNat_lt
          simp only [ofLE] at h
          simp only [List.length_cons] at hlen
          have head : x = y := UInt8.toNat_inj.mp (by omega)
          have tail : xs = ys := ih (by omega) (by omega)
          rw [head, tail]

/-! ### Reading and overwriting in place -/

/-- The `n` bytes at an offset. -/
def slice (off n : Nat) (data : Data) : Option Data :=
  if off + n ≤ data.length then some ((data.drop off).take n) else none

/-- The string with the bytes at an offset overwritten. -/
def patch (off : Nat) (bytes data : Data) : Option Data :=
  if off + bytes.length ≤ data.length then
    some (data.take off ++ bytes ++ data.drop (off + bytes.length))
  else none

theorem slice_append {pre mid post : Data} {off n : Nat} (hoff : pre.length = off)
    (hn : mid.length = n) : slice off n (pre ++ (mid ++ post)) = some mid := by
  subst hoff hn
  simp [slice]

theorem patch_append {pre mid post bytes : Data} {off : Nat} (hoff : pre.length = off)
    (hlen : mid.length = bytes.length) :
    patch off bytes (pre ++ (mid ++ post)) = some (pre ++ (bytes ++ post)) := by
  subst hoff
  simp [patch, ← hlen]

/-- The bytes behind an overwritten field are left alone. -/
theorem patch_drop {off : Nat} {bytes data data' : Data}
    (patched : patch off bytes data = some data') :
    data'.drop (off + bytes.length) = data.drop (off + bytes.length) := by
  unfold patch at patched
  split at patched
  · cases patched
    have length : (data.take off ++ bytes).length = off + bytes.length := by
      simp
      omega
    rw [← length, List.drop_left]
  · cases patched

/-- Overwriting inside the middle of three parts changes the middle only. -/
theorem patch_middle {pre mid post bytes : Data} {off : Nat} (low : pre.length ≤ off)
    (high : off + bytes.length ≤ pre.length + mid.length) :
    ∃ mid', mid'.length = mid.length ∧
      patch off bytes (pre ++ (mid ++ post)) = some (pre ++ (mid' ++ post)) := by
  let before := mid.take (off - pre.length)
  let covered := (mid.drop (off - pre.length)).take bytes.length
  let after := (mid.drop (off - pre.length)).drop bytes.length
  have parts : mid = before ++ (covered ++ after) := by
    simp only [before, covered, after, List.take_append_drop]
  have hcovered : covered.length = bytes.length := by simp [covered]; omega
  have hbefore : (pre ++ before).length = off := by simp [before]; omega
  refine ⟨before ++ (bytes ++ after), ?_, ?_⟩
  · rw [parts]
    simp [hcovered]
  · rw [parts]
    simpa using @patch_append (pre ++ before) covered (after ++ post) bytes off hbefore hcovered

end OpenSand.Bytes
