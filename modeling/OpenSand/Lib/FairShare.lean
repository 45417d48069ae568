import OpenSand.Lib.Word
import Mathlib.Algebra.BigOperators.Group.List.Basic
import Mathlib.Algebra.Order.Floor.Semifield
import Mathlib.Data.Rat.Floor

/-!
Sharing an unsigned counter.

`spend` decrements a counter by a list of amounts and `NoWrap` says that none of
the decrements exceeds what is left. `share` is the proportional part of a
request when the requests exceed the counter; the integer parts of the shares of
requests that sum up to the given total never exceed it.
-/

namespace OpenSand.FairShare

open OpenSand.Word

/-! ### Decrements -/

/-- A counter of `w` bits after a list of decrements. -/
def spend (w r : Nat) (amounts : List Nat) : Nat := amounts.foldl (subW w) r

/-- Each decrement is at most what the former ones left. -/
def NoWrap (w : Nat) : Nat → List Nat → Prop
  | _, [] => True
  | r, amount :: rest => amount ≤ r ∧ NoWrap w (subW w r amount) rest

theorem spend_append (w r : Nat) (a b : List Nat) :
    spend w r (a ++ b) = spend w (spend w r a) b :=
  List.foldl_append

theorem spend_lt {w r : Nat} (hr : r < 2 ^ w) (amounts : List Nat) :
    spend w r amounts < 2 ^ w := by
  induction amounts generalizing r with
  | nil => exact hr
  | cons amount rest ih => exact ih (subW_lt w r amount)

/-- No decrement wraps exactly when the counter can pay for all of them. -/
theorem noWrap_iff_sum_le {w r : Nat} (hr : r < 2 ^ w) {amounts : List Nat} :
    NoWrap w r amounts ↔ amounts.sum ≤ r := by
  induction amounts generalizing r with
  | nil => simp [NoWrap]
  | cons amount rest ih =>
      rw [NoWrap, ih (subW_lt w r amount), List.sum_cons]
      by_cases le : amount ≤ r
      · rw [subW_of_le hr le]
        omega
      · omega

/-- Without wrap the counter is what the decrements leave. -/
theorem spend_of_sum_le {w r : Nat} (hr : r < 2 ^ w) {amounts : List Nat}
    (le : amounts.sum ≤ r) : spend w r amounts = r - amounts.sum := by
  induction amounts generalizing r with
  | nil => rfl
  | cons amount rest ih =>
      rw [List.sum_cons] at le
      have head : amount ≤ r := by omega
      have unfolded : spend w r (amount :: rest) = spend w (subW w r amount) rest := rfl
      rw [unfolded, subW_of_le hr head, ih (by omega) (by omega), List.sum_cons]
      omega

/-! ### Shares -/

/-- The integer part of a request out of a total, scaled down to the capacity when
the total exceeds it. -/
def share (total capacity request : Nat) : Nat :=
  if total ≤ capacity then request else request * capacity / total

/-- The share as it is computed from the ratio of the total to the capacity. -/
theorem floor_div_ratio {total capacity : Nat} (request : Nat) (hcapacity : 0 < capacity) :
    ⌊(request : ℚ) / max 1 ((total : ℚ) / capacity)⌋₊ = share total capacity request := by
  have hc : (0 : ℚ) < capacity := by exact_mod_cast hcapacity
  unfold share
  split
  · rename_i le
    have ratio : (total : ℚ) / capacity ≤ 1 := by
      rw [div_le_one hc]
      exact_mod_cast le
    rw [max_eq_left ratio, div_one, Nat.floor_natCast]
  · rename_i gt
    have ht : capacity < total := Nat.lt_of_not_le gt
    have ratio : 1 ≤ (total : ℚ) / capacity := by
      rw [one_le_div hc]
      exact_mod_cast ht.le
    rw [max_eq_right ratio, div_div_eq_mul_div]
    exact_mod_cast Nat.floor_div_eq_div (K := ℚ) (request * capacity) total

theorem share_le (total capacity request : Nat) : share total capacity request ≤ request := by
  unfold share
  split
  · exact le_rfl
  · rename_i gt
    apply Nat.div_le_of_le_mul
    rw [Nat.mul_comm]
    exact Nat.mul_le_mul_right request (Nat.le_of_not_le gt)

theorem sum_mul_div_le (requests : List Nat) (capacity total : Nat) :
    (requests.map fun request => request * capacity / total).sum ≤
      requests.sum * capacity / total := by
  induction requests with
  | nil => simp
  | cons request rest ih =>
      simp only [List.map_cons, List.sum_cons, Nat.add_mul]
      exact (Nat.add_le_add_left ih _).trans Nat.div_add_div_le_add_div

/-- The shares of requests of a given total never exceed the capacity. -/
theorem sum_share_le {requests : List Nat} {total capacity : Nat} (sum : requests.sum = total) :
    (requests.map (share total capacity)).sum ≤ capacity := by
  unfold share
  split
  · rename_i le
    rw [List.map_id']
    omega
  · rename_i gt
    have scaled := sum_mul_div_le requests capacity total
    have whole : requests.sum * capacity / total = capacity := by
      rw [sum, Nat.mul_div_cancel_left capacity (by omega)]
    omega

/-- Out of a total kept in `w` bits, the shares fit the capacity when the sum of the
requests does not wrap; when it does, only scaled down shares may fit. -/
theorem sum_share_wrap_le_iff {w capacity : Nat} (hcapacity : capacity < 2 ^ w)
    (requests : List Nat) :
    (requests.map (share (wrap w requests.sum) capacity)).sum ≤ capacity ↔
      requests.sum < 2 ^ w ∨
        capacity < wrap w requests.sum ∧
          (requests.map fun request => request * capacity / wrap w requests.sum).sum ≤ capacity := by
  by_cases word : requests.sum < 2 ^ w
  · rw [wrap_of_lt word]
    exact ⟨fun _ => .inl word, fun _ => sum_share_le rfl⟩
  · rw [or_iff_right word]
    unfold share
    by_cases fits : wrap w requests.sum ≤ capacity
    · simp only [if_pos fits, List.map_id']
      constructor
      · intro le
        exact absurd (le.trans_lt hcapacity) word
      · intro h
        exact absurd fits (Nat.not_le_of_lt h.1)
    · simp only [if_neg fits]
      exact ⟨fun le => ⟨Nat.lt_of_not_le fits, le⟩, fun h => h.2⟩

/-! ### Shares of one at least -/

/-- The quotient of a product by the total, raised to one. -/
def raisedShare (total product : Nat) : Nat :=
  if product / total = 0 then 1 else product / total

/-- The remainders are lost and each share below one gains a total. -/
theorem sum_raisedShare {total : Nat} (pos : 0 < total) (products : List Nat) :
    total * (products.map (raisedShare total)).sum + (products.map (· % total)).sum =
      products.sum + total * products.countP (· < total) := by
  induction products with
  | nil => rfl
  | cons product rest ih =>
      rw [List.map_cons, List.sum_cons, List.map_cons, List.sum_cons, List.sum_cons,
        List.countP_cons, Nat.mul_add, Nat.mul_add, raisedShare]
      have split := Nat.div_add_mod product total
      by_cases below : product < total
      · rw [if_pos (Nat.div_eq_of_lt below), if_pos (decide_eq_true below), Nat.mod_eq_of_lt below]
        omega
      · have quotient : product / total ≠ 0 :=
          (Nat.div_pos (Nat.not_lt.mp below) pos).ne'
        rw [if_neg quotient, if_neg (by simpa using below)]
        omega

/-- The shares make up a number exactly when the remainders are what the products lack of it
and what the raised shares gain. -/
theorem sum_raisedShare_eq_iff {total number : Nat} (pos : 0 < total) (products : List Nat) :
    (products.map (raisedShare total)).sum = number ↔
      total * number + (products.map (· % total)).sum =
        products.sum + total * products.countP (· < total) := by
  rw [← sum_raisedShare pos products, Nat.add_right_cancel_iff, Nat.mul_right_inj pos.ne']
  exact eq_comm

end OpenSand.FairShare
