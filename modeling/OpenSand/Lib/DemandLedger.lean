import Mathlib.Data.List.Perm.Basic
import Mathlib.Algebra.BigOperators.Group.List.Basic
import Mathlib.Order.Lattice
import Mathlib.Algebra.GroupWithZero.Nat

/-!
Demands on the way to a party that grants them.

Demands are sent one by one and arrive in any order. What is granted is taken off the
outstanding demand, and may exceed it by a unit, which leaves nothing outstanding: a demand
pays for one excess at most (`Balanced.within`).
-/

namespace OpenSand

/-- What was asked for and in how many demands, what is on the way, outstanding and granted,
and the largest excess of a grant. -/
structure DemandLedger where
  asked : Nat
  demands : Nat
  onTheWay : List Nat
  outstanding : Nat
  granted : Nat
  excess : Nat

namespace DemandLedger

/-- The demands that no grant has exceeded yet: the ones on the way and the outstanding one. -/
def pending (ledger : DemandLedger) : Nat :=
  (if ledger.outstanding = 0 then 0 else 1) + ledger.onTheWay.countP (· ≠ 0)

/-- The grants exceed the demands once for each demand that is not pending. -/
def Balanced (ledger : DemandLedger) : Prop :=
  ∃ exceeded, exceeded + ledger.pending ≤ ledger.demands ∧
    ledger.granted + ledger.outstanding + ledger.onTheWay.sum ≤
      ledger.asked + exceeded * ledger.excess

variable {ledger : DemandLedger}

theorem Balanced.within (balanced : ledger.Balanced) :
    ledger.granted + ledger.outstanding ≤ ledger.asked + ledger.demands * ledger.excess := by
  obtain ⟨exceeded, counted, within⟩ := balanced
  have more : exceeded * ledger.excess ≤ ledger.demands * ledger.excess :=
    Nat.mul_le_mul_right _ (by omega)
  omega

/-- A demand is sent; a null one needs not be counted. -/
theorem Balanced.ask (balanced : ledger.Balanced) {amount counted : Nat}
    (some : amount ≠ 0 → 0 < counted) :
    Balanced { ledger with
      asked := ledger.asked + amount
      demands := ledger.demands + counted
      onTheWay := ledger.onTheWay ++ [amount] } := by
  obtain ⟨exceeded, within, sum⟩ := balanced
  refine ⟨exceeded, ?_, ?_⟩
  · have one : [amount].countP (· ≠ 0) ≤ counted := by
      by_cases null : amount = 0
      · simp [null]
      · simpa [null, Nat.one_le_iff_ne_zero, Nat.pos_iff_ne_zero] using some null
    simp only [pending, List.countP_append] at within ⊢
    omega
  · simp only [List.sum_append, List.sum_singleton]
    omega

/-- A demand arrives, and may be limited. -/
theorem Balanced.arrive (balanced : ledger.Balanced) {i amount outstanding : Nat}
    (found : ledger.onTheWay[i]? = some amount)
    (le : outstanding ≤ ledger.outstanding + amount) :
    Balanced { ledger with
      onTheWay := ledger.onTheWay.eraseIdx i
      outstanding := outstanding } := by
  obtain ⟨exceeded, within, sum⟩ := balanced
  obtain ⟨bound, value⟩ := List.getElem?_eq_some_iff.mp found
  have split := List.getElem_cons_eraseIdx_perm bound
  rw [value] at split
  have count := split.countP_eq (· ≠ 0)
  have total := split.sum_eq
  rw [List.sum_cons] at total
  refine ⟨exceeded, ?_, ?_⟩
  · simp only [pending] at within ⊢
    -- an outstanding demand was outstanding or has arrived
    by_cases null : amount = 0
    · rw [List.countP_cons_of_neg (by simp [null])] at count
      split at within <;> split <;> omega
    · rw [List.countP_cons_of_pos (by simp [null])] at count
      split at within <;> split <;> omega
  · dsimp only
    omega

/-- A grant is made, to an outstanding demand only. -/
theorem Balanced.grant (balanced : ledger.Balanced) {amount unit : Nat}
    (whole : amount ≠ 0 → ledger.outstanding ≠ 0 ∧ amount ≤ ledger.outstanding + unit) :
    Balanced { ledger with
      outstanding := ledger.outstanding - amount
      granted := ledger.granted + amount
      excess := max ledger.excess unit } := by
  obtain ⟨exceeded, within, sum⟩ := balanced
  have larger : exceeded * ledger.excess ≤ exceeded * max ledger.excess unit :=
    Nat.mul_le_mul_left _ (le_max_left _ _)
  have unit_le : unit ≤ max ledger.excess unit := le_max_right _ _
  rcases le_or_gt amount ledger.outstanding with covered | exceeds
  · refine ⟨exceeded, ?_, ?_⟩
    · simp only [pending] at within ⊢
      split at within <;> split <;> omega
    · dsimp only
      omega
  · -- the excess is paid by the outstanding demand, which is over
    obtain ⟨asked, le⟩ := whole (by omega)
    refine ⟨exceeded + 1, ?_, ?_⟩
    · have none : ledger.outstanding - amount = 0 := by omega
      simp only [pending, if_neg asked] at within
      simp only [pending, none, if_true]
      omega
    · dsimp only
      rw [Nat.add_mul, Nat.one_mul]
      omega

end DemandLedger

end OpenSand
