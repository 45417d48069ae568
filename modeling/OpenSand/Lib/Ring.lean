import Mathlib.Data.List.Basic

/-!
Rings of the most recent values.

A ring has a number of places and the index of the last value put in it. `back` is the place
of the value that came a number of turns before the last one; the same function gives back
how old the value in a place is. A ring follows a history when the places hold its most
recent values.
-/

namespace OpenSand.Ring

/-- The place of the value that came `k` turns before the last one. -/
def back (size index k : Nat) : Nat := if k ≤ index then index - k else index + size - k

variable {size index k place : Nat}

theorem back_lt (lt : index < size) : back size index k < size ∨ size < k := by
  unfold back
  split <;> omega

theorem back_lt_size (lt : index < size) (recent : k < size) : back size index k < size :=
  (back_lt lt).resolve_right (Nat.not_lt.mpr (Nat.le_of_lt recent))

@[simp] theorem back_zero : back size index 0 = index := if_pos (Nat.zero_le index)

/-- The age of the value in the place of an age. -/
theorem back_back (lt : index < size) (recent : k < size) :
    back size index (back size index k) = k := by
  unfold back
  split <;> split <;> omega

theorem next_eq (lt : index < size) :
    (index + 1) % size = if index + 1 = size then 0 else index + 1 := by
  split
  next turn => rw [turn, Nat.mod_self]
  next inside => exact Nat.mod_eq_of_lt (by omega)

/-- One more value makes the others one turn older. -/
theorem back_next (lt : index < size) (recent : k + 1 < size) :
    back size ((index + 1) % size) (k + 1) = back size index k := by
  rw [next_eq lt]
  unfold back
  split <;> split <;> split <;> omega

/-- The place that comes next is the one of the oldest value. -/
theorem next_eq_back (lt : index < size) : (index + 1) % size = back size index (size - 1) := by
  rw [next_eq lt]
  unfold back
  split <;> split <;> omega

variable {α : Type*} {places history : List α} {missing value : α}

/-- The places hold the most recent values, and the missing value before there were as many. -/
def Follows (missing : α) (places : List α) (index : Nat) (history : List α) : Prop :=
  ∀ k < places.length, places.getD (back places.length index k) missing = history.getD k missing

namespace Follows

theorem start (missing : α) (size index : Nat) :
    Follows missing (List.replicate size missing) index [] := by
  intro k _
  rw [List.getD_nil, List.getD_eq_getElem?_getD, List.getElem?_replicate]
  split <;> rfl

theorem oldest (follows : Follows missing places index history) (lt : index < places.length) :
    places.getD ((index + 1) % places.length) missing =
      history.getD (places.length - 1) missing := by
  rw [next_eq_back lt]
  exact follows _ (Nat.sub_lt (Nat.zero_lt_of_lt lt) Nat.one_pos)

/-- A value put in the next place. -/
theorem push (follows : Follows missing places index history) (lt : index < places.length) :
    Follows missing (places.set ((index + 1) % places.length) value)
      ((index + 1) % places.length) (value :: history) := by
  intro k recent
  have next_lt : (index + 1) % places.length < places.length :=
    Nat.mod_lt _ (Nat.zero_lt_of_lt lt)
  rw [List.length_set] at recent ⊢
  cases k with
  | zero =>
      rw [back_zero, List.getD_eq_getElem?_getD, List.getElem?_set_self next_lt]
      rfl
  | succ k =>
      rw [List.getD_cons_succ, ← follows k (Nat.lt_of_succ_lt recent), back_next lt recent]
      have other : (index + 1) % places.length ≠ back places.length index k := by
        intro same
        have age := congrArg (back places.length ((index + 1) % places.length))
          (back_next lt recent)
        rw [back_back next_lt recent, ← same] at age
        unfold back at age
        rw [if_pos (Nat.le_refl _)] at age
        omega
      rw [List.getD_eq_getElem?_getD, List.getElem?_set_ne other, ← List.getD_eq_getElem?_getD]

/-- What a place holds. -/
theorem getD (follows : Follows missing places index history) (lt : index < places.length)
    (inside : place < places.length) :
    places.getD place missing = history.getD (back places.length index place) missing := by
  rw [← follows _ (back_lt_size lt inside), back_back lt inside]

end Follows

end OpenSand.Ring
