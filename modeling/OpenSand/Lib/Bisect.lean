import Mathlib.Data.List.InsertIdx
import Mathlib.Data.List.Pairwise
import Mathlib.Order.Lattice

/-!
Places of new elements in a list ordered by a key.

A bound cuts an ordered list in the elements up to it and those above it. The cut is found by
halving a window of positions (`Window.left`, `Window.right`, `Window.cut`), and an element put
there comes behind those of the same key (`Cut.pairwise_insertIdx`).
-/

namespace OpenSand.Bisect

variable {α κ : Type*} [LinearOrder κ] {key : α → κ} {list : List α} {bound : κ}

/-- The keys never decrease. -/
def Ordered (key : α → κ) (list : List α) : Prop := list.Pairwise fun a b => key a ≤ key b

theorem Ordered.le_of_le (ordered : Ordered key list) {i j : Nat} (le : i ≤ j) (hi : i < list.length)
    (hj : j < list.length) : key list[i] ≤ key list[j] := by
  rcases Nat.lt_or_eq_of_le le with lt | rfl
  · exact List.pairwise_iff_getElem.mp ordered i j hi hj lt
  · exact le_refl _

/-- The elements before a position have keys up to the bound, the others larger ones. -/
structure Cut (key : α → κ) (list : List α) (bound : κ) (pos : Nat) : Prop where
  inside : pos ≤ list.length
  below : ∀ i (h : i < list.length), i < pos → key list[i] ≤ bound
  above : ∀ i (h : i < list.length), pos ≤ i → bound < key list[i]

/-- The cut is at a position of the window or just behind it. -/
structure Window (key : α → κ) (list : List α) (bound : κ) (first last : Nat) : Prop where
  le : first ≤ last
  inside : last < list.length
  below : ∀ i (h : i < list.length), i < first → key list[i] ≤ bound
  above : ∀ i (h : i < list.length), last < i → bound < key list[i]

theorem Window.whole (nonempty : list ≠ []) : Window key list bound 0 (list.length - 1) where
  le := Nat.zero_le _
  inside := Nat.sub_lt (List.length_pos_iff.mpr nonempty) Nat.one_pos
  below := fun i _ lt => absurd lt (Nat.not_lt_zero i)
  above := fun i h lt => absurd h (by omega)

namespace Window

variable {first last mid : Nat}

/-- An element of the window is above the bound: it becomes the last one. -/
theorem left (window : Window key list bound first last) (ordered : Ordered key list)
    (inside : mid < list.length) (le : first ≤ mid) (large : bound < key list[mid]) :
    Window key list bound first mid where
  le := le
  inside := inside
  below := window.below
  above := fun _ h behind =>
    lt_of_lt_of_le large (ordered.le_of_le (Nat.le_of_lt behind) _ h)

/-- An element in front of the last one is not above the bound: the window is behind it. -/
theorem right (window : Window key list bound first last) (ordered : Ordered key list)
    (inside : mid < list.length) (lt : mid < last) (small : ¬ bound < key list[mid]) :
    Window key list bound (mid + 1) last where
  le := lt
  inside := window.inside
  below := fun _ h before =>
    (ordered.le_of_le (Nat.le_of_lt_succ before) h _).trans (not_lt.mp small)
  above := window.above

/-- In a window of one element, that element decides. -/
theorem cut (window : Window key list bound first first) (inside : first < list.length) :
    Cut key list bound (if bound < key list[first] then first else first + 1) := by
  by_cases large : bound < key list[first]
  · rw [if_pos large]
    refine ⟨Nat.le_of_lt window.inside, window.below, fun i h le => ?_⟩
    rcases Nat.lt_or_eq_of_le le with behind | rfl
    · exact window.above i h behind
    · exact large
  · rw [if_neg large]
    refine ⟨window.inside, fun i h lt => ?_, fun i h le => window.above i h le⟩
    rcases Nat.lt_or_eq_of_le (Nat.le_of_lt_succ lt) with before | rfl
    · exact window.below i h before
    · exact not_lt.mp large

end Window

theorem Cut.of_map {β : Type*} {f : β → α} {list : List β} {pos : Nat}
    (cut : Cut key (list.map f) bound pos) : Cut (fun b => key (f b)) list bound pos where
  inside := by simpa using cut.inside
  below := fun i h lt => by
    have le := cut.below i (by rwa [List.length_map]) lt
    rwa [List.getElem_map] at le
  above := fun i h le => by
    have lt := cut.above i (by rwa [List.length_map]) le
    rwa [List.getElem_map] at lt

theorem cut_nil : Cut key ([] : List α) bound 0 :=
  ⟨Nat.le_refl 0, fun _ h => absurd h (Nat.not_lt_zero _), fun _ h => absurd h (Nat.not_lt_zero _)⟩

/-! ### Insertion -/

theorem insertIdx_eq {pos : Nat} (inside : pos ≤ list.length) (a : α) :
    list.insertIdx pos a = list.take pos ++ a :: list.drop pos := by
  induction list generalizing pos with
  | nil =>
      cases Nat.le_zero.mp inside
      rfl
  | cons first rest ih =>
      cases pos with
      | zero => rfl
      | succ pos =>
          rw [List.insertIdx_succ_cons, ih (Nat.le_of_succ_le_succ inside)]
          rfl

namespace Cut

variable {pos : Nat} (cut : Cut key list bound pos)

include cut

theorem take_le : ∀ a ∈ list.take pos, key a ≤ bound := by
  intro a mem
  obtain ⟨i, h, rfl⟩ := List.mem_iff_getElem.mp mem
  rw [List.length_take] at h
  rw [List.getElem_take]
  exact cut.below i (by omega) (by omega)

theorem lt_drop : ∀ a ∈ list.drop pos, bound < key a := by
  intro a mem
  obtain ⟨i, h, rfl⟩ := List.mem_iff_getElem.mp mem
  rw [List.length_drop] at h
  rw [List.getElem_drop]
  exact cut.above (pos + i) (by omega) (by omega)

/-- An element that comes behind those up to its key and before the others. -/
theorem pairwise_insertIdx {R : α → α → Prop} {a : α} (same : key a = bound)
    (related : list.Pairwise R) (behind : ∀ b ∈ list, key b ≤ key a → R b a)
    (before : ∀ b ∈ list, key a < key b → R a b) : (list.insertIdx pos a).Pairwise R := by
  rw [insertIdx_eq cut.inside, List.pairwise_append, List.pairwise_cons]
  refine ⟨related.sublist (List.take_sublist pos list),
    ⟨?_, related.sublist (List.drop_sublist pos list)⟩, ?_⟩
  · intro b mem
    exact before b (List.mem_of_mem_drop mem) (same ▸ cut.lt_drop b mem)
  · intro b first c second
    rcases List.mem_cons.mp second with rfl | later
    · exact behind b (List.mem_of_mem_take first) (same ▸ cut.take_le b first)
    · rw [← List.take_append_drop pos list, List.pairwise_append] at related
      exact related.2.2 b first c later

end Cut

/-! ### Prefixes -/

/-- The first elements up to a bound are all those up to it. -/
theorem Ordered.mem_takeWhile (ordered : Ordered key list) {a : α} :
    a ∈ list.takeWhile (key · ≤ bound) ↔ a ∈ list ∧ key a ≤ bound := by
  induction list with
  | nil => simp
  | cons first rest ih =>
      obtain ⟨below, ordered'⟩ := List.pairwise_cons.mp ordered
      by_cases small : key first ≤ bound
      · rw [List.takeWhile_cons_of_pos (by simpa using small), List.mem_cons, List.mem_cons,
          ih ordered', or_and_right]
        exact or_congr_left (iff_self_and.mpr fun same => same ▸ small)
      · rw [List.takeWhile_cons_of_neg (by simpa using small)]
        refine iff_of_false List.not_mem_nil ?_
        rintro ⟨mem, le⟩
        rcases List.mem_cons.mp mem with rfl | later
        · exact small le
        · exact small ((below a later).trans le)

end OpenSand.Bisect
