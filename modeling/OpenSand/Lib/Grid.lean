import Mathlib.Data.List.Nodup

/-!
Loops over the elements of nested lists.

`positions` enumerates the elements of a list of lists, given its lengths, row by
row; every element has one position.
-/

namespace OpenSand.Grid

/-- The positions of the elements of rows of given lengths. -/
def positions (lengths : List Nat) : List (Nat × Nat) :=
  lengths.zipIdx.flatMap fun (length, i) => (List.range length).map fun j => (i, j)

theorem mem_positions {lengths : List Nat} {position : Nat × Nat} {length : Nat}
    (row : lengths[position.1]? = some length) (lt : position.2 < length) :
    position ∈ positions lengths := by
  refine List.mem_flatMap.mpr ⟨(length, position.1), ?_, ?_⟩
  · exact List.mem_zipIdx_iff_getElem?.mpr row
  · exact List.mem_map.mpr ⟨position.2, List.mem_range.mpr lt, rfl⟩

theorem positions_nodup (lengths : List Nat) : (positions lengths).Nodup := by
  rw [positions, List.nodup_flatMap]
  constructor
  · intro entry _
    exact List.Nodup.map (fun _ _ same => (Prod.mk.inj same).2) List.nodup_range
  · have distinct : (lengths.zipIdx.map Prod.snd).Nodup := by
      rw [List.zipIdx_map_snd]
      exact List.nodup_range'
    refine (List.pairwise_map.mp distinct).imp fun ne => ?_
    intro position first second
    obtain ⟨_, _, rfl⟩ := List.mem_map.mp first
    obtain ⟨_, _, same⟩ := List.mem_map.mp second
    exact ne (Prod.mk.inj same).1.symm

/-- A position splits the enumeration into positions that differ from it. -/
theorem positions_split {lengths : List Nat} {position : Nat × Nat}
    (mem : position ∈ positions lengths) :
    ∃ before after, positions lengths = before ++ position :: after ∧
      position ∉ before ∧ position ∉ after := by
  obtain ⟨before, after, split⟩ := List.append_of_mem mem
  have nodup := positions_nodup lengths
  rw [split, List.nodup_append, List.nodup_cons] at nodup
  refine ⟨before, after, split, ?_, nodup.2.1.1⟩
  intro member
  exact nodup.2.2 position member position List.mem_cons_self rfl

end OpenSand.Grid
