import OpenSand.Lib.SortedMap
import Mathlib.Algebra.Order.BigOperators.Group.List
import Mathlib.Algebra.Order.Ring.Nat
import Mathlib.Data.List.Induction

/-!
The map that a list of assignments leaves.

Each key has the last value it is given. The values of the map add up to those of the list
exactly when the values that are written again are zero (`sum_ofList_iff`).
-/

namespace OpenSand.SortedMap

variable {κ α β : Type*} [LinearOrder κ]

/-! ### Assignments -/

/-- The value takes the place of the one that was there. -/
def assign (map : SortedMap κ α) (key : κ) (value : α) : SortedMap κ α :=
  (map.erase key).insert key value

theorem lookup_assign (map : SortedMap κ α) (key : κ) (value : α) (other : κ) :
    (map.assign key value).lookup other = if other = key then some value else map.lookup other := by
  have fresh : (map.erase key).lookup key = none := by
    rw [lookup_erase, if_pos rfl]
  rw [assign, lookup_insert fresh, lookup_erase]
  split
  · rfl
  · rfl

/-- The map with another value for each key. -/
def mapValues (f : α → β) (map : SortedMap κ α) : SortedMap κ β where
  entries := map.entries.map fun entry => (entry.1, f entry.2)
  sorted := List.pairwise_map.mpr map.sorted

theorem keys_mapValues (f : α → β) (map : SortedMap κ α) : (map.mapValues f).keys = map.keys := by
  rw [keys, keys, mapValues, List.map_map]
  rfl

theorem mem_mapValues {f : α → β} {map : SortedMap κ α} {key : κ} {value : β} :
    (key, value) ∈ (map.mapValues f).entries ↔ ∃ former, (key, former) ∈ map.entries ∧
      f former = value := by
  constructor
  · intro mem
    obtain ⟨entry, held, same⟩ := List.mem_map.mp mem
    cases same
    exact ⟨entry.2, held, rfl⟩
  · rintro ⟨former, held, rfl⟩
    exact List.mem_map.mpr ⟨(key, former), held, rfl⟩

/-! ### Sums of the values -/

/-- The sum of the values. -/
def sum (map : SortedMap κ Nat) : Nat := map.total fun _ value => value

theorem sum_insert {map : SortedMap κ Nat} {key : κ} (fresh : map.lookup key = none)
    (value : Nat) : (map.insert key value).sum = map.sum + value := by
  have absent := lookup_eq_none_iff.mp fresh
  simp only [sum, total, insert]
  generalize map.entries = entries at absent
  induction entries with
  | nil => simp [insertEntry]
  | cons first rest ih =>
      obtain ⟨other, absent'⟩ := List.forall_mem_cons.mp absent
      unfold insertEntry
      split
      · simp only [List.map_cons, List.sum_cons]
        omega
      · rw [if_neg (Ne.symm other), List.map_cons, List.sum_cons, ih absent', List.map_cons,
          List.sum_cons]
        omega

theorem sum_erase (map : SortedMap κ Nat) (key : κ) :
    (map.erase key).sum + (map.lookup key).getD 0 = map.sum := by
  cases found : map.lookup key with
  | none =>
      have absent := lookup_eq_none_iff.mp found
      have kept : map.erase key = map := by
        apply SortedMap.ext
        apply List.filter_eq_self.mpr
        intro entry mem
        exact decide_eq_true (absent entry mem)
      rw [kept]
      rfl
  | some value =>
      obtain ⟨lower, higher, split⟩ := split_of_lookup found
      simp only [sum, total, erase_split split, split, List.map_append, List.map_cons,
        List.sum_append, List.sum_cons, Option.getD_some]
      omega

theorem sum_assign (map : SortedMap κ Nat) (key : κ) (value : Nat) :
    (map.assign key value).sum + (map.lookup key).getD 0 = map.sum + value := by
  have fresh : (map.erase key).lookup key = none := by
    rw [lookup_erase, if_pos rfl]
  have erased := sum_erase map key
  rw [assign, sum_insert fresh]
  omega

/-! ### A list of assignments -/

def ofList (pairs : List (κ × α)) : SortedMap κ α :=
  pairs.foldl (fun map pair => map.assign pair.1 pair.2) .empty

theorem ofList_concat (pairs : List (κ × α)) (pair : κ × α) :
    ofList (pairs ++ [pair]) = (ofList pairs).assign pair.1 pair.2 := by
  rw [ofList, List.foldl_append]
  rfl

/-- The values given to a key add up to this. -/
def given (pairs : List (κ × Nat)) (key : κ) : Nat :=
  ((pairs.filter (·.1 = key)).map Prod.snd).sum

/-- What was given in all. -/
def givenTotal (pairs : List (κ × Nat)) : Nat := (pairs.map Prod.snd).sum

theorem given_concat (pairs : List (κ × Nat)) (pair : κ × Nat) (key : κ) :
    given (pairs ++ [pair]) key = given pairs key + if pair.1 = key then pair.2 else 0 := by
  rw [given, List.filter_append, List.map_append, List.sum_append]
  by_cases own : pair.1 = key
  · simp [given, own]
  · simp [given, own]

omit [LinearOrder κ] in
theorem givenTotal_concat (pairs : List (κ × Nat)) (pair : κ × Nat) :
    givenTotal (pairs ++ [pair]) = givenTotal pairs + pair.2 := by
  simp [givenTotal]

theorem mem_keys_ofList {pairs : List (κ × α)} {key : κ} :
    key ∈ (ofList pairs).keys ↔ ∃ pair ∈ pairs, pair.1 = key := by
  induction pairs using List.reverseRecOn with
  | nil => simp [ofList, keys, empty]
  | append_singleton pairs pair ih =>
      rw [mem_keys_iff] at ih ⊢
      rw [ofList_concat, lookup_assign]
      by_cases own : key = pair.1
      · simp [own]
      · rw [if_neg own, ih]
        constructor
        · rintro ⟨other, mem, rfl⟩
          exact ⟨other, List.mem_append_left _ mem, rfl⟩
        · rintro ⟨other, mem, rfl⟩
          rcases List.mem_append.mp mem with old | new
          · exact ⟨other, old, rfl⟩
          · exact absurd (congrArg Prod.fst (List.mem_singleton.mp new)) own

/-- A value of the map is one that was given. -/
theorem mem_of_lookup_ofList {pairs : List (κ × α)} {key : κ} {value : α}
    (found : (ofList pairs).lookup key = some value) : (key, value) ∈ pairs := by
  induction pairs using List.reverseRecOn with
  | nil => cases found
  | append_singleton pairs pair ih =>
      rw [ofList_concat, lookup_assign] at found
      split at found
      next own =>
        cases found
        exact List.mem_append_right _ (by simp [own])
      · exact List.mem_append_left _ (ih found)

/-- What the last values leave out: each at most what is left out in all. -/
structure LeavesOut (pairs : List (κ × Nat)) : Prop where
  sum_le : (ofList pairs).sum ≤ givenTotal pairs
  value_le : ∀ key, ((ofList pairs).lookup key).getD 0 ≤ given pairs key
  rest_le : ∀ key, given pairs key + (ofList pairs).sum ≤
    givenTotal pairs + ((ofList pairs).lookup key).getD 0

theorem leavesOut (pairs : List (κ × Nat)) : LeavesOut pairs := by
  induction pairs using List.reverseRecOn with
  | nil => exact ⟨le_refl 0, fun _ => le_refl 0, fun _ => le_refl 0⟩
  | append_singleton pairs pair ih =>
      have assigned := sum_assign (ofList pairs) pair.1 pair.2
      have own := ih.rest_le pair.1
      constructor
      · rw [ofList_concat, givenTotal_concat]
        have le := ih.sum_le
        omega
      · intro key
        have le := ih.value_le key
        rw [ofList_concat, lookup_assign, given_concat]
        by_cases same : key = pair.1
        · simp [same]
        · rw [if_neg same, if_neg (Ne.symm same)]
          omega
      · intro key
        have le := ih.rest_le key
        rw [ofList_concat, lookup_assign, given_concat, givenTotal_concat]
        by_cases same : key = pair.1
        · subst same
          rw [if_pos rfl, if_pos rfl, Option.getD_some]
          omega
        · rw [if_neg same, if_neg (Ne.symm same)]
          omega

/-- The values that are written again are zero. -/
def RewritesZeros (pairs : List (κ × Nat)) : Prop :=
  pairs.Pairwise fun former later => former.1 = later.1 → former.2 = 0

theorem given_eq_zero {pairs : List (κ × Nat)} {key : κ} :
    given pairs key = 0 ↔ ∀ pair ∈ pairs, pair.1 = key → pair.2 = 0 := by
  rw [given, List.sum_eq_zero_iff]
  constructor
  · intro zeros pair mem own
    apply zeros
    exact List.mem_map.mpr ⟨pair, List.mem_filter.mpr ⟨mem, decide_eq_true own⟩, rfl⟩
  · intro zeros value mem
    obtain ⟨pair, held, rfl⟩ := List.mem_map.mp mem
    obtain ⟨held, own⟩ := List.mem_filter.mp held
    exact zeros pair held (of_decide_eq_true own)

/-- Nothing is lost exactly when the values that are written again are zero. -/
theorem sum_ofList_iff {pairs : List (κ × Nat)} :
    (ofList pairs).sum = givenTotal pairs ↔ RewritesZeros pairs := by
  induction pairs using List.reverseRecOn with
  | nil => exact iff_of_true rfl .nil
  | append_singleton pairs pair ih =>
      have assigned := sum_assign (ofList pairs) pair.1 pair.2
      have bounds := leavesOut pairs
      have le := bounds.sum_le
      have value_le := bounds.value_le pair.1
      have rest_le := bounds.rest_le pair.1
      rw [ofList_concat, givenTotal_concat, RewritesZeros, List.pairwise_append]
      have zeros : (∀ former ∈ pairs, ∀ later ∈ [pair], former.1 = later.1 → former.2 = 0) ↔
          given pairs pair.1 = 0 := by
        rw [given_eq_zero]
        simp
      rw [zeros]
      constructor
      · intro same
        refine ⟨ih.mp (by omega), List.pairwise_singleton _ _, by omega⟩
      · rintro ⟨kept, -, none⟩
        have same := ih.mpr kept
        omega

/-- Then each value of the map is all that its key was given. -/
theorem RewritesZeros.lookup_eq {pairs : List (κ × Nat)} (kept : RewritesZeros pairs) (key : κ) :
    ((ofList pairs).lookup key).getD 0 = given pairs key := by
  have bounds := leavesOut pairs
  have value_le := bounds.value_le key
  have rest_le := bounds.rest_le key
  have same := sum_ofList_iff.mpr kept
  omega

/-- A value that is not zero stays. -/
theorem RewritesZeros.lookup_of_mem {pairs : List (κ × Nat)} (kept : RewritesZeros pairs)
    {pair : κ × Nat} (mem : pair ∈ pairs) (some_value : pair.2 ≠ 0) :
    (ofList pairs).lookup pair.1 = some pair.2 := by
  induction pairs using List.reverseRecOn with
  | nil => cases mem
  | append_singleton pairs last ih =>
      obtain ⟨former, -, written⟩ := List.pairwise_append.mp kept
      rw [ofList_concat, lookup_assign]
      rcases List.mem_append.mp mem with old | new
      · have other : pair.1 ≠ last.1 := fun same =>
          some_value (written pair old last (List.mem_singleton_self last) same)
        rw [if_neg other]
        exact ih former old
      · cases List.mem_singleton.mp new
        exact if_pos rfl

/-- Terms that are at most others and make as much in all are the others. -/
theorem eq_of_sum_le {γ : Type*} {l : List γ} {f g : γ → Nat} (le : ∀ x ∈ l, f x ≤ g x)
    (all : (l.map g).sum ≤ (l.map f).sum) : ∀ x ∈ l, f x = g x := by
  induction l with
  | nil => exact nofun
  | cons a l ih =>
      obtain ⟨first, rest⟩ := List.forall_mem_cons.mp le
      have sums := List.sum_le_sum rest
      simp only [List.map_cons, List.sum_cons] at all
      exact List.forall_mem_cons.mpr ⟨by omega, ih rest (by omega)⟩

end OpenSand.SortedMap
