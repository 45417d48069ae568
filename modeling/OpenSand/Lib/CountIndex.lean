import OpenSand.Lib.SortedMap
import OpenSand.Lib.Word

/-!
An index of counts kept beside a list.

The list has entries of a key with a count. `countAt` is the sum of the counts of a key, if the
list has the key at all; a sorted map indexes the list when it maps each key to that. The counts
of the map are words: `count` adds to one of them, or inserts the key.
-/

namespace OpenSand.CountIndex

open OpenSand.Word

variable {κ : Type*} [LinearOrder κ]

/-- The sum of the counts of a key that is in the list. -/
def countAt (key : κ) : List (κ × Nat) → Option Nat
  | [] => none
  | (other, number) :: rest =>
      if other = key then some (number + (countAt key rest).getD 0) else countAt key rest

def count (w : Nat) (key : κ) (number : Nat) (map : SortedMap κ Nat) : SortedMap κ Nat :=
  match map.lookup key with
  | none => map.insert key number
  | some _ => map.modify key (addW w number)

/-- A key without counts, unless it is there. -/
def enter (key : κ) (map : SortedMap κ Nat) : SortedMap κ Nat :=
  match map.lookup key with
  | none => map.insert key 0
  | some _ => map

/-- The map gives each key its count in the list. -/
def Indexes (map : SortedMap κ Nat) (entries : List (κ × Nat)) : Prop :=
  ∀ key, map.lookup key = countAt key entries

/-- The counts of the map are words. -/
def Words (w : Nat) (map : SortedMap κ Nat) : Prop :=
  ∀ key number, map.lookup key = some number → number < 2 ^ w

variable {w number : Nat} {key other : κ} {map : SortedMap κ Nat} {entries entries' : List (κ × Nat)}

/-! ### The counts of a list -/

theorem countAt_cons_self : countAt key ((key, number) :: entries) =
    some (number + (countAt key entries).getD 0) := if_pos rfl

theorem countAt_cons_of_ne (ne : other ≠ key) :
    countAt key ((other, number) :: entries) = countAt key entries := if_neg ne

theorem countAt_eq_none_iff : countAt key entries = none ↔ key ∉ entries.map Prod.fst := by
  induction entries with
  | nil => exact iff_of_true rfl List.not_mem_nil
  | cons entry entries ih =>
      obtain ⟨other, number⟩ := entry
      by_cases same : other = key
      · subst same
        exact iff_of_false (by rw [countAt_cons_self]; simp) (by simp)
      · rw [countAt_cons_of_ne same, ih, List.map_cons, List.mem_cons, not_or]
        exact (and_iff_right (Ne.symm same)).symm

/-- The order of the entries does not matter. -/
theorem countAt_perm (perm : entries.Perm entries') : countAt key entries = countAt key entries' := by
  induction perm with
  | nil => rfl
  | cons entry _ ih =>
      obtain ⟨other, number⟩ := entry
      rw [countAt, countAt, ih]
  | swap first second rest =>
      obtain ⟨key₁, number₁⟩ := first
      obtain ⟨key₂, number₂⟩ := second
      by_cases same₁ : key₁ = key
      · by_cases same₂ : key₂ = key
        · subst same₁ same₂
          simp only [countAt_cons_self, Option.getD_some]
          exact congrArg some (Nat.add_left_comm _ _ _)
        · rw [countAt_cons_of_ne same₂, same₁, countAt_cons_self, countAt_cons_self,
            countAt_cons_of_ne same₂]
      · rw [countAt_cons_of_ne same₁, countAt.eq_2 key key₂, countAt.eq_2 key key₂,
          countAt_cons_of_ne same₁]
  | trans _ _ ih₁ ih₂ => exact ih₁.trans ih₂

/-- A list without counts. -/
theorem countAt_getD_eq_zero (none : ∀ entry ∈ entries, entry.2 = 0) :
    (countAt key entries).getD 0 = 0 := by
  induction entries with
  | nil => rfl
  | cons entry entries ih =>
      obtain ⟨zero, none'⟩ := List.forall_mem_cons.mp none
      rw [countAt]
      split
      · rw [Option.getD_some, ih none']
        exact zero
      · exact ih none'

theorem countAt_getD_append : (countAt key (entries ++ entries')).getD 0 =
    (countAt key entries).getD 0 + (countAt key entries').getD 0 := by
  induction entries with
  | nil => exact (Nat.zero_add _).symm
  | cons entry entries ih =>
      rw [List.cons_append, countAt, countAt]
      split
      · rw [Option.getD_some, Option.getD_some, ih, Nat.add_assoc]
      · exact ih

/-- The entries of a key that is there. -/
theorem exists_countAt (here : key ∈ entries.map Prod.fst) :
    ∃ number, countAt key entries = some number := by
  refine Option.ne_none_iff_exists'.mp fun none => ?_
  exact countAt_eq_none_iff.mp none here

/-- Lists with the same keys have the same counts of a key when their sums are the same. -/
theorem countAt_eq_iff_of_keys (keys : key ∈ entries.map Prod.fst ↔ key ∈ entries'.map Prod.fst) :
    countAt key entries = countAt key entries' ↔
      (countAt key entries).getD 0 = (countAt key entries').getD 0 := by
  by_cases here : key ∈ entries.map Prod.fst
  · obtain ⟨number, held⟩ := exists_countAt here
    obtain ⟨number', held'⟩ := exists_countAt (keys.mp here)
    rw [held, held', Option.some.injEq, Option.getD_some, Option.getD_some]
  · rw [countAt_eq_none_iff.mpr here, countAt_eq_none_iff.mpr (here ∘ keys.mpr)]
    exact iff_of_true rfl rfl

/-- A new number of one entry. -/
theorem countAt_replace_iff (key : κ) (entries : List (κ × Nat)) {number' : Nat} :
    (∀ other, countAt other ((key, number') :: entries) = countAt other ((key, number) :: entries)) ↔
      number' = number := by
  constructor
  · intro same
    have own := same key
    rw [countAt_cons_self, countAt_cons_self, Option.some.injEq] at own
    exact Nat.add_right_cancel own
  · rintro rfl other
    rfl

/-! ### A count in the map -/

theorem lookup_count : (count w key number map).lookup other =
    if other = key then some ((map.lookup key).elim number (addW w number)) else map.lookup other := by
  unfold count
  split
  next fresh =>
    rw [SortedMap.lookup_insert fresh, fresh]
    rfl
  next old found =>
    by_cases same : other = key
    · rw [if_pos same, same, SortedMap.lookup_modify_self found, found]
      rfl
    · rw [if_neg same, SortedMap.lookup_modify_of_ne map same]

theorem Words.count (words : Words w map) (word : number < 2 ^ w) :
    Words w (count w key number map) := by
  intro other number' found
  rw [lookup_count] at found
  split at found
  · rw [← Option.some.inj found]
    cases map.lookup key with
    | none => exact word
    | some old => exact addW_lt w number old
  · exact words other number' found

theorem Indexes.perm (indexes : Indexes map entries) (perm : entries.Perm entries') :
    Indexes map entries' := fun key => (indexes key).trans (countAt_perm perm)

/-- When the map stays as it is, the counts have to stay as well. -/
theorem indexes_iff_of_indexes (indexes : Indexes map entries) :
    Indexes map entries' ↔ ∀ key, countAt key entries' = countAt key entries := by
  constructor
  · intro indexes' key
    rw [← indexes' key, indexes key]
  · intro same key
    rw [same key, indexes key]

/-- A new entry that is counted. -/
theorem Indexes.count_iff (indexes : Indexes map entries) (word : number < 2 ^ w) :
    Indexes (count w key number map) ((key, number) :: entries) ↔
      number + (countAt key entries).getD 0 < 2 ^ w := by
  constructor
  · intro indexes'
    have own := indexes' key
    rw [lookup_count, if_pos rfl, countAt_cons_self, indexes key] at own
    cases held : countAt key entries with
    | none => simpa using word
    | some old =>
        rw [held] at own
        exact addW_eq_iff.mp (Option.some.inj own)
  · intro fits other
    rw [lookup_count]
    by_cases same : other = key
    · rw [if_pos same, same, countAt_cons_self, indexes key]
      cases held : countAt key entries with
      | none => rfl
      | some old =>
          rw [held] at fits
          exact congrArg some (addW_of_lt fits)
    · rw [if_neg same, countAt_cons_of_ne (Ne.symm same), indexes other]

theorem lookup_enter : (enter key map).lookup other =
    if other = key then some ((map.lookup key).getD 0) else map.lookup other := by
  unfold enter
  split
  next fresh =>
    rw [SortedMap.lookup_insert fresh, fresh]
    rfl
  next old found =>
    split
    next same => rw [same, found, Option.getD_some]
    · rfl

theorem Words.enter (words : Words w map) : Words w (enter key map) := by
  intro other number found
  rw [lookup_enter] at found
  split at found
  · rw [← Option.some.inj found]
    cases held : map.lookup key with
    | none => exact Nat.two_pow_pos w
    | some old => exact words key old held
  · exact words other number found

/-- A new entry without counts. -/
theorem Indexes.enter (indexes : Indexes map entries) :
    Indexes (enter key map) ((key, 0) :: entries) := by
  intro other
  rw [lookup_enter]
  by_cases same : other = key
  · rw [if_pos same, same, countAt_cons_self, indexes key, Nat.zero_add]
  · rw [if_neg same, countAt_cons_of_ne (Ne.symm same), indexes other]

/-- A count without an entry. -/
theorem Indexes.count_alone_iff (indexes : Indexes map entries) (words : Words w map)
    (word : number < 2 ^ w) :
    Indexes (count w key number map) entries ↔ number = 0 ∧ key ∈ entries.map Prod.fst := by
  constructor
  · intro indexes'
    have own := indexes' key
    rw [lookup_count, if_pos rfl, indexes key] at own
    have here : key ∈ entries.map Prod.fst := by
      by_contra absent
      rw [countAt_eq_none_iff.mpr absent] at own
      cases own
    obtain ⟨old, held⟩ := exists_countAt here
    rw [held] at own
    have bound : old < 2 ^ w := words key old ((indexes key).trans held)
    exact ⟨(addW_eq_right_iff word bound).mp (Option.some.inj own), here⟩
  · rintro ⟨rfl, here⟩ other
    rw [lookup_count]
    by_cases same : other = key
    · subst same
      obtain ⟨old, held⟩ := exists_countAt here
      have bound : old < 2 ^ w := words other old ((indexes other).trans held)
      rw [if_pos rfl, indexes other, held, Option.elim_some, addW_of_lt (by omega), Nat.zero_add]
    · rw [if_neg same, indexes other]

/-! ### A list that is counted -/

/-- Each entry in turn is counted. -/
def countAll (w : Nat) (map : SortedMap κ Nat) (entries : List (κ × Nat)) : SortedMap κ Nat :=
  entries.foldl (fun map entry => count w entry.1 entry.2 map) map

theorem Words.countAll (words : Words w map) (word : ∀ entry ∈ entries, entry.2 < 2 ^ w) :
    Words w (countAll w map entries) := by
  induction entries generalizing map with
  | nil => exact words
  | cons entry entries ih =>
      obtain ⟨here, later⟩ := List.forall_mem_cons.mp word
      exact ih (words.count here) later

theorem lookup_countAll (words : Words w map) (word : ∀ entry ∈ entries, entry.2 < 2 ^ w) :
    (countAll w map entries).lookup key =
      (countAt key entries).elim (map.lookup key)
        fun number => some (addW w number ((map.lookup key).getD 0)) := by
  induction entries generalizing map with
  | nil => rfl
  | cons entry entries ih =>
      obtain ⟨other, number⟩ := entry
      obtain ⟨here, later⟩ := List.forall_mem_cons.mp word
      rw [countAll, List.foldl_cons, ← countAll, ih (words.count here) later, lookup_count]
      by_cases same : other = key
      · subst same
        have added : (map.lookup other).elim number (addW w number) =
            addW w number ((map.lookup other).getD 0) := by
          cases map.lookup other with
          | none => exact (addW_of_lt (Nat.add_zero number ▸ here)).symm
          | some old => rfl
        rw [if_pos rfl, countAt_cons_self, added]
        cases countAt other entries with
        | none => rfl
        | some rest =>
            refine congrArg some ?_
            simp only [addW, Option.getD_some, Nat.add_mod_mod]
            congr 1
            omega
      · rw [if_neg (Ne.symm same), countAt_cons_of_ne same]

/-- The map of a list to which another one is counted indexes the other one exactly when the
first one had no counts at its keys, nor other keys. -/
theorem Indexes.countAll_iff (indexes : Indexes map entries) (words : Words w map)
    (word : ∀ entry ∈ entries', entry.2 < 2 ^ w) :
    Indexes (countAll w map entries') entries' ↔
      (∀ key ∈ entries'.map Prod.fst,
        (countAt key entries).getD 0 = 0 ∧ (countAt key entries').getD 0 < 2 ^ w) ∧
        ∀ key ∈ entries.map Prod.fst, key ∈ entries'.map Prod.fst := by
  constructor
  · intro indexes'
    refine ⟨fun key here => ?_, fun key here => ?_⟩
    · have own := indexes' key
      rw [lookup_countAll words word, indexes key] at own
      obtain ⟨number, held⟩ := exists_countAt here
      rw [held, Option.elim_some, Option.some.injEq] at own
      rw [held, Option.getD_some]
      have bound : number < 2 ^ w := own ▸ addW_lt w _ _
      refine ⟨?_, bound⟩
      cases old : countAt key entries with
      | none => rfl
      | some stock =>
          have stockWord : stock < 2 ^ w := words key stock ((indexes key).trans old)
          rw [old, Option.getD_some] at own
          rw [Option.getD_some]
          exact (addW_eq_right_iff stockWord bound).mp ((addW_comm w stock number).trans own)
    · by_contra absent
      have own := indexes' key
      rw [lookup_countAll words word, countAt_eq_none_iff.mpr absent, Option.elim_none,
        indexes key] at own
      exact countAt_eq_none_iff.mp own here
  · rintro ⟨fits, covered⟩ key
    rw [lookup_countAll words word, indexes key]
    cases held : countAt key entries' with
    | none =>
        rw [Option.elim_none, countAt_eq_none_iff]
        exact fun here => countAt_eq_none_iff.mp held (covered key here)
    | some number =>
        have here : key ∈ entries'.map Prod.fst := by
          by_contra absent
          rw [countAt_eq_none_iff.mpr absent] at held
          cases held
        obtain ⟨free, bound⟩ := fits key here
        rw [held, Option.getD_some] at bound
        rw [Option.elim_some, free, addW_of_lt (by omega), Nat.add_zero]

end OpenSand.CountIndex
