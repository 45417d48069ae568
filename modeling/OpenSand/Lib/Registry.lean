import Mathlib.Data.List.AList
import Mathlib.Algebra.BigOperators.Group.List.Basic
import Mathlib.Data.Int.Basic
import Mathlib.Algebra.Ring.Int.Defs

/-!
Registries of objects reached in two ways.

The objects are designated by their positions in the order of their creation, and each of
them carries a key and a label. An index gives the object of a key, and the lists of the
labels hold the objects. `Linked` says that the two agree; a new object is added to both, and
an object is removed from both.
-/

namespace OpenSand.Registry

variable {κ γ : Type*} [DecidableEq κ]

/-- The objects of the index are the ones of the lists, each in the list of its label. -/
structure Linked (objects : List (κ × γ)) (index : AList fun _ : κ => Nat)
    (lists : List (γ × List Nat)) : Prop where
  labels : (lists.map Prod.fst).Nodup
  indexed : ∀ key ref, index.lookup key = some ref → ∃ label refs,
    objects[ref]? = some (key, label) ∧ (label, refs) ∈ lists ∧ ref ∈ refs
  listed : ∀ label refs, (label, refs) ∈ lists → ∀ ref ∈ refs, ∃ key,
    objects[ref]? = some (key, label) ∧ index.lookup key = some ref
  once : ∀ label refs, (label, refs) ∈ lists → refs.Nodup

variable {objects : List (κ × γ)} {index : AList fun _ : κ => Nat} {lists : List (γ × List Nat)}
  {key : κ} {label : γ} {ref : Nat}

/-- The first element that satisfies a property, when it is the only one. -/
theorem mem_eraseP_iff {α : Type*} {l : List α} {p : α → Bool} {a x : α} (nodup : l.Nodup)
    (only : ∀ x ∈ l, p x = true → x = a) (holds : p a = true) :
    x ∈ l.eraseP p ↔ x ∈ l ∧ x ≠ a := by
  induction l with
  | nil => simp
  | cons first l ih =>
      rw [List.nodup_cons] at nodup
      by_cases own : p first = true
      · obtain rfl : first = a := only first List.mem_cons_self own
        rw [List.eraseP_cons_of_pos own, List.mem_cons]
        constructor
        · intro mem
          refine ⟨.inr mem, ?_⟩
          rintro rfl
          exact nodup.1 mem
        · rintro ⟨rfl | mem, ne⟩
          · exact absurd rfl ne
          · exact mem
      · rw [List.eraseP_cons_of_neg own, List.mem_cons, List.mem_cons,
          ih nodup.2 fun x mem => only x (List.mem_cons_of_mem _ mem)]
        have ne : x = first → x ≠ a := by
          rintro rfl rfl
          exact own holds
        constructor
        · rintro (same | ⟨mem, ne'⟩)
          · exact ⟨.inl same, ne same⟩
          · exact ⟨.inr mem, ne'⟩
        · rintro ⟨same | mem, ne'⟩
          · exact .inl same
          · exact .inr ⟨mem, ne'⟩

namespace Linked

theorem start (labels : (lists.map Prod.fst).Nodup) (empty : ∀ entry ∈ lists, entry.2 = []) :
    Linked objects (∅ : AList fun _ : κ => Nat) lists where
  labels := labels
  indexed := by
    intro key ref found
    cases found
  listed := by
    intro label refs mem ref on
    rw [show refs = [] from empty (label, refs) mem] at on
    cases on
  once := by
    intro label refs mem
    rw [show refs = [] from empty (label, refs) mem]
    exact List.nodup_nil

/-- An object of the index is in the list of its label, and in no other one. -/
theorem existsUnique (h : Linked objects index lists) (mem : key ∈ index) :
    ∃! label, ∃ refs, (label, refs) ∈ lists ∧ ∃ ref ∈ refs, ∃ label',
      objects[ref]? = some (key, label') := by
  obtain ⟨ref, found⟩ := Option.isSome_iff_exists.mp (AList.lookup_isSome.mpr mem)
  obtain ⟨label, refs, object, row, on⟩ := h.indexed key ref found
  refine ⟨label, ⟨refs, row, ref, on, label, object⟩, ?_⟩
  rintro other ⟨refs', row', ref', on', label', object'⟩
  obtain ⟨key', own, found'⟩ := h.listed other refs' row' ref' on'
  rw [own, Option.some.injEq, Prod.mk.injEq] at object'
  obtain ⟨rfl, -⟩ := object'
  obtain rfl : ref = ref' := Option.some.inj (found.symm.trans found')
  rw [object, Option.some.injEq, Prod.mk.injEq] at own
  exact own.2.symm

/-- The keys of a list are the ones of different objects of the index. -/
theorem keys (h : Linked objects index lists) {refs : List Nat} (mem : (label, refs) ∈ lists) :
    (∀ key ∈ refs.filterMap fun ref => (objects[ref]?).map Prod.fst, key ∈ index) ∧
      (refs.filterMap fun ref => (objects[ref]?).map Prod.fst).Nodup := by
  have object : ∀ ref ∈ refs, ∀ key, (objects[ref]?).map Prod.fst = some key →
      index.lookup key = some ref := by
    intro ref on key same
    obtain ⟨key', own, found⟩ := h.listed label refs mem ref on
    rw [own] at same
    obtain rfl : key' = key := Option.some.inj same
    exact found
  constructor
  · intro key on
    obtain ⟨ref, on', same⟩ := List.mem_filterMap.mp on
    exact AList.lookup_isSome.mp (Option.isSome_iff_exists.mpr ⟨ref, object ref on' key same⟩)
  · rw [List.Nodup, List.pairwise_filterMap]
    refine (h.once label refs mem).imp_of_mem fun on on' ne key same key' same' eq => ne ?_
    subst eq
    exact Option.some.inj ((object _ on key same).symm.trans (object _ on' key same'))

/-- The object of the index is found in the list of its label. -/
theorem any_of_lookup (h : Linked objects index lists) (found : index.lookup key = some ref)
    (object : objects[ref]? = some (key, label)) {refs : List Nat} (row : (label, refs) ∈ lists) :
    refs.any (fun ref => (objects[ref]?).any (·.1 = key)) = true := by
  obtain ⟨label', refs', object', row', on⟩ := h.indexed key ref found
  rw [object, Option.some.injEq, Prod.mk.injEq] at object'
  obtain ⟨-, rfl⟩ := object'
  obtain rfl : refs = refs' :=
    congrArg Prod.snd (List.inj_on_of_nodup_map h.labels row row' rfl)
  exact List.any_eq_true.mpr ⟨ref, on, by rw [object, Option.any_some, decide_eq_true_eq]⟩

variable [DecidableEq γ]

/-- A new object is added to the index and to the list of its label. -/
theorem add (h : Linked objects index lists) (fresh : key ∉ index)
    (known : label ∈ lists.map Prod.fst) :
    Linked (objects ++ [(key, label)]) (index.insert key objects.length)
      (lists.map fun entry =>
        (entry.1, if entry.1 = label then entry.2 ++ [objects.length] else entry.2)) := by
  have old : ∀ {ref : Nat} {object : κ × γ}, objects[ref]? = some object →
      (objects ++ [(key, label)])[ref]? = some object := by
    intro ref object found
    rw [List.getElem?_append_left (List.getElem?_eq_some_iff.mp found).1, found]
  have new : (objects ++ [(key, label)])[objects.length]? = some (key, label) :=
    List.getElem?_concat_length
  refine ⟨?_, ?_, ?_, ?_⟩
  · rw [List.map_map]
    exact h.labels
  · intro key' ref found
    by_cases same : key' = key
    · subst same
      rw [AList.lookup_insert] at found
      obtain rfl : objects.length = ref := Option.some.inj found
      obtain ⟨⟨_, refs⟩, row, rfl⟩ := List.mem_map.mp known
      exact ⟨_, refs ++ [objects.length], new,
        List.mem_map.mpr ⟨_, row, by rw [if_pos rfl]⟩, List.mem_concat_self⟩
    · rw [AList.lookup_insert_ne same] at found
      obtain ⟨label', refs, object, row, on⟩ := h.indexed key' ref found
      refine ⟨label', _, old object, List.mem_map.mpr ⟨_, row, rfl⟩, ?_⟩
      dsimp only
      split
      · exact List.mem_append_left _ on
      · exact on
  · intro label' refs mem ref on
    obtain ⟨⟨other, refs'⟩, row, same⟩ := List.mem_map.mp mem
    obtain ⟨rfl, rfl⟩ := Prod.mk.inj same
    have before : ref ∈ refs' → ∃ key', (objects ++ [(key, label)])[ref]? = some (key', other) ∧
        (index.insert key objects.length).lookup key' = some ref := by
      intro on'
      obtain ⟨key', object, found⟩ := h.listed other refs' row ref on'
      refine ⟨key', old object, ?_⟩
      rw [AList.lookup_insert_ne]
      · exact found
      · rintro rfl
        exact fresh (AList.lookup_isSome.mp (Option.isSome_iff_exists.mpr ⟨ref, found⟩))
    dsimp only at on
    split at on
    next own =>
      rcases List.mem_append.mp on with on' | last
      · exact before on'
      · rw [List.mem_singleton.mp last]
        exact ⟨key, by rw [new, ← own], AList.lookup_insert index⟩
    next => exact before on
  · intro label' refs mem
    obtain ⟨⟨_, refs'⟩, row, same⟩ := List.mem_map.mp mem
    obtain ⟨rfl, rfl⟩ := Prod.mk.inj same
    have nodup := h.once _ refs' row
    dsimp only
    split
    · refine List.nodup_append.mpr ⟨nodup, List.nodup_singleton _, ?_⟩
      rintro ref on _ last rfl
      obtain ⟨key', object, -⟩ := h.listed _ refs' row ref on
      rw [List.mem_singleton.mp last] at object
      have bound := (List.getElem?_eq_some_iff.mp object).1
      omega
    · exact nodup

/-- An object is removed from the index, and its key is searched in the list of its label. -/
theorem remove (h : Linked objects index lists) (found : index.lookup key = some ref)
    (object : objects[ref]? = some (key, label)) :
    Linked objects (index.erase key) (lists.map fun entry =>
      (entry.1, if entry.1 = label then
        entry.2.eraseP fun ref => (objects[ref]?).any (·.1 = key) else entry.2)) := by
  -- in a list, the object of the key is the one removed
  have only : ∀ label' refs, (label', refs) ∈ lists → ∀ ref' ∈ refs,
      (objects[ref']?).any (·.1 = key) = true → ref' = ref := by
    intro label' refs row ref' on own
    obtain ⟨key', object', found'⟩ := h.listed label' refs row ref' on
    rw [object', Option.any_some, decide_eq_true_eq] at own
    obtain rfl : key' = key := own
    exact Option.some.inj (found'.symm.trans found)
  have holds : (objects[ref]?).any (·.1 = key) = true := by
    rw [object, Option.any_some, decide_eq_true_eq]
  have erased : ∀ label' refs, (label', refs) ∈ lists → ∀ ref',
      ref' ∈ (if label' = label then
        refs.eraseP fun ref => (objects[ref]?).any (·.1 = key) else refs) ↔
        ref' ∈ refs ∧ ref' ≠ ref := by
    intro label' refs row ref'
    split
    next => exact mem_eraseP_iff (h.once label' refs row) (only label' refs row) holds
    next other =>
      refine ⟨fun on => ⟨on, ?_⟩, fun on => on.1⟩
      rintro rfl
      obtain ⟨key', object', -⟩ := h.listed label' refs row ref' on
      rw [object, Option.some.injEq, Prod.mk.injEq] at object'
      exact other object'.2.symm
  refine ⟨?_, ?_, ?_, ?_⟩
  · rw [List.map_map]
    exact h.labels
  · intro key' ref' found'
    have ne : key' ≠ key := by
      rintro rfl
      rw [AList.lookup_erase] at found'
      cases found'
    rw [AList.lookup_erase_ne ne] at found'
    obtain ⟨label', refs, object', row, on⟩ := h.indexed key' ref' found'
    refine ⟨label', _, object', List.mem_map.mpr ⟨_, row, rfl⟩, ?_⟩
    refine (erased label' refs row ref').mpr ⟨on, ?_⟩
    rintro rfl
    rw [object, Option.some.injEq, Prod.mk.injEq] at object'
    exact ne object'.1.symm
  · intro label' refs mem ref' on
    obtain ⟨⟨other, refs'⟩, row, same⟩ := List.mem_map.mp mem
    obtain ⟨rfl, rfl⟩ := Prod.mk.inj same
    obtain ⟨on', ne⟩ := (erased other refs' row ref').mp on
    obtain ⟨key', object', found'⟩ := h.listed other refs' row ref' on'
    refine ⟨key', object', ?_⟩
    rw [AList.lookup_erase_ne]
    · exact found'
    · rintro rfl
      exact ne (Option.some.inj (found'.symm.trans found))
  · intro label' refs mem
    obtain ⟨⟨other, refs'⟩, row, same⟩ := List.mem_map.mp mem
    obtain ⟨rfl, rfl⟩ := Prod.mk.inj same
    dsimp only
    split
    · exact (h.once other refs' row).eraseP _
    · exact h.once other refs' row

end Linked

/-! ### Totals over the index -/

/-- The sum of a weight over the objects of the index. -/
def total (weight : Nat → Int) (index : AList fun _ : κ => Nat) : Int :=
  (index.entries.map fun entry => weight entry.2).sum

theorem total_insert (weight : Nat → Int) (fresh : key ∉ index) :
    total weight (index.insert key ref) = weight ref + total weight index := by
  rw [total, AList.entries_insert_of_notMem fresh, List.map_cons, List.sum_cons, total]

theorem total_erase (weight : Nat → Int) (found : index.lookup key = some ref) :
    total weight index = weight ref + total weight (index.erase key) := by
  have mem : key ∈ index.entries.keys :=
    AList.lookup_isSome.mp (Option.isSome_iff_exists.mpr ⟨ref, found⟩)
  obtain ⟨ref', before, after, notMem, split, erased⟩ := List.exists_of_kerase mem
  have own : ref' = ref := by
    have entry : Sigma.mk key ref' ∈ index.entries := by
      rw [split]
      exact List.mem_append_right _ List.mem_cons_self
    exact Option.some.inj ((AList.mem_lookup_iff.mpr entry).symm.trans found)
  have erased' : (index.erase key).entries = before ++ after := erased
  rw [total, total, erased', split, List.map_append, List.map_append, List.map_cons,
    List.sum_append, List.sum_append, List.sum_cons, own]
  dsimp only
  omega

theorem total_congr {weight weight' : Nat → Int}
    (same : ∀ key ref, index.lookup key = some ref → weight ref = weight' ref) :
    total weight index = total weight' index := by
  refine congrArg List.sum (List.map_congr_left fun entry mem => ?_)
  exact same entry.1 entry.2 (AList.mem_lookup_iff.mpr mem)

/-- The number of objects. -/
theorem length_erase (found : index.lookup key = some ref) :
    index.entries.length = (index.erase key).entries.length + 1 := by
  have mem : key ∈ index.entries.keys :=
    AList.lookup_isSome.mp (Option.isSome_iff_exists.mpr ⟨ref, found⟩)
  have length : (index.erase key).entries.keys.length = index.entries.keys.length - 1 := by
    rw [← List.length_erase_of_mem mem]
    exact congrArg List.length List.keys_kerase
  have some := List.length_pos_of_mem mem
  simp only [List.keys, List.length_map] at length some
  omega

end OpenSand.Registry
