import Mathlib.Data.List.Nodup
import Mathlib.Logic.Function.Basic
import Mathlib.Algebra.Group.Nat.Defs
import Mathlib.Order.Lattice

/-!
Elements gathered by key.

An element goes behind those pending under its key, and when they are as many as a batch holds
they are handed out together. What is pending under a key can be handed out before: `flush`.
`firstKept` tells, from numbers alone, which key is the first that a list of elements leaves with
something pending.
-/

namespace OpenSand

structure Batches (κ α : Type*) where
  pending : κ → List α
  emitted : List (List α)

namespace Batches

variable {κ α : Type*} [DecidableEq κ]

def flush (batches : Batches κ α) (k : κ) : Batches κ α :=
  if (batches.pending k).isEmpty then batches
  else ⟨Function.update batches.pending k [], batches.emitted ++ [batches.pending k]⟩

variable (key : α → κ) (cap : Nat)

def push (batches : Batches κ α) (x : α) : Batches κ α :=
  let filled := batches.pending (key x) ++ [x]
  if filled.length = cap then
    ⟨Function.update batches.pending (key x) [], batches.emitted ++ [filled]⟩
  else ⟨Function.update batches.pending (key x) filled, batches.emitted⟩

/-- Elements are pending under their own keys, and always fewer than a batch holds. -/
structure Sound (batches : Batches κ α) : Prop where
  own : ∀ k, ∀ x ∈ batches.pending k, key x = k
  short : ∀ k, (batches.pending k).length < cap

/-- The first key left with something pending, given how much is pending before. -/
def firstKept (count : κ → Nat) : List α → Option κ
  | [] => none
  | x :: xs =>
      if (count (key x) + 1) % cap = 0 then firstKept (Function.update count (key x) 0) xs
      else some (key x)

variable {key cap} {batches : Batches κ α}

theorem flush_pending (batches : Batches κ α) (k other : κ) :
    (batches.flush k).pending other = if other = k then [] else batches.pending other := by
  rw [flush]
  by_cases empty : (batches.pending k).isEmpty = true
  · rw [if_pos empty]
    split
    next same => rw [same, List.isEmpty_iff.mp empty]
    · rfl
  · rw [if_neg empty]
    exact Function.update_apply ..

theorem Sound.flush (sound : batches.Sound key cap) (k : κ) : (batches.flush k).Sound key cap := by
  constructor
  · intro other x mem
    rw [flush_pending] at mem
    split at mem
    · cases mem
    · exact sound.own other x mem
  · intro other
    rw [flush_pending]
    split
    next same => exact Nat.zero_lt_of_lt (sound.short other)
    · exact sound.short other

theorem push_of_full {x : α} (full : (batches.pending (key x)).length + 1 = cap) :
    batches.push key cap x = ⟨Function.update batches.pending (key x) [],
      batches.emitted ++ [batches.pending (key x) ++ [x]]⟩ := by
  rw [push, List.length_append, List.length_singleton, if_pos full]

theorem push_of_room {x : α} (room : (batches.pending (key x)).length + 1 ≠ cap) :
    batches.push key cap x = ⟨Function.update batches.pending (key x)
      (batches.pending (key x) ++ [x]), batches.emitted⟩ := by
  rw [push, List.length_append, List.length_singleton, if_neg room]

theorem push_pending (batches : Batches κ α) (x : α) (k : κ) :
    (batches.push key cap x).pending k =
      if k = key x then
        if (batches.pending (key x)).length + 1 = cap then [] else batches.pending (key x) ++ [x]
      else batches.pending k := by
  by_cases full : (batches.pending (key x)).length + 1 = cap
  · rw [push_of_full full, if_pos full]
    exact Function.update_apply ..
  · rw [push_of_room full, if_neg full]
    exact Function.update_apply ..

theorem push_emitted (batches : Batches κ α) (x : α) :
    (batches.push key cap x).emitted =
      if (batches.pending (key x)).length + 1 = cap then
        batches.emitted ++ [batches.pending (key x) ++ [x]]
      else batches.emitted := by
  by_cases full : (batches.pending (key x)).length + 1 = cap
  · rw [push_of_full full, if_pos full]
  · rw [push_of_room full, if_neg full]

/-- How many are pending after an element comes. -/
theorem length_push (sound : batches.Sound key cap) (x : α) (k : κ) :
    ((batches.push key cap x).pending k).length =
      if k = key x then ((batches.pending (key x)).length + 1) % cap
      else (batches.pending k).length := by
  have short := sound.short (key x)
  rw [push_pending]
  split
  · split
    next full => rw [full, Nat.mod_self, List.length_nil]
    next kept =>
      rw [List.length_append, List.length_singleton, Nat.mod_eq_of_lt (by omega)]
  · rfl

theorem Sound.push (sound : batches.Sound key cap) (x : α) :
    (batches.push key cap x).Sound key cap := by
  constructor
  · intro k y mem
    rw [push_pending] at mem
    split at mem
    next same =>
      split at mem
      · cases mem
      · rcases List.mem_append.mp mem with old | new
        · exact (sound.own _ y old).trans same.symm
        · rw [List.mem_singleton.mp new, same]
    · exact sound.own k y mem
  · intro k
    rw [length_push sound]
    split
    · exact Nat.mod_lt _ (Nat.zero_lt_of_lt (sound.short k))
    · exact sound.short k

/-- The keys of the elements are enough. -/
theorem firstKept_map {β : Type*} (f : β → α) (count : κ → Nat) (xs : List β) :
    firstKept key cap count (xs.map f) = firstKept (fun x => key (f x)) cap count xs := by
  induction xs generalizing count with
  | nil => rfl
  | cons x xs ih =>
      rw [List.map_cons, firstKept, firstKept]
      split
      · exact ih _
      · rfl

/-- Nothing is left with batches of one element. -/
theorem firstKept_one (count : κ → Nat) (xs : List α) : firstKept key 1 count xs = none := by
  induction xs generalizing count with
  | nil => rfl
  | cons x xs ih => rw [firstKept, if_pos (Nat.mod_one _), ih]

/-! ### Each element once -/

section Held

variable [BEq α]

/-- How often an element is pending or in a batch that was handed out. -/
def held (key : α → κ) (batches : Batches κ α) (x : α) : Nat :=
  batches.emitted.flatten.count x + (batches.pending (key x)).count x

variable [LawfulBEq α]

omit [DecidableEq κ] in
/-- Elements pending under a key are counted under it only. -/
theorem count_of_ne (sound : batches.Sound key cap) {k : κ} {x : α} (ne : key x ≠ k) :
    (batches.pending k).count x = 0 :=
  List.count_eq_zero_of_not_mem fun mem => ne (sound.own k x mem)

theorem held_flush (sound : batches.Sound key cap) (k : κ) (x : α) :
    held key (batches.flush k) x = held key batches x := by
  rw [held, held, flush_pending, flush]
  by_cases empty : (batches.pending k).isEmpty = true
  · rw [if_pos empty]
    split
    next same => rw [same, List.isEmpty_iff.mp empty]
    · rfl
  · rw [if_neg empty, List.flatten_append, List.flatten_singleton, List.count_append]
    by_cases same : key x = k
    · rw [if_pos same, same, List.count_nil, Nat.add_zero]
    · rw [if_neg same, count_of_ne sound same, Nat.add_zero]

theorem held_push (sound : batches.Sound key cap) (x y : α) :
    held key (batches.push key cap x) y = held key batches y + [x].count y := by
  have other : key y ≠ key x → [x].count y = 0 := fun ne =>
    List.count_eq_zero_of_not_mem fun mem => ne (congrArg key (List.mem_singleton.mp mem))
  rw [held, held, push_pending, push_emitted]
  by_cases same : key y = key x
  · rw [if_pos same, same]
    split
    · rw [List.flatten_append, List.flatten_singleton, List.count_append, List.count_append,
        List.count_nil]
      omega
    · rw [List.count_append]
      omega
  · rw [if_neg same, other same]
    split
    · rw [List.flatten_append, List.flatten_singleton, List.count_append, List.count_append,
        count_of_ne sound same, other same]
      omega
    · rfl

end Held

/-! ### Several elements and several keys -/

theorem Sound.pushAll (sound : batches.Sound key cap) (xs : List α) :
    (xs.foldl (Batches.push key cap) batches).Sound key cap := by
  induction xs generalizing batches with
  | nil => exact sound
  | cons x xs ih => exact ih (sound.push x)

theorem held_pushAll [BEq α] [LawfulBEq α] (sound : batches.Sound key cap) (xs : List α) (y : α) :
    held key (xs.foldl (Batches.push key cap) batches) y = held key batches y + xs.count y := by
  induction xs generalizing batches with
  | nil => rfl
  | cons x xs ih =>
      rw [List.foldl_cons, ih (sound.push x), held_push sound, Nat.add_assoc, ← List.count_append,
        List.singleton_append]

theorem length_pushAll (sound : batches.Sound key cap) (xs : List α) (k : κ) :
    ((xs.foldl (Batches.push key cap) batches).pending k).length =
      ((batches.pending k).length + xs.countP (key · = k)) % cap := by
  induction xs generalizing batches with
  | nil => exact (Nat.mod_eq_of_lt (sound.short k)).symm
  | cons x xs ih =>
      rw [List.foldl_cons, ih (sound.push x), length_push sound, List.countP_cons]
      by_cases same : key x = k
      · rw [if_pos same.symm, if_pos (decide_eq_true same), same, Nat.mod_add_mod, Nat.add_assoc,
          Nat.add_comm 1]
      · rw [if_neg (Ne.symm same), if_neg (by simpa using same), Nat.add_zero]

theorem Sound.flushAll (sound : batches.Sound key cap) (ks : List κ) :
    (ks.foldl Batches.flush batches).Sound key cap := by
  induction ks generalizing batches with
  | nil => exact sound
  | cons k ks ih => exact ih (sound.flush k)

theorem held_flushAll [BEq α] [LawfulBEq α] (sound : batches.Sound key cap) (ks : List κ) (x : α) :
    held key (ks.foldl Batches.flush batches) x = held key batches x := by
  induction ks generalizing batches with
  | nil => rfl
  | cons k ks ih => rw [List.foldl_cons, ih (sound.flush k), held_flush sound]

theorem flushAll_pending (batches : Batches κ α) (ks : List κ) (k : κ) :
    (ks.foldl Batches.flush batches).pending k = if k ∈ ks then [] else batches.pending k := by
  induction ks generalizing batches with
  | nil => exact (if_neg List.not_mem_nil).symm
  | cons first ks ih =>
      rw [List.foldl_cons, ih, flush_pending]
      by_cases later : k ∈ ks
      · rw [if_pos later, if_pos (List.mem_cons_of_mem _ later)]
      · rw [if_neg later]
        by_cases same : k = first
        · rw [if_pos same, if_pos (List.mem_cons.mpr (.inl same))]
        · rw [if_neg same, if_neg fun mem => (List.mem_cons.mp mem).elim same later]

end Batches

end OpenSand
