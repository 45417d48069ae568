import OpenSand.Dama.CircularBuffer
import OpenSand.Lib.Ring
import Mathlib.Data.List.Induction

/-!
The circular buffer as a sliding window of the last requests.

The places of the buffer follow the requests and the sum is the one of the window in 16 bits,
but the minimum is searched from 0 and the place of an older value is not the right one once
the index of the last value is passed. So the buffer gives what the window holds exactly when
a 0 is in it, its sum is a 16-bit number and each place read holds the value meant.
-/

namespace OpenSand.CircularBuffer

open OpenSand.Word OpenSand.Ring

/-- The buffer after some updates, the last one at the end. -/
def afterUpdates (bufferSize : Nat) (updates : List UInt16) : CircularBuffer :=
  updates.foldl (fun buffer value => buffer.update value.toNat) (new bufferSize)

/-- The values inserted, from the most recent one. -/
def history (updates : List UInt16) : List Nat := (updates.map UInt16.toNat).reverse

/-- The values in the window. -/
def window (bufferSize : Nat) (updates : List UInt16) : List Nat :=
  (history updates).take bufferSize

/-- The buffer gives the sum and the minimum of the window, and the sum of its most recent
values. -/
structure Slides (bufferSize : Nat) (updates : List UInt16) : Prop where
  sum : (afterUpdates bufferSize updates).getSum = (window bufferSize updates).sum
  least : window bufferSize updates ≠ [] →
    (afterUpdates bufferSize updates).getMin ∈ window bufferSize updates ∧
      ∀ value ∈ window bufferSize updates, (afterUpdates bufferSize updates).getMin ≤ value
  partialSum : ∀ n ≤ bufferSize, n < 2 ^ 31 →
    (afterUpdates bufferSize updates).getPartialSumFromPrevious n =
      some ((history updates).take n).sum

/-- The index of the last of a number of updates. -/
def lastIndex (bufferSize updates : Nat) : Nat := (updates + bufferSize - 1) % bufferSize

/-- The place read for the value that came `i` updates before the last one. -/
def placeRead (bufferSize updates i : Nat) : Nat :=
  wrap 32 ((2 ^ 64 - i + lastIndex bufferSize updates) % 2 ^ 64 % bufferSize)

/-- The places read are inside the buffer, and their values as old as the ones meant or equal
to them. -/
def ReadsMeant (bufferSize : Nat) (updates : List UInt16) : Prop :=
  ∀ i < bufferSize, i + 1 < 2 ^ 31 →
    placeRead bufferSize updates.length i < 2 ^ 31 ∧
      (history updates).getD (back bufferSize (lastIndex bufferSize updates.length)
        (placeRead bufferSize updates.length i)) 0 = (history updates).getD i 0

/-- What the window has to be. -/
structure Fits (bufferSize : Nat) (updates : List UInt16) : Prop where
  sum_lt : (window bufferSize updates).sum < 2 ^ 16
  zero_mem : window bufferSize updates ≠ [] → 0 ∈ window bufferSize updates
  reads : ReadsMeant bufferSize updates

variable {bufferSize n i value : Nat} {updates : List UInt16}

/-! ### The updates -/

theorem history_concat (updates : List UInt16) (value : UInt16) :
    history (updates ++ [value]) = value.toNat :: history updates := by
  simp [history]

theorem history_lt (mem : value ∈ history updates) : value < 2 ^ 16 := by
  obtain ⟨word, -, rfl⟩ := List.mem_map.mp (List.mem_reverse.mp mem)
  exact word.toNat_lt

theorem afterUpdates_concat (bufferSize : Nat) (updates : List UInt16) (value : UInt16) :
    afterUpdates bufferSize (updates ++ [value]) =
      (afterUpdates bufferSize updates).update value.toNat := by
  unfold afterUpdates
  rw [List.foldl_append]
  rfl

/-- The sum of the most recent values when one more is inserted. -/
theorem sum_take_cons {values : List Nat} (places : 0 < n) :
    ((value :: values).take n).sum + values.getD (n - 1) 0 = value + (values.take n).sum := by
  obtain ⟨n, rfl⟩ := Nat.exists_eq_add_of_le' places
  rw [List.take_succ_cons, List.sum_cons, List.take_add_one, List.sum_append, Nat.add_sub_cancel]
  rw [List.getD_eq_getElem?_getD]
  cases values[n]? <;> simp
  omega

theorem searchMin_zero (values : List Nat) (index value nbrValues : Nat) :
    searchMin values index value nbrValues = 0 := by
  unfold searchMin
  induction List.range nbrValues with
  | nil => rfl
  | cons i rest ih =>
      rw [List.foldl_cons]
      split
      · rw [Nat.zero_min]
        exact ih
      · rw [Nat.zero_min]
        exact ih

/-- What the buffer keeps along the updates. -/
structure Kept (bufferSize : Nat) (updates : List UInt16) (buffer : CircularBuffer) : Prop where
  saveOnlyLastValue : buffer.saveOnlyLastValue = decide (bufferSize = 0)
  length : buffer.values.length = max bufferSize 1
  index : buffer.index = lastIndex (max bufferSize 1) updates.length
  minValue : buffer.minValue = 0
  follows : Follows 0 buffer.values buffer.index (history updates)
  sum : buffer.sum = wrap 16 ((history updates).take (max bufferSize 1)).sum

/-- The sum follows the window when its oldest value is replaced. -/
theorem sum_replace {sum sum' old : Nat} (same : sum' + old = value + sum) :
    addW 16 (subW 16 (wrap 16 sum) old) value = wrap 16 sum' := by
  simp only [addW, subW, wrap]
  omega

theorem Kept.update {buffer : CircularBuffer} (kept : Kept bufferSize updates buffer)
    (value : UInt16) : Kept bufferSize (updates ++ [value]) (buffer.update value.toNat) := by
  have length : buffer.values.length = max bufferSize 1 := kept.length
  refine ⟨kept.saveOnlyLastValue, ?_, ?_, ?_, ?_, ?_⟩
  · change (buffer.values.set _ _).length = _
    rw [List.length_set, length]
  · change (buffer.index + 1) % buffer.values.length = _
    rw [kept.index, length, lastIndex, lastIndex, List.length_append, List.length_singleton,
      Nat.mod_add_mod]
    congr 1
    omega
  · change (if value.toNat ≤ buffer.minValue then value.toNat
      else if _ = buffer.minValue then searchMin _ _ _ _ else buffer.minValue) = 0
    rw [kept.minValue]
    split
    next zero => exact Nat.le_zero.mp zero
    split
    · exact searchMin_zero _ _ _ _
    · rfl
  · rw [history_concat]
    exact kept.follows.push buffer.index_lt
  · change addW 16 (subW 16 buffer.sum (buffer.values.getD _ 0)) value.toNat = _
    rw [kept.sum, kept.follows.oldest buffer.index_lt, length, history_concat]
    apply sum_replace
    exact sum_take_cons (by omega)

theorem kept (bufferSize : Nat) (updates : List UInt16) :
    Kept bufferSize updates (afterUpdates bufferSize updates) := by
  induction updates using List.reverseRecOn with
  | nil =>
      refine ⟨rfl, List.length_replicate, ?_, rfl, Follows.start 0 _ _, ?_⟩
      · change max bufferSize 1 - 1 = (0 + max bufferSize 1 - 1) % max bufferSize 1
        rw [Nat.zero_add, Nat.mod_eq_of_lt (by omega)]
      · change 0 = wrap 16 (([] : List Nat).take _).sum
        rw [List.take_nil]
        rfl
  | append_singleton updates value ih =>
      rw [afterUpdates_concat]
      exact ih.update value

/-! ### The sums -/

theorem sum_take_succ (values : List Nat) (n : Nat) :
    (values.take (n + 1)).sum = (values.take n).sum + values.getD n 0 := by
  rw [List.take_add_one, List.sum_append, List.getD_eq_getElem?_getD]
  cases values[n]? <;> simp

theorem sum_take_le (values : List Nat) {m : Nat} (le : n ≤ m) :
    (values.take n).sum ≤ (values.take m).sum := by
  obtain ⟨more, rfl⟩ := Nat.exists_eq_add_of_le le
  rw [List.take_add, List.sum_append]
  exact Nat.le_add_right _ _

theorem history_getD_lt (updates : List UInt16) (i : Nat) :
    (history updates).getD i 0 < 2 ^ 16 := by
  rw [List.getD_eq_getElem?_getD]
  cases found : (history updates)[i]? with
  | none => exact Nat.two_pow_pos 16
  | some value => exact history_lt (List.mem_of_getElem? found)

section Reads

variable {buffer : CircularBuffer}

/-- The value read for the one that came `i` updates before the last one. -/
theorem Kept.getValueIndex (kept : Kept bufferSize updates buffer) (lt : i < bufferSize)
    (int : i < 2 ^ 31) : buffer.getValueIndex (-(i : Int)) =
      if placeRead bufferSize updates.length i < 2 ^ 31 then
        some ((history updates).getD (back bufferSize (lastIndex bufferSize updates.length)
          (placeRead bufferSize updates.length i)) 0)
      else none := by
  have size : max bufferSize 1 = bufferSize := by omega
  have index := kept.index
  have length := kept.length
  rw [size] at index length
  have unsigned : ((-(i : Int) + buffer.index) % 2 ^ 64).toNat =
      (2 ^ 64 - i + lastIndex bufferSize updates.length) % 2 ^ 64 := by
    rw [index]
    omega
  have place : wrap 32 (((-(i : Int) + buffer.index) % 2 ^ 64).toNat % buffer.values.length) =
      placeRead bufferSize updates.length i := by
    rw [unsigned, length]
    rfl
  have inside : placeRead bufferSize updates.length i < buffer.values.length := by
    rw [length]
    apply lt_of_le_of_lt (Nat.mod_le _ _)
    exact Nat.mod_lt _ (Nat.zero_lt_of_lt lt)
  have read : buffer.values[placeRead bufferSize updates.length i]? =
      some ((history updates).getD (back bufferSize (lastIndex bufferSize updates.length)
        (placeRead bufferSize updates.length i)) 0) := by
    have meant := kept.follows.getD buffer.index_lt inside
    rw [length, index] at meant
    rw [← meant, List.getD_eq_getElem?_getD, List.getElem?_eq_getElem inside]
    rfl
  unfold CircularBuffer.getValueIndex
  dsimp only
  rw [place, read]

theorem getPartialSum_succ (buffer : CircularBuffer) (n : Nat) :
    buffer.getPartialSumFromPrevious (n + 1) =
      (buffer.getPartialSumFromPrevious n).bind fun partialSum =>
        (buffer.getValueIndex (-(n : Int))).map (addW 16 partialSum) := by
  unfold getPartialSumFromPrevious
  rw [List.range_succ, List.foldlM_append]
  simp

/-- The partial sums are exact as long as the places read hold the values meant. -/
theorem Kept.partialSum (kept : Kept bufferSize updates buffer)
    (sum_lt : (window bufferSize updates).sum < 2 ^ 16) (reads : ReadsMeant bufferSize updates)
    (le : n ≤ bufferSize) (int : n < 2 ^ 31) :
    buffer.getPartialSumFromPrevious n = some ((history updates).take n).sum := by
  induction n with
  | zero => rfl
  | succ n ih =>
      obtain ⟨inside, meant⟩ := reads n le int
      rw [getPartialSum_succ, ih (by omega) (by omega), kept.getValueIndex le (by omega),
        if_pos inside, meant, sum_take_succ]
      have below := sum_take_le (history updates) le
      rw [sum_take_succ] at below
      change some (addW 16 _ _) = _
      rw [addW_of_lt (lt_of_le_of_lt below sum_lt)]

/-- Exact partial sums come from places that hold the values meant. -/
theorem Kept.readsMeant (kept : Kept bufferSize updates buffer)
    (sum_lt : (window bufferSize updates).sum < 2 ^ 16)
    (sums : ∀ n ≤ bufferSize, n < 2 ^ 31 →
      buffer.getPartialSumFromPrevious n = some ((history updates).take n).sum) :
    ReadsMeant bufferSize updates := by
  intro i lt int
  have next := sums (i + 1) lt int
  rw [getPartialSum_succ, sums i (Nat.le_of_lt lt) (by omega), kept.getValueIndex lt (by omega)]
    at next
  split at next
  next inside =>
    refine ⟨inside, ?_⟩
    have sum := Option.some.inj next
    have read_lt := history_getD_lt updates (back bufferSize (lastIndex bufferSize updates.length)
      (placeRead bufferSize updates.length i))
    have below := lt_of_le_of_lt (sum_take_le (history updates) (Nat.succ_le_of_lt lt)) sum_lt
    rw [sum_take_succ] at sum below
    simp only [addW] at sum
    omega
  next => cases next

end Reads

/-! ### The window -/

theorem afterUpdates_getSum (bufferSize : Nat) (updates : List UInt16) :
    (afterUpdates bufferSize updates).getSum = wrap 16 (window bufferSize updates).sum := by
  have kept := kept bufferSize updates
  unfold getSum window
  rw [kept.saveOnlyLastValue, kept.sum]
  by_cases empty : bufferSize = 0
  · rw [if_pos (decide_eq_true empty), empty, List.take_zero]
    rfl
  · rw [if_neg (by simpa using empty), show max bufferSize 1 = bufferSize by omega]

/-- The buffer gives what the window holds exactly when the sum of the window is a 16-bit
number, a 0 is in it and the places read hold the values meant. -/
theorem slides_iff (bufferSize : Nat) (updates : List UInt16) :
    Slides bufferSize updates ↔ Fits bufferSize updates := by
  have kept := kept bufferSize updates
  constructor
  · intro slides
    have sum_lt : (window bufferSize updates).sum < 2 ^ 16 := by
      rw [← slides.sum, afterUpdates_getSum]
      exact wrap_lt 16 _
    refine ⟨sum_lt, fun values => ?_, kept.readsMeant sum_lt slides.partialSum⟩
    have mem := (slides.least values).1
    unfold getMin at mem
    rwa [kept.minValue] at mem
  · intro fits
    refine ⟨?_, fun values => ?_, fun n le int => ?_⟩
    · rw [afterUpdates_getSum]
      exact Nat.mod_eq_of_lt fits.sum_lt
    · unfold getMin
      rw [kept.minValue]
      exact ⟨fits.zero_mem values, fun value _ => Nat.zero_le value⟩
    · exact kept.partialSum fits.sum_lt fits.reads le int

/-- After one request of 100 kbit/s the minimum is still 0. -/
theorem not_slides : ¬ ∀ (bufferSize : Nat) (updates : List UInt16), Slides bufferSize updates := by
  intro slides
  have mem := ((slides 3 [100]).least (by decide)).1
  exact absurd mem (by decide)

/-! ### The places read -/

section Places

variable {updated : Nat}

theorem lastIndex_lt (lt : i < bufferSize) (updated : Nat) :
    lastIndex bufferSize updated < bufferSize := Nat.mod_lt _ (Nat.zero_lt_of_lt lt)

/-- The place read when the index does not pass the start of the buffer. -/
theorem placeRead_of_le (small : bufferSize ≤ 2 ^ 31) (lt : i < bufferSize)
    (le : i ≤ lastIndex bufferSize updated) :
    placeRead bufferSize updated i = lastIndex bufferSize updated - i := by
  have last := lastIndex_lt lt updated
  have place : (2 ^ 64 - i + lastIndex bufferSize updated) % 2 ^ 64 =
      lastIndex bufferSize updated - i := by omega
  unfold placeRead
  rw [place, Nat.mod_eq_of_lt (by omega), wrap_of_lt (by omega)]

/-- The place read when it does: the 64-bit range is not a number of turns. -/
theorem placeRead_of_gt (small : bufferSize ≤ 2 ^ 31) (lt : i < bufferSize)
    (gt : lastIndex bufferSize updated < i) :
    placeRead bufferSize updated i =
      (lastIndex bufferSize updated + bufferSize - i + 2 ^ 64 % bufferSize) % bufferSize := by
  have last := lastIndex_lt lt updated
  have place : (2 ^ 64 - i + lastIndex bufferSize updated) % 2 ^ 64 =
      2 ^ 64 - (i - lastIndex bufferSize updated) := by omega
  have turn : 2 ^ 64 - (i - lastIndex bufferSize updated) + bufferSize =
      lastIndex bufferSize updated + bufferSize - i + 2 ^ 64 := by omega
  have inside : (2 ^ 64 - (i - lastIndex bufferSize updated)) % bufferSize < bufferSize :=
    Nat.mod_lt _ (Nat.zero_lt_of_lt lt)
  unfold placeRead
  rw [place, wrap_of_lt (by omega), Nat.add_mod_mod, ← turn, Nat.add_mod_right]

/-- The age of the value that is read in the place of another one. -/
theorem back_placeRead_of_gt (small : bufferSize ≤ 2 ^ 31) (lt : i < bufferSize)
    (gt : lastIndex bufferSize updated < i) :
    back bufferSize (lastIndex bufferSize updated) (placeRead bufferSize updated i) =
      (i + bufferSize - 2 ^ 64 % bufferSize) % bufferSize := by
  have last_lt := lastIndex_lt lt updated
  have extra_lt : 2 ^ 64 % bufferSize < bufferSize := Nat.mod_lt _ (Nat.zero_lt_of_lt lt)
  rw [placeRead_of_gt small lt gt]
  generalize 2 ^ 64 % bufferSize = extra at *
  generalize lastIndex bufferSize updated = last at *
  have place : (last + bufferSize - i + extra) % bufferSize =
      if last + extra < i then last + bufferSize - i + extra else last + extra - i := by
    split
    · exact Nat.mod_eq_of_lt (by omega)
    · rw [show last + bufferSize - i + extra = last + extra - i + bufferSize by omega,
        Nat.add_mod_right, Nat.mod_eq_of_lt (by omega)]
  have age : (i + bufferSize - extra) % bufferSize =
      if i < extra then i + bufferSize - extra else i - extra := by
    split
    · exact Nat.mod_eq_of_lt (by omega)
    · rw [show i + bufferSize - extra = i - extra + bufferSize by omega, Nat.add_mod_right,
        Nat.mod_eq_of_lt (by omega)]
  rw [place, age]
  unfold back
  split <;> split <;> split <;> omega

end Places

/-- In a buffer of at most 2 ^ 31 places, the value read once the start of the buffer is passed
is more recent than the one meant, by the rest of the 64-bit range after whole turns. -/
theorem readsMeant_iff (small : bufferSize ≤ 2 ^ 31) :
    ReadsMeant bufferSize updates ↔
      ∀ i < bufferSize, i + 1 < 2 ^ 31 → lastIndex bufferSize updates.length < i →
        (history updates).getD ((i + bufferSize - 2 ^ 64 % bufferSize) % bufferSize) 0 =
          (history updates).getD i 0 := by
  constructor
  · intro reads i lt int gt
    rw [← back_placeRead_of_gt small lt gt]
    exact (reads i lt int).2
  · intro same i lt int
    have last := lastIndex_lt lt updates.length
    rcases Nat.lt_or_ge (lastIndex bufferSize updates.length) i with gt | le
    · rw [back_placeRead_of_gt small lt gt, placeRead_of_gt small lt gt]
      refine ⟨?_, same i lt int gt⟩
      exact lt_of_lt_of_le (Nat.mod_lt _ (Nat.zero_lt_of_lt lt)) small
    · rw [placeRead_of_le small lt le]
      refine ⟨by omega, ?_⟩
      unfold back
      rw [if_pos (Nat.sub_le _ _), Nat.sub_sub_self le]

/-- They are always right when the number of places divides the 64-bit range. -/
theorem readsMeant_of_dvd (small : bufferSize ≤ 2 ^ 31) (dvd : bufferSize ∣ 2 ^ 64) :
    ReadsMeant bufferSize updates := by
  rw [readsMeant_iff small]
  intro i lt int gt
  rw [Nat.mod_eq_zero_of_dvd dvd, Nat.sub_zero, Nat.add_mod_right, Nat.mod_eq_of_lt lt]

end OpenSand.CircularBuffer
