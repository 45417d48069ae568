import OpenSand.Lib.Bytes

/-!
Records behind their lengths.

A list of records is written one after the other, each behind its length on four bytes.
The reader is a loop whose end is tested after each record, so that it reads a record even
where there is none.
-/

namespace OpenSand.LengthPrefixed

open Bytes

variable {α β : Type*}

def writeRecords (write : α → Data) (items : List α) : Data :=
  items.flatMap fun item => toLE 4 (write item).length ++ write item

/-- The record at a position and the position after it. A reader gets what is from the record
on, and its length. -/
def readRecord (read : Data → Nat → Option β) (data : Data) (pos : Nat) : Option (β × Nat) :=
  ((slice pos 4 data).map ofLE).bind fun recordLength =>
    (read (data.drop (pos + 4)) recordLength).map fun record => (record, pos + 4 + recordLength)

/-- The loop from a position on: the records and the position after the last one. -/
def readFrom (read : Data → Nat → Option β) (data : Data) (length : Nat) :
    Nat → Nat → Option (List β × Nat)
  | 0, _ => none
  | fuel + 1, pos =>
      (readRecord read data pos).bind fun (record, pos) =>
        if pos < length then
          (readFrom read data length fuel pos).map fun (records, last) => (record :: records, last)
        else some ([record], pos)

/-- Each turn takes four bytes at least, so there are no more turns than bytes. -/
def readRecords (read : Data → Nat → Option β) (data : Data) (length : Nat) :
    Option (List β × Nat) :=
  readFrom read data length (length + 1) 0

variable {write : α → Data} {read : Data → Nat → Option β} {image : α → β} {data rest : Data}
  {length fuel pos : Nat} {items : List α}

theorem writeRecords_cons (write : α → Data) (item : α) (items : List α) :
    writeRecords write (item :: items) =
      toLE 4 (write item).length ++ (write item ++ writeRecords write items) := by
  rw [writeRecords, List.flatMap_cons, List.append_assoc]
  rfl

theorem length_le_writeRecords (write : α → Data) {item : α} (mem : item ∈ items) :
    (write item).length ≤ (writeRecords write items).length := by
  induction items with
  | nil => exact absurd mem List.not_mem_nil
  | cons first items ih =>
      rw [writeRecords_cons]
      simp only [List.length_append]
      rcases List.mem_cons.mp mem with rfl | mem
      · omega
      · have := ih mem
        omega

theorem length_items_le (write : α → Data) (items : List α) :
    items.length ≤ (writeRecords write items).length := by
  induction items with
  | nil => exact Nat.zero_le _
  | cons item items ih =>
      rw [writeRecords_cons]
      simp only [List.length_append, toLE_length, List.length_cons]
      omega

/-- The loop always reads a record. -/
theorem readFrom_ne_nil {records : List β} {last : Nat}
    (result : readFrom read data length fuel pos = some (records, last)) : records ≠ [] := by
  cases fuel with
  | zero => cases result
  | succ fuel =>
      obtain ⟨⟨record, next⟩, _, result⟩ := Option.bind_eq_some_iff.mp result
      dsimp only at result
      split at result
      · obtain ⟨⟨records', last'⟩, _, eq⟩ := Option.map_eq_some_iff.mp result
        cases eq
        exact List.cons_ne_nil _ _
      · cases result
        exact List.cons_ne_nil _ _

theorem readRecord_append {item : α} (before : Data)
    (reads : ∀ rest, read (write item ++ rest) (write item).length = some (image item))
    (short : (write item).length < 256 ^ 4) :
    readRecord read (before ++ (toLE 4 (write item).length ++ (write item ++ rest)))
        before.length =
      some (image item, before.length + 4 + (write item).length) := by
  have skipped : (before ++ (toLE 4 (write item).length ++ (write item ++ rest))).drop
      (before.length + 4) = write item ++ rest := by
    rw [← List.append_assoc]
    exact List.drop_left' (by simp)
  rw [readRecord, slice_append rfl (toLE_length _ _), Option.map_some, ofLE_toLE short,
    Option.bind_some, skipped, reads, Option.map_some]

theorem writeRecords_cons_length (write : α → Data) (item : α) (items : List α) :
    (writeRecords write (item :: items)).length =
      4 + (write item).length + (writeRecords write items).length := by
  simp only [writeRecords_cons, List.length_append, toLE_length]
  omega

theorem writeRecords_pos (write : α → Data) (some_item : items ≠ []) :
    0 < (writeRecords write items).length := by
  obtain ⟨item, items, rfl⟩ := List.exists_cons_of_ne_nil some_item
  rw [writeRecords_cons_length]
  omega

/-- The records written are read back, when there is one and the reader gives the image of
each of them. -/
theorem readFrom_writeRecords (some_item : items ≠ [])
    (reads : ∀ item ∈ items, ∀ rest,
      read (write item ++ rest) (write item).length = some (image item))
    (short : ∀ item ∈ items, (write item).length < 256 ^ 4)
    (fueled : items.length ≤ fuel) (before : Data) :
    readFrom read (before ++ (writeRecords write items ++ rest))
        (before.length + (writeRecords write items).length) fuel before.length =
      some (items.map image, before.length + (writeRecords write items).length) := by
  induction items generalizing before fuel with
  | nil => exact absurd rfl some_item
  | cons item items ih =>
      obtain ⟨fuel, rfl⟩ : ∃ fuel', fuel = fuel' + 1 :=
        ⟨fuel - 1, by simp only [List.length_cons] at fueled; omega⟩
      have first : readRecord read (before ++ (writeRecords write (item :: items) ++ rest))
          before.length = some (image item, before.length + 4 + (write item).length) := by
        rw [writeRecords_cons, List.append_assoc, List.append_assoc]
        exact readRecord_append before (reads item List.mem_cons_self)
          (short item List.mem_cons_self)
      rw [readFrom, first, Option.bind_some, writeRecords_cons_length]
      dsimp only
      by_cases more : items = []
      · subst more
        rw [if_neg (by simp [writeRecords]; omega)]
        simp [writeRecords]
        omega
      · -- the next record stands behind this one
        let before' := before ++ (toLE 4 (write item).length ++ write item)
        have memory : before ++ (writeRecords write (item :: items) ++ rest) =
            before' ++ (writeRecords write items ++ rest) := by
          simp only [before', writeRecords_cons, List.append_assoc]
        have start : before'.length = before.length + 4 + (write item).length := by
          simp only [before', List.length_append, toLE_length]
          omega
        have ends : before.length + (4 + (write item).length + (writeRecords write items).length) =
            before'.length + (writeRecords write items).length := by
          omega
        have pos := writeRecords_pos write more
        rw [if_pos (by omega), memory, ends, ← start,
          ih more (fun other mem => reads other (List.mem_cons_of_mem _ mem))
            (fun other mem => short other (List.mem_cons_of_mem _ mem))
            (by simpa using fueled) before']
        rfl

theorem readRecords_writeRecords (some_item : items ≠ [])
    (reads : ∀ item ∈ items, ∀ rest,
      read (write item ++ rest) (write item).length = some (image item))
    (short : (writeRecords write items).length < 256 ^ 4) :
    readRecords read (writeRecords write items ++ rest) (writeRecords write items).length =
      some (items.map image, (writeRecords write items).length) := by
  have each : ∀ item ∈ items, (write item).length < 256 ^ 4 := fun item mem =>
    Nat.lt_of_le_of_lt (length_le_writeRecords write mem) short
  have fueled : items.length ≤ (writeRecords write items).length + 1 :=
    Nat.le_succ_of_le (length_items_le write items)
  simpa [readRecords] using readFrom_writeRecords some_item reads each fueled []

end OpenSand.LengthPrefixed
