import OpenSand.Lib.Word

/-!
The circular buffer of the previous capacity requests (`CircularBuffer`).

Rates are 16-bit words. The index is that of the last inserted value.
-/

namespace OpenSand

open OpenSand.Word

structure CircularBuffer where
  saveOnlyLastValue : Bool
  values : List Nat
  index : Nat
  nbrValues : Nat
  sum : Nat
  minValue : Nat
  /-- The index is inside the buffer, which therefore has a place. -/
  index_lt : index < values.length

namespace CircularBuffer

/-- The constructor: zeros, and one place at least. -/
def new (bufferSize : Nat) : CircularBuffer where
  saveOnlyLastValue := bufferSize = 0
  values := List.replicate (max bufferSize 1) 0
  index := max bufferSize 1 - 1
  nbrValues := 0
  sum := 0
  minValue := 0
  index_lt := by rw [List.length_replicate]; omega

/-- The new minimum when the old one is overwritten, searched from 0. -/
def searchMin (values : List Nat) (index value nbrValues : Nat) : Nat :=
  (List.range nbrValues).foldl
    (fun least i => if i = index then min least value else min least (values.getD i 0)) 0

/-- Insert a value after the last one. -/
def update (buffer : CircularBuffer) (value : Nat) : CircularBuffer :=
  let size := buffer.values.length
  let nbrValues := min (buffer.nbrValues + 1) size
  let index := (buffer.index + 1) % size
  let old := buffer.values.getD index 0
  { buffer with
    values := buffer.values.set index value
    index := index
    nbrValues := nbrValues
    sum := addW 16 (subW 16 buffer.sum old) value
    minValue :=
      if value ≤ buffer.minValue then value
      else if old = buffer.minValue then searchMin buffer.values index value nbrValues
      else buffer.minValue
    index_lt := by
      rw [List.length_set]
      exact Nat.mod_lt _ (Nat.zero_lt_of_lt buffer.index_lt) }

/-- The last inserted value, 0 before any insertion. -/
def getPreviousValue (buffer : CircularBuffer) : Nat := buffer.values.get ⟨_, buffer.index_lt⟩

/-! ### The window -/

def getMin (buffer : CircularBuffer) : Nat := buffer.minValue

/-- The sum is always 0 when only the last value is saved. -/
def getSum (buffer : CircularBuffer) : Nat := if buffer.saveOnlyLastValue then 0 else buffer.sum

/-- The value at a place relative to the last one. The place is computed in 64 bits without
sign and stored as a signed integer of 32 bits: a negative one is outside the buffer. -/
def getValueIndex (buffer : CircularBuffer) (i : Int) : Option Nat :=
  let place := wrap 32 (((i + buffer.index) % 2 ^ 64).toNat % buffer.values.length)
  if place < 2 ^ 31 then buffer.values[place]? else none

/-- The sum in 16 bits of some of the values, from the last one. -/
def getPartialSumFromPrevious (buffer : CircularBuffer) (valueNumber : Nat) : Option Nat :=
  (List.range valueNumber).foldlM
    (fun partialSumKbps (i : Nat) =>
      (buffer.getValueIndex (-i)).map (addW 16 partialSumKbps)) 0

end CircularBuffer

end OpenSand
