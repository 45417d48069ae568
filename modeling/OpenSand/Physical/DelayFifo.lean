import OpenSand.Dvb.Fifo
import OpenSand.Lib.Bisect
import OpenSand.Lib.Loop

/-!
The FIFO of the satellite delay (`DelayFifo`).

Elements are kept by output tick. `push` searches the place of a new one by halving the
queue, which is where the elements up to its tick end (`getTickOutPosition_cut`), and
`pop` takes the first one out.
-/

namespace OpenSand

open OpenSand.Bisect OpenSand.Word

variable {α : Type}

structure DelayFifo (α : Type) where
  queue : List (FifoElement α)
  maxSizePkt : Fin (2 ^ 16)
  /-- Every insertion tests the size first. -/
  queue_le : queue.length ≤ maxSizePkt

namespace DelayFifo

theorem nil_le (maxSizePkt : Fin (2 ^ 16)) : ([] : List (FifoElement α)).length ≤ maxSizePkt :=
  Nat.zero_le _

def new (maxSizePkt : Fin (2 ^ 16)) : DelayFifo α := ⟨[], maxSizePkt, nil_le maxSizePkt⟩

def getCurrentSize (fifo : DelayFifo α) : Nat := wrap 16 fifo.queue.length

/-- The tick of the head element, 0 when the FIFO is empty. -/
def getTickOut (fifo : DelayFifo α) : Nat :=
  match fifo.queue with
  | [] => 0
  | e :: _ => e.tickOut

/-! ### The search -/

/-- The two bounds of the search. -/
structure Bounds where
  start : Int
  «end» : Int

/-- `queue.at`: a position outside the queue is refused by an exception. -/
def tickOutAt (queue : List (FifoElement α)) (pos : Int) : Option Nat :=
  if pos < 0 then none else (queue[pos.toNat]?).map FifoElement.tickOut

def narrowed (bounds : Bounds) : Bool := bounds.«end» ≤ bounds.start

def narrow (queue : List (FifoElement α)) (timeOut : Nat) (bounds : Bounds) : Option Bounds :=
  let test := (bounds.«end» + bounds.start).tdiv 2
  (tickOutAt queue test).map fun timeElem =>
    if timeElem > timeOut then { bounds with «end» := test } else { bounds with start := test + 1 }

/-- The index of a tick, -1 when none was found. -/
def getTickOutPosition (fifo : DelayFifo α) (timeOut : Nat) : Option Int :=
  let bounds := Loop.exec narrowed (narrow fifo.queue timeOut) (fifo.queue.length + 1)
    ⟨0, fifo.queue.length - 1⟩
  bounds.bind fun bounds =>
    if bounds.«end» = bounds.start then
      (tickOutAt fifo.queue bounds.start).map fun timeElem =>
        if timeElem > timeOut then bounds.start else bounds.start + 1
    else if bounds.«end» < 0 then some 0
    else some (-1)

/-! ### Operations -/

theorem length_insertIdx_le {queue : List (FifoElement α)} {maxSizePkt pos : Nat}
    {elem : FifoElement α} (room : queue.length < maxSizePkt) : (queue.insertIdx pos elem).length ≤ maxSizePkt :=
  List.length_insertIdx_le_succ.trans room

def insert (fifo : DelayFifo α) (pos : Nat) (elem : FifoElement α)
    (room : fifo.queue.length < fifo.maxSizePkt) : DelayFifo α where
  queue := fifo.queue.insertIdx pos elem
  maxSizePkt := fifo.maxSizePkt
  queue_le := length_insertIdx_le room

/-- An element is refused when the FIFO is full. -/
def push (fifo : DelayFifo α) (elem : FifoElement α) : Option (Bool × DelayFifo α) :=
  if room : fifo.queue.length < fifo.maxSizePkt then
    (fifo.getTickOutPosition elem.tickOut).bind fun pos =>
      if pos < 0 then some (true, fifo)
      else if pos.toNat ≤ fifo.queue.length then some (true, fifo.insert pos.toNat elem room)
      else none
  else some (false, fifo)

theorem length_tail_le {e : FifoElement α} {queue : List (FifoElement α)} {maxSizePkt : Nat}
    (le : (e :: queue).length ≤ maxSizePkt) : queue.length ≤ maxSizePkt :=
  (Nat.le_succ _).trans le

/-- The first element, unless the FIFO is empty. -/
def pop (fifo : DelayFifo α) : Option (FifoElement α) × DelayFifo α :=
  match fifo with
  | ⟨[], maxSizePkt, le⟩ => (none, ⟨[], maxSizePkt, le⟩)
  | ⟨e :: queue, maxSizePkt, le⟩ => (some e, ⟨queue, maxSizePkt, length_tail_le le⟩)

@[simp] theorem getCurrentSize_eq (fifo : DelayFifo α) : fifo.getCurrentSize = fifo.queue.length :=
  Nat.mod_eq_of_lt (Nat.lt_of_le_of_lt fifo.queue_le fifo.maxSizePkt.isLt)

theorem pop_cons {fifo : DelayFifo α} {e : FifoElement α} {rest : List (FifoElement α)}
    (eq : fifo.queue = e :: rest) :
    ∃ fifo', fifo.pop = (some e, fifo') ∧ fifo'.queue = rest := by
  obtain ⟨queue, maxSizePkt, le⟩ := fifo
  cases eq
  exact ⟨_, rfl, rfl⟩

/-! ### The place of a tick -/

section Search

variable {queue : List (FifoElement α)} {timeOut : Nat}

theorem tickOutAt_eq {pos : Nat} (inside : pos < queue.length) :
    tickOutAt queue pos = some queue[pos].tickOut := by
  rw [tickOutAt, if_neg (by omega), Int.toNat_natCast, List.getElem?_eq_getElem inside, Option.map_some]

/-- The bounds of a window become those of a window of one element. -/
theorem exec_window (ordered : Ordered FifoElement.tickOut queue) {first last fuel : Nat}
    (window : Window FifoElement.tickOut queue timeOut first last) (enough : last - first < fuel) :
    ∃ at_ : Nat, Loop.exec narrowed (narrow queue timeOut) fuel ⟨first, last⟩ = some ⟨at_, at_⟩ ∧
      Window FifoElement.tickOut queue timeOut at_ at_ := by
  induction fuel generalizing first last with
  | zero => exact absurd enough (Nat.not_lt_zero _)
  | succ fuel ih =>
      rw [Loop.exec]
      rcases Nat.lt_or_eq_of_le window.le with lt | rfl
      · have test : ((last : Int) + first).tdiv 2 = ((last + first) / 2 : Nat) :=
          (Int.ofNat_tdiv (last + first) 2).symm
        have inside : (last + first) / 2 < queue.length := by have := window.inside; omega
        rw [if_neg (by simpa [narrowed] using lt), narrow, test, tickOutAt_eq inside, Option.map_some,
          Option.bind_some]
        by_cases large : queue[(last + first) / 2].tickOut > timeOut
        · rw [if_pos large]
          exact ih (window.left ordered inside (by omega) large) (by omega)
        · rw [if_neg large, ← Nat.cast_succ]
          exact ih (window.right ordered inside (by omega) large) (by omega)
      · exact ⟨first, if_pos (by simp [narrowed]), window⟩

/-- The position found is behind the elements up to the tick. -/
theorem getTickOutPosition_cut {fifo : DelayFifo α} (ordered : Ordered FifoElement.tickOut fifo.queue) :
    ∃ pos : Nat, fifo.getTickOutPosition timeOut = some (pos : Int) ∧
      Cut FifoElement.tickOut fifo.queue timeOut pos := by
  rcases eq : fifo.queue with - | ⟨e, rest⟩
  · refine ⟨0, ?_, cut_nil⟩
    rw [getTickOutPosition, eq]
    rfl
  · rw [← eq]
    have nonempty : fifo.queue ≠ [] := by simp [eq]
    have bounds : (fifo.queue.length : Int) - 1 = (fifo.queue.length - 1 : Nat) := by
      have := List.length_pos_iff.mpr nonempty
      omega
    have whole : Window FifoElement.tickOut fifo.queue timeOut 0 (fifo.queue.length - 1) :=
      Window.whole nonempty
    have enough : fifo.queue.length - 1 - 0 < fifo.queue.length + 1 := by omega
    obtain ⟨found, searched, window⟩ := exec_window ordered whole enough
    refine ⟨_, ?_, window.cut window.inside⟩
    rw [getTickOutPosition, bounds]
    refine Option.bind_eq_some_iff.mpr ⟨_, searched, ?_⟩
    rw [if_pos rfl, tickOutAt_eq window.inside, Option.map_some]
    refine congrArg some ?_
    split <;> rfl

end Search

/-- A FIFO kept by tick accepts an element exactly when it has room, behind the elements up to
its tick. -/
theorem push_cases {fifo : DelayFifo α} (ordered : Ordered FifoElement.tickOut fifo.queue)
    (elem : FifoElement α) :
    (∃ (pos : Nat) (room : fifo.queue.length < fifo.maxSizePkt),
      Cut FifoElement.tickOut fifo.queue elem.tickOut pos ∧
        fifo.push elem = some (true, fifo.insert pos elem room)) ∨
    fifo.maxSizePkt ≤ fifo.queue.length ∧ fifo.push elem = some (false, fifo) := by
  by_cases room : fifo.queue.length < fifo.maxSizePkt
  · obtain ⟨pos, found, cut⟩ := @getTickOutPosition_cut _ elem.tickOut _ ordered
    refine .inl ⟨pos, room, cut, ?_⟩
    rw [push, dif_pos room, found, Option.bind_some, if_neg (by omega), Int.toNat_natCast,
      if_pos cut.inside]
  · exact .inr ⟨Nat.le_of_not_lt room, dif_neg room⟩

end DelayFifo

end OpenSand
