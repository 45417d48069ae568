import OpenSand.Lib.Run
import OpenSand.Lib.Word
import Mathlib.Algebra.BigOperators.Group.List.Basic

/-!
The MAC FIFO (`DvbFifo`) and its elements.

A FIFO keeps three redundant counts of what it queues: its byte length, and the
current packet number and byte length of its statistics. Packet counters are
16-bit words and byte counters 32-bit words. An element owns its packet through
a unique pointer, which is null once the packet was moved out; reading the
length of such an element is not survived, so the operations are partial.
-/

namespace OpenSand

open OpenSand.Word

/-- What a FIFO element can hold, seen through its length in bytes. -/
class NetContainer (α : Type) where
  getTotalLength : α → Nat

inductive ReturnAccessType where
  | damaVbdc | damaRbdc | damaAvbdc | damaCra | saloha
deriving DecidableEq, Repr

inductive ForwardAccessType where
  | acm | vcm
deriving DecidableEq, Repr

/-- The access type of a FIFO; `unknown` is the default-constructed one. -/
inductive ForwardOrReturnAccessType where
  | unknown
  | forward (type : ForwardAccessType)
  | «return» (type : ReturnAccessType)
deriving DecidableEq, Repr

/-- `operator ==`: an unknown type equals nothing, itself included. -/
def ForwardOrReturnAccessType.same : ForwardOrReturnAccessType → ForwardOrReturnAccessType → Bool
  | .forward a, .forward b => a = b
  | .return a, .return b => a = b
  | _, _ => false

structure FifoElement (α : Type) where
  elem : Option α
  tickIn : Nat
  tickOut : Nat
deriving DecidableEq, Repr

/-- Statistics of a FIFO (`mac_fifo_stat_context_t`). -/
structure MacFifoStatContext where
  currentPktNbr : Nat := 0
  currentLengthBytes : Nat := 0
  inPktNbr : Nat := 0
  outPktNbr : Nat := 0
  inLengthBytes : Nat := 0
  outLengthBytes : Nat := 0
  dropPktNbr : Nat := 0
  dropBytes : Nat := 0
deriving DecidableEq, Repr

instance neZero_word16 : NeZero (2 ^ 16) := ⟨by decide⟩

structure DvbFifo (α : Type) where
  queue : List (FifoElement α)
  accessType : ForwardOrReturnAccessType
  vcmId : Nat
  newSizePkt : Nat
  curLengthBytes : Nat
  newLengthBytes : Nat
  maxSizePkt : Fin (2 ^ 16)
  statContext : MacFifoStatContext
  /-- Every insertion tests the size first. -/
  queue_le : queue.length ≤ maxSizePkt

variable {α : Type}

/-- The length of an element, unless its packet was moved out. -/
def FifoElement.getTotalLength [NetContainer α] (e : FifoElement α) : Option Nat :=
  e.elem.map NetContainer.getTotalLength

def FifoElement.setElem (e : FifoElement α) (packet : α) : FifoElement α :=
  { e with elem := some packet }

/-- `getElem`: the packet of an element, and the element left without it. -/
def FifoElement.getElem (e : FifoElement α) : Option α × FifoElement α :=
  (e.elem, { e with elem := none })

namespace DvbFifo

/-- The constructor: an empty FIFO with null statistics. -/
def new (accessType : ForwardOrReturnAccessType) (vcmId : Nat) (maxSizePkt : Fin (2 ^ 16)) :
    DvbFifo α where
  queue := []
  accessType := accessType
  vcmId := vcmId
  newSizePkt := 0
  curLengthBytes := 0
  newLengthBytes := 0
  maxSizePkt := maxSizePkt
  statContext := {}
  queue_le := Nat.zero_le _

def getCurrentSize (fifo : DvbFifo α) : Nat := wrap 16 fifo.queue.length

def getCurrentDataLength (fifo : DvbFifo α) : Nat := fifo.curLengthBytes

/-- The tick of the head element, 0 when the FIFO is empty. -/
def getTickOut (fifo : DvbFifo α) : Nat :=
  match fifo.queue with
  | [] => 0
  | e :: _ => e.tickOut

/-- Reset the counts of arrivals, only for the requested access type. -/
def resetNew (fifo : DvbFifo α) (crType : ForwardOrReturnAccessType) : DvbFifo α :=
  if fifo.accessType.same crType then { fifo with newSizePkt := 0, newLengthBytes := 0 } else fifo

def resetStats (stat : MacFifoStatContext) : MacFifoStatContext :=
  { currentPktNbr := stat.currentPktNbr, currentLengthBytes := stat.currentLengthBytes }

/-- The statistics, whose period counters are reset by the read. -/
def getStatsCxt (fifo : DvbFifo α) : MacFifoStatContext × DvbFifo α :=
  (fifo.statContext, { fifo with statContext := resetStats fifo.statContext })

/-- `flush` empties the queue and resets the counters; `resetStats` leaves the
two current counts of the statistics alone. -/
def flush (fifo : DvbFifo α) : DvbFifo α :=
  { fifo with
    queue := []
    newSizePkt := 0
    newLengthBytes := 0
    curLengthBytes := 0
    statContext := resetStats fifo.statContext
    queue_le := Nat.zero_le _ }

variable [NetContainer α]

def push (fifo : DvbFifo α) (elem : FifoElement α) : Option (Bool × DvbFifo α) :=
  elem.getTotalLength.map fun total =>
    let length := wrap 32 total
    let stat := fifo.statContext
    if h : fifo.queue.length < fifo.maxSizePkt then
      (true, { fifo with
        queue := fifo.queue ++ [elem]
        newSizePkt := addW 16 fifo.newSizePkt 1
        newLengthBytes := addW 32 fifo.newLengthBytes length
        curLengthBytes := addW 32 fifo.curLengthBytes length
        statContext := { stat with
          currentPktNbr := wrap 16 (fifo.queue.length + 1)
          inPktNbr := addW 16 stat.inPktNbr 1
          currentLengthBytes := addW 32 stat.currentLengthBytes length
          inLengthBytes := addW 32 stat.inLengthBytes length }
        queue_le := by simp only [List.length_append, List.length_singleton]; omega })
    else
      (false, { fifo with
        statContext := { stat with
          dropPktNbr := addW 16 stat.dropPktNbr 1
          dropBytes := addW 32 stat.dropBytes length } })

/-- What `pushFront` and `pushBack` share: the element is a fragment of a former
one, so the arrival counters stay and its bytes leave the out counter. -/
def reinsert (fifo : DvbFifo α) (elem : FifoElement α) (queue : List (FifoElement α))
    (hlen : queue.length = fifo.queue.length + 1) : Option (Bool × DvbFifo α) :=
  if h : fifo.queue.length < fifo.maxSizePkt then
    elem.getTotalLength.map fun total =>
      let length := wrap 32 total
      let stat := fifo.statContext
      (true, { fifo with
        queue := queue
        curLengthBytes := addW 32 fifo.curLengthBytes length
        statContext := { stat with
          currentPktNbr := wrap 16 queue.length
          currentLengthBytes := addW 32 stat.currentLengthBytes length
          outLengthBytes := subW 32 stat.outLengthBytes length }
        queue_le := by omega })
  else
    some (false, fifo)

def pushFront (fifo : DvbFifo α) (elem : FifoElement α) : Option (Bool × DvbFifo α) :=
  fifo.reinsert elem (elem :: fifo.queue) rfl

def pushBack (fifo : DvbFifo α) (elem : FifoElement α) : Option (Bool × DvbFifo α) :=
  fifo.reinsert elem (fifo.queue ++ [elem]) (by simp)

/-- The head element and the FIFO without it; no element when it is empty. -/
def pop (fifo : DvbFifo α) : Option (Option (FifoElement α) × DvbFifo α) :=
  match hq : fifo.queue with
  | [] => some (none, fifo)
  | elem :: rest =>
      elem.getTotalLength.map fun total =>
        let length := wrap 32 total
        let stat := fifo.statContext
        (some elem, { fifo with
          queue := rest
          curLengthBytes := subW 32 fifo.curLengthBytes length
          statContext := { stat with
            currentPktNbr := wrap 16 rest.length
            outPktNbr := addW 16 stat.outPktNbr 1
            currentLengthBytes := subW 32 stat.currentLengthBytes length
            outLengthBytes := addW 32 stat.outLengthBytes length }
          queue_le := by have := fifo.queue_le; simp [hq] at this; omega })

/-- A push appends the element when there is room for it, and leaves the queue otherwise. -/
theorem push_cases {fifo fifo' : DvbFifo α} {elem : FifoElement α} {pushed : Bool}
    (h : fifo.push elem = some (pushed, fifo')) :
    fifo'.accessType = fifo.accessType ∧ fifo'.maxSizePkt = fifo.maxSizePkt ∧
      (pushed = true ∧ fifo.queue.length < fifo.maxSizePkt ∧ fifo'.queue = fifo.queue ++ [elem] ∨
        pushed = false ∧ ¬ fifo.queue.length < fifo.maxSizePkt ∧ fifo'.queue = fifo.queue) := by
  obtain ⟨total, -, eq⟩ := Option.map_eq_some_iff.mp h
  dsimp only at eq
  split at eq
  next room =>
    cases eq
    exact ⟨rfl, rfl, .inl ⟨rfl, room, rfl⟩⟩
  next full =>
    cases eq
    exact ⟨rfl, rfl, .inr ⟨rfl, full, rfl⟩⟩

/-- A pop takes the head of the queue, if there is one. -/
theorem pop_cases {fifo fifo' : DvbFifo α} {out : Option (FifoElement α)}
    (h : fifo.pop = some (out, fifo')) :
    fifo'.accessType = fifo.accessType ∧ fifo'.maxSizePkt = fifo.maxSizePkt ∧
      fifo.queue = out.toList ++ fifo'.queue := by
  unfold pop at h
  split at h
  next empty =>
    cases h
    exact ⟨rfl, rfl, rfl⟩
  next head rest queue =>
    obtain ⟨total, -, eq⟩ := Option.map_eq_some_iff.mp h
    cases eq
    exact ⟨rfl, rfl, queue⟩

end DvbFifo

/-! ### C/N extensions in the queue -/

/-- What `addCniExt` depends on: whether the destination of a packet is to be
sent the C/N (an SCPC terminal whose C/N changed), and the packet handler, which
builds the packet with the extension or fails. Both may change the state `σ`,
which holds the terminals' C/N flags. -/
structure CniExtension (σ α : Type) where
  isWanted : σ → α → Bool
  setPacketExtension : σ → α → σ × Option α

variable {σ : Type}

/-- The loop of `addCniExt` over the elements of one FIFO. The packet is moved
out of each element and put back, or replaced by the packet with the extension.
When the handler fails the loop is left at once and the element stays empty. -/
def addCniExtQueue (handler : CniExtension σ α) :
    σ → List (FifoElement α) → Option (Bool × σ × List (FifoElement α))
  | s, [] => some (true, s, [])
  | s, elem :: rest =>
      elem.getElem.1.bind fun packet =>
        if handler.isWanted s packet then
          match handler.setPacketExtension s packet with
          | (s', some extensionPkt) =>
              (addCniExtQueue handler s' rest).map fun (ok, s'', rest') =>
                (ok, s'', elem.getElem.2.setElem extensionPkt :: rest')
          | (s', none) => some (false, s', elem.getElem.2 :: rest)
        else
          (addCniExtQueue handler s rest).map fun (ok, s'', rest') =>
            (ok, s'', elem.getElem.2.setElem packet :: rest')

theorem addCniExtQueue_length {handler : CniExtension σ α} {s : σ} {queue : List (FifoElement α)}
    {out : Bool × σ × List (FifoElement α)} (h : addCniExtQueue handler s queue = some out) :
    out.2.2.length = queue.length := by
  induction queue generalizing s out with
  | nil =>
      cases h
      rfl
  | cons elem rest ih =>
      simp only [addCniExtQueue, Option.bind_eq_some_iff] at h
      obtain ⟨packet, _, h⟩ := h
      split at h
      · split at h
        · obtain ⟨mid, hmid, rfl⟩ := Option.map_eq_some_iff.mp h
          simp [ih hmid]
        · cases h
          rfl
      · obtain ⟨mid, hmid, rfl⟩ := Option.map_eq_some_iff.mp h
        simp [ih hmid]

/-- `addCniExt` on one FIFO: only the queue changes. -/
def DvbFifo.addCniExt (handler : CniExtension σ α) (s : σ) (fifo : DvbFifo α) :
    Option (Bool × σ × DvbFifo α) :=
  match h : addCniExtQueue handler s fifo.queue with
  | none => none
  | some out => some (out.1, out.2.1, { fifo with
      queue := out.2.2
      queue_le := by have := addCniExtQueue_length h; have := fifo.queue_le; omega })

end OpenSand
