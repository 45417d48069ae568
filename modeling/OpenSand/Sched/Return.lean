import OpenSand.Lib.Loop
import OpenSand.Sched.PacketLoop

/-!
The scheduling of the return link (`ReturnSchedulingRcs2`).

`macSchedule` is a loop over a state that says what is done next. The packets that are
extracted, and the element they come from, are kept in that state; `taken` records what
the packet handler was given and its answer, and `refused` what a frame did not take.
A turn has no result when the program does not survive it.
-/

namespace OpenSand

open OpenSand.Word

/-! ### DVB-RCS2 frames -/

/-- The size of `T_DVB_ENCAP_BURST`. -/
def encapBurstLength : Nat := 6

/-- `MSG_DVB_RCS_SIZE_MAX`. -/
def msgDvbRcsSizeMax : Nat := 1204

structure DvbRcsFrame where
  maxSize : Nat
  packets : List NetPacket
  /-- A packet is only added in the free space. -/
  length_le : encapBurstLength + (packets.map NetContainer.getTotalLength).sum ≤ maxSize

namespace DvbRcsFrame

variable (frame : DvbRcsFrame)

def getTotalLength : Nat :=
  encapBurstLength + (frame.packets.map NetContainer.getTotalLength).sum

def getFreeSpace : Nat := frame.maxSize - frame.getTotalLength

/-- The count of the base class and the one of the header are the same 16 bits. -/
def getNumPackets : Nat := wrap 16 frame.packets.length

/-- The frame with a packet, unless it is too long. -/
def addPacket (packet : NetPacket) : Option DvbRcsFrame :=
  if enough : NetContainer.getTotalLength packet ≤ frame.getFreeSpace then
    some
      { maxSize := frame.maxSize
        packets := frame.packets ++ [packet]
        length_le := by
          have le := frame.length_le
          simp only [getFreeSpace, getTotalLength] at enough
          simp only [List.map_append, List.sum_append, List.map_cons, List.map_nil,
            List.sum_singleton]
          omega }
  else none

end DvbRcsFrame

/-! ### The loop -/

/-- A packet taken out of a FIFO: its element, the space that the packet handler was
given, whether the frame was new, and the answer of the handler. -/
structure Taken where
  fifo : Nat
  elem : FifoElement NetPacket
  freeSpace : Nat
  newBurst : Bool
  answer : Option (Option NetPacket × Option NetPacket)

/-- The packet handler of the return link. It has a state of its own, so its answer
depends on the packets it was given before. -/
structure ReturnPacketHandler where
  encapNextPacket : List Taken → NetPacket → Nat → Bool →
    Option (Option NetPacket × Option NetPacket)

/-- What is done next (`sched_state_t`), with what it is done on. -/
inductive SchedState where
  | nextFifo
  | getFifo
  | nextEncapPkt
  | getChunk (elem : FifoElement NetPacket) (packet : NetPacket)
  | addData (data : NetPacket)
  | finalizeFrame
  | done
  | error

/-- A piece is added in the frame; without one, the frame is completed. -/
def SchedState.afterChunk : Option NetPacket → SchedState
  | some data => .addData data
  | none => .finalizeFrame

/-- The variables of `macSchedule`; `history` is what was taken in the calls before. -/
structure MacSchedule where
  state : SchedState
  fifos : List (DvbFifo NetPacket)
  fifoIt : Nat
  incomplete : Option DvbRcsFrame
  complete : List DvbRcsFrame
  frameLengthB : Nat
  remainingAllocationB : Nat
  history : List Taken
  taken : List Taken
  refused : Option NetPacket

/-- `max((int)(a - b), 0)` for 32-bit words. -/
def subToZero (a b : Nat) : Nat :=
  if subW 32 a b < 2 ^ 31 then subW 32 a b else 0

namespace MacSchedule

variable (handler : ReturnPacketHandler) (maxBurstLengthB : Nat)

/-- A new frame for a burst, when the burst has at least one byte. -/
def allocateDvbRcsFrame : Option DvbRcsFrame :=
  if one : 1 ≤ maxBurstLengthB / 8 then
    some
      { maxSize := min (maxBurstLengthB / 8 + encapBurstLength) msgDvbRcsSizeMax
        packets := []
        length_le := by
          simp only [encapBurstLength, msgDvbRcsSizeMax, List.map_nil, List.sum_nil]
          omega }
  else none

def halted (s : MacSchedule) : Bool :=
  match s.state with
  | .done => true
  | .error => true
  | _ => false

def setFifo (s : MacSchedule) (fifo : DvbFifo NetPacket) : MacSchedule :=
  { s with fifos := s.fifos.set s.fifoIt fifo }

def getFifo (s : MacSchedule) : MacSchedule :=
  match s.fifos[s.fifoIt]? with
  | none => { s with state := .done }
  | some fifo =>
      if fifo.accessType.same (.return .saloha) then { s with state := .nextFifo }
      else { s with state := .nextEncapPkt }

def nextEncapPkt (s : MacSchedule) : Option MacSchedule :=
  s.fifos[s.fifoIt]?.bind fun fifo =>
    if fifo.getCurrentSize = 0 then some { s with state := .nextFifo }
    else
      fifo.pop.bind fun (popped, fifo) =>
        popped.bind fun elem =>
          match elem.getElem.1 with
          | none => some (s.setFifo fifo)
          | some packet => some { s.setFifo fifo with state := .getChunk elem packet }

/-- A packet that is refused is lost; what remains of another one is inserted again. -/
def getChunk (s : MacSchedule) (elem : FifoElement NetPacket) (packet : NetPacket) :
    Option MacSchedule :=
  s.incomplete.bind fun frame =>
    s.fifos[s.fifoIt]?.bind fun fifo =>
      let newBurst : Bool := frame.getNumPackets = 0
      let answer := handler.encapNextPacket (s.history ++ s.taken) packet frame.getFreeSpace
        newBurst
      let s : MacSchedule := { s with
        taken := s.taken ++ [⟨s.fifoIt, elem, frame.getFreeSpace, newBurst, answer⟩] }
      match answer with
      | none => some { s with state := .nextEncapPkt }
      | some (data, remaining) =>
          (reinsertPacket fifo elem remaining).map fun fifo =>
            { s.setFifo fifo with
              state := .afterChunk data }

def addData (s : MacSchedule) (data : NetPacket) : Option MacSchedule :=
  s.incomplete.map fun frame =>
    match frame.addPacket data with
    | none => { s with state := .error, refused := some data }
    | some frame =>
        let frameLengthB := addW 32 s.frameLengthB (NetContainer.getTotalLength data * 8)
        { s with
          incomplete := some frame
          frameLengthB := frameLengthB
          state :=
            if frame.getFreeSpace = 0 then .finalizeFrame
            else if s.remainingAllocationB ≤ frameLengthB then .finalizeFrame
            else .nextEncapPkt }

/-- The frame is completed; a new one is created when there is allocation left. -/
def finalizeFrame (s : MacSchedule) : Option MacSchedule :=
  s.incomplete.map fun frame =>
    if frame.getNumPackets = 0 then { s with frameLengthB := 0, state := .error }
    else
      let remainingAllocationB := subToZero s.remainingAllocationB s.frameLengthB
      let s := { s with
        complete := s.complete ++ [frame]
        remainingAllocationB := remainingAllocationB }
      if remainingAllocationB = 0 then { s with incomplete := none, state := .done }
      else
        match allocateDvbRcsFrame maxBurstLengthB with
        | none => { s with incomplete := none, state := .error }
        | some frame =>
            { s with incomplete := some frame, frameLengthB := 0, state := .nextEncapPkt }

/-- A turn of the loop. -/
def turn (s : MacSchedule) : Option MacSchedule :=
  match s.state with
  | .nextFifo => some { s with fifoIt := s.fifoIt + 1, state := .getFifo }
  | .getFifo => some s.getFifo
  | .nextEncapPkt => s.nextEncapPkt
  | .getChunk elem packet => s.getChunk handler elem packet
  | .addData data => s.addData data
  | .finalizeFrame => s.finalizeFrame maxBurstLengthB
  | .done => some s
  | .error => some s

/-- After the loop: the frame is deleted after an error, and completed if it is not empty
otherwise. -/
def close (s : MacSchedule) : Bool × MacSchedule :=
  match s.state with
  | .error => (false, { s with incomplete := none })
  | _ =>
      match s.incomplete with
      | none => (true, s)
      | some frame =>
          if 0 < frame.getNumPackets then
            (true, { s with
              incomplete := none
              complete := s.complete ++ [frame]
              remainingAllocationB := subToZero s.remainingAllocationB s.frameLengthB })
          else (true, { s with incomplete := none })

/-- Before the loop, with the frame that is allocated. -/
def start (fifos : List (DvbFifo NetPacket)) (history : List Taken) (remainingAllocationB : Nat)
    (incomplete : Option DvbRcsFrame) : MacSchedule where
  state := .getFifo
  fifos := fifos
  fifoIt := 0
  incomplete := incomplete
  complete := []
  frameLengthB := 0
  remainingAllocationB := remainingAllocationB
  history := history
  taken := []
  refused := none

def macSchedule (fuel : Nat) (fifos : List (DvbFifo NetPacket)) (history : List Taken)
    (remainingAllocationB : Nat) : Option (Bool × MacSchedule) :=
  match allocateDvbRcsFrame maxBurstLengthB with
  | none => some (false, start fifos history remainingAllocationB none)
  | some frame =>
      (Loop.exec halted (turn handler maxBurstLengthB) fuel
        (start fifos history remainingAllocationB (some frame))).map close

/-- `ReturnSchedulingRcs2::schedule`. -/
def schedule (fuel : Nat) (fifos : List (DvbFifo NetPacket)) (history : List Taken)
    (remainingAllocationB : Nat) : Option (Bool × MacSchedule) :=
  if maxBurstLengthB = 0 then some (true, start fifos history remainingAllocationB none)
  else macSchedule handler maxBurstLengthB fuel fifos history remainingAllocationB

end MacSchedule

end OpenSand
