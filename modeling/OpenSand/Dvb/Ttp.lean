import OpenSand.Lib.Bytes
import Std.Data.TreeMap

/-!
The terminal burst time plan (`Ttp`): building the frame and reading it.

The frame is an 8-byte header followed, for each frame number, by 3 bytes (the
number and the count of its plans) and 10 bytes for each plan. The count and
the fields that are not put in network order are those of a little-endian host.

`build` writes the count of the frame with index `k` in the `k`-th element of an
array of 3-byte frames, and `getTp` goes to the next frame by the plans alone.
`getTp` also converts the plans it hands out in the received frame itself.
-/

namespace OpenSand

open OpenSand.Bytes Std

/-- The message type of a TTP (`EmulatedMessageType::Ttp`). -/
def ttpMessageType : UInt8 := 21

/-- A time plan as it is added to a TTP. -/
structure TimePlan where
  frameId : UInt8
  talId : UInt16
  offset : Int32
  assignmentCount : UInt16
  fmtId : UInt8
  priority : UInt8
deriving DecidableEq, Repr

/-- A time plan in memory (`emu_tp_t`): the bytes of its fields. -/
structure EmuTp where
  talId : Data
  offset : Data
  assignmentCount : Data
  fmtId : UInt8
  priority : UInt8
  talId_length : talId.length = 2
  offset_length : offset.length = 4
  assignmentCount_length : assignmentCount.length = 2
deriving DecidableEq

/-- `sizeof(emu_tp_t)`. -/
def emuTpLength : Nat := 10

/-- `sizeof(frame_info_t)`. -/
def frameInfoLength : Nat := 3

/-- A number of `w` bytes after the conversion between host and network order. -/
def swapBytes (w n : Nat) : Nat := ofLE (toBE w n)

namespace EmuTp

def bytes (tp : EmuTp) : Data :=
  tp.talId ++ tp.offset ++ tp.assignmentCount ++ [tp.fmtId, tp.priority]

@[simp] theorem bytes_length (tp : EmuTp) : tp.bytes.length = emuTpLength := by
  simp [bytes, tp.talId_length, tp.offset_length, tp.assignmentCount_length, emuTpLength]

theorem length_flatMap_bytes (tpList : List EmuTp) :
    (tpList.flatMap bytes).length = emuTpLength * tpList.length := by
  simp [Nat.mul_comm]

/-- The time plan at an offset, all of it in the data. -/
def read (off : Nat) (data : Data) : Option EmuTp :=
  if h : off + emuTpLength ≤ data.length then
    some {
      talId := (data.drop off).take 2
      offset := (data.drop (off + 2)).take 4
      assignmentCount := (data.drop (off + 6)).take 2
      fmtId := data.getD (off + 8) 0
      priority := data.getD (off + 9) 0
      talId_length := by simp [emuTpLength] at h ⊢; omega
      offset_length := by simp [emuTpLength] at h ⊢; omega
      assignmentCount_length := by simp [emuTpLength] at h ⊢; omega }
  else none

/-- The plan with its offset and assignment count converted in place. -/
def convert (tp : EmuTp) : EmuTp :=
  { tp with
    offset := tp.offset.reverse
    assignmentCount := tp.assignmentCount.reverse
    offset_length := by rw [List.length_reverse, tp.offset_length]
    assignmentCount_length := by rw [List.length_reverse, tp.assignmentCount_length] }

/-- The plan is one of the terminal. -/
def Mine (talId : UInt16) (tp : EmuTp) : Prop := ofBE tp.talId = talId.toNat

instance (talId : UInt16) (tp : EmuTp) : Decidable (tp.Mine talId) :=
  inferInstanceAs (Decidable (_ = _))

/-- A plan handed out by `getTp` is a given one: the terminal is still in network
order and the other fields in host order. -/
structure Describes (tp : EmuTp) (plan : TimePlan) : Prop where
  talId : ofBE tp.talId = plan.talId.toNat
  offset : ofLE tp.offset = plan.offset.toUInt32.toNat
  assignmentCount : ofLE tp.assignmentCount = plan.assignmentCount.toNat
  fmtId : tp.fmtId = plan.fmtId
  priority : tp.priority = plan.priority

end EmuTp

/-- The plan with its fields in network order. -/
def TimePlan.emuTp (plan : TimePlan) : EmuTp where
  talId := toBE 2 plan.talId.toNat
  offset := toBE 4 plan.offset.toUInt32.toNat
  assignmentCount := toBE 2 plan.assignmentCount.toNat
  fmtId := plan.fmtId
  priority := plan.priority
  talId_length := toBE_length 2 _
  offset_length := toBE_length 4 _
  assignmentCount_length := toBE_length 2 _

/-- A TTP under construction: the frame, and the plans added so far by frame. -/
structure Ttp where
  data : Data
  frames : TreeMap Nat (List EmuTp)

namespace Ttp

/-- The size of the header, and the offset of the number of frames in it. -/
def headerLength : Nat := 8
def frameLoopCountOffset : Nat := 7

def new (groupId sfId : UInt16) : Ttp where
  data := toBE 2 headerLength ++ [ttpMessageType] ++ toLE 2 groupId.toNat ++
    toBE 2 sfId.toNat ++ [0]
  frames := ∅

def addTimePlan (ttp : Ttp) (plan : TimePlan) : Ttp :=
  { ttp with
    frames := ttp.frames.insert plan.frameId.toNat
      (ttp.frames.getD plan.frameId.toNat [] ++ [plan.emuTp]) }

/-- The loop of `build` over the frames. The plan count appended with a frame is
whatever the memory held; the count is then written through the array of frames. -/
def buildFrames (junk : Nat → UInt16) :
    Nat → Data → List (Nat × List EmuTp) → Option (Nat × Data)
  | frameCount, data, [] => some (frameCount, data)
  | frameCount, data, (number, tpList) :: rest =>
      let data := data ++ (toLE 1 number ++ toLE 2 (junk frameCount).toNat) ++
        tpList.flatMap EmuTp.bytes
      (patch (headerLength + frameInfoLength * frameCount + 1) (toLE 2 tpList.length) data).bind
        fun data => buildFrames junk (frameCount + 1) data rest

/-- The length of the whole message. -/
def length (frames : List (Nat × List EmuTp)) : Nat :=
  headerLength + (frames.map fun frame => frameInfoLength + emuTpLength * frame.2.length).sum

def build (junk : Nat → UInt16) (ttp : Ttp) : Option Data :=
  (buildFrames junk 0 ttp.data ttp.frames.toList).bind fun (frameCount, data) =>
    (patch frameLoopCountOffset (toLE 1 frameCount) data).bind fun data =>
      patch 0 (toBE 2 (length ttp.frames.toList)) data

/-- The plans of one frame: those of the terminal are converted in place and kept
under the frame number. -/
def walkPlans (talId : UInt16) (number : Nat) :
    Nat → Nat → Data → TreeMap Nat EmuTp → Option (TreeMap Nat EmuTp × Data)
  | 0, _, data, tps => some (tps, data)
  | count + 1, off, data, tps =>
      (EmuTp.read off data).bind fun tp =>
        if tp.Mine talId then
          (patch off tp.convert.bytes data).bind fun data =>
            walkPlans talId number count (off + emuTpLength) data (tps.insert number tp.convert)
        else walkPlans talId number count (off + emuTpLength) data tps

/-- The frames, each taken to start where the plans of the former one, counted
from its start, end. -/
def walkFrames (talId : UInt16) :
    Nat → Nat → Nat → Data → TreeMap Nat EmuTp → Option (Bool × TreeMap Nat EmuTp × Data)
  | 0, _, _, data, tps => some (true, tps, data)
  | count + 1, start, length, data, tps =>
      (slice start 1 data).bind fun number =>
        (slice (start + 1) 2 data).bind fun tpLoopCount =>
          let tpCount := ofLE tpLoopCount
          if length < frameInfoLength + tpCount * emuTpLength then some (false, tps, data)
          else
            (walkPlans talId (ofLE number) tpCount (start + frameInfoLength) data tps).bind
              fun (tps, data) =>
                walkFrames talId count (start + tpCount * emuTpLength)
                  (length - frameInfoLength - tpCount * emuTpLength) data tps

/-- Read the plans of a terminal: the status, the plans by frame number and the
frame as it is left. -/
def getTp (talId : UInt16) (data : Data) : Option (Bool × TreeMap Nat EmuTp × Data) :=
  (slice 0 2 data).bind fun messageLength =>
    let length := ofBE messageLength
    if length < headerLength then some (false, ∅, data)
    else
      (slice frameLoopCountOffset 1 data).bind fun frameLoopCount =>
        walkFrames talId (ofLE frameLoopCount) headerLength (length - headerLength) data ∅

end Ttp

/-! ### What a time plan frame is for -/

/-- The plan added last for a terminal in a frame. -/
def addedPlan (plans : List TimePlan) (frame : Nat) (talId : UInt16) : Option TimePlan :=
  (plans.filter fun plan => plan.frameId.toNat = frame ∧ plan.talId = talId).getLast?

/-- The plans handed out for a terminal are exactly those added for it. -/
def Reports (plans : List TimePlan) (talId : UInt16) (tps : TreeMap Nat EmuTp) : Prop :=
  ∀ frame,
    (∀ plan, addedPlan plans frame talId = some plan →
      ∃ tp, tps[frame]? = some tp ∧ tp.Describes plan) ∧
    (addedPlan plans frame talId = none → tps[frame]? = none)

/-- The frame built from the added plans. -/
def builtFrame (groupId sfId : UInt16) (junk : Nat → UInt16) (plans : List TimePlan) :
    Option Data :=
  (plans.foldl Ttp.addTimePlan (Ttp.new groupId sfId)).build junk

/-- Whatever the memory held, the frame is built, and every terminal reads its
plans in it, and again after another read. -/
def RoundTrips (groupId sfId : UInt16) (plans : List TimePlan) : Prop :=
  ∀ junk, ∃ data, builtFrame groupId sfId junk plans = some data ∧
    ∀ talId, ∃ tps data', Ttp.getTp talId data = some (true, tps, data') ∧
      Reports plans talId tps ∧
      ∀ other, ∃ tps' data'', Ttp.getTp other data' = some (true, tps', data'') ∧
        Reports plans other tps'

end OpenSand
