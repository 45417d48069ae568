import OpenSand.Encap.Gse
import OpenSand.Lib.Batches
import OpenSand.Lib.Run
import OpenSand.Lib.SortedMap

/-!
Packets packed in GSE contexts and the timers that flush them (`Gse::Context`, `GseEncapCtx`,
`BlockEncap::Downward`).

Packets of a fixed length wait in the context of their source, destination and QoS until it is
full or its timer expires. A burst tells which contexts wait through a map from delays to context
identifiers, so it tells of one of them only, and the context identifiers are made of the low
bits of the fields.

The packets of a burst are numbered as they come, to follow each of them. The library takes every
PDU that has a label, and a fragment that was freed holds nothing.
-/

namespace OpenSand.Gse

/-- A packet and its number. -/
abbrev Numbered := NetPacket × Nat

structure GseIdentifier where
  srcTalId : Nat
  dstTalId : Nat
  qos : Nat
deriving DecidableEq

/-- What the library and the rest of the block give: the length of the packets to encapsulate,
if they have a fixed one, and the events of new timers. -/
structure Packing where
  fixedLength : Nat
  maxPacketLength : Nat
  packingThreshold : Int
  newEvent : List Nat → Nat
  fits : fixedLength ≤ maxPacketLength
  fresh : ∀ events, newEvent events ∉ events

/-! ### Contexts -/

structure GseEncapCtx where
  vfrag : Option (List Numbered)
  isFull : Bool
  toReset : Bool

namespace GseEncapCtx

def new : GseEncapCtx := ⟨none, false, false⟩

def data (context : GseEncapCtx) : List Numbered := context.vfrag.getD []

def length (context : GseEncapCtx) : Nat :=
  (context.data.map fun packet => packet.1.data.length).sum

/-- Copy a packet behind the previous data. -/
def put (maxPacketLength : Nat) (context : GseEncapCtx) (previous : List Numbered)
    (packet : Numbered) : GseEncapCtx :=
  let context := { context with vfrag := some (previous ++ [packet]) }
  -- A context that is not full has room for a packet, so the difference does not wrap.
  if maxPacketLength - context.length < packet.1.data.length then { context with isFull := true }
  else context

def add (maxPacketLength : Nat) (context : GseEncapCtx) (packet : Numbered) :
    Option GseEncapCtx :=
  match context.vfrag with
  | none => some (context.put maxPacketLength [] packet)
  | some data =>
      if context.toReset then
        some ({ context with isFull := false, toReset := false }.put maxPacketLength [] packet)
      else if context.isFull then none
      else some (context.put maxPacketLength data packet)

/-- The fragment is freed at once and cleaned at the next addition. -/
def setReset (context : GseEncapCtx) : GseEncapCtx :=
  { context with vfrag := context.vfrag.map fun _ => [], toReset := true }

end GseEncapCtx

/-- The packets given to the library in one PDU, and the label of its GSE packets. -/
structure Pdu where
  label : List UInt8
  packets : List Numbered

abbrev Contexts := GseIdentifier → Option GseEncapCtx

namespace Context

variable (conf : Packing)

def identifier (packet : NetPacket) : GseIdentifier :=
  ⟨packet.srcTalId, packet.dstTalId, packet.qos⟩

def contextId (packet : NetPacket) : Nat :=
  (packet.srcTalId &&& 0x1F) <<< 8 ||| (packet.dstTalId &&& 0x1F) <<< 3 ||| (packet.qos &&& 0x07)

/-- The identifier that a context identifier stands for when its context is flushed. -/
def flushed (contextId : Nat) : GseIdentifier :=
  ⟨contextId >>> 8 &&& 0x1F, contextId >>> 3 &&& 0x1F, contextId &&& 0x07⟩

/-- The label of a context is checked like that of a packet. -/
def contextLabel (id : GseIdentifier) : Option (List UInt8) :=
  setLabel ⟨[], id.qos, id.srcTalId, id.dstTalId⟩

def encapPacket (packet : NetPacket) (data : List Numbered) : Option Pdu :=
  (setLabel packet).map fun label => ⟨label, data⟩

/-- Pack a packet in its context: the delay and the PDU, unless it is dropped. -/
def encapFixedLength (contexts : Contexts) (packet : Numbered) :
    Contexts × Option (Int × List Pdu) :=
  if packet.1.data.length ≠ conf.fixedLength then (contexts, none)
  else
    let id := identifier packet.1
    let context := (contexts id).getD .new
    match context.add conf.maxPacketLength packet with
    | none => (Function.update contexts id (some context), none)
    | some context =>
        if context.isFull = false ∧ conf.packingThreshold ≠ 0 then
          (Function.update contexts id (some context), some (conf.packingThreshold, []))
        else
          (Function.update contexts id (some context.setReset),
            (encapPacket packet.1 context.data).map fun pdu => (0, [pdu]))

def encapVariableLength (packet : Numbered) : Option (Int × List Pdu) :=
  (encapPacket packet.1 [packet]).map fun pdu => (0, [pdu])

/-- Packets of a variable length are not packed. -/
def encap (contexts : Contexts) (packet : Numbered) : Contexts × Option (Int × List Pdu) :=
  if 0 < conf.fixedLength then encapFixedLength conf contexts packet
  else (contexts, encapVariableLength packet)

/-- What `encapsulate` works on; the context of a delay is the first one that came with it. -/
structure Encapsulation where
  contexts : Contexts
  gsePackets : List Pdu
  timeContexts : SortedMap Int Nat

def encapsulateNext (enc : Encapsulation) (packet : Numbered) : Encapsulation :=
  let out := encap conf enc.contexts packet
  match out.2 with
  | none => { enc with contexts := out.1 }
  | some (time, pdus) =>
      { contexts := out.1
        gsePackets := enc.gsePackets ++ pdus
        timeContexts := enc.timeContexts.insert time (contextId packet.1) }

def encapsulate (contexts : Contexts) (burst : List Numbered) : Encapsulation :=
  burst.foldl (encapsulateNext conf) ⟨contexts, [], .empty⟩

/-- Nothing is got from the library for a fragment that holds nothing. -/
def flush (contexts : Contexts) (contextId : Nat) : Contexts × List Pdu :=
  match contexts (flushed contextId) with
  | none => (contexts, [])
  | some context =>
      match contextLabel (flushed contextId) with
      | none => (contexts, [])
      | some label =>
          (Function.update contexts (flushed contextId) (some context.setReset),
            if context.data.isEmpty then [] else [⟨label, context.data⟩])

end Context

end Gse

/-! ### The block -/

namespace BlockEncap

open Gse Gse.Context

/-- The channel, the packets that it received and the PDUs that it sent. -/
structure Downward where
  contexts : Contexts
  timers : SortedMap Nat Nat
  received : List NetPacket
  sent : List Pdu

inductive Event where
  | burst (packets : List NetPacket)
  | timer (event : Nat)

namespace Downward

variable (conf : Packing)

def start : Downward := ⟨fun _ => none, .empty, [], []⟩

/-- A timer of its own for a context that has none. -/
def setTimer (timers : SortedMap Nat Nat) (entry : Int × Nat) : SortedMap Nat Nat :=
  if timers.entries.any (·.2 = entry.2) = false ∧ entry.1 ≠ 0 then
    timers.insert (conf.newEvent timers.keys) entry.2
  else timers

def onRcvBurst (block : Downward) (burst : List NetPacket) : Downward :=
  let enc := encapsulate conf block.contexts (burst.zipIdx block.received.length)
  { contexts := enc.contexts
    timers := enc.timeContexts.entries.foldl (setTimer conf) block.timers
    received := block.received ++ burst
    sent := block.sent ++ enc.gsePackets }

def onTimer (block : Downward) (event : Nat) : Downward :=
  match block.timers.lookup event with
  | none => block
  | some contextId =>
      let out := flush block.contexts contextId
      { block with
        contexts := out.1
        timers := block.timers.erase event
        sent := block.sent ++ out.2 }

def step (block : Downward) : Event → Option Downward
  | .burst packets => some (block.onRcvBurst conf packets)
  | .timer event => some (block.onTimer event)

/-! ### What is asked of a run -/

/-- A timer is armed that flushes a context. -/
def HasTimer (timers : SortedMap Nat Nat) (id : GseIdentifier) : Prop :=
  ∃ event contextId, timers.lookup event = some contextId ∧ flushed contextId = id

/-- Every context that holds packets has a timer. -/
def Armed (block : Downward) : Prop :=
  ∀ id context, block.contexts id = some context → context.data ≠ [] →
    HasTimer block.timers id

/-- Every timer that is armed expires. -/
def expireAll (block : Downward) : Downward := block.timers.keys.foldl onTimer block

/-- Every packet received is in exactly one PDU, once, when the armed timers have expired. -/
def SentOnce (block : Downward) : Prop :=
  ∀ packet ∈ block.received.zipIdx,
    (block.expireAll.sent.flatMap Pdu.packets).count packet = 1

/-! ### When a run meets it -/

end Downward

end BlockEncap

namespace Gse

/-- The fields of a packet fit in a label and in a context identifier. -/
def GseIdentifier.Small (id : GseIdentifier) : Prop :=
  id.srcTalId < 32 ∧ id.dstTalId < 32 ∧ id.qos < 8

namespace Packing

variable (conf : Packing)

/-- How many packets a context emits at once. -/
def capacity : Nat :=
  if conf.fixedLength = 0 ∨ conf.packingThreshold = 0 then 1
  else conf.maxPacketLength / conf.fixedLength

/-- A packet that is not refused. -/
def Fit (packet : NetPacket) : Prop :=
  (Context.identifier packet).Small ∧
    (0 < conf.fixedLength → packet.data.length = conf.fixedLength)

end Packing

/-- How many packets a context holds. -/
def waiting (contexts : Contexts) (id : GseIdentifier) : Nat :=
  ((contexts id).elim [] GseEncapCtx.data).length

end Gse

namespace BlockEncap.Downward

open Gse Gse.Context

variable (conf : Packing)

/-- How many are left of them and of those of a burst when the full contexts are emitted. -/
def left (block : Downward) (packets : List NetPacket) (id : GseIdentifier) : Nat :=
  (waiting block.contexts id + packets.countP (identifier · = id)) % conf.capacity

/-- The packets of a burst are not refused, and each context that it leaves with packets has a
timer or is the first one in which a packet of the burst had to wait. -/
def Clear (block : Downward) : Event → Prop
  | .burst packets => (∀ packet ∈ packets, conf.Fit packet) ∧
      ∀ id, block.left conf packets id ≠ 0 → HasTimer block.timers id ∨
        Batches.firstKept identifier conf.capacity (waiting block.contexts) packets = some id
  | .timer _ => True

end BlockEncap.Downward

end OpenSand
