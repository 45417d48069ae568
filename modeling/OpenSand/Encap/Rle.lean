import OpenSand.Common.NetPacket
import OpenSand.Lib.Fragment
import Mathlib.Data.UInt

/-!
Encapsulation of packets with RLE (`Rle::PacketHandler::encapNextPacket`,
`Rle::Context::decapNextPacket`).

A packet is fragmented by the transmitter of its source and destination, under its QoS. The
first piece of a burst is put behind a label, the source, destination and QoS of its packet.
At the other end the label of a burst chooses the receiver, and is given to every packet
that the burst completes.

The library that fragments and reassembles is a parameter, with its documented behaviour.
-/

namespace OpenSand

/-! ### The library -/

/-- What fragmenting gives: a PPDU, or no room for one. -/
inductive RleFragmentation (τ : Type) where
  | ppdu (bytes : List UInt8) (transmitter : τ)
  | burstTooSmall (transmitter : τ)
  | error

def RleFragmentation.isBurstTooSmall {τ : Type} : RleFragmentation τ → Bool
  | .burstTooSmall _ => true
  | _ => false

structure Librle where
  Transmitter : Type
  Receiver : Type
  newTransmitter : Transmitter
  newReceiver : Receiver
  encapsulate : Transmitter → List UInt8 → Nat → Option Transmitter
  queueSize : Transmitter → Nat → Nat
  fragment : Transmitter → Nat → Nat → RleFragmentation Transmitter
  pack : List UInt8 → List UInt8 → List UInt8
  decapsulate : Receiver → List UInt8 → Nat → Option (List (List UInt8)) × Receiver

/-- The documented behaviour of the library, over what a transmitter has to send and a
receiver holds under each of the 8 fragment identifiers. -/
structure Librle.Documented (lib : Librle) where
  maxSdu : Nat
  cut : lib.Transmitter → Nat → Option (Fragment.Cut UInt8)
  held : lib.Receiver → Fragment.Held Nat UInt8
  Reads : List UInt8 → Fragment Nat UInt8 → Prop
  cut_new : ∀ fragId, cut lib.newTransmitter fragId = none
  held_new : ∀ fragId, held lib.newReceiver fragId = none
  encapsulate : ∀ transmitter sdu fragId, fragId < 8 → cut transmitter fragId = none →
    sdu ≠ [] → sdu.length ≤ maxSdu → ∃ transmitter',
      lib.encapsulate transmitter sdu fragId = some transmitter' ∧
      cut transmitter' = Function.update (cut transmitter) fragId (some (.ofWhole sdu))
  queueSize : ∀ transmitter fragId, fragId < 8 →
    (0 < lib.queueSize transmitter fragId ↔ cut transmitter fragId ≠ none)
  /-- A PPDU is not longer than asked for, and holds the next bytes of the SDU. -/
  fragment : ∀ transmitter fragId length sdu, fragId < 8 → cut transmitter fragId = some sdu →
    (∃ transmitter', lib.fragment transmitter fragId length = .burstTooSmall transmitter' ∧
      cut transmitter' = cut transmitter) ∨
    ∃ ppdu transmitter' data left last, lib.fragment transmitter fragId length =
        .ppdu ppdu transmitter' ∧
      ppdu.length ≤ length ∧ 3 ≤ ppdu.length ∧ sdu.left = data ++ left ∧
      (last = true → left = []) ∧ Reads ppdu ⟨fragId, !sdu.started, last, data⟩ ∧
      cut transmitter' = Function.update (cut transmitter) fragId
        (if last then none else some (.begun (sdu.sofar ++ data) left))
  pack : ∀ ppdu label, lib.pack ppdu label = label ++ ppdu
  /-- Behind a label, PPDUs are reassembled in order by their fragment identifiers. -/
  decapsulate : ∀ receiver label ppdus fragments sdus max held', label.length = 3 →
    List.Forall₂ Reads ppdus fragments →
    Fragment.acceptAll (held receiver) fragments = some (sdus, held') → sdus.length ≤ max →
    ∃ receiver', lib.decapsulate receiver (label ++ ppdus.flatten) max = (some sdus, receiver') ∧
      held receiver' = held'

/-! ### Encapsulation -/

namespace Rle

def LABEL_SIZE : Nat := 3
def ALPDU_HEADER_SIZE : Nat := 3

/-- The source and the destination of a transmitter or of a receiver. -/
abbrev RleIdentifier := Nat × Nat

/-- The label of a packet whose fields fit. -/
def getLabel (packet : NetPacket) : List UInt8 :=
  [.ofNat packet.srcTalId, .ofNat packet.dstTalId, .ofNat packet.qos]

/-- The transmitters, each with the packets it sent partially. -/
structure PacketHandler (lib : Librle) where
  transmitters : RleIdentifier → Option (lib.Transmitter × List Nat)

/-- The status of an encapsulation, what was produced and whether data remain. -/
structure EncapResult (lib : Librle) where
  status : Bool
  handler : PacketHandler lib
  encapPacket : Option (List UInt8)
  remainingData : Bool

variable {lib : Librle}

/-- The transmitter of an identifier, created when there is none. -/
def PacketHandler.context (handler : PacketHandler lib) (identifier : RleIdentifier) :
    lib.Transmitter × List Nat :=
  (handler.transmitters identifier).getD (lib.newTransmitter, [])

def PacketHandler.store (handler : PacketHandler lib) (identifier : RleIdentifier)
    (context : lib.Transmitter × List Nat) : PacketHandler lib :=
  ⟨Function.update handler.transmitters identifier (some context)⟩

/-- The transmitter of a packet, which encapsulates the packet unless it was sent partially. -/
def PacketHandler.encapsulated (handler : PacketHandler lib) (id : Nat) (packet : NetPacket) :
    Option lib.Transmitter :=
  let (transmitter, sentPackets) := handler.context (packet.srcTalId, packet.dstTalId)
  if id ∈ sentPackets then some transmitter
  else lib.encapsulate transmitter packet.data packet.qos

/-- The partially sent packets after a piece of a packet. -/
def updateSent (sentPackets : List Nat) (id : Nat) (partialEncap : Bool) : List Nat :=
  if id ∉ sentPackets ∧ partialEncap then sentPackets ++ [id]
  else if id ∈ sentPackets ∧ !partialEncap then sentPackets.erase id
  else sentPackets

/-- What remains behind the label, which may be larger than what remained. -/
def behindLabel (remainingLength : UInt64) (newBurst : Bool) : UInt64 :=
  remainingLength - if newBurst then .ofNat LABEL_SIZE else 0

/-- Encapsulate what fits of a packet, known by its identity `id` when it comes back. -/
def encapNextPacket (handler : PacketHandler lib) (id : Nat) (packet : NetPacket)
    (remainingLength : UInt64) (newBurst : Bool) : EncapResult lib :=
  if packet.srcTalId &&& 0x1F ≠ packet.srcTalId ∨ packet.dstTalId &&& 0x1F ≠ packet.dstTalId ∨
      packet.qos &&& 0x07 ≠ packet.qos then
    ⟨false, handler, none, false⟩
  else
    let identifier := (packet.srcTalId, packet.dstTalId)
    let sentPackets := (handler.context identifier).2
    match handler.encapsulated id packet with
    | none => ⟨false, handler.store identifier (handler.context identifier), none, false⟩
    | some transmitter =>
        let label := if newBurst then getLabel packet else []
        match lib.fragment transmitter packet.qos (behindLabel remainingLength newBurst).toNat with
        | .error => ⟨false, handler.store identifier (transmitter, sentPackets), none, false⟩
        | .burstTooSmall transmitter =>
            ⟨true, handler.store identifier (transmitter, updateSent sentPackets id true), none, true⟩
        | .ppdu ppdu transmitter =>
            let partialEncap := 0 < lib.queueSize transmitter packet.qos
            ⟨true, handler.store identifier (transmitter, updateSent sentPackets id partialEncap),
              some (lib.pack ppdu label), partialEncap⟩

/-! ### Deencapsulation -/

structure Context (lib : Librle) where
  receivers : RleIdentifier → Option lib.Receiver

/-- The receiver of an identifier, created when there is none. -/
def Context.receiver (context : Context lib) (identifier : RleIdentifier) : lib.Receiver :=
  (context.receivers identifier).getD lib.newReceiver

/-- The packets built from the SDUs of a burst, up to an empty one. -/
def buildPackets (src dst qos : Nat) (sdus : List (List UInt8)) : List NetPacket :=
  (sdus.takeWhile (· ≠ [])).map fun sdu => ⟨sdu, qos, src, dst⟩

/-- Deencapsulate the payload of a frame. -/
def decapNextPacket (context : Context lib) (payload : List UInt8) :
    List NetPacket × Context lib :=
  if payload.length ≤ LABEL_SIZE + ALPDU_HEADER_SIZE then ([], context)
  else
    let src := (payload.getD 0 0).toNat
    let dst := (payload.getD 1 0).toNat
    let qos := (payload.getD 2 0).toNat
    if src &&& 0x1F ≠ src ∨ dst &&& 0x1F ≠ dst ∨ qos &&& 0x07 ≠ qos then ([], context)
    else
      let (sdus, receiver) :=
        lib.decapsulate (context.receiver (src, dst)) payload (payload.length / LABEL_SIZE)
      (buildPackets src dst qos (sdus.getD []),
        ⟨Function.update context.receivers (src, dst) (some receiver)⟩)

/-! ### From a terminal to the gateway -/

/-- Packets to send, the frame under construction with the packets it completes, and what
the receiver made of the frames. -/
structure Link (lib : Librle) where
  handler : PacketHandler lib
  index : Nat
  left : List NetPacket
  frame : List UInt8
  inFrame : List NetPacket
  context : Context lib
  delivered : List NetPacket

/-- Ask for a piece of the next packet that fits in a length, or close the frame. -/
inductive LinkEvent where
  | encap (remainingLength : UInt64)
  | nextFrame

namespace Link

def start (lib : Librle) (packets : List NetPacket) : Link lib where
  handler := ⟨fun _ => none⟩
  index := 0
  left := packets
  frame := []
  inFrame := []
  context := ⟨fun _ => none⟩
  delivered := []

/-- A piece of the next packet is put in the frame; it opens a burst when the frame is
empty. A packet that is refused is lost. -/
def encap (link : Link lib) (remainingLength : UInt64) : Link lib :=
  match link.left with
  | [] => link
  | packet :: packets =>
      let result := encapNextPacket link.handler link.index packet remainingLength
        (link.frame = [])
      if !result.status then
        { link with handler := result.handler, index := link.index + 1, left := packets }
      else
        let link := { link with
          handler := result.handler
          frame := link.frame ++ result.encapPacket.getD [] }
        if result.remainingData then link
        else { link with
          index := link.index + 1
          left := packets
          inFrame := link.inFrame ++ [packet] }

/-- The frame is sent and deencapsulated. -/
def nextFrame (link : Link lib) : Link lib :=
  if link.frame = [] then link
  else
    let (packets, context) := decapNextPacket link.context link.frame
    { link with
      frame := []
      inFrame := []
      context := context
      delivered := link.delivered ++ packets }

def step (link : Link lib) : LinkEvent → Option (Link lib)
  | .encap remainingLength => some (link.encap remainingLength)
  | .nextFrame => some link.nextFrame

/-- The packets of the frames received, those completed in the frame under construction and
those left are the packets to send, in order and with their own fields. -/
def RoundTripped (packets : List NetPacket) (link : Link lib) : Prop :=
  link.delivered ++ link.inFrame ++ link.left = packets

/-- A piece is not longer than what it is asked to fit. -/
def Fits (link : Link lib) (event : LinkEvent) (link' : Link lib) : Prop :=
  ∀ remainingLength, event = .encap remainingLength →
    link'.frame.length ≤ link.frame.length + remainingLength.toNat

/-- The fields of a packet that RLE can carry. -/
structure Carried (documented : lib.Documented) (packet : NetPacket) : Prop where
  src : packet.srcTalId ≤ 0x1F
  dst : packet.dstTalId ≤ 0x1F
  qos : packet.qos ≤ 0x07
  some_data : packet.data ≠ []
  short : packet.data.length ≤ documented.maxSdu

/-- The frame is labelled with the source and the destination. -/
def Labelled (link : Link lib) (src dst : Nat) : Prop :=
  (link.frame.getD 0 0).toNat = src ∧ (link.frame.getD 1 0).toNat = dst

instance (documented : lib.Documented) (packet : NetPacket) :
    Decidable (Carried documented packet) :=
  decidable_of_iff (packet.srcTalId ≤ 0x1F ∧ packet.dstTalId ≤ 0x1F ∧ packet.qos ≤ 0x07 ∧
      packet.data ≠ [] ∧ packet.data.length ≤ documented.maxSdu)
    ⟨fun ⟨src, dst, qos, some_data, short⟩ => ⟨src, dst, qos, some_data, short⟩,
      fun ⟨src, dst, qos, some_data, short⟩ => ⟨src, dst, qos, some_data, short⟩⟩

instance (link : Link lib) (src dst : Nat) : Decidable (link.Labelled src dst) :=
  inferInstanceAs (Decidable (_ ∧ _))

/-- The transmitter of the packet finds no room for a piece. -/
def NoRoom (link : Link lib) (packet : NetPacket) (remainingLength : UInt64) : Prop :=
  ∃ transmitter ∈ link.handler.encapsulated link.index packet,
    (lib.fragment transmitter packet.qos
      (behindLabel remainingLength (link.frame = [])).toNat).isBurstTooSmall

instance (link : Link lib) (packet : NetPacket) (remainingLength : UInt64) :
    Decidable (link.NoRoom packet remainingLength) :=
  inferInstanceAs (Decidable (∃ _ ∈ _, _))

/-- What a step must meet: a packet can be carried, and where there is room for a piece of
it, it goes in a frame of its source and destination, and the label fits in what remains of
an empty frame; a frame that is closed is not too short and completes packets of its QoS
only. -/
def Meets (documented : lib.Documented) (link : Link lib) : LinkEvent → Prop
  | .encap remainingLength => ∀ packet ∈ link.left.head?,
      Carried documented packet ∧
      (link.NoRoom packet remainingLength ∨
        if link.frame = [] then LABEL_SIZE ≤ remainingLength.toNat
        else link.Labelled packet.srcTalId packet.dstTalId)
  | .nextFrame => link.frame ≠ [] →
      LABEL_SIZE + ALPDU_HEADER_SIZE < link.frame.length ∧
      ∀ packet ∈ link.inFrame, (link.frame.getD 2 0).toNat = packet.qos

instance (documented : lib.Documented) (link : Link lib) (event : LinkEvent) :
    Decidable (Meets documented link event) :=
  match event with
  | .encap _ => inferInstanceAs (Decidable (∀ _ ∈ _, _ ∧ (_ ∨ _)))
  | .nextFrame => inferInstanceAs (Decidable (_ → _ ∧ _))

end Link

end Rle

end OpenSand
