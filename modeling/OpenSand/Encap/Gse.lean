import OpenSand.Common.NetPacket
import OpenSand.Lib.Fragment

/-!
Encapsulation of packets with GSE (`Gse::Context`, `Gse::PacketHandler`).

A PDU is encapsulated behind a label, the source, destination and QoS of its packet, and the
GSE packets are refragmented to fit in frames. Only complete packets and first fragments
carry the label; subsequent fragments carry an identifier made of the source and the QoS, so
the receiver cannot know their destination and takes them as broadcast.

The library that fragments and reassembles is a parameter, with its documented behaviour.
-/

namespace OpenSand.Gse

/-! ### The library -/

inductive Refragmentation where
  | lengthTooSmall
  | refragUnnecessary
  | refragmented (first second : List UInt8)
  | error

def Refragmentation.isLengthTooSmall : Refragmentation → Bool
  | .lengthTooSmall => true
  | _ => false

def Refragmentation.isUnnecessary : Refragmentation → Bool
  | .refragUnnecessary => true
  | _ => false

/-- What the library makes of a GSE packet: a PDU is received with its label, or not. -/
inductive GseStatus where
  | ok
  | dataOverwritten
  | pduReceived (label pdu : List UInt8)
  | ctxNotInit
  | failed

structure Libgse where
  Deencap : Type
  deencapInit : Deencap
  maxPacketLength : Nat
  /-- The GSE packets of a PDU, got until there are no more or the library fails. -/
  encapPdu : List UInt8 → Nat → List UInt8 → List (List UInt8)
  getStartIndicator : List UInt8 → Option Bool
  getEndIndicator : List UInt8 → Option Bool
  getLabel : List UInt8 → Option (List UInt8)
  getFragId : List UInt8 → Option Nat
  getGseLength : List UInt8 → Option Nat
  refragPacket : List UInt8 → Nat → Nat → Refragmentation
  deencapPacket : Deencap → List UInt8 → GseStatus × Deencap

def LABEL_LENGTH : Nat := 6
def GSE_MANDATORY_FIELDS_LENGTH : Nat := 2

/-- The documented behaviour of the library. A unit is a label followed by a PDU; a packet
holds a fragment of a unit, with the length and the CRC of the unit where they are needed. A
deencapsulation context holds what came under each fragment identifier, and the length that
was announced. -/
structure Libgse.Documented (lib : Libgse) where
  maxPdu : Nat
  crc : List UInt8 → Nat
  Reads : List UInt8 → List UInt8 → Fragment Nat UInt8 → Prop
  held : lib.Deencap → Fragment.Held Nat UInt8
  announced : lib.Deencap → Nat → Nat
  held_init : ∀ fragId, held lib.deencapInit fragId = none
  encapPdu : ∀ label fragId pdu, label.length = LABEL_LENGTH → fragId < 256 → pdu ≠ [] →
    pdu.length ≤ maxPdu → ∃ fragments, Fragment.Pieces fragId false (label ++ pdu) fragments ∧
      List.Forall₂ (fun packet => Reads packet (label ++ pdu)) (lib.encapPdu label fragId pdu)
        fragments
  /-- The header of a packet is read whatever follows the packet. -/
  header : ∀ packet unit fragment rest, Reads packet unit fragment →
    lib.getStartIndicator (packet ++ rest) = some fragment.first ∧
    lib.getEndIndicator (packet ++ rest) = some fragment.last ∧
    (fragment.first → lib.getLabel (packet ++ rest) = some (unit.take LABEL_LENGTH)) ∧
    (fragment.first = false → lib.getFragId (packet ++ rest) = some fragment.id) ∧
    lib.getGseLength (packet ++ rest) = some (packet.length - GSE_MANDATORY_FIELDS_LENGTH) ∧
    GSE_MANDATORY_FIELDS_LENGTH ≤ packet.length
  refragPacket : ∀ packet unit fragment length, Reads packet unit fragment →
    lib.refragPacket packet fragment.id length = .lengthTooSmall ∨
    lib.refragPacket packet fragment.id length = .refragUnnecessary ∨
    ∃ first second data tail,
      lib.refragPacket packet fragment.id length = .refragmented first second ∧
      fragment.data = data ++ tail ∧ Reads first unit ⟨fragment.id, fragment.first, false, data⟩ ∧
      Reads second unit ⟨fragment.id, false, fragment.last, tail⟩
  /-- Fragments are appended in order under their identifiers, and a reassembled unit is
  received when it has the length announced and the CRC of its last fragment. -/
  deencapPacket : ∀ context packet unit fragment, Reads packet unit fragment →
    let received := lib.deencapPacket context packet
    match Fragment.accept (held context) fragment with
    | none => received.1 = .ctxNotInit ∧ held received.2 = held context ∧
        announced received.2 = announced context
    | some (none, held') => (received.1 = .ok ∨ received.1 = .dataOverwritten) ∧
        held received.2 = held' ∧ announced received.2 = if fragment.first
          then Function.update (announced context) fragment.id unit.length else announced context
    | some (some whole, held') => held received.2 = held' ∧
        announced received.2 = announced context ∧
        received.1 = if fragment.first ∨
            announced context fragment.id = whole.length ∧ crc whole = crc unit
          then .pduReceived (whole.take LABEL_LENGTH) (whole.drop LABEL_LENGTH) else .failed

/-! ### Labels and fragment identifiers -/

/-- The label of a packet, when its fields fit. -/
def setLabel (packet : NetPacket) : Option (List UInt8) :=
  if packet.srcTalId &&& 0x1F ≠ packet.srcTalId ∨ packet.dstTalId &&& 0x1F ≠ packet.dstTalId ∨
      packet.qos &&& 0x07 ≠ packet.qos then none
  else some [.ofNat packet.srcTalId, .ofNat packet.dstTalId, .ofNat packet.qos, 0, 0, 0]

def getSrcTalIdFromLabel (label : List UInt8) : Nat := (label.getD 0 0).toNat &&& 0x1F
def getDstTalIdFromLabel (label : List UInt8) : Nat := (label.getD 1 0).toNat &&& 0x1F
def getQosFromLabel (label : List UInt8) : Nat := (label.getD 2 0).toNat &&& 0x07

/-- The destination is not in the fragment identifier. -/
def getFragId (packet : NetPacket) : Nat :=
  (packet.srcTalId &&& 0x1F) <<< 3 ||| (packet.qos &&& 0x07)

def getSrcTalIdFromFragId (fragId : Nat) : Nat := fragId >>> 3 &&& 0x1F
def getQosFromFragId (fragId : Nat) : Nat := fragId &&& 0x07

variable (lib : Libgse)

/-! ### Encapsulation -/

/-- The GSE packets of a packet. -/
def encapPacket (packet : NetPacket) : List NetPacket :=
  match setLabel packet with
  | none => []
  | some label => (lib.encapPdu label (getFragId packet) packet.data).map fun data =>
      ⟨data, packet.qos, packet.srcTalId, packet.dstTalId⟩

/-- Build a GSE packet from the first bytes of some data. The destination given is the one of
a subsequent fragment only. -/
def build (data : List UInt8) (dataLength dstTalId : Nat) : Option NetPacket :=
  (lib.getStartIndicator data).bind fun s => (lib.getEndIndicator data).bind fun _ =>
    if s then
      (lib.getLabel data).map fun label => ⟨data.take dataLength, getQosFromLabel label,
        getSrcTalIdFromLabel label, getDstTalIdFromLabel label⟩
    else
      (lib.getFragId data).map fun fragId => ⟨data.take dataLength, getQosFromFragId fragId,
        getSrcTalIdFromFragId fragId, dstTalId⟩

/-- The part of a GSE packet that fits in a length, if any, and the part that remains. -/
def getChunk (packet : NetPacket) (remainingLength : Nat) :
    Option (Option NetPacket × Option NetPacket) :=
  match lib.refragPacket packet.data (getFragId packet) (min remainingLength lib.maxPacketLength) with
  | .lengthTooSmall => some (none, some packet)
  | .refragUnnecessary => some (some packet, none)
  | .refragmented first second =>
      some (build lib first first.length packet.dstTalId,
        build lib second second.length packet.dstTalId)
  | .error => none

def encapNextPacket (packet : NetPacket) (remainingLength : Nat) :
    Option (Option NetPacket × Option NetPacket) :=
  (getChunk lib packet remainingLength).filter fun parts => parts.1.isSome || parts.2.isSome

/-! ### Deencapsulation -/

def getLength (data : List UInt8) : Nat :=
  (lib.getGseLength data).elim 0 (· + GSE_MANDATORY_FIELDS_LENGTH)

/-- Build the GSE packets of the payload of a frame, given their number; a packet that cannot
be built is null. -/
def getEncapsulatedPackets : Nat → List UInt8 → Option (List (Option NetPacket))
  | 0, _ => some []
  | count + 1, payload =>
      let currentLength := getLength lib payload
      if currentLength = 0 then none
      else (getEncapsulatedPackets count (payload.drop currentLength)).map fun packets =>
        build lib payload currentLength BROADCAST_TAL_ID :: packets

/-- The packet of a PDU received with its label. -/
def deencapVariableLength (label pdu : List UInt8) : NetPacket where
  data := pdu
  qos := getQosFromLabel label
  srcTalId := getSrcTalIdFromLabel label
  dstTalId := getDstTalIdFromLabel label

def deencapPacket (context : lib.Deencap) (data : List UInt8) : List NetPacket × lib.Deencap :=
  match lib.deencapPacket context data with
  | (.pduReceived label pdu, context) => ([deencapVariableLength label pdu], context)
  | (_, context) => ([], context)

/-- Deencapsulate a burst with a destination filter. -/
def deencapsulate (talId : Nat) :
    lib.Deencap → List (Option NetPacket) → List NetPacket × lib.Deencap
  | context, [] => ([], context)
  | context, none :: packets => deencapsulate talId context packets
  | context, some packet :: packets =>
      if packet.dstTalId ≠ talId ∧ talId ≠ BROADCAST_TAL_ID ∧ packet.dstTalId ≠ BROADCAST_TAL_ID then
        deencapsulate talId context packets
      else
        let received := deencapPacket lib context packet.data
        let others := deencapsulate talId received.2 packets
        (received.1 ++ others.1, others.2)

/-! ### From a gateway to a terminal -/

/-- The GSE packets that remain of each packet to send, the frame under construction with the
packets it completes, and what a terminal made of the frames. -/
structure Link where
  waiting : Nat → List NetPacket
  frame : List UInt8
  count : Nat
  inFrame : List Nat
  context : lib.Deencap
  finished : List Nat
  delivered : List NetPacket

/-- Put what fits of a packet, known by its place, in the frame, or close the frame. -/
inductive LinkEvent where
  | chunk (place remainingLength : Nat)
  | nextFrame
deriving DecidableEq, Repr

variable {lib}

namespace Link

def start (lib : Libgse) (packets : List NetPacket) : Link lib where
  waiting place := (packets[place]?).elim [] (encapPacket lib)
  frame := []
  count := 0
  inFrame := []
  context := lib.deencapInit
  finished := []
  delivered := []

/-- A part of the next GSE packet of a packet is put in the frame; the part that remains comes
back in front of the others. -/
def chunk (link : Link lib) (place remainingLength : Nat) : Link lib :=
  match link.waiting place with
  | [] => link
  | packet :: packets =>
      let parts := (encapNextPacket lib packet remainingLength).getD (none, none)
      let remaining := parts.2.toList ++ packets
      { link with
        waiting := Function.update link.waiting place remaining
        frame := link.frame ++ (parts.1.map NetPacket.data).getD []
        count := link.count + parts.1.toList.length
        inFrame := if remaining = [] then link.inFrame ++ [place] else link.inFrame }

/-- The frame is sent and deencapsulated. -/
def nextFrame (talId : Nat) (link : Link lib) : Link lib :=
  let burst := (getEncapsulatedPackets lib link.count link.frame).getD []
  let received := deencapsulate lib talId link.context burst
  { link with
    frame := []
    count := 0
    inFrame := []
    context := received.2
    finished := link.finished ++ link.inFrame
    delivered := link.delivered ++ received.1 }

def step (talId : Nat) (link : Link lib) : LinkEvent → Option (Link lib)
  | .chunk place remainingLength => some (link.chunk place remainingLength)
  | .nextFrame => some (link.nextFrame talId)

end Link

/-- A packet that a destination filter lets through. -/
def ForMe (talId : Nat) (packet : NetPacket) : Prop :=
  packet.dstTalId = talId ∨ talId = BROADCAST_TAL_ID ∨ packet.dstTalId = BROADCAST_TAL_ID

instance (talId : Nat) (packet : NetPacket) : Decidable (ForMe talId packet) :=
  inferInstanceAs (Decidable (_ ∨ _))

/-- A packet that GSE can carry, of a source and a QoS. -/
structure Carried (documented : lib.Documented) (src qos : Nat) (packet : NetPacket) : Prop where
  src : packet.srcTalId = src ∧ src ≤ 0x1F
  dst : packet.dstTalId ≤ 0x1F
  qos : packet.qos = qos ∧ qos ≤ 0x07
  some_data : packet.data ≠ []
  short : packet.data.length ≤ documented.maxPdu

instance (documented : lib.Documented) (src qos : Nat) (packet : NetPacket) :
    Decidable (Carried documented src qos packet) :=
  decidable_of_iff ((packet.srcTalId = src ∧ src ≤ 0x1F) ∧ packet.dstTalId ≤ 0x1F ∧
      (packet.qos = qos ∧ qos ≤ 0x07) ∧ packet.data ≠ [] ∧ packet.data.length ≤ documented.maxPdu)
    ⟨fun ⟨src, dst, qos, some_data, short⟩ => ⟨src, dst, qos, some_data, short⟩,
      fun ⟨src, dst, qos, some_data, short⟩ => ⟨src, dst, qos, some_data, short⟩⟩

/-- Nothing of a GSE packet fits in a length. -/
def NoRoom (lib : Libgse) (packet : NetPacket) (remainingLength : Nat) : Prop :=
  (lib.refragPacket packet.data (getFragId packet)
    (min remainingLength lib.maxPacketLength)).isLengthTooSmall

/-- A GSE packet that ends its PDU goes whole in a length. -/
def Whole (lib : Libgse) (packet : NetPacket) (remainingLength : Nat) : Prop :=
  lib.getEndIndicator packet.data = some true ∧
  (lib.refragPacket packet.data (getFragId packet)
    (min remainingLength lib.maxPacketLength)).isUnnecessary

instance (packet : NetPacket) (remainingLength : Nat) :
    Decidable (NoRoom lib packet remainingLength) :=
  inferInstanceAs (Decidable (_ = true))

instance (packet : NetPacket) (remainingLength : Nat) :
    Decidable (Whole lib packet remainingLength) :=
  inferInstanceAs (Decidable (_ ∧ _ = true))

namespace Link

/-- What a terminal made of the frames is each packet for it that was sent to the end, once and
as it was sent. -/
structure Undisturbed (talId : Nat) (packets : List NetPacket) (link : Link lib) : Prop where
  delivered : link.delivered =
    (link.finished.filterMap (packets[·]?)).filter (ForMe talId ·)
  once : (link.finished ++ link.inFrame).Nodup
  all : ∀ place < packets.length,
    place ∈ link.finished ++ link.inFrame ↔ link.waiting place = []

/-- A packet is sent in part when a subsequent fragment is next. -/
def Open (link : Link lib) (place : Nat) : Prop :=
  ∃ packet ∈ (link.waiting place).head?, lib.getStartIndicator packet.data = some false

instance (link : Link lib) (place : Nat) : Decidable (link.Open place) :=
  inferInstanceAs (Decidable (∃ _ ∈ _, _))

/-- Another packet, for the terminal, is sent in part. -/
def OtherOpen (talId : Nat) (packets : List NetPacket) (link : Link lib) (place : Nat) : Prop :=
  ∃ other < packets.length, other ≠ place ∧ (∃ own ∈ packets[other]?, ForMe talId own) ∧
    link.Open other

instance (talId : Nat) (packets : List NetPacket) (link : Link lib) (place : Nat) :
    Decidable (OtherOpen talId packets link place) :=
  inferInstanceAs (Decidable (∃ _ < _, _ ∧ (∃ _ ∈ _, _) ∧ _))

/-- What a step must meet: while another packet, for the terminal, is sent in part, no
subsequent fragment is sent, and no first fragment of a packet for the terminal. -/
def Meets (talId : Nat) (packets : List NetPacket) (link : Link lib) : LinkEvent → Prop
  | .chunk place remainingLength => ∀ packet ∈ (link.waiting place).head?,
      NoRoom lib packet remainingLength ∨ (OtherOpen talId packets link place →
        ¬ link.Open place ∧ (Whole lib packet remainingLength ∨
          ∀ own ∈ packets[place]?, ¬ ForMe talId own))
  | .nextFrame => True

instance (talId : Nat) (packets : List NetPacket) (link : Link lib) (event : LinkEvent) :
    Decidable (Meets talId packets link event) :=
  match event with
  | .chunk _ _ => inferInstanceAs (Decidable (∀ _ ∈ _, _ ∨ (_ → _ ∧ (_ ∨ ∀ _ ∈ _, _))))
  | .nextFrame => isTrue trivial

end Link

end OpenSand.Gse
