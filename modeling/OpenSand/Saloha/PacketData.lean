import OpenSand.Lib.CharStream

/-!
Slotted Aloha data packets and their identifiers.

The unique identifier of a packet is the text `<id>:<seq>:<pdu_nb>:<qos>`, with
the 32-bit id printed as a signed `int`. `convertPacketId` reads the four fields
back into 16-bit integers.
-/

namespace OpenSand

/-- A data packet: its header fields, the slots of its copies, its payload, and
the source terminal kept beside the data. -/
structure SlottedAlohaPacketData where
  id : UInt32
  ts : UInt16
  seq : UInt16
  pduNb : UInt16
  qos : UInt8
  replicas : List UInt16
  payload : List UInt8
  srcTalId : Nat
deriving DecidableEq, Repr

abbrev SalohaId := List Char

/-- The fields of a packet identifier (`uint16_t ids[4]`). -/
structure PacketIds where
  id : Nat
  seq : Nat
  pduNb : Nat
  qos : Nat
deriving DecidableEq, Repr

namespace SlottedAlohaPacketData

def getUniqueId (packet : SlottedAlohaPacketData) : SalohaId :=
  CharStream.decimal packet.id.toInt32.toInt ++ ':' ::
    (Nat.toDigits 10 packet.seq.toNat ++ ':' ::
      (Nat.toDigits 10 packet.pduNb.toNat ++ ':' :: Nat.toDigits 10 packet.qos.toNat))

/-- `convertPacketId`, from an array with content `ids`. -/
def convertPacketId (text : SalohaId) (ids : PacketIds) : PacketIds :=
  let (id, s) := CharStream.extractUnsigned 16 ⟨text, false⟩ ids.id
  let (seq, s) := CharStream.extractUnsigned 16 s.extractChar ids.seq
  let (pduNb, s) := CharStream.extractUnsigned 16 s.extractChar ids.pduNb
  let (qos, _) := CharStream.extractUnsigned 16 s.extractChar ids.qos
  ⟨id, seq, pduNb, qos⟩

/-- Two packets are copies of each other when they have the same terminal and
unique identifier. -/
def key (packet : SlottedAlohaPacketData) : Nat × SalohaId :=
  (packet.srcTalId, packet.getUniqueId)

/-- The PDU number read back from a packet identifier is that of the packet, or
the former content of the array when the id field could not be read. -/
theorem convertPacketId_pduNb (packet : SlottedAlohaPacketData) (ids : PacketIds) :
    (convertPacketId packet.getUniqueId ids).pduNb = packet.pduNb.toNat ∨
      (convertPacketId packet.getUniqueId ids).pduNb = ids.pduNb := by
  have colon := @CharStream.separator_stops ':' rfl
  obtain ⟨id, fail, read⟩ := CharStream.extractUnsigned_decimal 16 packet.id.toInt32.toInt ids.id
    (colon (Nat.toDigits 10 packet.seq.toNat ++ ':' ::
      (Nat.toDigits 10 packet.pduNb.toNat ++ ':' :: Nat.toDigits 10 packet.qos.toNat)))
  cases fail with
  | true =>
      right
      simp only [convertPacketId, getUniqueId, read, CharStream.extractChar_fail,
        CharStream.extractUnsigned_fail]
  | false =>
      left
      simp only [convertPacketId, getUniqueId, read, CharStream.extractChar_colon,
        CharStream.extractUnsigned_toDigits packet.seq.toNat_lt _ (colon _),
        CharStream.extractUnsigned_toDigits packet.pduNb.toNat_lt _ (colon _)]

end SlottedAlohaPacketData

end OpenSand
