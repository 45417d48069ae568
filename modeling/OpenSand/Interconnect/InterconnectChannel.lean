import OpenSand.Lib.LengthPrefixed
import OpenSand.Lib.Word

/-!
Messages between two interconnect blocks (`InterconnectChannel`).

A frame, a list of frames or a burst of packets is serialized behind its length and its type;
the receiver checks the length and builds the message again. `message_roundTrips_iff` says when
it is the same: never for an empty list or burst, of which the receiver reads an element all the
same, and only with header lengths on four bytes.
-/

namespace OpenSand

open Bytes LengthPrefixed Word

/-! ### Messages -/

def MAX_SOCK_SIZE : Nat := 9000

/-- A DVB frame with what the channel carries beside its bytes. -/
structure ChannelFrame where
  spot : UInt8
  carrierId : UInt8
  data : Data
deriving DecidableEq, Repr

/-- A network packet with what the channel carries beside its bytes. -/
structure ChannelPacket where
  srcTalId : UInt8
  dstTalId : UInt8
  qos : UInt8
  type : UInt16
  headerLength : Nat
  data : Data
deriving DecidableEq, Repr

/-- A message of a type that the channel supports, with its data. -/
inductive InterconnectMessage where
  | encapData (frame : ChannelFrame)
  | decapData (burst : List ChannelPacket)
  | sig (frame : ChannelFrame)
  | saloha (frames : List ChannelFrame)
deriving DecidableEq, Repr

namespace InterconnectMessage

/-- The code of the type of a message. -/
def msgType : InterconnectMessage → UInt8
  | encapData _ => 0
  | decapData _ => 1
  | sig _ => 3
  | saloha _ => 4

end InterconnectMessage

namespace InterconnectChannel

open InterconnectMessage

/-! ### Sender -/

def serializeFrame (frame : ChannelFrame) : Data :=
  [frame.spot] ++ [frame.carrierId] ++ frame.data

def serializeFrames (frames : List ChannelFrame) : Data := writeRecords serializeFrame frames

def serializePacket (packet : ChannelPacket) : Data :=
  [packet.srcTalId] ++ [packet.dstTalId] ++ [packet.qos] ++ toLE 2 packet.type.toNat ++
    toLE 4 packet.headerLength ++ packet.data

def serializeBurst (burst : List ChannelPacket) : Data := writeRecords serializePacket burst

def serialize : InterconnectMessage → Data
  | encapData frame => serializeFrame frame
  | sig frame => serializeFrame frame
  | saloha frames => serializeFrames frames
  | decapData burst => serializeBurst burst

/-- The length of the other fields, `data_len` and `msg_type`. -/
def fieldsLength : Nat := 4 + 1

/-- The message buffer that is sent. -/
def msgBuffer (message : InterconnectMessage) : Data :=
  toLE 4 ((serialize message).length + fieldsLength) ++ [message.msgType] ++ serialize message

/-! ### Receiver -/

/-- The type of what was received and the length of its data. What is received with another
length than the one it has is an error. -/
def receiveToBuffer (received : Data) : Option (UInt8 × Nat) := do
  let dataLen ← (slice 0 4 received).map ofLE
  if dataLen ≠ received.length then none
  else
    let msgType ← received[4]?
    return (msgType, subW 32 dataLen fieldsLength)

/-- A frame in a memory that starts with it. -/
def deserializeFrame (data : Data) (length : Nat) : Option ChannelFrame := do
  let spot ← data[0]?
  let carrierId ← data[1]?
  let bytes ← slice 2 (subW 32 length 2) data
  return ⟨spot, carrierId, bytes⟩

def deserializeFrames (data : Data) (length : Nat) : Option (List ChannelFrame × Nat) :=
  readRecords deserializeFrame data length

def deserializePacket (data : Data) (length : Nat) : Option ChannelPacket := do
  let srcTalId ← data[0]?
  let dstTalId ← data[1]?
  let qos ← data[2]?
  let type ← slice 3 2 data
  let headerLength ← slice 5 4 data
  let bytes ← slice 9 (subW 32 length 9) data
  return ⟨srcTalId, dstTalId, qos, UInt16.ofNat (ofLE type), ofLE headerLength, bytes⟩

def deserializeBurst (data : Data) (length : Nat) : Option (List ChannelPacket × Nat) :=
  readRecords deserializePacket data length

/-- A list is read up to the length exactly, or the assertion fails. -/
def assertEnd {α : Type} (length : Nat) (result : List α × Nat) : Option (List α) :=
  if result.2 = length then some result.1 else none

def deserialize (msgType : UInt8) (data : Data) (length : Nat) : Option InterconnectMessage :=
  match msgType.toNat with
  | 0 => (deserializeFrame data length).map encapData
  | 3 => (deserializeFrame data length).map sig
  | 4 => ((deserializeFrames data length).bind (assertEnd length)).map saloha
  | 1 => ((deserializeBurst data length).bind (assertEnd length)).map decapData
  | _ => none

/-- The message received; `beyond` is the memory behind the buffer. -/
def receive (received beyond : Data) : Option InterconnectMessage := do
  let (msgType, length) ← receiveToBuffer received
  deserialize msgType ((received ++ beyond).drop fieldsLength) length

/-! ### Round trip -/

/-- A message that fits in the buffer is received as it was sent. -/
def RoundTrips (message : InterconnectMessage) : Prop :=
  (serialize message).length ≤ MAX_SOCK_SIZE →
    ∀ beyond, receive (msgBuffer message) beyond = some message

/-- There is something in a list, and header lengths are on four bytes. -/
def Carriable : InterconnectMessage → Prop
  | encapData _ => True
  | sig _ => True
  | saloha frames => frames ≠ []
  | decapData burst => burst ≠ [] ∧ ∀ packet ∈ burst, packet.headerLength < 2 ^ 32

variable {message : InterconnectMessage} {frame : ChannelFrame} {packet : ChannelPacket}
  {frames : List ChannelFrame} {burst : List ChannelPacket} {beyond : Data}

theorem serializeFrame_length (frame : ChannelFrame) :
    (serializeFrame frame).length = frame.data.length + 2 := by
  simp [serializeFrame]

theorem serializePacket_length (packet : ChannelPacket) :
    (serializePacket packet).length = packet.data.length + 9 := by
  simp [serializePacket]
  omega

theorem deserializeFrame_serializeFrame (short : (serializeFrame frame).length < 2 ^ 32)
    (beyond : Data) :
    deserializeFrame (serializeFrame frame ++ beyond) (serializeFrame frame).length =
      some frame := by
  have memory : serializeFrame frame ++ beyond =
      [frame.spot, frame.carrierId] ++ (frame.data ++ beyond) := by
    simp [serializeFrame]
  have bytes : slice 2 (subW 32 (serializeFrame frame).length 2)
      (serializeFrame frame ++ beyond) = some frame.data := by
    rw [memory]
    refine slice_append rfl ?_
    rw [subW_of_le short (by rw [serializeFrame_length]; omega), serializeFrame_length]
    omega
  rw [deserializeFrame, bytes, memory]
  rfl

/-- A packet comes back with the low bytes of its header length. -/
def truncated (packet : ChannelPacket) : ChannelPacket :=
  { packet with headerLength := packet.headerLength % 2 ^ 32 }

theorem deserializePacket_serializePacket (short : (serializePacket packet).length < 2 ^ 32)
    (beyond : Data) :
    deserializePacket (serializePacket packet ++ beyond) (serializePacket packet).length =
      some (truncated packet) := by
  let ids : Data := [packet.srcTalId, packet.dstTalId, packet.qos]
  let type := toLE 2 packet.type.toNat
  let headerLength := toLE 4 packet.headerLength
  have memory : serializePacket packet ++ beyond =
      ids ++ (type ++ (headerLength ++ (packet.data ++ beyond))) := by
    simp [serializePacket, ids, type, headerLength]
  have typeRead : slice 3 2 (serializePacket packet ++ beyond) = some type := by
    rw [memory]
    exact slice_append rfl (toLE_length _ _)
  have headerRead : slice 5 4 (serializePacket packet ++ beyond) = some headerLength := by
    rw [memory, ← List.append_assoc]
    exact slice_append (by simp [ids, type]) (toLE_length _ _)
  have bytes : slice 9 (subW 32 (serializePacket packet).length 9)
      (serializePacket packet ++ beyond) = some packet.data := by
    rw [memory, ← List.append_assoc, ← List.append_assoc]
    refine slice_append (by simp [ids, type, headerLength]) ?_
    rw [subW_of_le short (by rw [serializePacket_length]; omega), serializePacket_length]
    omega
  have typeValue : UInt16.ofNat (ofLE type) = packet.type := by
    rw [ofLE_toLE (by simpa using packet.type.toNat_lt), UInt16.ofNat_toNat]
  have headerValue : ofLE headerLength = packet.headerLength % 2 ^ 32 := ofLE_toLE_mod 4 _
  rw [deserializePacket, typeRead, headerRead, bytes, memory]
  simp [ids, typeValue, headerValue, truncated]

theorem receiveToBuffer_msgBuffer (short : (serialize message).length + fieldsLength < 2 ^ 32) :
    receiveToBuffer (msgBuffer message) = some (message.msgType, (serialize message).length) := by
  have dataLen : (slice 0 4 (msgBuffer message)).map ofLE =
      some ((serialize message).length + fieldsLength) := by
    have front : msgBuffer message = [] ++ (toLE 4 ((serialize message).length + fieldsLength) ++
        ([message.msgType] ++ serialize message)) := by
      simp [msgBuffer]
    rw [front, @slice_append [] _ _ 0 4 rfl (toLE_length _ _), Option.map_some, ofLE_toLE short]
  have total : (msgBuffer message).length = (serialize message).length + fieldsLength := by
    simp [msgBuffer, fieldsLength]
    omega
  have type : (msgBuffer message)[4]? = some message.msgType := by
    rw [msgBuffer, List.append_assoc, List.getElem?_append_right (by simp), toLE_length]
    rfl
  have data : subW 32 ((serialize message).length + fieldsLength) fieldsLength =
      (serialize message).length := by
    rw [subW_of_le short (Nat.le_add_left _ _), Nat.add_sub_cancel]
  simp [receiveToBuffer, dataLen, total, type, data]

/-- The receiver reads what was serialized, with its type and its length. -/
theorem receive_msgBuffer (short : (serialize message).length + fieldsLength < 2 ^ 32)
    (beyond : Data) :
    receive (msgBuffer message) beyond =
      deserialize message.msgType (serialize message ++ beyond) (serialize message).length := by
  have data : (msgBuffer message ++ beyond).drop fieldsLength = serialize message ++ beyond := by
    rw [msgBuffer, List.append_assoc]
    exact List.drop_left' (by simp [fieldsLength])
  simp [receive, receiveToBuffer_msgBuffer short, data]

/-- No loop gives an empty list. -/
theorem not_read_empty {α : Type} {read : Data → Nat → Option α} {data : Data} {length : Nat} :
    (readRecords read data length).bind (assertEnd length) ≠ some [] := by
  intro result
  obtain ⟨⟨records, last⟩, result, ends⟩ := Option.bind_eq_some_iff.mp result
  rw [assertEnd] at ends
  split at ends
  · exact readFrom_ne_nil result (Option.some.inj ends)
  · cases ends

/-- Written records are read up to their length exactly. -/
theorem read_written {α β : Type} {write : α → Data} {read : Data → Nat → Option β}
    {image : α → β} {items : List α} (some_item : items ≠ [])
    (short : (writeRecords write items).length < 2 ^ 32)
    (reads : ∀ item, (write item).length < 2 ^ 32 → ∀ rest,
      read (write item ++ rest) (write item).length = some (image item)) (beyond : Data) :
    (readRecords read (writeRecords write items ++ beyond)
        (writeRecords write items).length).bind (assertEnd (writeRecords write items).length) =
      some (items.map image) := by
  have each : ∀ item ∈ items, ∀ rest,
      read (write item ++ rest) (write item).length = some (image item) := fun item mem =>
    reads item (Nat.lt_of_le_of_lt (length_le_writeRecords write mem) short)
  rw [readRecords_writeRecords some_item each short, Option.bind_some, assertEnd, if_pos rfl]

theorem map_truncated_eq_iff :
    burst.map truncated = burst ↔ ∀ packet ∈ burst, packet.headerLength < 2 ^ 32 := by
  have truncated_eq_iff : ∀ packet, truncated packet = packet ↔ packet.headerLength < 2 ^ 32 := by
    intro packet
    rw [← Nat.mod_eq_iff_lt (Nat.two_pow_pos 32).ne']
    constructor
    · exact fun same => congrArg ChannelPacket.headerLength same
    · exact fun same => by rw [truncated, same]
  calc burst.map truncated = burst
      ↔ burst.map truncated = burst.map id := by rw [List.map_id]
    _ ↔ ∀ packet ∈ burst, truncated packet = packet := List.map_inj_left
    _ ↔ _ := forall₂_congr fun packet _ => truncated_eq_iff packet

theorem deserialize_msgType_encapData (data : Data) (length : Nat) :
    deserialize (encapData frame).msgType data length =
      (deserializeFrame data length).map encapData := rfl

theorem deserialize_msgType_sig (data : Data) (length : Nat) :
    deserialize (sig frame).msgType data length = (deserializeFrame data length).map sig := rfl

theorem receive_eq_iff (fits : (serialize message).length ≤ MAX_SOCK_SIZE) (beyond : Data) :
    receive (msgBuffer message) beyond = some message ↔ Carriable message := by
  have short : (serialize message).length < 2 ^ 32 :=
    Nat.lt_of_le_of_lt fits (by decide)
  rw [receive_msgBuffer (Nat.lt_of_le_of_lt (Nat.add_le_add_right fits _) (by decide))]
  cases message with
  | encapData frame =>
      refine iff_of_true ?_ trivial
      rw [serialize, deserialize_msgType_encapData, deserializeFrame_serializeFrame short]
      rfl
  | sig frame =>
      refine iff_of_true ?_ trivial
      rw [serialize, deserialize_msgType_sig, deserializeFrame_serializeFrame short]
      rfl
  | saloha frames =>
      by_cases empty : frames = []
      · subst empty
        refine iff_of_false (fun same => ?_) (fun carried => carried rfl)
        obtain ⟨read, result, eq⟩ := Option.map_eq_some_iff.mp same
        cases eq
        exact not_read_empty result
      · refine iff_of_true ?_ empty
        have result := read_written empty short
          (fun _ => deserializeFrame_serializeFrame) beyond
        rw [List.map_id'] at result
        exact congrArg (Option.map saloha) result
  | decapData burst =>
      by_cases empty : burst = []
      · subst empty
        refine iff_of_false (fun same => ?_) (fun carried => carried.1 rfl)
        obtain ⟨read, result, eq⟩ := Option.map_eq_some_iff.mp same
        cases eq
        exact not_read_empty result
      · have result := read_written empty short
          (fun _ => deserializePacket_serializePacket) beyond
        rw [Carriable, ← map_truncated_eq_iff]
        have received : deserialize (decapData burst).msgType
            (serialize (decapData burst) ++ beyond) (serialize (decapData burst)).length =
              some (decapData (burst.map truncated)) := congrArg (Option.map decapData) result
        rw [received]
        simp [empty]

theorem message_roundTrips_iff (message : InterconnectMessage) :
    RoundTrips message ↔
      ((serialize message).length ≤ MAX_SOCK_SIZE → Carriable message) := by
  refine forall_congr' fun fits => ?_
  constructor
  · exact fun received => (receive_eq_iff fits []).mp (received [])
  · exact fun carriable beyond => (receive_eq_iff fits beyond).mpr carriable

end InterconnectChannel

end OpenSand
