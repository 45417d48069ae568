import OpenSand.Saloha.Tal
import Mathlib.Data.List.Basic

/-!
The identifiers of data packets as a code.

The text of an identifier determines the packet's id, sequence number, PDU number and QoS. It is
read back into 16-bit integers: the reading fails at an id of more bits, which leaves the other
fields, and with them the QoS under which an acknowledged packet is looked for, as they were.
-/

namespace OpenSand

open OpenSand.Word

namespace SlottedAlohaPacketData

/-- What the identifier is made of. -/
def fields (packet : SlottedAlohaPacketData) : UInt32 × UInt16 × UInt16 × UInt8 :=
  (packet.id, packet.seq, packet.pduNb, packet.qos)

/-- The fields as integers. -/
def idFields (packet : SlottedAlohaPacketData) : PacketIds :=
  ⟨packet.id.toNat, packet.seq.toNat, packet.pduNb.toNat, packet.qos.toNat⟩

/-- An acknowledgement takes its packet, the first one with these fields, from the ones that wait,
whatever the array of the identifier contained before. -/
def Acknowledged (packet : SlottedAlohaPacketData) : Prop :=
  ∀ (config : SlottedAlohaTalConfig) (ids : PacketIds) (tal : SlottedAlohaTal)
    (sent : SalohaTalPacket) (before : List SalohaTalPacket) (after : List (Option SalohaTalPacket)),
    sent.packet = packet →
    tal.packetsWaitAck.lookup packet.qos.toNat = some (before.map some ++ some sent :: after) →
    (∀ former ∈ before, former.packet.fields ≠ packet.fields) →
    tal.onRcvCtrl config ids ⟨SALOHA_CTRL_ACK, config.talId, packet.getUniqueId⟩ =
      some { tal with
        packetsWaitAck := tal.packetsWaitAck.modify packet.qos.toNat fun _ => before.map some ++ after
        record := { tal.record with acked := tal.record.acked ++ [sent.number] } }

/-- The identifier of a packet is read back, is not the one of another packet and is found by the
acknowledgement. -/
structure Identified (packet : SlottedAlohaPacketData) : Prop where
  read : ∀ ids, convertPacketId packet.getUniqueId ids = packet.idFields
  unique : ∀ other : SlottedAlohaPacketData, other.srcTalId = packet.srcTalId →
    other.fields ≠ packet.fields → other.getUniqueId ≠ packet.getUniqueId
  acknowledged : packet.Acknowledged

/-! ### The text -/

theorem colon_notMem (i : Int) : ':' ∉ CharStream.decimal i :=
  CharStream.notMem_decimal rfl (by decide) i

theorem colon_notMem_digits (n : Nat) : ':' ∉ Nat.toDigits 10 n :=
  CharStream.notMem_toDigits rfl n

variable {packet other : SlottedAlohaPacketData}

/-- The text determines the fields. -/
theorem fields_of_getUniqueId (same : other.getUniqueId = packet.getUniqueId) :
    other.fields = packet.fields := by
  unfold getUniqueId at same
  obtain ⟨id, same⟩ := CharStream.append_separator_inj (colon_notMem _) (colon_notMem _) same
  obtain ⟨seq, same⟩ :=
    CharStream.append_separator_inj (colon_notMem_digits _) (colon_notMem_digits _) same
  obtain ⟨pduNb, qos⟩ :=
    CharStream.append_separator_inj (colon_notMem_digits _) (colon_notMem_digits _) same
  have id' : other.id = packet.id := by
    have signed := Int32.toInt_inj.mp (CharStream.decimal_injective id)
    simpa using congrArg Int32.toUInt32 signed
  have seq' : other.seq = packet.seq := UInt16.toNat_inj.mp (CharStream.toDigits_injective seq)
  have pduNb' : other.pduNb = packet.pduNb :=
    UInt16.toNat_inj.mp (CharStream.toDigits_injective pduNb)
  have qos' : other.qos = packet.qos := UInt8.toNat_inj.mp (CharStream.toDigits_injective qos)
  rw [fields, fields, id', seq', pduNb', qos']

/-- An id of 16 bits is printed without a sign. -/
theorem decimal_id (small : packet.id.toNat < 2 ^ 16) :
    CharStream.decimal packet.id.toInt32.toInt = Nat.toDigits 10 packet.id.toNat := by
  have value : packet.id.toInt32.toInt = Int.ofNat packet.id.toNat :=
    BitVec.toInt_eq_toNat_of_lt (show 2 * packet.id.toNat < 2 ^ 32 by omega)
  rw [value, CharStream.decimal]

/-- The fields are read back exactly when the id has 16 bits. -/
theorem convertPacketId_eq_iff (ids : PacketIds) :
    convertPacketId packet.getUniqueId ids = packet.idFields ↔ packet.id.toNat < 2 ^ 16 := by
  have colon := @CharStream.separator_stops ':' rfl
  have last : ∀ c ∈ ([] : List Char).head?, c.isDigit = false := fun c mem => by cases mem
  constructor
  · intro same
    have id : (convertPacketId packet.getUniqueId ids).id < 2 ^ 16 :=
      CharStream.extractUnsigned_lt 16 packet.getUniqueId ids.id
    rw [same] at id
    exact id
  · intro small
    have word : packet.qos.toNat < 2 ^ 16 := packet.qos.toNat_lt.trans (by decide)
    have read := CharStream.extractUnsigned_toDigits word ids.qos last
    rw [List.append_nil] at read
    simp only [convertPacketId, getUniqueId, decimal_id small,
      CharStream.extractUnsigned_toDigits small _ (colon _), CharStream.extractChar_colon,
      CharStream.extractUnsigned_toDigits packet.seq.toNat_lt _ (colon _),
      CharStream.extractUnsigned_toDigits packet.pduNb.toNat_lt _ (colon _), read, idFields]

/-! ### Acknowledgements -/

theorem removeAcked_before (before : List SalohaTalPacket) {sent : SalohaTalPacket}
    {after : List (Option SalohaTalPacket)} (own : sent.packet = packet)
    (others : ∀ former ∈ before, former.packet.fields ≠ packet.fields) :
    SlottedAlohaTal.removeAcked packet.getUniqueId (before.map some ++ some sent :: after) =
      some (some (sent, before.map some ++ after)) := by
  induction before with
  | nil => rw [List.map_nil, List.nil_append, SlottedAlohaTal.removeAcked, if_pos (own ▸ rfl),
      List.nil_append]
  | cons former before ih =>
      obtain ⟨other, others'⟩ := List.forall_mem_cons.mp others
      have ne : packet.getUniqueId ≠ former.packet.getUniqueId :=
        fun same => other (fields_of_getUniqueId same.symm)
      rw [List.map_cons, List.cons_append, SlottedAlohaTal.removeAcked, if_neg ne, ih others']
      rfl

/-- An identifier that is read back finds its packet. -/
theorem acknowledged_of_small (small : packet.id.toNat < 2 ^ 16) : packet.Acknowledged := by
  intro config ids tal sent before after own waits others
  have qos : wrap 8 (convertPacketId packet.getUniqueId ids).qos = packet.qos.toNat := by
    rw [(convertPacketId_eq_iff ids).mpr small]
    exact wrap_of_lt packet.qos.toNat_lt
  unfold SlottedAlohaTal.onRcvCtrl
  dsimp only
  rw [if_neg (not_not.mpr rfl), if_neg (not_not.mpr rfl), qos, SortedMap.insert_of_lookup waits,
    waits, Option.getD_some, removeAcked_before before own others]
  rfl

/-- Every data packet. -/
theorem identified_iff (packet : SlottedAlohaPacketData) :
    packet.Identified ↔ packet.id.toNat < 2 ^ 16 := by
  constructor
  · exact fun identified => (convertPacketId_eq_iff ⟨0, 0, 0, 0⟩).mp (identified.read _)
  · intro small
    exact ⟨fun ids => (convertPacketId_eq_iff ids).mpr small,
      fun other _ different same => different (fields_of_getUniqueId same),
      acknowledged_of_small small⟩

/-- The packet after 65536 PDUs. -/
def latePacket : SlottedAlohaPacketData := ⟨65536, 0, 3, 9, 2, [0], [], 1⟩

/-- Its identifier is read as the one of another PDU, with the QoS that was in the array. -/
theorem latePacket_not_identified :
    convertPacketId latePacket.getUniqueId ⟨7, 7, 7, 7⟩ = ⟨65535, 7, 7, 7⟩ ∧
      ¬ latePacket.Identified := by
  refine ⟨by decide +kernel, fun identified => ?_⟩
  have read := identified.read ⟨7, 7, 7, 7⟩
  revert read
  decide +kernel

end SlottedAlohaPacketData

end OpenSand
