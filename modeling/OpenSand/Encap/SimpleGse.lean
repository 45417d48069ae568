import OpenSand.Encap.Gse

/-!
A library with the documented behaviour of the GSE one.

A packet is a header of six bytes, its place in the PDU, its length, the fragment identifier
and the length and the CRC of the unit, and the bytes. `documented` shows that reading,
refragmenting and reassembling such packets is what is asked of the library.
-/

namespace OpenSand.Gse.Simple

open Fragment (Held accept)

/-! ### Packets -/

structure Packet where
  first : Bool
  last : Bool
  id : Nat
  total : Nat
  crc : Nat
  data : List UInt8

def HEADER_LENGTH : Nat := 6

def encode (packet : Packet) : List UInt8 :=
  .ofNat (16 * (2 * packet.first.toNat + packet.last.toNat) + (packet.data.length + 4) / 256) ::
  .ofNat ((packet.data.length + 4) % 256) :: .ofNat packet.id ::
  .ofNat (packet.total / 256) :: .ofNat (packet.total % 256) :: .ofNat packet.crc :: packet.data

def decode : List UInt8 → Option Packet
  | kind :: low :: fragId :: totalHigh :: totalLow :: crc :: bytes =>
      let length := 256 * (kind.toNat % 16) + low.toNat - 4
      if bytes.length < length then none
      else some ⟨kind.toNat / 32 = 1, kind.toNat / 16 % 2 = 1, fragId.toNat,
        256 * totalHigh.toNat + totalLow.toNat, crc.toNat, bytes.take length⟩
  | _ => none

/-- The fields of a packet fit in its header. -/
structure Packet.Small (packet : Packet) : Prop where
  id : packet.id < 256
  total : packet.total < 65536
  crc : packet.crc < 256
  data : packet.data.length + 4 < 4096

theorem decode_encode {packet : Packet} (small : packet.Small) (rest : List UInt8) :
    decode (encode packet ++ rest) = some packet := by
  obtain ⟨id_small, total_small, crc_small, data_small⟩ := small
  obtain ⟨first, last, id, total, crc, data⟩ := packet
  simp only at id_small total_small crc_small data_small
  have kind : (UInt8.ofNat (16 * (2 * first.toNat + last.toNat) + (data.length + 4) / 256)).toNat =
      16 * (2 * first.toNat + last.toNat) + (data.length + 4) / 256 := by
    rw [UInt8.toNat_ofNat']
    cases first <;> cases last <;> simp <;> omega
  have length : 256 * ((16 * (2 * first.toNat + last.toNat) + (data.length + 4) / 256) % 16) +
      (UInt8.ofNat ((data.length + 4) % 256)).toNat - 4 = data.length := by
    rw [UInt8.toNat_ofNat']
    omega
  have ofTotal : 256 * (UInt8.ofNat (total / 256)).toNat + (UInt8.ofNat (total % 256)).toNat =
      total := by
    rw [UInt8.toNat_ofNat', UInt8.toNat_ofNat']
    omega
  have ofId : (UInt8.ofNat id).toNat = id := by
    rw [UInt8.toNat_ofNat']
    omega
  have ofCrc : (UInt8.ofNat crc).toNat = crc := by
    rw [UInt8.toNat_ofNat']
    omega
  simp only [encode, List.cons_append, decode, kind, length, ofTotal, ofId, ofCrc,
    List.length_append]
  rw [if_neg (by omega), List.take_left]
  cases first <;> cases last <;> simp <;> omega

@[simp] theorem encode_length (packet : Packet) :
    (encode packet).length = HEADER_LENGTH + packet.data.length := by
  simp [encode, HEADER_LENGTH]
  omega

/-! ### The library -/

def crc (bytes : List UInt8) : Nat := (bytes.map UInt8.toNat).sum % 256

def refragPacket (bytes : List UInt8) (fragId length : Nat) : Refragmentation :=
  match decode bytes with
  | none => .error
  | some packet =>
      if HEADER_LENGTH + packet.data.length ≤ length then .refragUnnecessary
      else if length < HEADER_LENGTH + LABEL_LENGTH + 1 then .lengthTooSmall
      else .refragmented
        (encode ⟨packet.first, false, fragId, packet.total, packet.crc,
          packet.data.take (length - HEADER_LENGTH)⟩)
        (encode ⟨false, packet.last, fragId, packet.total, packet.crc,
          packet.data.drop (length - HEADER_LENGTH)⟩)

def deencapPacket (context : Held Nat UInt8 × (Nat → Nat)) (bytes : List UInt8) :
    GseStatus × Held Nat UInt8 × (Nat → Nat) :=
  match decode bytes with
  | none => (.failed, context)
  | some packet =>
      match accept context.1 ⟨packet.id, packet.first, packet.last, packet.data⟩ with
      | none => (.ctxNotInit, context)
      | some (none, held) => (.ok, held,
          if packet.first then Function.update context.2 packet.id packet.total else context.2)
      | some (some whole, held) =>
          (if packet.first ∨ context.2 packet.id = whole.length ∧ crc whole = packet.crc
            then .pduReceived (whole.take LABEL_LENGTH) (whole.drop LABEL_LENGTH) else .failed,
            held, context.2)

/-- The longest PDU. -/
def MAX_PDU : Nat := 4000

def libgse : Libgse where
  Deencap := Held Nat UInt8 × (Nat → Nat)
  deencapInit := (fun _ => none, fun _ => 0)
  maxPacketLength := 4095
  encapPdu label fragId pdu :=
    if MAX_PDU < pdu.length then []
    else [encode ⟨true, true, fragId, (label ++ pdu).length, crc (label ++ pdu), label ++ pdu⟩]
  getStartIndicator bytes := (decode bytes).map Packet.first
  getEndIndicator bytes := (decode bytes).map Packet.last
  getLabel bytes := (decode bytes).map fun packet => packet.data.take LABEL_LENGTH
  getFragId bytes := (decode bytes).map Packet.id
  getGseLength bytes := (decode bytes).map fun packet => packet.data.length + 4
  refragPacket := refragPacket
  deencapPacket := deencapPacket

/-- The packet of a fragment of a unit. -/
def packetOf (unit : List UInt8) (fragment : Fragment Nat UInt8) : Packet :=
  ⟨fragment.first, fragment.last, fragment.id, unit.length, crc unit, fragment.data⟩

structure Reads (bytes unit : List UInt8) (fragment : Fragment Nat UInt8) : Prop where
  bytes : bytes = encode (packetOf unit fragment)
  small : (packetOf unit fragment).Small
  label : fragment.first = true → fragment.data.take LABEL_LENGTH = unit.take LABEL_LENGTH

theorem Reads.decode {bytes unit : List UInt8} {fragment : Fragment Nat UInt8}
    (reads : Reads bytes unit fragment) (rest : List UInt8) :
    decode (bytes ++ rest) = some (packetOf unit fragment) := by
  rw [reads.bytes, decode_encode reads.small]

/-- A part of the data of a fragment is a fragment of the same unit. -/
theorem Reads.part {bytes unit : List UInt8} {fragment : Fragment Nat UInt8}
    (reads : Reads bytes unit fragment) {first last : Bool} {data : List UInt8}
    (fewer : data.length ≤ fragment.data.length)
    (label : first = true → data.take LABEL_LENGTH = unit.take LABEL_LENGTH) :
    Reads (encode ⟨first, last, fragment.id, unit.length, crc unit, data⟩) unit
      ⟨fragment.id, first, last, data⟩ where
  bytes := rfl
  small := ⟨reads.small.id, reads.small.total, reads.small.crc,
    Nat.lt_of_le_of_lt (Nat.add_le_add_right fewer 4) reads.small.data⟩
  label := label

def documented : libgse.Documented where
  maxPdu := MAX_PDU
  crc := crc
  Reads := Reads
  held context := context.1
  announced context := context.2
  held_init _ := rfl
  encapPdu := by
    intro label fragId pdu six small _ short
    refine ⟨[⟨fragId, true, true, label ++ pdu⟩], .last, ?_⟩
    rw [MAX_PDU] at short
    rw [LABEL_LENGTH] at six
    simp only [libgse]
    rw [if_neg (by rw [MAX_PDU]; omega)]
    refine .cons ⟨rfl, ⟨small, ?_, Nat.mod_lt _ (by decide), ?_⟩, fun _ => rfl⟩ .nil
    · simp only [packetOf, List.length_append]
      omega
    · simp only [packetOf, List.length_append]
      omega
  header := by
    intro packet unit fragment rest reads
    simp only [libgse, reads.decode rest, Option.map_some]
    refine ⟨rfl, rfl, fun first => ?_, fun _ => rfl, ?_, ?_⟩
    · rw [← reads.label first]
      rfl
    · rw [reads.bytes, encode_length, HEADER_LENGTH, GSE_MANDATORY_FIELDS_LENGTH]
      congr 1
      omega
    · rw [reads.bytes, encode_length, HEADER_LENGTH, GSE_MANDATORY_FIELDS_LENGTH]
      omega
  refragPacket := by
    intro packet unit fragment length reads
    have decoded := reads.decode []
    rw [List.append_nil] at decoded
    simp only [libgse, refragPacket, decoded, packetOf]
    by_cases fits : HEADER_LENGTH + fragment.data.length ≤ length
    · exact .inr (.inl (if_pos fits))
    · by_cases small : length < HEADER_LENGTH + LABEL_LENGTH + 1
      · exact .inl (by rw [if_neg fits, if_pos small])
      · refine .inr (.inr ⟨_, _, _, _, by rw [if_neg fits, if_neg small],
          (List.take_append_drop (length - HEADER_LENGTH) fragment.data).symm, ?_, ?_⟩)
        · refine reads.part (by simp) fun first => ?_
          rw [List.take_take, Nat.min_eq_left (by omega), reads.label first]
        · exact reads.part (by simp) nofun
  deencapPacket := by
    intro context packet unit fragment reads
    have decoded := reads.decode []
    rw [List.append_nil] at decoded
    simp only [libgse, deencapPacket, decoded, packetOf]
    split
    · rename_i refused
      simp only [refused]
      trivial
    · rename_i held' continued
      simp only [continued, true_or, true_and]
    · rename_i whole held' ended
      simp only [ended, true_and]

end OpenSand.Gse.Simple
