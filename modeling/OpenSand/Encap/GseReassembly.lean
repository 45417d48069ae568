import OpenSand.Encap.SimpleGse
import OpenSand.Lib.Run
import OpenSand.Lib.Word

/-!
GSE reassembly at a terminal.

The subsequent fragments of every packet of a source and a QoS reach the terminal under one
fragment identifier, whatever their destination. `receive_receiving` follows what the terminal
holds under it: the packet for the terminal that is sent in part, as long as nothing else comes
in between.
-/

namespace OpenSand.Gse

open Fragment

variable {lib : Libgse} {documented : lib.Documented} {src qos : Nat} {own : NetPacket}

/-! ### Labels and fragment identifiers -/

def labelOf (packet : NetPacket) : List UInt8 :=
  [.ofNat packet.srcTalId, .ofNat packet.dstTalId, .ofNat packet.qos, 0, 0, 0]

/-- What is fragmented of a packet: its label and its PDU. -/
def unitOf (packet : NetPacket) : List UInt8 := labelOf packet ++ packet.data

@[simp] theorem take_unitOf (packet : NetPacket) :
    (unitOf packet).take LABEL_LENGTH = labelOf packet := rfl

@[simp] theorem drop_unitOf (packet : NetPacket) :
    (unitOf packet).drop LABEL_LENGTH = packet.data := rfl

theorem Carried.masked (carried : Carried documented src qos own) :
    own.srcTalId &&& 0x1F = own.srcTalId ∧ own.dstTalId &&& 0x1F = own.dstTalId ∧
      own.qos &&& 0x07 = own.qos := by
  obtain ⟨⟨same_src, src_le⟩, dst, ⟨same_qos, qos_le⟩, _, _⟩ := carried
  subst same_src same_qos
  refine ⟨?_, ?_, ?_⟩
  · exact (Word.and_mask_eq_iff (w := 5)).mpr (Nat.lt_succ_of_le src_le)
  · exact (Word.and_mask_eq_iff (w := 5)).mpr (Nat.lt_succ_of_le dst)
  · exact (Word.and_mask_eq_iff (w := 3)).mpr (Nat.lt_succ_of_le qos_le)

theorem Carried.setLabel (carried : Carried documented src qos own) :
    setLabel own = some (labelOf own) := by
  rw [Gse.setLabel, carried.masked.1, carried.masked.2.1, carried.masked.2.2]
  simp [labelOf]

/-- The fields read in the label are those of the packet. -/
theorem Carried.label (carried : Carried documented src qos own) :
    getSrcTalIdFromLabel (labelOf own) = own.srcTalId ∧
    getDstTalIdFromLabel (labelOf own) = own.dstTalId ∧
    getQosFromLabel (labelOf own) = own.qos := by
  obtain ⟨mask_src, mask_dst, mask_qos⟩ := carried.masked
  obtain ⟨⟨same_src, src_le⟩, dst, ⟨same_qos, qos_le⟩, _, _⟩ := carried
  refine ⟨?_, ?_, ?_⟩
  · rw [getSrcTalIdFromLabel, labelOf, List.getD_cons_zero,
      Word.byte_of_five_bits (by omega), mask_src]
  · rw [getDstTalIdFromLabel, labelOf, List.getD_cons_succ, List.getD_cons_zero,
      Word.byte_of_five_bits dst, mask_dst]
  · rw [getQosFromLabel, labelOf, List.getD_cons_succ, List.getD_cons_succ, List.getD_cons_zero,
      Word.byte_of_five_bits (by omega), mask_qos]

/-- The packets of a source and a QoS have one fragment identifier, and it gives them back. -/
theorem Carried.fragId (carried : Carried documented src qos own) :
    getFragId own = 8 * src + qos ∧ 8 * src + qos < 256 ∧
    getSrcTalIdFromFragId (8 * src + qos) = own.srcTalId ∧
    getQosFromFragId (8 * src + qos) = own.qos := by
  obtain ⟨mask_src, _, mask_qos⟩ := carried.masked
  obtain ⟨⟨same_src, src_le⟩, _, ⟨same_qos, qos_le⟩, _, _⟩ := carried
  subst same_src same_qos
  refine ⟨?_, by omega, ?_, ?_⟩
  · rw [getFragId, mask_src, mask_qos,
      ← Nat.shiftLeft_add_eq_or_of_lt (show own.qos < 2 ^ 3 by omega), Nat.shiftLeft_eq]
    omega
  · rw [getSrcTalIdFromFragId, Nat.shiftRight_eq_div_pow]
    rw [show (8 * own.srcTalId + own.qos) / 2 ^ 3 = own.srcTalId by omega, mask_src]
  · rw [getQosFromFragId, show (0x07 : Nat) = 2 ^ 3 - 1 from rfl,
      Nat.and_two_pow_sub_one_eq_mod]
    omega

/-! ### GSE packets -/

/-- A GSE packet that is built from a fragment of a packet has the fields of that packet, but
the destination of a subsequent fragment is the one given. -/
theorem build_unitOf (carried : Carried documented src qos own) {data : List UInt8}
    {fragment : Fragment Nat UInt8} (reads : documented.Reads data (unitOf own) fragment)
    (id : fragment.id = 8 * src + qos) (rest : List UInt8) (dstTalId : Nat) :
    build lib (data ++ rest) data.length dstTalId = some ⟨data, own.qos, own.srcTalId,
      if fragment.first then own.dstTalId else dstTalId⟩ := by
  obtain ⟨start, stop, label, fragId, _, _⟩ := documented.header _ _ _ rest reads
  rw [build, start, stop, Option.bind_some, Option.bind_some, List.take_left]
  cases first : fragment.first with
  | true =>
      obtain ⟨label_src, label_dst, label_qos⟩ := carried.label
      rw [if_pos rfl, label first, take_unitOf, Option.map_some, label_src, label_dst, label_qos]
      rfl
  | false =>
      obtain ⟨_, _, id_src, id_qos⟩ := carried.fragId
      rw [if_neg Bool.false_ne_true, fragId first, id, Option.map_some, id_src, id_qos]
      rfl

/-- A GSE packet at the gateway holds a fragment of a packet, with its fields. -/
def Holds (documented : lib.Documented) (own packet : NetPacket) (fragment : Fragment Nat UInt8) :
    Prop :=
  documented.Reads packet.data (unitOf own) fragment ∧ packet.qos = own.qos ∧
    packet.srcTalId = own.srcTalId ∧ packet.dstTalId = own.dstTalId

/-- The GSE packets that remain of a packet hold what is left of it. -/
structure Remains (documented : lib.Documented) (src qos : Nat) (own : NetPacket)
    (cut : Cut UInt8) (waiting : List NetPacket) : Prop where
  whole : cut.sofar ++ cut.left = unitOf own
  left : ∃ fragments, Pieces (8 * src + qos) cut.started cut.left fragments ∧
    List.Forall₂ (Holds documented own) waiting fragments

/-- A packet of which nothing was sent. -/
def fresh (own : NetPacket) : Cut UInt8 := .ofWhole (unitOf own)

theorem encapPacket_remains (carried : Carried documented src qos own) :
    Remains documented src qos own (fresh own) (encapPacket lib own) where
  whole := rfl
  left := by
    obtain ⟨id, small, _, _⟩ := carried.fragId
    obtain ⟨fragments, pieces, reads⟩ := documented.encapPdu (labelOf own) (8 * src + qos)
      own.data rfl small carried.some_data carried.short
    refine ⟨fragments, pieces, ?_⟩
    rw [encapPacket, carried.setLabel, id, List.forall₂_map_left_iff]
    exact reads.imp fun data fragment read => ⟨read, rfl, rfl, rfl⟩

/-- What a chunk of the next GSE packet gives: nothing where there is no room, or the next
fragment of what is left. -/
inductive Chunked (documented : lib.Documented) (src qos : Nat) (own : NetPacket) (cut : Cut UInt8)
    (packet : NetPacket) (packets : List NetPacket) (remainingLength : Nat) :
    Option (Option NetPacket × Option NetPacket) → Prop where
  | noRoom :
      Chunked documented src qos own cut packet packets remainingLength (some (none, some packet))
  | part {piece : NetPacket} {remaining : Option NetPacket} {fragment : Fragment Nat UInt8}
      {fragments : List (Fragment Nat UInt8)} :
      ¬ NoRoom lib packet remainingLength →
      (Whole lib packet remainingLength → fragment.last = true) →
      Holds documented own piece fragment →
      Pieces (8 * src + qos) cut.started cut.left (fragment :: fragments) →
      List.Forall₂ (Holds documented own) (remaining.toList ++ packets) fragments →
      Chunked documented src qos own cut packet packets remainingLength (some (some piece, remaining))

theorem encapNextPacket_chunked (carried : Carried documented src qos own) {cut : Cut UInt8}
    {packet : NetPacket} {packets : List NetPacket}
    (remains : Remains documented src qos own cut (packet :: packets)) (remainingLength : Nat) :
    Chunked documented src qos own cut packet packets remainingLength
      (encapNextPacket lib packet remainingLength) := by
  obtain ⟨whole, _, pieces, holds⟩ := remains
  obtain ⟨fragment, fragments, held, others, rfl⟩ := List.forall₂_cons_left_iff.mp holds
  obtain ⟨reads, same_qos, same_src, same_dst⟩ := held
  obtain ⟨data, tail, form, _, _, _⟩ := pieces.head
  have id : fragment.id = 8 * src + qos := by rw [form]
  have packet_id : getFragId packet = fragment.id := by
    rw [id, ← carried.fragId.1, getFragId, getFragId, same_qos, same_src]
  have stop := (documented.header _ _ _ [] reads).2.1
  rw [List.append_nil] at stop
  rcases documented.refragPacket _ _ _ (min remainingLength lib.maxPacketLength) reads with
    small | needless | ⟨first, second, head, rest, cut_in_two, split, read_first, read_second⟩
  · simp only [encapNextPacket, getChunk, packet_id, small]
    exact .noRoom
  · simp only [encapNextPacket, getChunk, packet_id, needless]
    refine .part ?_ (fun fits => ?_) ⟨reads, same_qos, same_src, same_dst⟩ pieces others
    · simp [NoRoom, packet_id, needless, Refragmentation.isLengthTooSmall]
    · exact Option.some.inj (stop.symm.trans fits.1)
  · have build_first := build_unitOf carried read_first id [] packet.dstTalId
    have build_second := build_unitOf carried read_second id [] packet.dstTalId
    rw [List.append_nil] at build_first build_second
    have two := pieces.split split
    rw [same_dst, ite_self] at build_first build_second
    simp only [encapNextPacket, getChunk, packet_id, cut_in_two, same_dst, build_first,
      build_second]
    have first_form : (⟨fragment.id, fragment.first, false, head⟩ : Fragment Nat UInt8) =
        ⟨8 * src + qos, !cut.started, false, head⟩ := by rw [form]
    rw [first_form] at read_first
    rw [id] at read_second
    refine .part ?_ (fun fits => ?_) ⟨read_first, rfl, rfl, rfl⟩ two
      (.cons ⟨read_second, rfl, rfl, rfl⟩ others)
    · simp [NoRoom, packet_id, cut_in_two, Refragmentation.isLengthTooSmall]
    · have unnecessary := fits.2
      rw [packet_id, cut_in_two] at unnecessary
      cases unnecessary

/-! ### Frames -/

/-- A GSE packet in a frame: the packet it is of, its bytes and the fragment they hold. -/
structure Sent where
  own : NetPacket
  data : List UInt8
  fragment : Fragment Nat UInt8

/-- The GSE packet as the terminal builds it. -/
def Sent.received (sent : Sent) : NetPacket where
  data := sent.data
  qos := sent.own.qos
  srcTalId := sent.own.srcTalId
  dstTalId := if sent.fragment.first then sent.own.dstTalId else BROADCAST_TAL_ID

structure Sent.Valid (documented : lib.Documented) (src qos : Nat) (sent : Sent) : Prop where
  carried : Carried documented src qos sent.own
  reads : documented.Reads sent.data (unitOf sent.own) sent.fragment
  id : sent.fragment.id = 8 * src + qos

theorem getEncapsulatedPackets_sent {sents : List Sent}
    (valid : ∀ sent ∈ sents, sent.Valid documented src qos) :
    getEncapsulatedPackets lib sents.length (sents.map Sent.data).flatten =
      some (sents.map fun sent => some sent.received) := by
  induction sents with
  | nil => rfl
  | cons sent sents ih =>
      obtain ⟨carried, reads, id⟩ := valid sent List.mem_cons_self
      have others := ih fun other mem => valid other (List.mem_cons_of_mem _ mem)
      obtain ⟨_, _, _, _, length, long⟩ := documented.header _ _ _ (sents.map Sent.data).flatten reads
      have current : getLength lib (sent.data ++ (sents.map Sent.data).flatten) = sent.data.length := by
        rw [getLength, length]
        exact Nat.sub_add_cancel long
      have some_data : sent.data.length ≠ 0 := by
        rw [GSE_MANDATORY_FIELDS_LENGTH] at long
        omega
      rw [List.length_cons, List.map_cons, List.flatten_cons, getEncapsulatedPackets]
      simp only [current]
      rw [if_neg some_data, List.drop_left, others, build_unitOf carried reads id]
      rfl

theorem deencapsulate_append (talId : Nat) (context : lib.Deencap)
    (packets packets' : List (Option NetPacket)) :
    deencapsulate lib talId context (packets ++ packets') =
      ((deencapsulate lib talId context packets).1 ++
        (deencapsulate lib talId (deencapsulate lib talId context packets).2 packets').1,
      (deencapsulate lib talId (deencapsulate lib talId context packets).2 packets').2) := by
  induction packets generalizing context with
  | nil => rfl
  | cons packet packets ih =>
      cases packet with
      | none =>
          rw [List.cons_append, deencapsulate, deencapsulate]
          exact ih context
      | some packet =>
          rw [List.cons_append, deencapsulate, deencapsulate]
          split
          · exact ih context
          · simp only [ih, List.append_assoc]

/-! ### What a terminal holds -/

variable {talId : Nat} {packets : List NetPacket} {position : Nat → Option (Cut UInt8)}
  {context : lib.Deencap} {current : Option Nat} {place : Nat} {cut : Cut UInt8}

/-- A packet for the terminal that was started, and its announced length. -/
structure Begun (documented : lib.Documented) (src qos talId : Nat) (packets : List NetPacket)
    (position : Nat → Option (Cut UInt8)) (context : lib.Deencap) (place : Nat) (own : NetPacket)
    (cut : Cut UInt8) : Prop where
  found : packets[place]? = some own
  forMe : ForMe talId own
  position : position place = some cut
  started : cut.started = true
  announced : documented.announced context (8 * src + qos) = (unitOf own).length

/-- The terminal holds what came of the only packet for it that is started, if any. -/
structure Receiving (documented : lib.Documented) (src qos talId : Nat) (packets : List NetPacket)
    (position : Nat → Option (Cut UInt8)) (context : lib.Deencap) (current : Option Nat) :
    Prop where
  held : documented.held context (8 * src + qos) =
    current.bind fun place => (position place).bind Cut.held
  begun : ∀ place ∈ current, ∃ own cut,
    Begun documented src qos talId packets position context place own cut
  only : ∀ place own cut, packets[place]? = some own → ForMe talId own →
    position place = some cut → cut.started = true → current = some place

theorem Receiving.held_none
    (receiving : Receiving documented src qos talId packets position context none) :
    documented.held context (8 * src + qos) = none := receiving.held

/-- A context that holds the same. -/
theorem Receiving.same (receiving : Receiving documented src qos talId packets position context current)
    {context' : lib.Deencap} (held : documented.held context' = documented.held context)
    (announced : documented.announced context' = documented.announced context) :
    Receiving documented src qos talId packets position context' current where
  held := by rw [held, receiving.held]
  begun place is := by
    obtain ⟨own, cut, begun⟩ := receiving.begun place is
    exact ⟨own, cut, begun.found, begun.forMe, begun.position, begun.started,
      by rw [announced, begun.announced]⟩
  only := receiving.only

/-- The position of a packet changes that the terminal does not hold, before and after. -/
theorem Receiving.aside (receiving : Receiving documented src qos talId packets position context current)
    (before : current ≠ some place) {position' : Option (Cut UInt8)}
    (after : ∀ own cut, packets[place]? = some own → ForMe talId own → position' = some cut →
      cut.started = false) :
    Receiving documented src qos talId packets (Function.update position place position') context
      current where
  held := by
    rw [receiving.held]
    cases current with
    | none => rfl
    | some held =>
        have apart : held ≠ place := fun same => before (by rw [same])
        simp [apart]
  begun held is := by
    obtain ⟨own, cut, begun⟩ := receiving.begun held is
    have apart : held ≠ place := by
      rintro rfl
      exact before is
    exact ⟨own, cut, begun.found, begun.forMe, by rw [Function.update_of_ne apart, begun.position],
      begun.started, begun.announced⟩
  only other own cut found forMe here started := by
    by_cases same : other = place
    · subst same
      rw [Function.update_self] at here
      exact absurd started (by simp [after own cut found forMe here])
    · rw [Function.update_of_ne same] at here
      exact receiving.only other own cut found forMe here started

/-- The packets that a received GSE packet gives: the one it ends, when it is for the terminal. -/
def completed (talId : Nat) (sent : Sent) : List NetPacket :=
  if sent.fragment.last ∧ ForMe talId sent.own then [sent.own] else []

theorem deencapsulate_single (talId : Nat) (context : lib.Deencap) (packet : NetPacket) :
    deencapsulate lib talId context [some packet] =
      if packet.dstTalId ≠ talId ∧ talId ≠ BROADCAST_TAL_ID ∧ packet.dstTalId ≠ BROADCAST_TAL_ID
      then ([], context) else deencapPacket lib context packet.data := by
  rw [deencapsulate]
  split
  · rfl
  · simp only [deencapsulate, List.append_nil]

/-- A received unit of a packet is the packet. -/
theorem Carried.received (carried : Carried documented src qos own) :
    deencapVariableLength (labelOf own) own.data = own := by
  obtain ⟨label_src, label_dst, label_qos⟩ := carried.label
  rw [deencapVariableLength, label_src, label_dst, label_qos]

theorem deencapPacket_of_received {data label pdu : List UInt8}
    (received : (lib.deencapPacket context data).1 = .pduReceived label pdu) :
    deencapPacket lib context data =
      ([deencapVariableLength label pdu], (lib.deencapPacket context data).2) := by
  rw [deencapPacket]
  split
  · rename_i found
    rw [found] at received ⊢
    cases received
    rfl
  · rename_i other found
    rw [found] at received
    exact absurd received (other _ _)

theorem deencapPacket_of_not_received {data : List UInt8}
    (other : ∀ label pdu, (lib.deencapPacket context data).1 ≠ .pduReceived label pdu) :
    deencapPacket lib context data = ([], (lib.deencapPacket context data).2) := by
  rw [deencapPacket]
  split
  · rename_i found
    exact absurd (by rw [found]) (other _ _)
  · rename_i found
    rw [found]

/-- A GSE packet that is not for the terminal leaves what it holds, when it is a first fragment
or a complete packet, or when the terminal holds nothing. -/
theorem receive_other {sent : Sent} (valid : sent.Valid documented src qos)
    (receiving : Receiving documented src qos talId packets position context current)
    (found : packets[place]? = some sent.own) (other : ¬ ForMe talId sent.own)
    (harmless : sent.fragment.first = true ∨ current = none) (position' : Option (Cut UInt8)) :
    ∃ context', deencapsulate lib talId context [some sent.received] = ([], context') ∧
      Receiving documented src qos talId packets (Function.update position place position') context'
        current := by
  obtain ⟨carried, reads, id⟩ := valid
  have before : current ≠ some place := by
    rintro rfl
    obtain ⟨own, _, begun⟩ := receiving.begun place rfl
    rw [Option.some.inj (found.symm.trans begun.found)] at other
    exact other begun.forMe
  have after : ∀ own cut, packets[place]? = some own → ForMe talId own → position' = some cut →
      cut.started = false := by
    intro own _ found' forMe
    rw [Option.some.inj (found.symm.trans found')] at other
    exact absurd forMe other
  rw [deencapsulate_single]
  cases first : sent.fragment.first with
  | true =>
      have filtered : sent.received.dstTalId ≠ talId ∧ talId ≠ BROADCAST_TAL_ID ∧
          sent.received.dstTalId ≠ BROADCAST_TAL_ID := by
        rw [ForMe] at other
        simp only [Sent.received, first, if_true]
        tauto
      rw [if_pos filtered]
      exact ⟨context, rfl, receiving.aside before after⟩
  | false =>
      have idle : current = none := harmless.resolve_left (by simp [first])
      have broadcast : sent.received.dstTalId = BROADCAST_TAL_ID := by simp [Sent.received, first]
      subst idle
      have nothing : accept (documented.held context) sent.fragment = none := by
        rw [accept, first, id, receiving.held_none]
        rfl
      have done := documented.deencapPacket context _ _ _ reads
      simp only [nothing] at done
      obtain ⟨status, held, announced⟩ := done
      rw [if_neg (fun filtered => filtered.2.2 broadcast)]
      refine ⟨_, deencapPacket_of_not_received fun _ _ => ?_, ?_⟩
      · rw [show sent.received.data = sent.data from rfl, status]
        simp
      · exact (receiving.same held announced).aside before after

/-- A GSE packet of a packet for the terminal passes the filter. -/
theorem deencapsulate_own {sent : Sent} (forMe : ForMe talId sent.own) :
    deencapsulate lib talId context [some sent.received] = deencapPacket lib context sent.data := by
  rw [deencapsulate_single]
  refine if_neg ?_
  rw [ForMe] at forMe
  rw [Sent.received]
  split <;> tauto

/-- A complete packet for the terminal comes out, whatever the terminal holds. -/
theorem receive_complete {sent : Sent} (valid : sent.Valid documented src qos)
    (receiving : Receiving documented src qos talId packets position context current)
    (forMe : ForMe talId sent.own) (here : position place = some cut)
    (unstarted : cut.started = false)
    (form : sent.fragment = ⟨8 * src + qos, true, true, unitOf sent.own⟩) :
    ∃ context', deencapsulate lib talId context [some sent.received] = ([sent.own], context') ∧
      Receiving documented src qos talId packets (Function.update position place none) context'
        current := by
  obtain ⟨carried, reads, _⟩ := valid
  have before : current ≠ some place := by
    rintro rfl
    obtain ⟨_, cut', begun⟩ := receiving.begun place rfl
    rw [Option.some.inj (here.symm.trans begun.position), begun.started] at unstarted
    cases unstarted
  have done := documented.deencapPacket context _ _ _ reads
  rw [form] at done
  simp only [accept, if_true, true_or, take_unitOf, drop_unitOf] at done
  obtain ⟨held, announced, status⟩ := done
  rw [deencapsulate_own forMe]
  refine ⟨_, ?_, (receiving.same held announced).aside before (by simp)⟩
  rw [deencapPacket_of_received status, carried.received]

/-! The packet of a place is the only one for the terminal that is started, if it is. -/

theorem Receiving.held_here
    (receiving : Receiving documented src qos talId packets position context current)
    (here : position place = some cut) (now : current = if cut.started then some place else none) :
    documented.held context (8 * src + qos) = cut.held := by
  rw [receiving.held, now]
  cases started : cut.started with
  | false => simp [Cut.held, started]
  | true => simp [here]

theorem Receiving.announced_here
    (receiving : Receiving documented src qos talId packets position context current)
    (found : packets[place]? = some own) (now : current = if cut.started then some place else none)
    (started : cut.started = true) :
    documented.announced context (8 * src + qos) = (unitOf own).length := by
  rw [started, if_pos rfl] at now
  obtain ⟨_, _, begun⟩ := receiving.begun place now
  rw [begun.announced, Option.some.inj (found.symm.trans begun.found)]

theorem Receiving.only_here
    (receiving : Receiving documented src qos talId packets position context current)
    (now : current = if cut.started then some place else none) (other : Nat) (own : NetPacket)
    (cut' : Cut UInt8) (found : packets[other]? = some own) (forMe : ForMe talId own)
    (here : position other = some cut') (started : cut'.started = true) : other = place := by
  have also := receiving.only other own cut' found forMe here started
  rw [now] at also
  cases started : cut.started with
  | false => simp [started] at also
  | true =>
      rw [started, if_pos rfl] at also
      exact (Option.some.inj also).symm

/-- A piece of a packet for the terminal that is the only one started, if any: the terminal
holds it too, and it comes out with its last piece. -/
theorem receive_piece {sent : Sent} (valid : sent.Valid documented src qos)
    (receiving : Receiving documented src qos talId packets position context current)
    (found : packets[place]? = some sent.own) (forMe : ForMe talId sent.own)
    (here : position place = some cut) (whole : cut.sofar ++ cut.left = unitOf sent.own)
    {data tail : List UInt8} {last : Bool}
    (form : sent.fragment = ⟨8 * src + qos, !cut.started, last, data⟩)
    (split : cut.left = data ++ tail) (ends : last = true → tail = [])
    (now : current = if cut.started then some place else none)
    (several : cut.started = false → last = false) :
    ∃ context' current',
      deencapsulate lib talId context [some sent.received] =
        (if last then [sent.own] else [], context') ∧
      Receiving documented src qos talId packets
        (Function.update position place
          (if last then none else some (.begun (cut.sofar ++ data) tail))) context' current' := by
  obtain ⟨carried, reads, _⟩ := valid
  have sofar := receiving.held_here here now
  have announcedOf := receiving.announced_here found now
  have only := receiving.only_here now
  have done := documented.deencapPacket context _ _ _ reads
  rw [form] at done
  simp only [accept_next sofar split last ends] at done
  rw [deencapsulate_own forMe]
  cases last with
  | false =>
      obtain ⟨status, held, announced⟩ := done
      refine ⟨_, some place, deencapPacket_of_not_received fun _ _ => ?_, ?_, ?_, ?_⟩
      · rcases status with status | status
        · rw [status]
          simp
        · rw [status]
          simp
      · rw [held]
        simp
      · intro other is
        cases is
        refine ⟨sent.own, _, found, forMe, Function.update_self .., rfl, ?_⟩
        rw [announced]
        cases started : cut.started with
        | false => simp
        | true => simpa using announcedOf started
      · intro other own' cut' found' forMe' here' started'
        by_cases same : other = place
        · rw [same]
        · rw [Function.update_of_ne same] at here'
          exact absurd (only other own' cut' found' forMe' here' started') same
  | true =>
      have started : cut.started = true := by
        cases started : cut.started with
        | false => cases several started
        | true => rfl
      simp only [if_true, whole, take_unitOf, drop_unitOf] at done
      obtain ⟨held, _, status⟩ := done
      rw [if_pos (.inr ⟨announcedOf started, trivial⟩)] at status
      refine ⟨(lib.deencapPacket context sent.data).2, none, ?_, ?_, fun _ is => ?_, ?_⟩
      · rw [deencapPacket_of_received status, carried.received]
        rfl
      · rw [held, Function.update_self]
        rfl
      · cases is
      · intro other own' cut' found' forMe' here' started'
        by_cases same : other = place
        · subst same
          simp at here'
        · rw [Function.update_of_ne same] at here'
          exact absurd (only other own' cut' found' forMe' here' started') same

/-- A GSE packet comes when no other packet for the terminal is started, or is complete, or is
a first fragment that is not for the terminal. -/
theorem receive_receiving {sent : Sent} (valid : sent.Valid documented src qos)
    (receiving : Receiving documented src qos talId packets position context current)
    (found : packets[place]? = some sent.own) (here : position place = some cut)
    (whole : cut.sofar ++ cut.left = unitOf sent.own) {data tail : List UInt8} {last : Bool}
    (form : sent.fragment = ⟨8 * src + qos, !cut.started, last, data⟩)
    (split : cut.left = data ++ tail) (ends : last = true → tail = [])
    (clear : ∀ other, current = some other → other ≠ place →
      cut.started = false ∧ (last = true ∨ ¬ ForMe talId sent.own)) :
    ∃ context' current',
      deencapsulate lib talId context [some sent.received] = (completed talId sent, context') ∧
      Receiving documented src qos talId packets
        (Function.update position place
          (if last then none else some (.begun (cut.sofar ++ data) tail))) context' current' := by
  have out : completed talId sent = if last ∧ ForMe talId sent.own then [sent.own] else [] := by
    rw [completed, form]
  rw [out]
  by_cases forMe : ForMe talId sent.own
  · by_cases complete : cut.started = false ∧ last = true
    · obtain ⟨unstarted, rfl⟩ := complete
      have all : data = unitOf sent.own := by
        rw [← whole, cut.fresh unstarted, split, ends rfl, List.nil_append, List.append_nil]
      rw [unstarted, all] at form
      obtain ⟨context', received, receiving'⟩ :=
        receive_complete valid receiving forMe here unstarted form
      refine ⟨context', current, ?_, receiving'⟩
      simpa [forMe] using received
    · have now : current = if cut.started then some place else none := by
        cases started : cut.started with
        | false =>
            cases current with
            | none => rfl
            | some other =>
                by_cases same : other = place
                · subst same
                  obtain ⟨_, cut', begun⟩ := receiving.begun other rfl
                  rw [Option.some.inj (here.symm.trans begun.position), begun.started] at started
                  cases started
                · obtain ⟨_, ended | other⟩ := clear other rfl same
                  · exact absurd ⟨started, ended⟩ complete
                  · exact absurd forMe other
        | true => exact receiving.only place _ _ found forMe here started
      obtain ⟨context', current', received, receiving'⟩ := receive_piece valid receiving found forMe
        here whole form split ends now fun started => by simpa [started] using complete
      refine ⟨context', current', ?_, receiving'⟩
      simpa [forMe] using received
  · have harmless : sent.fragment.first = true ∨ current = none := by
      cases current with
      | none => exact .inr rfl
      | some other =>
          have apart : other ≠ place := by
            rintro rfl
            obtain ⟨own, _, begun⟩ := receiving.begun other rfl
            rw [Option.some.inj (found.symm.trans begun.found)] at forMe
            exact forMe begun.forMe
          rw [form, (clear other rfl apart).1]
          exact .inl rfl
    obtain ⟨context', received, receiving'⟩ := receive_other valid receiving found forMe harmless _
    refine ⟨context', current, ?_, receiving'⟩
    simpa [forMe] using received

/-! ### From a gateway to a terminal -/

theorem Remains.ne_nil {waiting : List NetPacket}
    (remains : Remains documented src qos own cut waiting) : waiting ≠ [] := by
  obtain ⟨_, fragments, pieces, holds⟩ := remains
  rintro rfl
  cases holds
  exact pieces.ne_nil rfl

namespace Link

variable {link : Link lib} {sents : List Sent}

/-- The next GSE packet of a packet is a subsequent fragment once it was started. -/
theorem open_iff (remains : Remains documented src qos own cut (link.waiting place)) :
    link.Open place ↔ cut.started = true := by
  obtain ⟨_, fragments, pieces, holds⟩ := remains
  rw [Open]
  cases fragments with
  | nil => exact absurd rfl pieces.ne_nil
  | cons fragment fragments =>
      obtain ⟨packet, packets, ⟨reads, _⟩, _, waiting⟩ := List.forall₂_cons_right_iff.mp holds
      obtain ⟨data, tail, form, _⟩ := pieces.head
      have start := (documented.header _ _ _ [] reads).1
      rw [List.append_nil, form] at start
      simp [waiting, start]

/-- The packets of some places that a terminal is to get. -/
def toGet (talId : Nat) (packets : List NetPacket) (places : List Nat) : List NetPacket :=
  (places.filterMap (packets[·]?)).filter (ForMe talId ·)

/-- The GSE packets that remain hold what is left of the packets, the frame under construction
is made of GSE packets, and the terminal will make of it what it completes. -/
structure Linked (documented : lib.Documented) (src qos talId : Nat) (packets : List NetPacket)
    (link : Link lib) (position : Nat → Option (Cut UInt8)) (sents : List Sent) : Prop where
  remains : ∀ place cut, position place = some cut → ∃ own, packets[place]? = some own ∧
    Remains documented src qos own cut (link.waiting place)
  ended : ∀ place, position place = none → link.waiting place = []
  once : (link.finished ++ link.inFrame).Nodup
  all : ∀ place < packets.length, place ∈ link.finished ++ link.inFrame ↔ position place = none
  delivered : link.delivered = toGet talId packets link.finished
  valid : ∀ sent ∈ sents, sent.Valid documented src qos
  frame : link.frame = (sents.map Sent.data).flatten
  count : link.count = sents.length
  received : ∃ context current,
    deencapsulate lib talId link.context (sents.map fun sent => some sent.received) =
      (toGet talId packets link.inFrame, context) ∧
    Receiving documented src qos talId packets position context current

theorem Linked.undisturbed (linked : Linked documented src qos talId packets link position sents) :
    Undisturbed talId packets link where
  delivered := linked.delivered
  once := linked.once
  all place inside := by
    rw [linked.all place inside]
    constructor
    · exact linked.ended place
    · intro none_waiting
      cases here : position place with
      | none => rfl
      | some cut =>
          obtain ⟨_, _, remains⟩ := linked.remains place cut here
          exact absurd none_waiting remains.ne_nil

theorem start_linked (carried : ∀ packet ∈ packets, Carried documented src qos packet)
    (talId : Nat) :
    Linked documented src qos talId packets (start lib packets)
      (fun place => (packets[place]?).map fresh) [] where
  remains place cut here := by
    obtain ⟨own, found, rfl⟩ := Option.map_eq_some_iff.mp here
    refine ⟨own, found, ?_⟩
    simp only [start, found, Option.elim_some]
    exact encapPacket_remains (carried own (List.mem_of_getElem? found))
  ended place here := by
    have missing := Option.map_eq_none_iff.mp here
    simp [start, missing]
  once := List.nodup_nil
  all place inside := by simp [start, inside]
  delivered := rfl
  valid := nofun
  frame := rfl
  count := rfl
  received := by
    refine ⟨lib.deencapInit, none, rfl, documented.held_init _, nofun, ?_⟩
    intro place own cut _ _ here started
    obtain ⟨_, _, rfl⟩ := Option.map_eq_some_iff.mp here
    cases started

theorem nextFrame_linked
    (linked : Linked documented src qos talId packets link position sents) :
    Linked documented src qos talId packets (link.nextFrame talId) position [] := by
  obtain ⟨context, current, received, receiving⟩ := linked.received
  have burst : (getEncapsulatedPackets lib link.count link.frame).getD [] =
      sents.map fun sent => some sent.received := by
    rw [linked.count, linked.frame, getEncapsulatedPackets_sent linked.valid, Option.getD_some]
  have next : link.nextFrame talId = { link with
      frame := []
      count := 0
      inFrame := []
      context := context
      finished := link.finished ++ link.inFrame
      delivered := link.delivered ++ toGet talId packets link.inFrame } := by
    rw [nextFrame, burst, received]
  rw [next]
  exact {
    remains := linked.remains
    ended := linked.ended
    once := by simpa using linked.once
    all := by simpa using linked.all
    delivered := by simp [linked.delivered, toGet]
    valid := nofun
    frame := rfl
    count := rfl
    received := ⟨context, current, rfl, receiving⟩ }

/-! ### A fragment in the frame -/

section Part

variable {piece : NetPacket} {remaining : List NetPacket} {fragments : List (Fragment Nat UInt8)}

/-- A fragment of a packet is put in the frame; it is the last one when no GSE packet remains. -/
def part (link : Link lib) (place : Nat) (piece : NetPacket) (remaining : List NetPacket) :
    Link lib :=
  { link with
    waiting := Function.update link.waiting place remaining
    frame := link.frame ++ piece.data
    count := link.count + 1
    inFrame := if remaining = [] then link.inFrame ++ [place] else link.inFrame }

/-- The position of the packet then, unless all of it was sent. -/
def positionAfter (position : Nat → Option (Cut UInt8)) (place : Nat) (cut : Cut UInt8)
    (fragments : List (Fragment Nat UInt8)) : Nat → Option (Cut UInt8) :=
  Function.update position place (if fragments.isEmpty then none else some cut)

theorem positionAfter_self : positionAfter position place cut fragments place =
    if fragments = [] then none else some cut := by
  simp [positionAfter]

theorem positionAfter_of_ne {other : Nat} (ne : other ≠ place) :
    positionAfter position place cut fragments other = position other :=
  Function.update_of_ne ne _ _

theorem remaining_eq_nil_iff (others : List.Forall₂ (Holds documented own) remaining fragments) :
    remaining = [] ↔ fragments = [] := by
  rw [← List.length_eq_zero_iff, ← List.length_eq_zero_iff, others.length_eq]

theorem Linked.remains_part
    (linked : Linked documented src qos talId packets link position sents)
    (found : packets[place]? = some own)
    (rest : fragments ≠ [] → Remains documented src qos own cut remaining) (other : Nat)
    (cut' : Cut UInt8) (here : positionAfter position place cut fragments other = some cut') :
    ∃ own, packets[other]? = some own ∧
      Remains documented src qos own cut' ((link.part place piece remaining).waiting other) := by
  by_cases same : other = place
  · subst same
    rw [positionAfter_self] at here
    split at here
    · cases here
    next more =>
      cases here
      refine ⟨own, found, ?_⟩
      simpa [part] using rest more
  · rw [positionAfter_of_ne same] at here
    simpa [part, Function.update_of_ne same] using linked.remains other cut' here

theorem Linked.ended_part
    (linked : Linked documented src qos talId packets link position sents)
    (none_left : remaining = [] ↔ fragments = []) (other : Nat)
    (none_here : positionAfter position place cut fragments other = none) :
    (link.part place piece remaining).waiting other = [] := by
  by_cases same : other = place
  · subst same
    rw [positionAfter_self] at none_here
    split at none_here
    next ended => simpa [part] using none_left.mpr ended
    next => cases none_here
  · rw [positionAfter_of_ne same] at none_here
    simpa [part, Function.update_of_ne same] using linked.ended other none_here

theorem Linked.once_part
    (linked : Linked documented src qos talId packets link position sents)
    (fresh_place : place ∉ link.finished ++ link.inFrame) :
    (link.finished ++ (link.part place piece remaining).inFrame).Nodup := by
  by_cases ended : remaining = []
  · simp only [part, ended, if_true]
    rw [← List.append_assoc, List.nodup_append]
    refine ⟨linked.once, List.pairwise_singleton _ _, ?_⟩
    intro a mem b single
    rw [List.mem_singleton.mp single]
    rintro rfl
    exact fresh_place mem
  · simpa only [part, ended, if_false] using linked.once

theorem Linked.all_part
    (linked : Linked documented src qos talId packets link position sents)
    (none_left : remaining = [] ↔ fragments = [])
    (fresh_place : place ∉ link.finished ++ link.inFrame) (other : Nat)
    (inside : other < packets.length) :
    other ∈ link.finished ++ (link.part place piece remaining).inFrame ↔
      positionAfter position place cut fragments other = none := by
  have before := linked.all other inside
  by_cases same : other = place
  · subst same
    rw [positionAfter_self]
    by_cases ended : fragments = []
    · simp [part, none_left.mpr ended, ended]
    · have more : remaining ≠ [] := fun none => ended (none_left.mp none)
      simpa [part, more, ended] using fresh_place
  · rw [positionAfter_of_ne same]
    by_cases ended : remaining = []
    · simpa [part, ended, same] using before
    · simpa [part, ended] using before

/-- The terminal is to get the packet with its last fragment. -/
theorem toGet_part {fragment : Fragment Nat UInt8} (found : packets[place]? = some own)
    (none_left : remaining = [] ↔ fragments = []) (last : fragment.last = fragments.isEmpty) :
    toGet talId packets (link.part place piece remaining).inFrame =
      toGet talId packets link.inFrame ++ completed talId ⟨own, piece.data, fragment⟩ := by
  rw [completed, last]
  by_cases ended : fragments = []
  · by_cases forMe : ForMe talId own
    · simp [part, toGet, none_left.mpr ended, ended, found, forMe]
    · simp [part, toGet, none_left.mpr ended, ended, found, forMe]
  · have more : remaining ≠ [] := fun none => ended (none_left.mp none)
    simp [part, more, ended]

theorem part_linked (carried : Carried documented src qos own)
    (linked : Linked documented src qos talId packets link position sents)
    (found : packets[place]? = some own) (here : position place = some cut)
    {fragment : Fragment Nat UInt8} (whole : cut.sofar ++ cut.left = unitOf own)
    (holds : Holds documented own piece fragment)
    (pieces : Pieces (8 * src + qos) cut.started cut.left (fragment :: fragments))
    (others : List.Forall₂ (Holds documented own) remaining fragments)
    (clear : ∀ context current, Receiving documented src qos talId packets position context current →
      ∀ other, current = some other → other ≠ place →
        cut.started = false ∧ (fragment.last = true ∨ ¬ ForMe talId own)) :
    ∃ position' sents',
      Linked documented src qos talId packets (link.part place piece remaining) position' sents' := by
  obtain ⟨data, tail, form, split, ends, rest⟩ := pieces.head
  obtain ⟨reads, _⟩ := holds
  have id : fragment.id = 8 * src + qos := by rw [form]
  have valid : Sent.Valid documented src qos ⟨own, piece.data, fragment⟩ := ⟨carried, reads, id⟩
  have none_left := remaining_eq_nil_iff others
  obtain ⟨context, current, received, receiving⟩ := linked.received
  obtain ⟨context', current', received', receiving'⟩ := receive_receiving valid receiving found here
    whole form split (fun ended => ends (List.isEmpty_iff.mp ended)) fun other held apart => by
      simpa [form] using clear context current receiving other held apart
  have inside : place < packets.length := (List.getElem?_eq_some_iff.mp found).1
  have fresh_place : place ∉ link.finished ++ link.inFrame := by
    rw [linked.all place inside, here]
    nofun
  refine ⟨positionAfter position place (.begun (cut.sofar ++ data) tail) fragments,
    sents ++ [⟨own, piece.data, fragment⟩], ?_⟩
  refine {
    remains := linked.remains_part found fun more => ⟨?_, fragments, rest more, others⟩
    ended := linked.ended_part none_left
    once := linked.once_part fresh_place
    all := linked.all_part none_left fresh_place
    delivered := linked.delivered
    valid := List.forall_mem_append.mpr ⟨linked.valid, List.forall_mem_singleton.mpr valid⟩
    frame := by simp [part, linked.frame]
    count := by simp [part, linked.count]
    received := ⟨context', current', ?_, receiving'⟩ }
  · rw [Cut.begun_whole, List.append_assoc, ← split, whole]
  · have last : fragment.last = fragments.isEmpty := by rw [form]
    rw [List.map_append, List.map_singleton, deencapsulate_append, toGet_part found none_left last]
    simp only [part, received, received']

end Part

theorem chunk_linked (carried : ∀ packet ∈ packets, Carried documented src qos packet)
    (linked : Linked documented src qos talId packets link position sents) (place : Nat)
    {remainingLength : Nat} (meets : Meets talId packets link (.chunk place remainingLength)) :
    ∃ position' sents',
      Linked documented src qos talId packets (link.chunk place remainingLength) position' sents' := by
  rw [chunk]
  split
  · exact ⟨position, sents, linked⟩
  · rename_i packet rest waiting
    cases here : position place with
    | none =>
        have ended := linked.ended place here
        rw [waiting] at ended
        cases ended
    | some cut =>
        obtain ⟨own, found, remains⟩ := linked.remains place cut here
        have carriedOwn := carried own (List.mem_of_getElem? found)
        have opened := open_iff remains
        rw [waiting] at remains
        have chunked := encapNextPacket_chunked carriedOwn remains remainingLength
        generalize encapNextPacket lib packet remainingLength = parts at chunked
        cases chunked with
        | noRoom =>
            refine ⟨position, sents, ?_⟩
            have same : Function.update link.waiting place (packet :: rest) = link.waiting := by
              rw [Function.update_eq_self_iff, waiting]
            simpa [same] using linked
        | @part piece remaining fragment fragments room fits holds pieces others =>
            have clear : ∀ context current,
                Receiving documented src qos talId packets position context current →
                ∀ other, current = some other → other ≠ place →
                  cut.started = false ∧ (fragment.last = true ∨ ¬ ForMe talId own) := by
              intro context current receiving other held apart
              obtain ⟨addressed, cut', begun⟩ := receiving.begun other held
              obtain ⟨_, _, remains'⟩ := linked.remains other cut' begun.position
              have otherOpen : OtherOpen talId packets link place :=
                ⟨other, (List.getElem?_eq_some_iff.mp begun.found).1, apart,
                  ⟨addressed, begun.found, begun.forMe⟩, (open_iff remains').mpr begun.started⟩
              have allowed := (meets packet (by rw [waiting]; rfl)).resolve_left room
              obtain ⟨closed, harmless⟩ := allowed otherOpen
              refine ⟨?_, harmless.imp fits fun notForMe => notForMe own found⟩
              rw [opened] at closed
              simpa using closed
            have next := part_linked carriedOwn linked found here remains.whole holds pieces others
              clear
            simpa [part] using next

/-- In a run whose steps are all as they must be, a terminal gets the packets for it, each once
and as it was sent. -/
theorem undisturbed_of_meets (lib : Libgse) (documented : lib.Documented) (src qos talId : Nat)
    (packets : List NetPacket) (events : List LinkEvent)
    (carried : ∀ packet ∈ packets, Carried documented src qos packet)
    (steps : Run.AllSteps (step talId) (Meets talId packets) (start lib packets) events) :
    Run.AllStates (step talId) (Undisturbed talId packets) (start lib packets) events := by
  refine Run.AllStates.mono (P := fun link =>
    ∃ position sents, Linked documented src qos talId packets link position sents) ?_
    fun _ ⟨_, _, linked⟩ => linked.undisturbed
  refine Run.allStates_of_allSteps ⟨_, _, start_linked carried talId⟩ ?_ steps
  rintro link event link' ⟨position, sents, linked⟩ meets taken
  cases event with
  | chunk place remainingLength =>
      cases taken
      exact chunk_linked carried linked place meets
  | nextFrame =>
      cases taken
      exact ⟨position, [], nextFrame_linked linked⟩

/-- A packet for terminal 1 in two pieces, a broadcast one between them, and one for terminal 2
in two pieces around them. -/
theorem undisturbed_pieces :
    let packets : List NetPacket := [⟨[1, 2, 3, 4, 5, 6, 7, 8], 3, 0, 1⟩,
      ⟨[9, 10, 11, 12, 13, 14, 15, 16], 3, 0, 2⟩, ⟨[17, 18], 3, 0, 31⟩, ⟨[19], 3, 0, 1⟩]
    let events : List LinkEvent := [.chunk 1 14, .chunk 0 14, .chunk 2 100, .chunk 0 5, .nextFrame,
      .chunk 0 100, .chunk 1 100, .chunk 3 100, .nextFrame]
    Run.AllStates (step 1) (Undisturbed 1 packets) (start Simple.libgse packets) events :=
  undisturbed_of_meets Simple.libgse Simple.documented 0 3 1 _ _
    (by decide) (by decide +kernel)

/-- A packet for terminal 1 and one for terminal 2, each in two pieces: the last piece of the
second one comes between those of the first one, and terminal 1 gets nothing. -/
theorem other_terminal_disturbs :
    ¬ ∀ (lib : Libgse) (documented : lib.Documented) (src qos talId : Nat)
      (packets : List NetPacket) (events : List LinkEvent),
      (∀ packet ∈ packets, Carried documented src qos packet) →
      Run.AllStates (step talId) (Undisturbed talId packets) (start lib packets) events := by
  intro all
  have states := all Simple.libgse Simple.documented 0 3 1
    [⟨[1, 2, 3, 4, 5, 6, 7, 8], 3, 0, 1⟩, ⟨[9, 10, 11, 12, 13, 14, 15, 16], 3, 0, 2⟩]
    [.chunk 0 14, .chunk 1 14, .chunk 1 100, .chunk 0 100, .nextFrame] (by decide)
  have out : (Run.run (step 1) (start Simple.libgse
      [⟨[1, 2, 3, 4, 5, 6, 7, 8], 3, 0, 1⟩, ⟨[9, 10, 11, 12, 13, 14, 15, 16], 3, 0, 2⟩])
      [.chunk 0 14, .chunk 1 14, .chunk 1 100, .chunk 0 100, .nextFrame]).map
      (fun link => (link.finished, link.delivered)) = some ([1, 0], []) := by
    decide +kernel
  obtain ⟨link, ends, made⟩ := Option.map_eq_some_iff.mp out
  obtain ⟨finished, delivered⟩ := Prod.mk.inj made
  have kept := (states.last ends).delivered
  rw [finished, delivered] at kept
  exact absurd kept (by decide)

end Link

end OpenSand.Gse
