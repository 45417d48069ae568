import OpenSand.Lan.EthernetContext
import OpenSand.Lan.HeaderAccess

/-!
The QoS of tagged frames (`Ethernet::Context::encapsulate`).

The queue of a frame is the one of the priority in its tag, or in the tag of the virtual
connection when this one gives the header. `mapped_iff` says for which frames it is the right one:
the code looks at a category that it did not find, and compares the priority of a virtual
connection where it should shift it.
-/

namespace OpenSand

open Bytes (Data substr)

namespace Ethernet

/-- What the readers give of a frame. -/
structure Flow where
  frameType : FrameType
  etherType : UInt16
  qTci : UInt16
  adTci : UInt16

/-- A tagged frame. -/
structure Tagged (data : Data) (flow : Flow) : Prop where
  frameType : getFrameType data = .ok (some flow.frameType)
  etherType : getPayloadEtherType data = .ok flow.etherType
  qTci : getQTci data = .ok flow.qTci
  adTci : getAdTci data = .ok flow.adTci
  tagged : flow.frameType ≠ .eth

/-- The priority of a tag, its three high bits. -/
def pcpOf (tci : UInt16) : Nat := tci.toNat / 2 ^ 13

namespace Context

variable (context : Context)

/-- The queue of a priority, the default one without category. -/
def queueOf (tci : UInt16) : Nat := (context.categoryMap (pcpOf tci)).getD context.defaultCategory

def evcOfFlow (data : Data) (flow : Flow) : Option Evc :=
  context.getEvc flow.frameType (getSrcMac data) (getDstMac data) flow.qTci flow.adTci flow.etherType

/-- The tag that decides: the one of the virtual connection when the header comes from it. -/
def decidingTci (data : Data) (flow : Flow) : UInt16 :=
  if flow.frameType ≠ context.satFrameType then
    (context.evcOfFlow data flow).elim flow.qTci Evc.qTci
  else flow.qTci

/-- A tagged frame that is sent has the QoS of the deciding priority, and no category that is
missing is looked at. -/
def Mapped (data : Data) : Prop :=
  ∀ flow, Tagged data flow →
    context.encapsulatePacket (.ofData data) ≠ .error .outside ∧
      ∀ sent, context.encapsulatePacket (.ofData data) = .ok (some sent) →
        sent.qos = context.queueOf (context.decidingTci data flow) % 256

/-- The frame has a destination, or the default one. -/
def HasDestination (data : Data) : Prop :=
  (context.getPacketDestination context.packetSwitch data).1 = true ∨
    (context.getPacketDestination context.packetSwitch data).2.2 ≤ BROADCAST_TAL_ID

instance (data : Data) : Decidable (context.HasDestination data) :=
  inferInstanceAs (Decidable (_ ∨ _))

/-- The header is whole, and the frame is long enough behind the new one. -/
def Rewritable (data : Data) (flow : Flow) : Prop :=
  headSize flow.frameType ≤ data.length ∧
    18 ≤ headSize context.satFrameType + (data.length - headSize flow.frameType)

instance (data : Data) (flow : Flow) : Decidable (context.Rewritable data flow) :=
  inferInstanceAs (Decidable (_ ∧ _))

/-- The priority in the frame has a category; where a virtual connection gives the header, its
priority has the queue of the priority 1, or of 0 when all of its bits are clear. -/
def Mappable (data : Data) : Prop :=
  ∀ flow, Tagged data flow → context.HasDestination data →
    (context.categoryMap (pcpOf flow.qTci)).isSome ∧
      ∀ evc ∈ context.evcOfFlow data flow, flow.frameType ≠ context.satFrameType →
        context.Rewritable data flow →
        ((context.categoryMap (if pcpOf evc.qTci = 0 then 0 else 1)).getD
          context.defaultCategory) % 256 = context.queueOf evc.qTci % 256

variable {context} {data : Data} {flow : Flow}

/-! ### Priorities -/

theorem high_bits (tci : UInt16) : (tci &&& 0xe000).toNat = pcpOf tci * 2 ^ 13 := by
  rw [UInt16.toNat_and, pcpOf]
  change tci.toNat &&& (2 ^ 3 - 1) * 2 ^ 13 = _
  apply Nat.eq_of_testBit_eq
  intro i
  rw [Nat.testBit_and, Nat.testBit_mul_two_pow, Nat.testBit_mul_two_pow, Nat.testBit_two_pow_sub_one,
    Nat.testBit_div_two_pow]
  by_cases high : 13 ≤ i
  · rw [Nat.sub_add_cancel high]
    by_cases inside : i < 16
    · simp [high, show i - 13 < 3 by omega]
    · have clear : tci.toNat.testBit i = false :=
        Nat.testBit_lt_two_pow (Nat.lt_of_lt_of_le tci.toNat_lt
          (Nat.pow_le_pow_right (by decide) (Nat.le_of_not_lt inside)))
      simp [clear]
  · simp [high]

theorem pcp_eq (tci : UInt16) : ((tci &&& 0xe000) >>> 13).toNat = pcpOf tci := by
  rw [UInt16.toNat_shiftRight, high_bits]
  change (pcpOf tci * 2 ^ 13) >>> 13 = _
  rw [Nat.shiftRight_eq_div_pow, Nat.mul_div_cancel _ (by decide)]

/-- A priority that is not 0 has a bit far above 13. -/
theorem pcpOfEvc_eq (evc : Evc) : pcpOfEvc evc = if pcpOf evc.qTci = 0 then 0 else 1 := by
  have large : evc.qTci &&& 0xe000 > 13 ↔ ¬ pcpOf evc.qTci = 0 := by
    rw [gt_iff_lt, UInt16.lt_iff_toNat_lt, high_bits]
    change 13 < _ ↔ _
    omega
  rw [pcpOfEvc]
  by_cases zero : pcpOf evc.qTci = 0
  · rw [if_pos zero, if_neg fun above => large.mp above zero]
  · rw [if_neg zero, if_pos (large.mpr zero)]

/-! ### What is sent -/

theorem getFrameType_long (long : 18 ≤ data.length) :
    ∃ frameType, getFrameType data = .ok frameType := by
  by_cases two : TwoTags data
  · exact ⟨_, getFrameType_twoTags long two⟩
  · obtain ⟨frameType, read, -⟩ := (returns_oneTag long two).frameType
    exact ⟨frameType, read⟩

/-- A packet with an EtherType is built when it has eighteen bytes. -/
theorem createPacket_long (head : 14 ≤ data.length) (qos src dst : Nat) :
    createPacket data qos src dst =
      if 18 ≤ data.length then .ok ⟨data, qos % 256, src % 256, dst % 256⟩
      else .error .outOfRange := by
  rw [createPacket]
  split
  next long =>
    obtain ⟨frameType, read⟩ := getFrameType_long long
    rw [read]
    rfl
  next short =>
    rw [getFrameType_short head (by omega)]
    rfl

theorem header_length (frameType : FrameType) (srcMac dstMac : MacAddress)
    (etherType qTci adTci : UInt16) :
    (header frameType srcMac dstMac etherType qTci adTci).length = headSize frameType := by
  cases frameType with
  | eth => simp [header, headSize]
  | ieee8021Q => simp [header, headSize]
  | ieee8021AD => simp [header, headSize]

/-- The frame behind another header. -/
theorem rewritten (flow : Flow) (etherType qTci adTci : UInt16) (srcMac dstMac : MacAddress)
    (qos src dst : Nat) :
    ((substr (headSize flow.frameType) data.length data).bind fun payload =>
        createEthFrameData payload srcMac dstMac etherType qTci adTci qos src dst
          context.satFrameType) =
      if context.Rewritable data flow then
        .ok ⟨header context.satFrameType srcMac dstMac etherType qTci adTci ++
          data.drop (headSize flow.frameType), qos % 256, src % 256, dst % 256⟩
      else .error .outOfRange := by
  have head : 14 ≤ headSize context.satFrameType := by
    cases context.satFrameType with
    | eth => decide
    | ieee8021Q => decide
    | ieee8021AD => decide
  have all : (data.drop (headSize flow.frameType)).take data.length =
      data.drop (headSize flow.frameType) := List.take_of_length_le (by simp)
  rw [substr]
  by_cases whole : headSize flow.frameType ≤ data.length
  · rw [if_pos whole, all]
    change createEthFrameData _ _ _ _ _ _ _ _ _ _ = _
    have total : (header context.satFrameType srcMac dstMac etherType qTci adTci ++
        data.drop (headSize flow.frameType)).length =
        headSize context.satFrameType + (data.length - headSize flow.frameType) := by
      rw [List.length_append, header_length, List.length_drop]
    rw [createEthFrameData, createPacket_long (by omega), total]
    by_cases long : 18 ≤ headSize context.satFrameType + (data.length - headSize flow.frameType)
    · rw [if_pos long, if_pos ⟨whole, long⟩]
    · rw [if_neg long, if_neg fun fits : context.Rewritable data flow => long fits.2]
  · rw [if_neg whole, if_neg fun fits : context.Rewritable data flow => whole fits.1]
    rfl

theorem toSatellite_same (tagged : Tagged data flow)
    (same : flow.frameType = context.satFrameType) (evc : Option Evc) (srcMac dstMac : MacAddress)
    (etherType qTci adTci : UInt16) (qos src dst : Nat) :
    context.toSatellite data flow.frameType evc srcMac dstMac etherType qTci adTci qos src dst =
      .ok ⟨data, qos % 256, src % 256, dst % 256⟩ := by
  unfold toSatellite
  rw [if_neg (not_not.mpr same), createPacket, tagged.frameType]
  rfl

/-- The queue that the code gives to a frame with another header. -/
def queueGiven (context : Context) (evc : Option Evc) (qos : Nat) : Nat :=
  evc.elim qos fun evc =>
    (context.categoryMap (if pcpOf evc.qTci = 0 then 0 else 1)).getD context.defaultCategory

theorem toSatellite_other (other : flow.frameType ≠ context.satFrameType) (evc : Option Evc)
    (srcMac dstMac : MacAddress) (etherType qTci adTci : UInt16) (qos src dst : Nat) :
    ∃ bytes, context.toSatellite data flow.frameType evc srcMac dstMac etherType qTci adTci qos src
        dst =
      if context.Rewritable data flow then
        .ok ⟨bytes, context.queueGiven evc qos % 256, src % 256, dst % 256⟩
      else .error .outOfRange := by
  unfold toSatellite
  rw [if_pos other]
  cases evc with
  | none => exact ⟨_, rewritten flow etherType qTci adTci srcMac dstMac qos src dst⟩
  | some evc =>
      rw [queueGiven, Option.elim_some, ← pcpOfEvc_eq]
      exact ⟨_, rewritten flow etherType evc.qTci evc.adTci srcMac dstMac _ src dst⟩

theorem encapsulatePacket_tagged (tagged : Tagged data flow) :
    context.encapsulatePacket (.ofData data) =
      if context.HasDestination data then
        (context.qosOf flow.frameType (pcpOf flow.qTci)).bind fun qos =>
          (context.toSatellite data flow.frameType (context.evcOfFlow data flow) (getSrcMac data)
            (getDstMac data) flow.etherType flow.qTci flow.adTci qos
            (context.getPacketDestination context.packetSwitch data).2.1
            (context.getPacketDestination context.packetSwitch data).2.2).map some
      else .ok none := by
  rw [encapsulatePacket, NetPacket.ofData, tagged.frameType, tagged.etherType, tagged.qTci,
    tagged.adTci]
  simp only [bind, Except.bind, pure, Except.pure]
  by_cases destination : context.HasDestination data
  · rw [if_pos destination, if_neg, pcp_eq]
    · cases context.qosOf flow.frameType (pcpOf flow.qTci) with
      | error fault => rfl
      | ok qos => rfl
    · rintro ⟨unknown, large⟩
      rcases destination with known | small
      · rw [known] at unknown
        cases unknown
      · exact absurd large (Nat.not_lt.mpr small)
  · obtain ⟨unknown, large⟩ := not_or.mp destination
    rw [if_neg destination, if_pos ⟨by simpa using unknown, Nat.lt_of_not_le large⟩]

/-- A frame with a category is sent, or cannot be given another header. -/
theorem encapsulatePacket_found (tagged : Tagged data flow)
    (destination : context.HasDestination data) {queue : Nat}
    (found : context.categoryMap (pcpOf flow.qTci) = some queue) :
    context.encapsulatePacket (.ofData data) = .error .outOfRange ∧
        flow.frameType ≠ context.satFrameType ∧ ¬ context.Rewritable data flow ∨
      (flow.frameType ≠ context.satFrameType → context.Rewritable data flow) ∧
        ∃ sent, context.encapsulatePacket (.ofData data) = .ok (some sent) ∧
          sent.qos = (if flow.frameType ≠ context.satFrameType then
            context.queueGiven (context.evcOfFlow data flow) queue else queue) % 256 := by
  have qos : context.qosOf flow.frameType (pcpOf flow.qTci) = .ok queue := by
    rw [qosOf, if_pos tagged.tagged, found]
    rfl
  rw [encapsulatePacket_tagged tagged, if_pos destination, qos]
  dsimp only [Except.bind]
  by_cases same : flow.frameType = context.satFrameType
  · rw [toSatellite_same tagged same, if_neg (not_not.mpr same)]
    exact .inr ⟨fun other => absurd same other, _, rfl, rfl⟩
  · obtain ⟨bytes, sent⟩ := @toSatellite_other context data flow same (context.evcOfFlow data flow)
      (getSrcMac data) (getDstMac data) flow.etherType flow.qTci flow.adTci queue
      (context.getPacketDestination context.packetSwitch data).2.1
      (context.getPacketDestination context.packetSwitch data).2.2
    rw [sent, if_pos same]
    by_cases fits : context.Rewritable data flow
    · rw [if_pos fits]
      exact .inr ⟨fun _ => fits, _, rfl, rfl⟩
    · rw [if_neg fits]
      exact .inl ⟨rfl, same, fits⟩

/-! ### Main result -/

theorem mapped_iff (context : Context) (data : Data) :
    context.Mapped data ↔ context.Mappable data := by
  refine forall_congr' fun flow => forall_congr' fun tagged => ?_
  by_cases destination : context.HasDestination data
  · cases found : context.categoryMap (pcpOf flow.qTci) with
    | none =>
        have dereferenced : context.encapsulatePacket (.ofData data) = .error .outside := by
          rw [encapsulatePacket_tagged tagged, if_pos destination, qosOf, if_pos tagged.tagged, found]
          rfl
        refine iff_of_false (fun mapped => mapped.1 dereferenced) fun mappable => ?_
        cases (mappable destination).1
    | some queue =>
        have own : context.queueOf flow.qTci = queue := by
          rw [queueOf, found]
          rfl
        rcases encapsulatePacket_found tagged destination found with
          ⟨fault, other, short⟩ | ⟨fits, sent, result, qos⟩
        · rw [fault]
          exact iff_of_true ⟨by simp, by simp⟩ fun _ =>
            ⟨rfl, fun _ _ _ fits => absurd fits short⟩
        · rw [result, decidingTci]
          have given : (Except.ok (some sent) ≠ (.error .outside : Except Fault _) ∧
              ∀ sent', (Except.ok (some sent) : Except Fault _) = .ok (some sent') →
                sent'.qos = context.queueOf (if flow.frameType ≠ context.satFrameType then
                  (context.evcOfFlow data flow).elim flow.qTci Evc.qTci else flow.qTci) % 256) ↔
              sent.qos = context.queueOf (if flow.frameType ≠ context.satFrameType then
                (context.evcOfFlow data flow).elim flow.qTci Evc.qTci else flow.qTci) % 256 := by
            simp
          rw [given, qos]
          by_cases same : flow.frameType = context.satFrameType
          · rw [if_neg (not_not.mpr same), if_neg (not_not.mpr same), own]
            exact iff_of_true rfl fun _ => ⟨rfl, fun _ _ other => absurd same other⟩
          · rw [if_pos same, if_pos same]
            cases context.evcOfFlow data flow with
            | none =>
                rw [queueGiven, Option.elim_none, Option.elim_none, own]
                exact iff_of_true rfl fun _ => ⟨rfl, by simp⟩
            | some evc =>
                rw [queueGiven, Option.elim_some, Option.elim_some]
                constructor
                · rintro right _
                  refine ⟨rfl, ?_⟩
                  rintro _ ⟨⟩ _ _
                  exact right
                · exact fun mappable => (mappable destination).2 evc rfl same (fits same)
  · have dropped : context.encapsulatePacket (.ofData data) = .ok none := by
      rw [encapsulatePacket_tagged tagged, if_neg destination]
    rw [dropped]
    exact iff_of_true ⟨by simp, by simp⟩ fun sent => absurd sent destination

/-- A context whose virtual connection has the priority 7. -/
def prioritised : Context where
  packetSwitch := ⟨1, ⟨10, [], 0⟩⟩
  getPacketDestination := TerminalPacketSwitch.getPacketDestination 0
  lanFrameType := .ieee8021Q
  satFrameType := .ieee8021AD
  evcMap := [⟨.ofBytes fun _ => 2, .ofBytes fun _ => 1, 0xe000, 0, 0x0800⟩]
  categoryMap pcp := some pcp
  defaultCategory := 0

/-- The priority 7 of a virtual connection is taken as 1. -/
theorem pcp_not_shifted : ¬ ∀ (context : Context) (data : Data), context.Mapped data := by
  intro claim
  let frame : Frame := ⟨fun _ => 1, fun _ => 2, .q 0xe000, 0x0800, [], by decide⟩
  have read : Read frame := read_frame (by decide)
  have tagged : Tagged frame.bytes ⟨.ieee8021Q, 0x0800, 0xe000, 0⟩ :=
    ⟨read.frameType, read.etherType, read.qTci, read.adTci, by decide⟩
  have mappable := (mapped_iff prioritised frame.bytes).mp (claim prioritised frame.bytes) _ tagged
    (.inl rfl)
  exact absurd (mappable.2 _ rfl (by decide) (by decide)) (by decide)

end Context

end Ethernet

end OpenSand
