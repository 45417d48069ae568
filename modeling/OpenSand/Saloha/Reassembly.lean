import OpenSand.Saloha.PacketData
import Mathlib.Data.List.Perm.Basic
import Std.Data.TreeMap

/-!
Reassembly of Slotted Aloha PDUs at the gateway (`TerminalContextSaloha`).

A terminal context keeps the fragments waiting for their PDU, by QoS and PDU id,
and the id of the oldest PDU of each QoS. `addPacket` stores a fragment and hands
out its PDU when the completion test holds. The test compares the number of
fragments of the PDU with the size of a local list that nothing is ever put in.
-/

namespace OpenSand

open Std

/-- The largest value of the old counter before the oldest PDU is dropped. -/
def MAX_OLD_COUNTER : Nat := 0xFFFF

inductive PropagateState where
  | noPropagation | propagation
deriving DecidableEq, Repr

/-- What the language leaves open in `addPacket`: the content of the identifier
array before it is filled, and the conversion of `2 ^ 32` to 32 bits that starts
the search of the oldest PDU. -/
structure Unspecified where
  ids : PacketIds
  minDiff : Nat

structure TerminalContextSaloha where
  waitPropagation : TreeMap Nat (TreeMap Nat (List SlottedAlohaPacketData))
  oldestId : TreeMap Nat Nat
  oldCount : Nat

namespace TerminalContextSaloha

def new : TerminalContextSaloha := ⟨∅, ∅, 0⟩

/-- `wait_propagation[qos]`. -/
def pdus (context : TerminalContextSaloha) (qos : Nat) :
    TreeMap Nat (List SlottedAlohaPacketData) :=
  context.waitPropagation.getD qos ∅

/-- The fragments waiting under a PDU id. -/
def waiting (context : TerminalContextSaloha) (qos pduId : Nat) : List SlottedAlohaPacketData :=
  (context.pdus qos).getD pduId []

/-- The search of the next oldest id, over the waiting ids in increasing order. -/
def closestId (oldest : Nat) : List Nat → Nat → Option Nat → Option Nat
  | [], _, best => best
  | id :: ids, minDiff, best =>
      let diff := (id + (2 ^ 32 - oldest)) % 2 ^ 32
      if diff < minDiff then closestId oldest ids diff (some id)
      else closestId oldest ids minDiff best

def findOldest (open_ : Unspecified) (context : TerminalContextSaloha) (qos : Nat) :
    TerminalContextSaloha :=
  let oldest := context.oldestId.getD qos 0
  if (context.pdus qos).isEmpty then { context with oldestId := context.oldestId.erase qos }
  else
    match closestId oldest (context.pdus qos).keys open_.minDiff none with
    | none => context
    | some id => { context with oldestId := context.oldestId.insert qos id, oldCount := 0 }

/-- Update the oldest id after a completed PDU. The pending content of the oldest
one is dropped after too many PDUs; looking for an absent content is not
survived. -/
def handleOldest (open_ : Unspecified) (context : TerminalContextSaloha) (qos currentId : Nat) :
    Option TerminalContextSaloha :=
  let oldest := context.oldestId.getD qos 0
  let context := { context with oldestId := context.oldestId.insert qos oldest }
  if oldest = currentId then some (findOldest open_ context qos)
  else if MAX_OLD_COUNTER < context.oldCount then
    if oldest ∈ context.pdus qos then
      some (findOldest open_ { context with
        waitPropagation := context.waitPropagation.insert qos ((context.pdus qos).erase oldest) } qos)
    else none
  else some context

/-- Store a fragment, and hand out its PDU when it is found complete. -/
def addPacket (open_ : Unspecified) (context : TerminalContextSaloha)
    (packet : SlottedAlohaPacketData) :
    Option (PropagateState × List SlottedAlohaPacketData × TerminalContextSaloha) :=
  let pduId := packet.id.toNat
  let qos := packet.qos.toNat
  -- declared beside the waiting packets and never filled
  let saPackets : List SlottedAlohaPacketData := []
  let ids := SlottedAlohaPacketData.convertPacketId packet.getUniqueId open_.ids
  let fragments := context.waiting qos pduId ++ [packet]
  let context := { context with
    waitPropagation :=
      context.waitPropagation.insert qos ((context.pdus qos).insert pduId fragments) }
  if ids.pduNb = saPackets.length then
    let context := { context with
      waitPropagation := context.waitPropagation.insert qos ((context.pdus qos).erase pduId)
      oldCount := (context.oldCount + 1) % 2 ^ 32 }
    (handleOldest open_ context qos pduId).map fun context =>
      (.propagation, fragments.mergeSort fun a b => a.seq ≤ b.seq, context)
  else if qos ∈ context.oldestId then some (.noPropagation, [], context)
  else
    some (.noPropagation, [], { context with
      oldestId := context.oldestId.insert qos pduId
      oldCount := 0 })

/-- The context after a list of arrivals. -/
def receive (open_ : Unspecified) (context : TerminalContextSaloha) :
    List SlottedAlohaPacketData → Option TerminalContextSaloha
  | [] => some context
  | packet :: rest =>
      (addPacket open_ context packet).bind fun out => receive open_ out.2.2 rest

end TerminalContextSaloha

/-! ### What reassembly is for -/

/-- A PDU cut into fragments numbered from 0, each with the number of them. -/
structure Pdu where
  id : UInt32
  qos : UInt8
  fragments : List SlottedAlohaPacketData
  nonempty : fragments ≠ []
  header : ∀ packet ∈ fragments, packet.id = id ∧ packet.qos = qos ∧
    packet.pduNb.toNat = fragments.length
  seq : fragments.map (fun packet => packet.seq.toNat) = List.range fragments.length

/-- PDUs with distinct ids and an order of arrival of all their fragments. -/
structure Delivery where
  pdus : List Pdu
  distinct : (pdus.map (·.id)).Nodup
  arrivals : List SlottedAlohaPacketData
  complete : arrivals.Perm (pdus.flatMap (·.fragments))

/-- Reassembly as it should be: the arrival of the last missing fragment hands
out the PDU in order, every other arrival hands out nothing, and no arrival
touches the fragments waiting for another PDU. -/
def Delivery.Reassembled (delivery : Delivery) : Prop :=
  ∀ open_ before packet after, delivery.arrivals = before ++ packet :: after →
    ∀ pdu ∈ delivery.pdus, packet ∈ pdu.fragments →
      ∃ context state out context',
        TerminalContextSaloha.new.receive open_ before = some context ∧
        context.addPacket open_ packet = some (state, out, context') ∧
        ((∀ fragment ∈ pdu.fragments, fragment ∈ before ++ [packet]) →
          state = .propagation ∧ out = pdu.fragments) ∧
        (¬ (∀ fragment ∈ pdu.fragments, fragment ∈ before ++ [packet]) →
          state = .noPropagation ∧ out = []) ∧
        ∀ other ∈ delivery.pdus, other.id ≠ pdu.id →
          context'.waiting other.qos.toNat other.id.toNat =
            context.waiting other.qos.toNat other.id.toNat

/-! ### The completion test -/

/-- The identifier array holding a nonzero number of fragments. -/
def leftover : Unspecified := ⟨⟨0, 0, 1, 0⟩, 0⟩

/-- A fragment that announces at least one fragment completes nothing. -/
theorem addPacket_leftover {context : TerminalContextSaloha} {packet : SlottedAlohaPacketData}
    (counted : packet.pduNb.toNat ≠ 0)
    {out : PropagateState × List SlottedAlohaPacketData × TerminalContextSaloha}
    (added : context.addPacket leftover packet = some out) : out.1 = .noPropagation := by
  have test : (SlottedAlohaPacketData.convertPacketId packet.getUniqueId leftover.ids).pduNb ≠
      ([] : List SlottedAlohaPacketData).length := by
    rcases SlottedAlohaPacketData.convertPacketId_pduNb packet leftover.ids with h | h
    · rw [h]
      exact counted
    · rw [h]
      decide
  simp only [TerminalContextSaloha.addPacket, if_neg test] at added
  split at added
  · cases added
    rfl
  · cases added
    rfl

theorem Pdu.pduNb_ne_zero (pdu : Pdu) {packet : SlottedAlohaPacketData}
    (mem : packet ∈ pdu.fragments) : packet.pduNb.toNat ≠ 0 := by
  rw [(pdu.header packet mem).2.2]
  exact fun h => pdu.nonempty (List.length_eq_zero_iff.mp h)

/-- **No PDU is ever reassembled.** The last fragment to arrive completes its PDU
and is answered as if it did not, so reassembly works only when there is nothing
to reassemble. -/
theorem reassembled_iff (delivery : Delivery) : delivery.Reassembled ↔ delivery.pdus = [] := by
  constructor
  · intro reassembled
    by_contra some_pdu
    obtain ⟨pdu, hpdu⟩ := List.exists_mem_of_ne_nil _ some_pdu
    obtain ⟨fragment, hfragment⟩ := List.exists_mem_of_ne_nil _ pdu.nonempty
    have arrived : fragment ∈ delivery.arrivals :=
      delivery.complete.mem_iff.mpr (List.mem_flatMap.mpr ⟨pdu, hpdu, hfragment⟩)
    -- the very last arrival is the last missing fragment of its PDU
    obtain ⟨before, packet, harrivals⟩ : ∃ before packet,
        delivery.arrivals = before ++ [packet] :=
      (List.eq_nil_or_concat' _).resolve_left (List.ne_nil_of_mem arrived)
    have mem : packet ∈ delivery.pdus.flatMap (·.fragments) := by
      apply delivery.complete.mem_iff.mp
      rw [harrivals]
      exact List.mem_append_right _ List.mem_cons_self
    obtain ⟨last, hlast, hpacket⟩ := List.mem_flatMap.mp mem
    obtain ⟨context, state, out, context', _, added, completes, _⟩ :=
      reassembled leftover before packet [] harrivals last hlast hpacket
    have all : ∀ fragment ∈ last.fragments, fragment ∈ before ++ [packet] := by
      intro fragment hfragment
      rw [← harrivals]
      exact delivery.complete.mem_iff.mpr (List.mem_flatMap.mpr ⟨last, hlast, hfragment⟩)
    have answered := addPacket_leftover (last.pduNb_ne_zero hpacket) added
    rw [show state = .propagation from (completes all).1] at answered
    cases answered
  · intro none open_ before packet after _ pdu hpdu
    rw [none] at hpdu
    exact absurd hpdu List.not_mem_nil

/-- The only fragment of a PDU. -/
def onlyFragment : SlottedAlohaPacketData := ⟨1, 0, 0, 1, 0, [], [0xAA], 1⟩

def singleDelivery : Delivery where
  pdus := [{
    id := 1
    qos := 0
    fragments := [onlyFragment]
    nonempty := List.cons_ne_nil _ _
    header := by decide
    seq := rfl }]
  distinct := by decide
  arrivals := [onlyFragment]
  complete := List.Perm.refl _

/-- A PDU of one fragment is received and not handed out. -/
theorem singleDelivery_not_reassembled : ¬ singleDelivery.Reassembled := by
  intro reassembled
  obtain ⟨context, state, out, context', _, added, completes, _⟩ :=
    reassembled leftover [] onlyFragment [] rfl _ List.mem_cons_self List.mem_cons_self
  have answered := addPacket_leftover (by decide) added
  rw [show state = .propagation from (completes fun _ mem => mem).1] at answered
  cases answered

end OpenSand
