import OpenSand.Common.NetPacket
import OpenSand.Lib.Grouping
import Mathlib.Logic.Function.Basic

/-!
The dispatcher of a satellite (`BlockSatDispatcher`).

Its two channels send frames, and bursts split by destination, to a lower block, to an upper
block, which leads to another satellite or to the LAN adaptation, or to the opposite channel.
A handler is modelled by what it sends.
-/

namespace OpenSand

/-! ### Keys and carriers -/

inductive Component where
  | satellite | gateway | terminal | unknown
deriving DecidableEq, Repr

inductive RegenLevel where
  | unknown | transparent | bbFrame | ip
deriving DecidableEq, Repr

structure SpotComponentPair where
  spotId : Nat
  dest : Component
deriving DecidableEq

structure RegenerativeSpotComponent extends SpotComponentPair where
  isTransparent : Bool
deriving DecidableEq

structure IslComponentPair where
  connectedSat : Nat
  isDataChannel : Bool
deriving DecidableEq

inductive CarrierType where
  | logonIn | logonOut | ctrlInSt | ctrlOutGw | ctrlInGw | ctrlOutSt | dataInSt | dataOutGw | dataInGw
  | dataOutSt
deriving DecidableEq, Repr

def extractCarrierType (carrierId : UInt8) : CarrierType :=
  match carrierId.toNat % 10 with
  | 0 => .logonIn
  | 1 => .logonOut
  | 2 => .ctrlInSt
  | 3 => .ctrlOutGw
  | 4 => .ctrlInGw
  | 5 => .ctrlOutSt
  | 6 => .dataInSt
  | 7 => .dataOutGw
  | 8 => .dataInGw
  | _ => .dataOutSt

def isDataCarrier : CarrierType → Bool
  | .dataInSt | .dataOutGw | .dataInGw | .dataOutSt => true
  | _ => false

def isInputCarrier : CarrierType → Bool
  | .logonIn | .ctrlInSt | .ctrlInGw | .dataInSt | .dataInGw => true
  | _ => false

def isOutputCarrier : CarrierType → Bool
  | .logonOut | .ctrlOutGw | .ctrlOutSt | .dataOutGw | .dataOutSt => true
  | _ => false

def isGatewayCarrier : CarrierType → Bool
  | .logonOut | .ctrlOutGw | .ctrlInGw | .dataOutGw | .dataInGw => true
  | _ => false

/-- A carrier is an input carrier or an output carrier. -/
theorem isOutputCarrier_eq (carrierType : CarrierType) :
    isOutputCarrier carrierType = !isInputCarrier carrierType := by
  cases carrierType <;> rfl

/-- A frame on a satellite carrier. -/
structure CarrierFrame where
  spot : Nat
  carrierId : UInt8
  data : List UInt8
deriving DecidableEq

inductive DispatchMessage where
  | frame (frame : CarrierFrame)
  | burst (burst : List NetPacket)

/-- What a handler sends. -/
inductive Send where
  | toOppositeChannel (message : DispatchMessage)
  | toUpperBlock (key : IslComponentPair) (message : DispatchMessage)
  | toLowerBlock (key : RegenerativeSpotComponent) (message : DispatchMessage)

/-! ### Configuration -/

structure SpotTopology where
  spotId : Nat
  gwId : Nat
  stIds : List Nat
  satIdGw : Nat
  satIdSt : Nat
  forwardRegenLevel : RegenLevel
  returnRegenLevel : RegenLevel

/-- The tables of a dispatcher. -/
structure SatDispatcher where
  entityId : Nat
  spotByEntity : Nat → Option Nat
  defaultSpot : Nat
  routes : SpotComponentPair → Option Nat
  regenLevels : SpotComponentPair → Option RegenLevel

namespace SatDispatcher

/-- Put the entities of a spot in it. -/
def addEntities (spotByEntity : Nat → Option Nat) (topo : SpotTopology) : Nat → Option Nat :=
  topo.stIds.foldl (fun spots talId => Function.update spots talId (some topo.spotId))
    (Function.update spotByEntity topo.gwId (some topo.spotId))

/-- Add a spot to the tables. -/
def addSpot (dispatcher : SatDispatcher) (topo : SpotTopology) : SatDispatcher :=
  { dispatcher with
    spotByEntity := addEntities dispatcher.spotByEntity topo
    routes := Function.update (Function.update dispatcher.routes ⟨topo.spotId, .gateway⟩
      (some topo.satIdGw)) ⟨topo.spotId, .terminal⟩ (some topo.satIdSt)
    regenLevels := Function.update (Function.update dispatcher.regenLevels ⟨topo.spotId, .terminal⟩
      (some topo.forwardRegenLevel)) ⟨topo.spotId, .gateway⟩ (some topo.returnRegenLevel) }

/-- A spot on two satellites, one of them this one, needs inter-satellite links. -/
def Linked (entityId : Nat) (islEnabled : Bool) (topo : SpotTopology) : Prop :=
  topo.satIdGw ≠ topo.satIdSt → topo.satIdGw = entityId ∨ topo.satIdSt = entityId → islEnabled = true

instance (entityId : Nat) (islEnabled : Bool) (topo : SpotTopology) :
    Decidable (Linked entityId islEnabled topo) := inferInstanceAs (Decidable (_ → _))

def addSpots (islEnabled : Bool) (dispatcher : SatDispatcher) :
    List SpotTopology → Option SatDispatcher
  | [] => some dispatcher
  | topo :: spots =>
      if Linked dispatcher.entityId islEnabled topo then
        addSpots islEnabled (dispatcher.addSpot topo) spots
      else none

def onInit (spotsTopology : List SpotTopology) (defaultSpot entityId : Nat) (islEnabled : Bool) :
    Option SatDispatcher :=
  addSpots islEnabled
    ⟨entityId, fun _ => none, defaultSpot, fun _ => none, fun _ => none⟩ spotsTopology

/-! ### Handlers -/

variable (dispatcher : SatDispatcher) (getEntityType : Nat → Component)

def getSpotForEntity (entity : Nat) : Nat :=
  (dispatcher.spotByEntity entity).getD dispatcher.defaultSpot

/-- The destination of a frame, and its source. -/
def frameEnds (frame : CarrierFrame) : Component × Component :=
  if isGatewayCarrier (extractCarrierType frame.carrierId) then (.terminal, .gateway)
  else (.gateway, .terminal)

def Upward.handleDvbFrame (frame : CarrierFrame) : Option (List Send) :=
  match dispatcher.routes ⟨frame.spot, (frameEnds frame).1⟩ with
  | none => some []
  | some destSatId =>
      if destSatId = dispatcher.entityId then some [.toOppositeChannel (.frame frame)]
      else some [.toUpperBlock ⟨destSatId, false⟩ (.frame frame)]

/-- A table without the key ends the handler. -/
def Downward.handleDvbFrame (frame : CarrierFrame) : Option (List Send) :=
  let carrierType := extractCarrierType frame.carrierId
  let (dest, src) := frameEnds frame
  match dispatcher.routes ⟨frame.spot, dest⟩ with
  | none => some []
  | some destSatId =>
      if destSatId = dispatcher.entityId then
        if isOutputCarrier carrierType then some []
        else do
          let destLevel ← dispatcher.regenLevels ⟨frame.spot, dest⟩
          let srcLevel ← dispatcher.regenLevels ⟨frame.spot, src⟩
          let isTransparent := destLevel = .transparent ∧
            (isDataCarrier carrierType ∨ srcLevel = .transparent)
          return [.toLowerBlock ⟨⟨frame.spot, dest⟩, isTransparent⟩
            (.frame { frame with carrierId := frame.carrierId + 1 })]
      else some [.toOppositeChannel (.frame frame)]

/-- The spot and the destination of a packet, when its source is a gateway or a terminal. -/
def packetKey (packet : NetPacket) : Option SpotComponentPair :=
  let spotId := dispatcher.getSpotForEntity packet.srcTalId
  match getEntityType packet.srcTalId with
  | .gateway => some ⟨spotId, .terminal⟩
  | .terminal => some ⟨spotId, .gateway⟩
  | _ => none

/-- Split a burst by destination; a packet of another source ends the handler. -/
def splitBurst (bursts : List (SpotComponentPair × List NetPacket)) :
    List NetPacket → Option (List (SpotComponentPair × List NetPacket))
  | [] => some bursts
  | packet :: packets =>
      match dispatcher.packetKey getEntityType packet with
      | none => none
      | some key => splitBurst (Grouping.put key packet bursts) packets

/-- Send a burst to its destination; a destination without route is left out. -/
def Upward.sendBurst (burst : SpotComponentPair × List NetPacket) : Option (List Send) :=
  match dispatcher.routes burst.1 with
  | none => some []
  | some destSatId => do
      let regenLevel ← dispatcher.regenLevels burst.1
      if destSatId = dispatcher.entityId ∧ regenLevel ≠ .ip then
        return [.toOppositeChannel (.burst burst.2)]
      else return [.toUpperBlock ⟨destSatId, regenLevel = .ip⟩ (.burst burst.2)]

def Downward.sendBurst (burst : SpotComponentPair × List NetPacket) : Option (List Send) :=
  match dispatcher.routes burst.1 with
  | none => some []
  | some destSatId => do
      let regenLevel ← dispatcher.regenLevels burst.1
      if destSatId = dispatcher.entityId ∨ regenLevel = .ip then
        return [.toLowerBlock ⟨burst.1, false⟩ (.burst burst.2)]
      else return [.toOppositeChannel (.burst burst.2)]

/-- Split a burst and send the parts. -/
def handleNetBurst (sendBurst : SpotComponentPair × List NetPacket → Option (List Send))
    (inBurst : List NetPacket) : Option (List Send) :=
  match dispatcher.splitBurst getEntityType [] inBurst with
  | none => some []
  | some bursts => (bursts.mapM sendBurst).map List.flatten

def Upward.handleNetBurst (inBurst : List NetPacket) : Option (List Send) :=
  dispatcher.handleNetBurst getEntityType (Upward.sendBurst dispatcher) inBurst

def Downward.handleNetBurst (inBurst : List NetPacket) : Option (List Send) :=
  dispatcher.handleNetBurst getEntityType (Downward.sendBurst dispatcher) inBurst

/-! ### Split bursts -/

variable {dispatcher getEntityType} {bursts groups : List (SpotComponentPair × List NetPacket)}
  {packets : List NetPacket}

/-- A burst is split unless it has a packet without key. -/
theorem splitBurst_isSome_iff :
    (dispatcher.splitBurst getEntityType bursts packets).isSome ↔
      ∀ packet ∈ packets, dispatcher.packetKey getEntityType packet ≠ none := by
  induction packets generalizing bursts with
  | nil => simp [splitBurst]
  | cons packet packets ih =>
      rw [splitBurst, List.forall_mem_cons]
      cases key : dispatcher.packetKey getEntityType packet with
      | none => simp
      | some key => simpa using ih

theorem grouped_splitBurst {items : List NetPacket}
    (grouped : Grouping.Grouped (dispatcher.packetKey getEntityType) bursts items)
    (isSplit : dispatcher.splitBurst getEntityType bursts packets = some groups) :
    Grouping.Grouped (dispatcher.packetKey getEntityType) groups (items ++ packets) := by
  induction packets generalizing bursts items with
  | nil =>
      obtain rfl := Option.some.inj isSplit
      simpa using grouped
  | cons packet packets ih =>
      rw [splitBurst] at isSplit
      cases key : dispatcher.packetKey getEntityType packet with
      | none => simp [key] at isSplit
      | some key =>
          rw [key] at isSplit
          rw [List.append_cons]
          exact ih (grouped.put ‹_›) isSplit

theorem splitBurst_onto {key : SpotComponentPair} {before : List NetPacket}
    (keyed : ∀ packet ∈ packets, dispatcher.packetKey getEntityType packet = some key) :
    dispatcher.splitBurst getEntityType [(key, before)] packets =
      some [(key, before ++ packets)] := by
  induction packets generalizing before with
  | nil => rw [splitBurst, List.append_nil]
  | cons packet packets ih =>
      rw [splitBurst, keyed packet List.mem_cons_self]
      dsimp only
      rw [Grouping.put, if_pos rfl, ih fun other mem => keyed other (List.mem_cons_of_mem _ mem),
        List.append_assoc, List.singleton_append]

/-- A burst to one destination stays whole. -/
theorem splitBurst_uniform {key : SpotComponentPair}
    (keyed : ∀ packet ∈ packets, dispatcher.packetKey getEntityType packet = some key)
    (nonempty : packets ≠ []) :
    dispatcher.splitBurst getEntityType [] packets = some [(key, packets)] := by
  obtain ⟨packet, packets, rfl⟩ := List.exists_cons_of_ne_nil nonempty
  rw [splitBurst, keyed packet List.mem_cons_self]
  exact splitBurst_onto fun other mem => keyed other (List.mem_cons_of_mem _ mem)

end SatDispatcher

end OpenSand
