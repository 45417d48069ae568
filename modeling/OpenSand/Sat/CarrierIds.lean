import OpenSand.Conf.SpotInfrastructure
import Mathlib.Tactic.IntervalCases

/-!
The identifier of a carrier on the way of a frame: the configuration, the frame and the set of
channels (`DvbFrame`, `sat_carrier_channel_set`).

The configuration numbers the carriers on 16 bits, a frame carries 8 of them, and the channels
have the whole number. `carrierLaw_iff` says which configurations lose nothing on the way.
-/

namespace OpenSand.Sat

open OpenSand.Conf

/-- The identifier a frame carries for a carrier, as `DvbFrame::setCarrierId` stores it. -/
def frameCarrierId (carrier : CarrierSocket) : UInt8 := carrier.id.toUInt8

structure CarrierChannel where
  socket : CarrierSocket
  channelId : UInt32
  isInputOk : Bool
  isOutputOk : Bool

/-- Append the channel of a carrier; whether the system could open it is the parameter. -/
def readCarrier (isInit : CarrierSocket → Bool → Bool) (channels : List CarrierChannel)
    (carrier : CarrierSocket) (isInput : Bool) : Option (List CarrierChannel) :=
  if isInit carrier isInput then
    some (channels ++ [⟨carrier, carrier.id.toUInt32, isInput, !isInput⟩])
  else none

/-- The carriers that a host creates, those at one of its sides. -/
def spotSockets (host : Component) (createIn : Bool) (carriers : SpotInfrastructure) :
    Option (List CarrierSocket) :=
  match host, createIn with
  | .terminal, true => some [carriers.ctrlInSt, carriers.dataInSt, carriers.logonIn]
  | .terminal, false => some [carriers.ctrlOutSt, carriers.dataOutSt]
  | .gateway, true => some [carriers.ctrlInGw, carriers.dataInGw]
  | .gateway, false => some [carriers.ctrlOutGw, carriers.logonOut, carriers.dataOutGw]
  | _, _ => none

def readSpot (conf : ModelConf) (isInit : CarrierSocket → Bool → Bool) (inward : Bool)
    (host : Component) (gwId : UInt16) (isSatellite : Bool) : Option (List CarrierChannel) := do
  let carriers ← conf.getSpotInfrastructure gwId
  let createInCarriers := (inward && isSatellite) || (!inward && !isSatellite)
  let sockets ← spotSockets host createInCarriers carriers
  let isInput := if createInCarriers then isSatellite else !isSatellite
  sockets.foldlM (fun channels carrier => readCarrier isInit channels carrier isInput) []

/-- The channel that a frame is sent through. -/
def sendChannel (channels : List CarrierChannel) (carrierId : UInt8) : Option CarrierChannel :=
  channels.find? fun channel => channel.channelId = carrierId.toUInt32 ∧ channel.isOutputOk

/-- The identifiers of the carriers still designate them in the frames. -/
structure CarrierLaw (conf : ModelConf) : Prop where
  type : ∀ gwId carriers, conf.getSpotInfrastructure gwId = some carriers → ∀ carrierType,
    extractCarrierType (frameCarrierId (carriers.socket carrierType)) = carrierType
  gateway : ∀ gwId carriers, conf.getSpotInfrastructure gwId = some carriers → ∀ carrierType,
    conf.getGwWithCarrierId (frameCarrierId (carriers.socket carrierType)).toUInt32 = (true, gwId)
  send : ∀ isInit inward host gwId isSatellite channels,
    readSpot conf isInit inward host gwId isSatellite = some channels →
      ∀ channel ∈ channels, channel.isOutputOk = true →
        sendChannel channels (frameCarrierId channel.socket) = some channel
  apart : ∀ gwId gwId' carriers carriers', conf.getSpotInfrastructure gwId = some carriers →
    conf.getSpotInfrastructure gwId' = some carriers' → gwId ≠ gwId' →
      ∀ carrierType carrierType', frameCarrierId (carriers.socket carrierType) ≠
        frameCarrierId (carriers'.socket carrierType')

/-- The gateways with carriers are among the first, and each has exactly one spot. -/
def GatewaysFit (conf : ModelConf) : Prop :=
  ∀ gwId, (conf.getSpotInfrastructure gwId).isSome → ∀ topo, conf.topology = some topo →
    gwId.toNat < 25 ∧ (∀ spot ∈ topo.spots, spot.gatewayId.isSet = true) ∧
      topo.spots.countP (fun spot => spot.gatewayId.value = (gwId.toNat : Int)) = 1

/-! ### The identifier in a frame -/

theorem toUnderlying_lt (carrierType : CarrierType) : (toUnderlying carrierType).toNat < 10 := by
  cases carrierType <;> decide

theorem toUnderlying_injective {carrierType carrierType' : CarrierType}
    (same : toUnderlying carrierType = toUnderlying carrierType') : carrierType = carrierType' := by
  revert same
  cases carrierType <;> cases carrierType' <;> decide

theorem extractCarrierType_toUnderlying {carrierId : UInt8} {carrierType : CarrierType}
    (rest : carrierId.toNat % 10 = (toUnderlying carrierType).toNat) :
    extractCarrierType carrierId = carrierType := by
  rw [extractCarrierType, rest]
  cases carrierType <;> rfl

theorem toUnderlying_extractCarrierType (carrierId : UInt8) :
    (toUnderlying (extractCarrierType carrierId)).toNat = carrierId.toNat % 10 := by
  have rest : carrierId.toNat % 10 < 10 := Nat.mod_lt _ (by decide)
  rw [extractCarrierType]
  generalize carrierId.toNat % 10 = rest' at rest
  interval_cases rest' <;> rfl

theorem frameCarrierId_toNat {conf : ModelConf} {gwId : UInt16} {carriers : SpotInfrastructure}
    (found : conf.getSpotInfrastructure gwId = some carriers) (carrierType : CarrierType) :
    (frameCarrierId (carriers.socket carrierType)).toNat =
      (gwId.toNat * 10 + (toUnderlying carrierType).toNat) % 256 := by
  rw [frameCarrierId, ModelConf.socket_id found, addCarrierType]
  simp only [UInt16.toNat_toUInt8, UInt16.toNat_add, UInt16.toNat_mul, UInt8.toNat_toUInt16,
    UInt16.reduceToNat]
  omega

/-- Below 25, the whole number of a carrier is in the frame. -/
theorem frameCarrierId_exact {conf : ModelConf} {gwId : UInt16} {carriers : SpotInfrastructure}
    (found : conf.getSpotInfrastructure gwId = some carriers) (few : gwId.toNat < 25)
    (carrierType : CarrierType) :
    (frameCarrierId (carriers.socket carrierType)).toNat =
      gwId.toNat * 10 + (toUnderlying carrierType).toNat := by
  have short := toUnderlying_lt carrierType
  rw [frameCarrierId_toNat found, Nat.mod_eq_of_lt (by omega)]

theorem getGwWithCarrierId_iff {conf : ModelConf} {topo : Topology}
    (known : conf.topology = some topo) {carId : UInt32} {gwId : UInt16} :
    conf.getGwWithCarrierId carId = (true, gwId) ↔ (carId / 10).toUInt16 = gwId ∧
      (∀ spot ∈ topo.spots, spot.gatewayId.isSet = true) ∧
        topo.spots.countP (fun spot => spot.gatewayId.value = (gwId.toNat : Int)) = 1 := by
  have isSet : (topo.spots.all fun spot => (extractParameterData spot.gatewayId).isSome) = true ↔
      ∀ spot ∈ topo.spots, spot.gatewayId.isSet = true := by
    rw [List.all_eq_true]
    refine forall₂_congr fun spot _ => ?_
    rw [extractParameterData]
    cases spot.gatewayId.isSet <;> simp
  rw [ModelConf.getGwWithCarrierId, known]
  dsimp only
  rw [← isSet]
  split
  next all =>
    rw [Prod.mk.injEq, decide_eq_true_eq]
    constructor
    · rintro ⟨one, rfl⟩
      exact ⟨rfl, all, one⟩
    · rintro ⟨rfl, -, one⟩
      exact ⟨one, rfl⟩
  next none =>
    constructor
    · exact fun same => absurd (Prod.mk.inj same).1 Bool.false_ne_true
    · exact fun spots => absurd spots.2.1 none

theorem getSpotInfrastructure_topology {conf : ModelConf} {gwId : UInt16}
    {carriers : SpotInfrastructure} (found : conf.getSpotInfrastructure gwId = some carriers) :
    ∃ topo, conf.topology = some topo := by
  simp only [ModelConf.getSpotInfrastructure, Option.bind_eq_bind,
    Option.bind_eq_some_iff] at found
  obtain ⟨_, _, topo, known, _⟩ := found
  exact ⟨topo, known⟩

/-! ### The channels of a spot -/

/-- The channel of a carrier. -/
def channelOf (isInput : Bool) (carrier : CarrierSocket) : CarrierChannel :=
  ⟨carrier, carrier.id.toUInt32, isInput, !isInput⟩

theorem foldlM_readCarrier {isInit : CarrierSocket → Bool → Bool} {isInput : Bool}
    {sockets : List CarrierSocket} {former channels : List CarrierChannel}
    (read : sockets.foldlM (fun channels carrier =>
      readCarrier isInit channels carrier isInput) former = some channels) :
    channels = former ++ sockets.map (channelOf isInput) := by
  induction sockets generalizing former with
  | nil =>
      cases read
      exact (List.append_nil _).symm
  | cons carrier sockets ih =>
      obtain ⟨mid, first, rest⟩ := Option.bind_eq_some_iff.mp read
      dsimp only [readCarrier] at first
      split at first
      · cases first
        rw [ih rest, List.append_assoc]
        rfl
      · cases first

theorem spotSockets_types {host : Component} {createIn : Bool} {carriers : SpotInfrastructure}
    {sockets : List CarrierSocket} (created : spotSockets host createIn carriers = some sockets) :
    ∃ carrierTypes : List CarrierType, sockets = carrierTypes.map carriers.socket := by
  unfold spotSockets at created
  split at created
  · cases created
    exact ⟨[.ctrlInSt, .dataInSt, .logonIn], rfl⟩
  · cases created
    exact ⟨[.ctrlOutSt, .dataOutSt], rfl⟩
  · cases created
    exact ⟨[.ctrlInGw, .dataInGw], rfl⟩
  · cases created
    exact ⟨[.ctrlOutGw, .logonOut, .dataOutGw], rfl⟩
  · cases created

/-- The channels of a spot are those of carriers of its gateway. -/
theorem mem_readSpot {conf : ModelConf} {isInit : CarrierSocket → Bool → Bool} {inward : Bool}
    {host : Component} {gwId : UInt16} {isSatellite : Bool} {channels : List CarrierChannel}
    (read : readSpot conf isInit inward host gwId isSatellite = some channels) :
    ∃ carriers isInput, conf.getSpotInfrastructure gwId = some carriers ∧
      ∀ channel ∈ channels, ∃ carrierType,
        channel = channelOf isInput (carriers.socket carrierType) := by
  simp only [readSpot, Option.bind_eq_bind, Option.bind_eq_some_iff] at read
  obtain ⟨carriers, found, sockets, created, looped⟩ := read
  obtain ⟨carrierTypes, rfl⟩ := spotSockets_types created
  have built := foldlM_readCarrier looped
  rw [List.nil_append, List.map_map] at built
  refine ⟨carriers, if (inward && isSatellite || !inward && !isSatellite) = true then isSatellite
    else !isSatellite, found, fun channel mem => ?_⟩
  rw [built] at mem
  obtain ⟨carrierType, -, rfl⟩ := List.mem_map.mp mem
  exact ⟨carrierType, rfl⟩

/-- Below 25, a frame has the number of its carrier and of no other of the spot. -/
theorem id_eq_frameCarrierId {conf : ModelConf} {gwId : UInt16} {carriers : SpotInfrastructure}
    (found : conf.getSpotInfrastructure gwId = some carriers) (few : gwId.toNat < 25)
    (carrierType carrierType' : CarrierType) :
    (carriers.socket carrierType).id.toUInt32 =
      (frameCarrierId (carriers.socket carrierType')).toUInt32 ↔ carrierType = carrierType' := by
  have short := toUnderlying_lt carrierType
  have whole : (carriers.socket carrierType).id.toNat =
      gwId.toNat * 10 + (toUnderlying carrierType).toNat := by
    rw [ModelConf.socket_id found, addCarrierType]
    simp only [UInt16.toNat_add, UInt16.toNat_mul, UInt8.toNat_toUInt16, UInt16.reduceToNat]
    omega
  rw [← UInt32.toNat_inj, UInt16.toNat_toUInt32, UInt8.toNat_toUInt32, whole,
    frameCarrierId_exact found few, Nat.add_left_cancel_iff, UInt8.toNat_inj]
  exact ⟨toUnderlying_injective, congrArg toUnderlying⟩

/-- A channel is found by the identifier its frames carry. -/
theorem sendChannel_of_mem {conf : ModelConf} {gwId : UInt16} {carriers : SpotInfrastructure}
    {isInput : Bool} {channels : List CarrierChannel}
    (found : conf.getSpotInfrastructure gwId = some carriers) (few : gwId.toNat < 25)
    (built : ∀ channel ∈ channels, ∃ carrierType,
      channel = channelOf isInput (carriers.socket carrierType))
    {channel : CarrierChannel} (mem : channel ∈ channels) (output : channel.isOutputOk = true) :
    sendChannel channels (frameCarrierId channel.socket) = some channel := by
  obtain ⟨carrierType, rfl⟩ := built channel mem
  have some_channel : (sendChannel channels
      (frameCarrierId (carriers.socket carrierType))).isSome := by
    rw [sendChannel, List.find?_isSome]
    refine ⟨_, mem, decide_eq_true ⟨?_, output⟩⟩
    exact (id_eq_frameCarrierId found few carrierType carrierType).mpr rfl
  obtain ⟨first, sent⟩ := Option.isSome_iff_exists.mp some_channel
  obtain ⟨carrierType', rfl⟩ := built first (List.mem_of_find?_eq_some sent)
  have matched := List.find?_some (show channels.find? _ = _ from sent)
  obtain rfl := (id_eq_frameCarrierId found few carrierType' carrierType).mp
    (of_decide_eq_true matched).1
  exact sent

/-! ### The law of the configurations -/

theorem GatewaysFit.few {conf : ModelConf} (fit : GatewaysFit conf) {gwId : UInt16}
    {carriers : SpotInfrastructure} (found : conf.getSpotInfrastructure gwId = some carriers) :
    gwId.toNat < 25 := by
  obtain ⟨topo, known⟩ := getSpotInfrastructure_topology found
  exact (fit gwId (found ▸ rfl) topo known).1

theorem GatewaysFit.law {conf : ModelConf} (fit : GatewaysFit conf) : CarrierLaw conf := by
  constructor
  · intro gwId carriers found carrierType
    have short := toUnderlying_lt carrierType
    have frame := frameCarrierId_exact found (fit.few found) carrierType
    exact extractCarrierType_toUnderlying (by omega)
  · intro gwId carriers found carrierType
    obtain ⟨topo, known⟩ := getSpotInfrastructure_topology found
    obtain ⟨few, spots⟩ := fit gwId (found ▸ rfl) topo known
    rw [getGwWithCarrierId_iff known]
    refine ⟨?_, spots⟩
    have short := toUnderlying_lt carrierType
    rw [← UInt16.toNat_inj]
    simp only [UInt32.toNat_toUInt16, UInt32.toNat_div, UInt8.toNat_toUInt32,
      UInt32.reduceToNat, frameCarrierId_exact found few]
    omega
  · intro isInit inward host gwId isSatellite channels read channel mem output
    obtain ⟨carriers, isInput, found, built⟩ := mem_readSpot read
    exact sendChannel_of_mem found (fit.few found) built mem output
  · intro gwId gwId' carriers carriers' found found' other carrierType carrierType' same
    have short := toUnderlying_lt carrierType
    have short' := toUnderlying_lt carrierType'
    have numbers := congrArg UInt8.toNat same
    rw [frameCarrierId_exact found (fit.few found),
      frameCarrierId_exact found' (fit.few found')] at numbers
    exact other (UInt16.toNat_inj.mp (by omega))

theorem CarrierLaw.fit {conf : ModelConf} (law : CarrierLaw conf) : GatewaysFit conf := by
  intro gwId accepted topo known
  obtain ⟨carriers, found⟩ := Option.isSome_iff_exists.mp accepted
  have frame := frameCarrierId_toNat found .dataOutSt
  have gateway := law.gateway gwId carriers found .dataOutSt
  have rest := toUnderlying_extractCarrierType (frameCarrierId (carriers.socket .dataOutSt))
  rw [law.type gwId carriers found .dataOutSt] at rest
  rw [getGwWithCarrierId_iff known] at gateway
  refine ⟨?_, gateway.2⟩
  have quotient := congrArg UInt16.toNat gateway.1
  simp only [UInt32.toNat_toUInt16, UInt32.toNat_div, UInt8.toNat_toUInt32,
    UInt32.reduceToNat] at quotient
  have nine : (toUnderlying .dataOutSt).toNat = 9 := rfl
  omega

/-- The identifiers of the carriers survive in the frames exactly in the configurations whose
gateways with carriers are below 25 and have one spot each. -/
theorem carrierLaw_iff (conf : ModelConf) : CarrierLaw conf ↔ GatewaysFit conf :=
  ⟨CarrierLaw.fit, GatewaysFit.law⟩

/-- A configuration with one gateway and one spot, both of a number. -/
def singleGateway (gwId : Int) : ModelConf where
  infrastructure := some {
    gateways := [{
      entityId := ⟨true, gwId⟩
      int := fun _ => none
      string := fun name => if name = "emu_address" then some "192.168.18.1" else none
      bool := fun _ => none }]
    satellites := [{
      entityId := ⟨true, 30⟩
      int := fun _ => none
      string := fun name => if name = "emu_address" then some "192.168.18.30" else none
      bool := fun _ => none }] }
  topology := some {
    spots := [⟨⟨true, gwId⟩, ⟨true, 30⟩, ⟨true, 30⟩⟩]
    fifoSize := none }

/-- The last carrier of gateway 25 is taken for one of gateway 0. -/
theorem carrierLaw_gateway_25_fails : ¬ ∀ conf : ModelConf, CarrierLaw conf := by
  intro law
  obtain ⟨carriers, found⟩ : ∃ carriers, (singleGateway 25).getSpotInfrastructure 25 =
      some carriers := ⟨_, rfl⟩
  have dataOutSt := (law (singleGateway 25)).type 25 carriers found .dataOutSt
  cases found
  exact absurd dataOutSt (by decide)

end OpenSand.Sat
