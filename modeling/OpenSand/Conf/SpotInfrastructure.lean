import OpenSand.Sat.SatDispatcher

/-!
The carriers of the spot of a gateway (`OpenSandModelConf::getSpotInfrastructure`), and the
gateway of a carrier (`getGwWithCarrierId`).

The configuration is what these functions read of it: the entities of the infrastructure and
the spots of the topology. Some identifiers are read without a check that they are set, so a
value is there either way.
-/

namespace OpenSand.Conf

/-- A value of a parameter, which is arbitrary until it is set. -/
structure DataValue (α : Type*) where
  isSet : Bool
  value : α

def extractParameterData {α : Type*} (data : DataValue α) : Option α :=
  if data.isSet then some data.value else none

/-- The other parameters of a component that are set. -/
structure Parameters where
  int : String → Option Int
  string : String → Option String
  bool : String → Option Bool

structure Entity extends Parameters where
  entityId : DataValue Int

structure SpotAssignment where
  gatewayId : DataValue Int
  satIdGw : DataValue Int
  satIdSt : DataValue Int

structure Infrastructure where
  gateways : List Entity
  satellites : List Entity

structure Topology where
  spots : List SpotAssignment
  /-- the size of the queues among the settings of the delay -/
  fifoSize : Option Int

structure ModelConf where
  infrastructure : Option Infrastructure
  topology : Option Topology

structure CarrierSocket where
  id : UInt16
  address : String
  port : UInt16
  isMulticast : Bool
  fifoSize : UInt64
  udpStack : UInt32
  udpRmem : UInt32
  udpWmem : UInt32

structure SpotInfrastructure where
  logonIn : CarrierSocket
  logonOut : CarrierSocket
  ctrlInSt : CarrierSocket
  ctrlOutGw : CarrierSocket
  ctrlInGw : CarrierSocket
  ctrlOutSt : CarrierSocket
  dataInSt : CarrierSocket
  dataOutGw : CarrierSocket
  dataInGw : CarrierSocket
  dataOutSt : CarrierSocket

def toUnderlying : CarrierType → UInt8
  | .logonIn => 0
  | .logonOut => 1
  | .ctrlInSt => 2
  | .ctrlOutGw => 3
  | .ctrlInGw => 4
  | .ctrlOutSt => 5
  | .dataInSt => 6
  | .dataOutGw => 7
  | .dataInGw => 8
  | .dataOutSt => 9

/-- `operator +`. -/
def addCarrierType (carrierId : UInt16) (carrierType : CarrierType) : UInt16 :=
  carrierId + (toUnderlying carrierType).toUInt16

def SpotInfrastructure.socket (carriers : SpotInfrastructure) : CarrierType → CarrierSocket
  | .logonIn => carriers.logonIn
  | .logonOut => carriers.logonOut
  | .ctrlInSt => carriers.ctrlInSt
  | .ctrlOutGw => carriers.ctrlOutGw
  | .ctrlInGw => carriers.ctrlInGw
  | .ctrlOutSt => carriers.ctrlOutSt
  | .dataInSt => carriers.dataInSt
  | .dataOutGw => carriers.dataOutGw
  | .dataInGw => carriers.dataInGw
  | .dataOutSt => carriers.dataOutSt

def getEntityById (list : List Entity) (id : Int) : Option Entity :=
  list.find? (·.entityId.value = id)

def getSpotById (topo : Topology) (id : Int) : Option SpotAssignment :=
  topo.spots.find? (·.gatewayId.value = id)

/-- The socket of a carrier: the parameters of the gateway, or else the defaults. -/
def carrierSocket (gateway : Entity) (carrierId : UInt16) (fifoSizes : Int)
    (carrierType : CarrierType) (address port : String) (isMulticast : Bool)
    (fifoSize : String) : CarrierSocket where
  id := addCarrierType carrierId carrierType
  address := address
  port := .ofInt ((gateway.int port).getD
    (55000 + (toUnderlying carrierType).toNat + carrierId.toNat))
  isMulticast := isMulticast
  fifoSize := .ofInt <|
    if (gateway.bool "individual_fifo_sizes").getD false then
      (gateway.int fifoSize).getD fifoSizes
    else fifoSizes
  udpStack := .ofInt ((gateway.int "udp_stack").getD 5)
  udpRmem := .ofInt ((gateway.int "udp_rmem").getD 1048580)
  udpWmem := .ofInt ((gateway.int "udp_wmem").getD 1048580)

/-- The carriers, once their entities are found. -/
def spotCarriers (gwId : UInt16) (gateway : Entity) (fifoSizes : Int)
    (gatewayAddress satelliteStAddress satelliteGwAddress : String) : SpotInfrastructure :=
  let ctrlMulticast := (gateway.string "ctrl_multicast_address").getD
    ("239.137.194." ++ toString (220 + gwId.toNat * 2))
  let dataMulticast := (gateway.string "data_multicast_address").getD
    ("239.137.194." ++ toString (221 + gwId.toNat * 2))
  let socket := carrierSocket gateway (gwId * 10) fifoSizes
  { logonIn := socket .logonIn satelliteStAddress "logon_in_port" false "logon_in_fifo_size"
    logonOut := socket .logonOut gatewayAddress "logon_out_port" false "logon_out_fifo_size"
    ctrlInSt := socket .ctrlInSt satelliteStAddress "ctrl_in_st_port" false "ctrl_in_st_fifo_size"
    ctrlOutGw := socket .ctrlOutGw gatewayAddress "ctrl_out_gw_port" false "ctrl_out_gw_fifo_size"
    ctrlInGw := socket .ctrlInGw satelliteGwAddress "ctrl_in_gw_port" false "ctrl_in_gw_fifo_size"
    ctrlOutSt := socket .ctrlOutSt ctrlMulticast "ctrl_out_st_port" true "ctrl_out_st_fifo_size"
    dataInSt := socket .dataInSt satelliteStAddress "data_in_st_port" false "data_in_st_fifo_size"
    dataOutGw := socket .dataOutGw gatewayAddress "data_out_gw_port" false "data_out_gw_fifo_size"
    dataInGw := socket .dataInGw satelliteGwAddress "data_in_gw_port" false "data_in_gw_fifo_size"
    dataOutSt := socket .dataOutSt dataMulticast "data_out_st_port" true "data_out_st_fifo_size" }

namespace ModelConf

variable (conf : ModelConf)

def getSpotInfrastructure (gwId : UInt16) : Option SpotInfrastructure := do
  let infra ← conf.infrastructure
  let topo ← conf.topology
  let gateway ← getEntityById infra.gateways gwId.toNat
  let defaultFifosSize := topo.fifoSize.getD 10000
  let spot ← getSpotById topo gwId.toNat
  let gatewayAddress ← gateway.string "emu_address"
  let assignedSatForGw ← extractParameterData spot.satIdGw
  let assignedSatForSt ← extractParameterData spot.satIdSt
  let satelliteGw ← getEntityById infra.satellites assignedSatForGw
  let satelliteSt ← getEntityById infra.satellites assignedSatForSt
  let satelliteStAddress ← satelliteSt.string "emu_address"
  let satelliteGwAddress ← satelliteGw.string "emu_address"
  let fifoSizes := (gateway.int "fifos_size").getD defaultFifosSize
  return spotCarriers gwId gateway fifoSizes gatewayAddress satelliteStAddress satelliteGwAddress

/-- The gateway is given even when its spots are not as they should be. -/
def getGwWithCarrierId (carId : UInt32) : Bool × UInt16 :=
  match conf.topology with
  | none => (false, 0)
  | some topo =>
      let gw := (carId / 10).toUInt16
      if topo.spots.all fun spot => (extractParameterData spot.gatewayId).isSome then
        (topo.spots.countP (fun spot => spot.gatewayId.value = (gw.toNat : Int)) = 1, gw)
      else (false, gw)

end ModelConf

/-! ### The identifiers -/

theorem spotCarriers_id (gwId : UInt16) (gateway : Entity) (fifoSizes : Int)
    (gatewayAddress satelliteStAddress satelliteGwAddress : String) (carrierType : CarrierType) :
    ((spotCarriers gwId gateway fifoSizes gatewayAddress satelliteStAddress
      satelliteGwAddress).socket carrierType).id = addCarrierType (gwId * 10) carrierType := by
  cases carrierType <;> rfl

/-- The carriers of a spot are numbered from ten times its gateway on. -/
theorem ModelConf.socket_id {conf : ModelConf} {gwId : UInt16} {carriers : SpotInfrastructure}
    (found : conf.getSpotInfrastructure gwId = some carriers) (carrierType : CarrierType) :
    (carriers.socket carrierType).id = addCarrierType (gwId * 10) carrierType := by
  simp only [getSpotInfrastructure, Option.bind_eq_bind, Option.bind_eq_some_iff,
    Option.pure_def, Option.some.injEq] at found
  obtain ⟨_, _, _, _, _, _, _, _, _, _, _, _, _, _, _, _, _, _, _, _, _, _, rfl⟩ := found
  exact spotCarriers_id ..

end OpenSand.Conf
