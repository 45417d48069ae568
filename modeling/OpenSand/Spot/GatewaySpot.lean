import OpenSand.Dama.DamaCtrlRcs2
import OpenSand.Fmt.StFmtSimu

/-!
The logons and the logoffs of a gateway spot (`SpotUpward`, `SpotDownward`, `BlockDvbNcc`).

The upward channel handles a logon and shares it with the downward one, which also handles
the logoffs. The two channels have the same lists of terminals, and each has its own list of
the SCPC terminals. A message is handled by both channels before the next one.
-/

namespace OpenSand

/-- The terminals of Slotted Aloha. A terminal affected to no category is added to the default
one; the category of an affectation is missing when the terminal does not use it. -/
structure SalohaTerminals where
  terminalAffectation : Nat → Option (Option String)
  defaultCategory : Option String
  categories : List String
  terminals : List Nat

namespace SalohaTerminals

variable (saloha : SalohaTerminals)

def affectedCategory (talId : Nat) : Option (Option String) :=
  match saloha.terminalAffectation talId with
  | none => saloha.defaultCategory.map some
  | some category => some category

/-- A terminal whose category is not concerned by Slotted Aloha is accepted and not added. -/
def addTerminal (talId : Nat) : Bool × SalohaTerminals :=
  if talId ∈ saloha.terminals then (true, saloha)
  else if broadcastTalId ≤ talId then (false, saloha)
  else
    match saloha.affectedCategory talId with
    | none => (false, saloha)
    | some none => (true, saloha)
    | some (some label) =>
        if label ∈ saloha.categories then
          (true, { saloha with terminals := saloha.terminals ++ [talId] })
        else (true, saloha)

end SalohaTerminals

/-- What the spot reads of its configuration. -/
structure SpotConfig where
  isGw : Nat → Bool
  macId : Nat
  tables : ModcodDef → FmtDefinitionTable

/-- The list of the SCPC terminals of each channel, with the lists and the controllers. -/
structure GatewaySpot where
  inputSts : StFmtSimuMap
  outputSts : StFmtSimuMap
  upwardScpc : List Nat
  downwardScpc : List Nat
  saloha : Option SalohaTerminals
  damaCtrl : Option DamaCtrlRcs2

inductive SpotMessage where
  | logon (request : LogonRequest) (isScpc : Bool)
  | logoff (mac : Nat)

namespace GatewaySpot

variable (config : SpotConfig) (spot : GatewaySpot)

/-- A terminal gets the least robust MODCOD at first. -/
def addInputTerminal (id : Nat) (modcodDef : ModcodDef) : GatewaySpot :=
  { spot with
    inputSts := spot.inputSts.addTerminal id (config.tables modcodDef).getMaxId modcodDef }

def addOutputTerminal (id : Nat) (modcodDef : ModcodDef) : GatewaySpot :=
  { spot with
    outputSts := spot.outputSts.addTerminal id (config.tables modcodDef).getMaxId modcodDef }

/-- The terminal is in both lists. -/
def isRegistered (mac : Nat) : Bool :=
  spot.inputSts.isStPresent mac && spot.outputSts.isStPresent mac

/-! ### The upward channel -/

def outputLogon (mac : Nat) : GatewaySpot :=
  if spot.isRegistered mac then spot else spot.addOutputTerminal config mac .s2

/-- The SCPC terminals use the DVB-S2 table on their way in, the others the DVB-RCS2 one. -/
def inputLogon (mac : Nat) (isScpc : Bool) : GatewaySpot :=
  if isScpc then
    let spot := { spot with upwardScpc := spot.upwardScpc ++ [mac] }
    if spot.isRegistered mac then spot else spot.addInputTerminal config mac .s2
  else if spot.isRegistered mac then spot else spot.addInputTerminal config mac .rcs2

def salohaLogon (mac : Nat) : Bool × GatewaySpot :=
  match spot.saloha with
  | none => (true, spot)
  | some saloha =>
      ((saloha.addTerminal mac).1, { spot with saloha := some (saloha.addTerminal mac).2 })

def onRcvLogonReq (mac : Nat) (isScpc : Bool) : Bool × GatewaySpot :=
  -- the identifier of a gateway is refused
  if config.isGw mac || mac = config.macId then (false, spot)
  else ((spot.outputLogon config mac).inputLogon config mac isScpc).salohaLogon mac

/-! ### The downward channel -/

/-- The DAMA controller is not informed of a SCPC terminal. -/
def handleLogonReq (request : LogonRequest) (isScpc : Bool) : Bool × GatewaySpot :=
  if isScpc then (true, { spot with downwardScpc := spot.downwardScpc ++ [request.mac] })
  else
    match spot.damaCtrl with
    | none => (true, spot)
    | some dama =>
        ((dama.hereIsLogon request).1, { spot with damaCtrl := some (dama.hereIsLogon request).2 })

def delInputTerminal (id : Nat) : Bool × GatewaySpot :=
  ((spot.inputSts.delTerminal id).1, { spot with inputSts := (spot.inputSts.delTerminal id).2 })

def delOutputTerminal (id : Nat) : Bool × GatewaySpot :=
  ((spot.outputSts.delTerminal id).1, { spot with outputSts := (spot.outputSts.delTerminal id).2 })

/-- The status of the DAMA controller is ignored. -/
def handleLogoffReq (mac : Nat) : Option (Bool × GatewaySpot) :=
  let (deleted, spot) := spot.delInputTerminal mac
  if !deleted then some (false, spot)
  else
    let (deleted, spot) := spot.delOutputTerminal mac
    if !deleted then some (false, spot)
    else
      match spot.damaCtrl with
      | none => some (true, spot)
      | some dama => (dama.hereIsLogoff mac).map fun (_, dama) =>
          (true, { spot with damaCtrl := some dama })

/-! ### The messages -/

/-- A logon that the upward channel refuses is not shared. -/
def receive : SpotMessage → Option (Bool × GatewaySpot)
  | .logon request isScpc =>
      let (shared, spot) := spot.onRcvLogonReq config request.mac isScpc
      some (if !shared then (false, spot) else spot.handleLogonReq request isScpc)
  | .logoff mac => spot.handleLogoffReq mac

/-- A spot without terminals. -/
def start (inputMarginDb outputMarginDb : ℚ) (saloha : Option SalohaTerminals)
    (damaCtrl : Option DamaCtrlRcs2) : GatewaySpot :=
  ⟨.new inputMarginDb, .new outputMarginDb, [], [], saloha, damaCtrl⟩

end GatewaySpot

end OpenSand
