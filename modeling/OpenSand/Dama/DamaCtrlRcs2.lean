import OpenSand.Dama.Requests
import OpenSand.Lib.Registry

/-!
The DAMA controller with its terminal map (`DamaCtrl`, `DamaCtrlRcs2`).

The contexts of the terminals are created by the logons and designated by their position in
the order of their creation; the map of the terminals and the lists of the categories hold
these positions. A step of the program that follows a wrong position has no result. The
statistics are exact integers.
-/

namespace OpenSand

open OpenSand.Registry OpenSand.Word

/-- A context, and the label of the category that it was added to. -/
structure TerminalRecord where
  context : TerminalContextDamaRcs
  currentCategory : String

/-- A category with the positions of the contexts of its terminals. -/
structure CategoryTerminals where
  label : String
  terminals : List Nat
  carriersGroups : List CarriersGroupDama

structure LogonRequest where
  mac : Nat
  rtBandwidth : Nat
  maxRbdc : Nat
  maxVbdc : Nat

structure PepRequest where
  stId : Nat
  cra : Nat
  rbdc : Nat
  rbdcMax : Nat

/-- A terminal affected to no category is added to the default one; the category of an
affectation is missing when the terminal does not use DAMA. -/
structure DamaCtrlRcs2 where
  ctrl : DamaCtrl
  enableRbdc : Bool
  enableVbdc : Bool
  rbdcTimeoutSf : Nat
  terminalAffectation : Nat → Option (Option String)
  defaultCategory : Option String
  records : List TerminalRecord
  terminals : AList fun _ : Nat => Nat
  categories : List CategoryTerminals
  gwStNum : Int
  gwRbdcMaxKbps : Int

/-- The identifiers from this one on have no probes of their own. -/
def broadcastTalId : Nat := 31

namespace TerminalContextDamaRcs

def updateRbdcTimeout (timeoutSf : Nat) (terminal : TerminalContextDamaRcs) :
    TerminalContextDamaRcs :=
  { terminal with rbdcTimeoutSf := timeoutSf }

def setRequiredCra (valKbps : Nat) (terminal : TerminalContextDamaRcs) : TerminalContextDamaRcs :=
  { terminal with craRequestKbps := valKbps }

def setMaxRbdc (valKbps : Nat) (terminal : TerminalContextDamaRcs) : TerminalContextDamaRcs :=
  { terminal with maxRbdcKbps := valKbps }

end TerminalContextDamaRcs

namespace DamaCtrlRcs2

variable (isGw : Nat → Bool) (dama : DamaCtrlRcs2)

/-! ### Logons and logoffs -/

/-- A terminal is on no carriers group before the first superframe. -/
def createTerminal (logon : LogonRequest) : TerminalContextDamaRcs where
  talId := logon.mac
  carrierId := 0
  fmt := none
  craRequestKbps := logon.rtBandwidth
  maxRbdcKbps := logon.maxRbdc
  rbdcTimeoutSf := dama.rbdcTimeoutSf
  maxVbdcKb := logon.maxVbdc
  timerSf := 0
  rbdcRequestKbps := 0
  rbdcCredit := 0
  vbdcRequestKb := 0
  craAllocKbps := 0
  rbdcAllocKbps := 0
  vbdcAllocKb := 0
  fcaAllocKbps := 0

/-- The category that a terminal logs on to: none when there is no default one, a missing
one when the terminal does not use DAMA. -/
def affectedCategory (talId : Nat) : Option (Option String) :=
  match dama.terminalAffectation talId with
  | none => dama.defaultCategory.map some
  | some category => some category

def addTerminal (category : CategoryTerminals) (label : String) (ref : Nat) : CategoryTerminals :=
  { category with
    terminals := if category.label = label then category.terminals ++ [ref] else category.terminals }

/-- The context created is added to the map and to its category. -/
def logOn (logon : LogonRequest) (label : String) : DamaCtrlRcs2 :=
  { dama with
    records := dama.records ++ [⟨dama.createTerminal logon, label⟩]
    terminals := dama.terminals.insert logon.mac dama.records.length
    categories := dama.categories.map fun category =>
      addTerminal category label dama.records.length
    gwStNum := dama.gwStNum + 1
    gwRbdcMaxKbps := dama.gwRbdcMaxKbps + logon.maxRbdc }

/-- A second logon is accepted and changes nothing, as the one of a terminal whose category
is not concerned by DAMA. -/
def hereIsLogon (logon : LogonRequest) : Bool × DamaCtrlRcs2 :=
  if logon.mac ∈ dama.terminals then (true, dama)
  else
    match dama.affectedCategory logon.mac with
    | none => (false, dama)
    | some none => (true, dama)
    | some (some label) =>
        if label ∈ dama.categories.map (·.label) then (true, dama.logOn logon label)
        else (true, dama)

/-- The terminals of a category are searched by identifier. -/
def hasTerminal (talId : Nat) (ref : Nat) : Bool :=
  (dama.records[ref]?).any (·.context.talId = talId)

def removeTerminal (category : CategoryTerminals) (label : String) (talId : Nat) :
    CategoryTerminals :=
  { category with
    terminals := if category.label = label then category.terminals.eraseP (dama.hasTerminal talId)
      else category.terminals }

/-- The statistics and the map are updated before the category, where the removal may fail. -/
def hereIsLogoff (talId : Nat) : Option (Bool × DamaCtrlRcs2) :=
  match dama.terminals.lookup talId with
  | none => some (false, dama)
  | some ref =>
      (dama.records[ref]?).map fun record =>
        ((dama.categories.find? (·.label = record.currentCategory)).all
            (·.terminals.any (dama.hasTerminal record.context.talId)),
          { dama with
            gwStNum := dama.gwStNum - 1
            gwRbdcMaxKbps := dama.gwRbdcMaxKbps - record.context.maxRbdcKbps
            terminals := dama.terminals.erase record.context.talId
            categories := dama.categories.map fun category =>
              dama.removeTerminal category record.currentCategory record.context.talId })

/-! ### Requests and commands -/

def modifyContext (ref : Nat) (f : TerminalContextDamaRcs → TerminalContextDamaRcs) :
    DamaCtrlRcs2 :=
  { dama with records := dama.records.modify ref fun record =>
      { record with context := f record.context } }

/-- The program does not survive a capacity request of a gateway. -/
def hereIsSAC (talId : Nat) (requests : List DecodedCr) : Option (Bool × DamaCtrlRcs2) :=
  let asks (type : ReturnAccessType) : Bool := requests.any (·.type = some type)
  match dama.terminals.lookup talId with
  | none =>
      if isGw talId then
        if asks .damaVbdc || asks .damaRbdc then none else some (true, dama)
      else some (false, dama)
  | some ref =>
      (dama.records[ref]?).map fun _ =>
        (true,
          { dama.modifyContext ref (requests.foldl (·.hereIsRequest)) with
            enableVbdc := dama.enableVbdc || asks .damaVbdc
            enableRbdc := dama.enableRbdc || asks .damaRbdc })

/-- The RBDC of a PEP is requested with a longer timeout. -/
def injectRbdc (rbdcKbps : Nat) (terminal : TerminalContextDamaRcs) : TerminalContextDamaRcs :=
  ((terminal.updateRbdcTimeout 100).setRequiredRbdc rbdcKbps).updateRbdcTimeout dama.rbdcTimeoutSf

/-- Null values are not applied; the program does not survive the change of the maximum RBDC
of a terminal without probes. -/
def applyPepCommand (request : PepRequest) : Option (Bool × DamaCtrlRcs2) :=
  match dama.terminals.lookup request.stId with
  | none => some (false, dama)
  | some ref =>
      (dama.records[ref]?).bind fun record =>
        let applied :=
          if request.cra = 0 then dama
          else dama.modifyContext ref (·.setRequiredCra request.cra)
        let limited :=
          if request.rbdcMax = 0 then some applied
          else if broadcastTalId ≤ record.context.talId then none
          else some
            { applied.modifyContext ref (·.setMaxRbdc request.rbdcMax) with
              gwRbdcMaxKbps :=
                applied.gwRbdcMaxKbps - record.context.maxRbdcKbps + request.rbdcMax }
        limited.map fun limited =>
          (true,
            if request.rbdc = 0 then limited
            else limited.modifyContext ref (dama.injectRbdc request.rbdc))

/-! ### Superframes -/

/-- The contexts of a category. -/
def contexts (refs : List Nat) : List TerminalContextDamaRcs :=
  refs.filterMap fun ref => (dama.records[ref]?).map (·.context)

/-- The controller with the contexts in its categories. -/
def legacy : DamaCtrlRcs2Legacy where
  ctrl := dama.ctrl
  enableRbdc := dama.enableRbdc
  enableVbdc := dama.enableVbdc
  categories := dama.categories.map fun category =>
    ⟨category.label, dama.contexts category.terminals, category.carriersGroups⟩
  grants := fun _ => []

/-- The carriers groups of the categories, by position. -/
def setCarriersGroups (carriersGroups : Nat → List CarriersGroupDama) : DamaCtrlRcs2 :=
  { dama with categories := dama.categories.mapIdx fun i category =>
      { category with carriersGroups := carriersGroups i } }

/-- What the allocations leave in the contexts and in the carriers groups. -/
def store (legacy : DamaCtrlRcs2Legacy) : DamaCtrlRcs2 :=
  let written := ((dama.categories.flatMap (·.terminals)).zip legacy.terminals).foldl
    (fun dama (ref, terminal) => dama.modifyContext ref fun _ => terminal) dama
  { written.setCarriersGroups fun i =>
      ((legacy.categories[i]?).map (·.carriersGroups)).getD [] with
    ctrl := legacy.ctrl }

def runOnSuperFrameChange (waveForms : Nat → Nat × Option FmtDefinition) (fuel : Nat) :
    Option DamaCtrlRcs2 :=
  (dama.legacy.runOnSuperFrameChange waveForms fuel).map dama.store

end DamaCtrlRcs2

/-- What the gateway gives to its controller. An SVNO command only moves carriers between
the categories. -/
inductive DamaCommand where
  | logon (request : LogonRequest)
  | logoff (talId : Nat)
  | sac (talId : Nat) (requests : List DecodedCr)
  | pep (request : PepRequest)
  | svno (carriersGroups : Nat → List CarriersGroupDama)
  | superframe (waveForms : Nat → Nat × Option FmtDefinition) (fuel : Nat)

/-- The status and the controller after a command. -/
def DamaCtrlRcs2.receive (isGw : Nat → Bool) (dama : DamaCtrlRcs2) :
    DamaCommand → Option (Bool × DamaCtrlRcs2)
  | .logon request => some (dama.hereIsLogon request)
  | .logoff talId => dama.hereIsLogoff talId
  | .sac talId requests => dama.hereIsSAC isGw talId requests
  | .pep request => dama.applyPepCommand request
  | .svno carriersGroups => some (true, dama.setCarriersGroups carriersGroups)
  | .superframe waveForms fuel => (dama.runOnSuperFrameChange waveForms fuel).map fun dama =>
      (true, dama)

end OpenSand
