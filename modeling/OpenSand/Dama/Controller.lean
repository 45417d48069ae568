import OpenSand.Dama.Terminal
import OpenSand.Dvb.CarriersGroup
import OpenSand.Lib.FairShare
import OpenSand.Lib.Grid
import Std.Data.TreeMap

/-!
Allocation of one carriers group by the DAMA controller (`DamaCtrlRcs2Legacy`).

The four allocations of a superframe (CRA, RBDC, VBDC, FCA) share the remaining
capacity of the group, a 16-bit number of packets. Each of them is a loop over
the terminals of the category that are on the group, sorted or not; terminals are
designated by their position in the category. `grants` records the packets given
by each decrement of the capacity.
-/

namespace OpenSand

open OpenSand.Word Std

/-- What the allocations read and write in the controller: the converter, whose
efficiency follows the terminals, and the capacities kept for the statistics. -/
structure DamaCtrl where
  converter : UnitConverterFixedSymbolLength
  fcaKbps : Nat
  gwRemainingCapacity : Int
  categoryReturnRemainingCapacity : String → Int
  carrierReturnRemainingCapacity : String → Nat → Int

/-- Lower the remaining capacities of the carriers group, the category and the
gateway. -/
def DamaCtrl.charge (ctrl : DamaCtrl) (label : String) (carrierId amount : Nat) : DamaCtrl :=
  { ctrl with
    gwRemainingCapacity := ctrl.gwRemainingCapacity - amount
    categoryReturnRemainingCapacity := Function.update ctrl.categoryReturnRemainingCapacity label
      (ctrl.categoryReturnRemainingCapacity label - amount)
    carrierReturnRemainingCapacity := Function.update ctrl.carrierReturnRemainingCapacity label
      (Function.update (ctrl.carrierReturnRemainingCapacity label) carrierId
        (ctrl.carrierReturnRemainingCapacity label carrierId - amount)) }

/-- The state of an allocation: the controller, the terminals of the category, the
group it works on and the counters of the loop. -/
structure Allocation where
  ctrl : DamaCtrl
  label : String
  terminals : List TerminalContextDamaRcs
  carriers : CarriersGroupDama
  remainingPktpf : Nat
  request : Nat
  alloc : Nat
  grants : List Nat

namespace Allocation

/-- The terminals of the category on the group (`getTerminalsInCarriersGroup`). -/
def inCarriersGroup (run : Allocation) : List Nat :=
  (List.range run.terminals.length).filter fun i =>
    (run.terminals[i]?).any (·.carrierId = run.carriers.carriersId)

def update (run : Allocation) (i : Nat)
    (f : TerminalContextDamaRcs → TerminalContextDamaRcs) : Allocation :=
  { run with terminals := run.terminals.modify i f }

/-- Decrement the remaining capacity for a terminal. -/
def grant (run : Allocation) (packets : Nat) : Allocation :=
  { run with
    remainingPktpf := subW 16 run.remainingPktpf packets
    grants := run.grants ++ [packets] }

def charge (run : Allocation) (amount : Nat) : Allocation :=
  { run with ctrl := run.ctrl.charge run.label run.carriers.carriersId amount }

def addRequest (run : Allocation) (amount : Nat) : Allocation :=
  { run with request := addW 16 run.request amount }

def addAlloc (run : Allocation) (amount : Nat) : Allocation :=
  { run with alloc := addW 16 run.alloc amount }

def resetAlloc (run : Allocation) : Allocation := { run with alloc := 0 }

/-- The converter set to the modulation efficiency of a definition. -/
def withEfficiency (run : Allocation) (fmt : FmtDefinition) : Allocation :=
  { run with ctrl := { run.ctrl with
    converter := run.ctrl.converter.setModulationEfficiency fmt.modulationEfficiency } }

/-- What the loops do for a terminal that has an FMT definition, once the converter
follows it; the others are skipped. -/
def forServed (body : Allocation → Nat → TerminalContextDamaRcs → FmtDefinition → Allocation)
    (run : Allocation) (i : Nat) : Allocation :=
  match run.terminals[i]? with
  | none => run
  | some terminal =>
      match terminal.fmt with
      | none => run
      | some fmt => body (run.withEfficiency fmt) i terminal fmt

/-- The terminals in the order of a stable sort. -/
def sortBy (order : TerminalContextDamaRcs → TerminalContextDamaRcs → Bool) (run : Allocation)
    (tal : List Nat) : List Nat :=
  tal.mergeSort fun i j =>
    match run.terminals[i]?, run.terminals[j]? with
    | some first, some second => order first second
    | _, _ => true

/-- Take the remaining capacity of the group in packets. -/
def start (run : Allocation) : Allocation :=
  { run with remainingPktpf := wrap 16 run.carriers.remainingCapacity, request := 0, alloc := 0 }

/-- Store the remaining capacity in the group. -/
def finish (run : Allocation) : Allocation :=
  { run with carriers := run.carriers.setRemainingCapacity run.remainingPktpf }

/-! ### CRA -/

def craTerminal : Allocation → Nat → Allocation :=
  forServed fun run i terminal fmt =>
    let converter := run.ctrl.converter
    let craPktpf := converter.kbpsToPktpf (fmt.addFec terminal.craRequestKbps)
    let craKbps := fmt.removeFec (converter.pktpfToKbps craPktpf)
    let run := run.addRequest terminal.craRequestKbps
    if run.remainingPktpf < craPktpf then run
    else ((run.grant craPktpf).addAlloc craKbps).update i (·.setCraAllocation craKbps)

def computeDamaCraPerCarrier (run : Allocation) : Allocation :=
  let run := run.start
  (run.inCarriersGroup.foldl craTerminal run).finish

/-! ### RBDC -/

/-- The requests in packets by terminal identifier, and their sum in 16 bits. -/
structure RbdcRequests where
  talRequestPktpf : TreeMap Nat Nat
  totalRequestPktpf : Nat

/-- The packets requested by a terminal, added to the requests. -/
def rbdcRequest (state : Allocation × RbdcRequests) (i : Nat) : Allocation × RbdcRequests :=
  match state.1.terminals[i]? with
  | none => state
  | some terminal =>
      match terminal.fmt with
      | none => state
      | some fmt =>
          let run := state.1.withEfficiency fmt
          let converter := run.ctrl.converter
          let requestPktpf := converter.kbpsToPktpf (fmt.addFec terminal.rbdcRequestKbps)
          let requestKbps := fmt.removeFec (converter.pktpfToKbps requestPktpf)
          (run.addRequest requestKbps,
            { talRequestPktpf := state.2.talRequestPktpf.insert terminal.talId requestPktpf
              totalRequestPktpf := addW 16 state.2.totalRequestPktpf requestPktpf })

def rbdcRequests (run : Allocation) (tal : List Nat) : Allocation × RbdcRequests :=
  tal.foldl rbdcRequest (run, ⟨∅, 0⟩)

/-- The ratio of the requests to the capacity, at least 1. -/
def fairShare (totalRequestPktpf remainingPktpf : Nat) : ℚ :=
  max 1 ((totalRequestPktpf : ℚ) / remainingPktpf)

/-- First step: the integer part of the fair RBDC; its decimal part is a credit. -/
def rbdcInteger (requests : TreeMap Nat Nat) (fairShare : ℚ) : Allocation → Nat → Allocation :=
  forServed fun run i terminal fmt =>
    let converter := run.ctrl.converter
    let fairRbdcPktpf : ℚ := requests.getD terminal.talId 0 / fairShare
    let rbdcAllocPktpf := wrap 16 ⌊fairRbdcPktpf⌋₊
    let rbdcAllocKbps := fmt.removeFec (converter.pktpfToKbps rbdcAllocPktpf)
    let run := (run.update i (·.setRbdcAllocation rbdcAllocKbps)).addAlloc rbdcAllocKbps
    let run := (run.grant rbdcAllocPktpf).charge (converter.pktpfToSymps rbdcAllocPktpf)
    if 1 < fairShare then
      run.update i (·.addRbdcCredit ((fairRbdcPktpf - rbdcAllocPktpf) *
        converter.getPacketBitLength / converter.frameDurationMs / fmt.codingRate))
    else run

/-- Second step for a terminal: one packet when the credit is worth more than one
and the maximum RBDC allows it. -/
def rbdcDecimal : Allocation → Nat → Allocation :=
  forServed fun run i terminal fmt =>
    let converter := run.ctrl.converter
    let slotKbps := fmt.removeFec (converter.pktpfToKbps 1)
    if (slotKbps : ℚ) < terminal.rbdcCredit ∧
        (slotKbps : Int) < terminal.maxRbdcKbps - terminal.rbdcAllocKbps - terminal.craAllocKbps then
      (((run.update i fun terminal => (terminal.setRbdcAllocation
        (addW 16 terminal.rbdcAllocKbps slotKbps)).addRbdcCredit (-slotKbps)).addAlloc
          slotKbps).grant 1).charge (converter.pktpfToSymps 1)
    else run

/-- The second step goes on as long as there is capacity. -/
def rbdcDecimals : Allocation → List Nat → Allocation
  | run, [] => run
  | run, i :: tal => if 0 < run.remainingPktpf then rbdcDecimals (rbdcDecimal run i) tal else run

def computeDamaRbdcPerCarrier (run : Allocation) : Allocation :=
  let run := run.start
  let remaining := run.remainingPktpf
  if remaining = 0 then run
  else
    let tal := run.inCarriersGroup
    let (run, requests) := run.rbdcRequests tal
    if requests.totalRequestPktpf = 0 then run
    else
      let fairShare := fairShare requests.totalRequestPktpf remaining
      let run := tal.foldl (rbdcInteger requests.talRequestPktpf fairShare) run.resetAlloc
      let run := if 1 < fairShare then
          rbdcDecimals run (run.sortBy TerminalContextDamaRcs.creditOrder tal) else run
      run.finish

/-! ### VBDC -/

def vbdcTerminal : Allocation → Nat → Allocation :=
  forServed fun run i terminal fmt =>
    let converter := run.ctrl.converter
    let requestKb := fmt.addFec terminal.vbdcRequestKb
    let requestPkt := converter.kbitsToPkt requestKb
    if requestPkt = 0 then run
    else
      let run := run.addRequest requestKb
      let allocPkt := if requestPkt ≤ run.remainingPktpf then requestPkt else run.remainingPktpf
      let allocKb := fmt.removeFec (converter.pktToKbits allocPkt)
      (((run.grant allocPkt).update i (·.setVbdcAllocation allocKb)).addAlloc allocKb).charge
        (converter.pktpfToSymps allocPkt)

/-- The volumes are served as long as there is capacity; the requests of the
terminals that are left are counted. -/
def vbdcTerminals : Allocation → List Nat → Allocation
  | run, [] => run
  | run, i :: tal =>
      if 0 < run.remainingPktpf then vbdcTerminals (vbdcTerminal run i) tal
      else (i :: tal).foldl (fun run i =>
        run.addRequest (((run.terminals[i]?).map (·.vbdcRequestKb)).getD 0)) run

def computeDamaVbdcPerCarrier (run : Allocation) : Allocation :=
  let run := run.start
  if run.remainingPktpf = 0 then run
  else
    let tal := run.sortBy TerminalContextDamaRcs.vbdcOrder run.inCarriersGroup
    if tal = [] then run
    else (vbdcTerminals run (run.sortBy TerminalContextDamaRcs.vbdcOrder tal)).finish

/-! ### FCA -/

/-- The FCA of a terminal, at the efficiency the converter was left with. -/
def fcaTerminal (run : Allocation) (i : Nat) (fmt : FmtDefinition) : Allocation :=
  let converter := run.ctrl.converter
  let fcaPktpf := converter.kbpsToPktpf (fmt.addFec run.ctrl.fcaKbps)
  let fcaAllocPktpf := if fcaPktpf < run.remainingPktpf then fcaPktpf else run.remainingPktpf
  let fcaAllocKbps := fmt.removeFec (converter.pktpfToKbps fcaAllocPktpf)
  (((run.grant fcaAllocPktpf).update i (·.setFcaAllocation fcaAllocKbps)).addAlloc
    fcaAllocKbps).charge fcaAllocKbps

/-- At most `fuel` turns of the loop over the terminals, and the terminals it has
not passed. A terminal without FMT definition is not passed. -/
def fcaTerminals : Nat → Allocation → List Nat → Allocation × List Nat
  | 0, run, tal => (run, tal)
  | _ + 1, run, [] => (run, [])
  | fuel + 1, run, i :: tal =>
      if 0 < run.remainingPktpf then
        match (run.terminals[i]?).bind (·.fmt) with
        | none => fcaTerminals fuel run (i :: tal)
        | some fmt => fcaTerminals fuel (run.fcaTerminal i fmt) tal
      else (run, i :: tal)

/-- The allocation after at most `fuel` turns of the loop, and whether it is over. -/
def computeDamaFcaPerCarrier (fuel : Nat) (run : Allocation) : Allocation × Bool :=
  let run := run.start
  let tal := run.inCarriersGroup
  if tal = [] ∨ run.remainingPktpf = 0 then (run, true)
  else
    let (run, rest) := fcaTerminals fuel run (run.sortBy TerminalContextDamaRcs.creditOrder tal)
    if rest = [] ∨ run.remainingPktpf = 0 then (run.finish, true) else (run, false)

end Allocation

/-! ### The superframe -/

/-- A category, its terminals and its carriers groups. -/
structure TerminalCategoryDama where
  label : String
  terminals : List TerminalContextDamaRcs
  carriersGroups : List CarriersGroupDama

/-- The controller with its categories; `grants` are the packets given on the groups. -/
structure DamaCtrlRcs2Legacy where
  ctrl : DamaCtrl
  enableRbdc : Bool
  enableVbdc : Bool
  categories : List TerminalCategoryDama
  grants : Nat × Nat → List Nat

/-- The capacities of a category for the statistics. -/
def DamaCtrl.resetCategory (ctrl : DamaCtrl) (category : TerminalCategoryDama) : DamaCtrl :=
  { ctrl with
    categoryReturnRemainingCapacity := Function.update ctrl.categoryReturnRemainingCapacity
      category.label ((category.carriersGroups.map (·.getTotalCapacity)).sum : Nat)
    carrierReturnRemainingCapacity := Function.update ctrl.carrierReturnRemainingCapacity
      category.label (category.carriersGroups.foldl
        (fun capacities carriers =>
          Function.update capacities carriers.carriersId carriers.getTotalCapacity)
        (ctrl.carrierReturnRemainingCapacity category.label)) }

namespace DamaCtrlRcs2Legacy

/-- Every group gets its total capacity in packets. -/
def resetCarriersCapacity (legacy : DamaCtrlRcs2Legacy) : DamaCtrlRcs2Legacy :=
  { legacy with
    ctrl :=
      { legacy.categories.foldl DamaCtrl.resetCategory legacy.ctrl with
        gwRemainingCapacity := ((legacy.categories.map fun category =>
          (category.carriersGroups.map (·.getTotalCapacity)).sum).sum : Nat) }
    categories := legacy.categories.map fun category =>
      { category with
        carriersGroups := category.carriersGroups.map fun carriers =>
          carriers.setRemainingCapacity
            (legacy.ctrl.converter.symToPkt carriers.getTotalCapacity) }
    grants := fun _ => [] }

/-- The groups, by positions of the category and of the group in it. -/
def positions (legacy : DamaCtrlRcs2Legacy) : List (Nat × Nat) :=
  Grid.positions (legacy.categories.map (·.carriersGroups.length))

/-- What an allocation on a group works with. -/
def group (legacy : DamaCtrlRcs2Legacy) (position : Nat × Nat) : Option Allocation := do
  let category ← legacy.categories[position.1]?
  let carriers ← category.carriersGroups[position.2]?
  some
    { ctrl := legacy.ctrl
      label := category.label
      terminals := category.terminals
      carriers := carriers
      remainingPktpf := 0
      request := 0
      alloc := 0
      grants := legacy.grants position }

/-- What an allocation on a group leaves. -/
def store (legacy : DamaCtrlRcs2Legacy) (position : Nat × Nat) (run : Allocation) :
    DamaCtrlRcs2Legacy :=
  { legacy with
    ctrl := run.ctrl
    categories := legacy.categories.modify position.1 fun category =>
      { category with
        terminals := run.terminals
        carriersGroups := category.carriersGroups.set position.2 run.carriers }
    grants := Function.update legacy.grants position run.grants }

def onGroup (phase : Allocation → Allocation) (legacy : DamaCtrlRcs2Legacy)
    (position : Nat × Nat) : DamaCtrlRcs2Legacy :=
  match legacy.group position with
  | none => legacy
  | some run => legacy.store position (phase run)

/-- The CRA of a group; it is refused when less than the requests was allocated. -/
def craGroup (state : DamaCtrlRcs2Legacy × Bool) (position : Nat × Nat) :
    DamaCtrlRcs2Legacy × Bool :=
  match state.1.group position with
  | none => state
  | some run =>
      let run := run.computeDamaCraPerCarrier
      (state.1.store position run, state.2 && decide (run.request ≤ run.alloc))

def computeTerminalsCraAllocation (legacy : DamaCtrlRcs2Legacy) : DamaCtrlRcs2Legacy × Bool :=
  legacy.positions.foldl craGroup (legacy, true)

def computeTerminalsRbdcAllocation (legacy : DamaCtrlRcs2Legacy) : DamaCtrlRcs2Legacy :=
  legacy.positions.foldl (onGroup Allocation.computeDamaRbdcPerCarrier) legacy

def computeTerminalsVbdcAllocation (legacy : DamaCtrlRcs2Legacy) : DamaCtrlRcs2Legacy :=
  legacy.positions.foldl (onGroup Allocation.computeDamaVbdcPerCarrier) legacy

/-- The FCA of the groups, up to the one whose loop is not over. -/
def fcaGroups (fuel : Nat) : DamaCtrlRcs2Legacy → List (Nat × Nat) → DamaCtrlRcs2Legacy
  | legacy, [] => legacy
  | legacy, position :: rest =>
      match legacy.group position with
      | none => fcaGroups fuel legacy rest
      | some run =>
          let (run, ended) := run.computeDamaFcaPerCarrier fuel
          if ended then fcaGroups fuel (legacy.store position run) rest
          else legacy.store position run

def computeTerminalsFcaAllocation (fuel : Nat) (legacy : DamaCtrlRcs2Legacy) :
    DamaCtrlRcs2Legacy :=
  if legacy.ctrl.fcaKbps = 0 then legacy else fcaGroups fuel legacy legacy.positions

/-- The four allocations; the last three are skipped when the CRA is refused. -/
def computeTerminalsAllocations (fuel : Nat) (legacy : DamaCtrlRcs2Legacy) :
    DamaCtrlRcs2Legacy :=
  let (legacy, accepted) := legacy.computeTerminalsCraAllocation
  if accepted then
    let legacy := if legacy.enableRbdc then legacy.computeTerminalsRbdcAllocation else legacy
    let legacy := if legacy.enableVbdc then legacy.computeTerminalsVbdcAllocation else legacy
    legacy.computeTerminalsFcaAllocation fuel
  else legacy

end DamaCtrlRcs2Legacy

end OpenSand
