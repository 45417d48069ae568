import OpenSand.Dama.CapacityLevels
import OpenSand.Dvb.Sac

/-!
The DAMA controller from the capacity requests to the superframes.

The SACs set what the terminals request, and a superframe resets their allocations before it
computes the new ones. What the terminals measure only reaches the controller as wave forms:
a carriers group and an FMT definition for each terminal.
-/

namespace OpenSand

open OpenSand.Run OpenSand.Word Allocation

namespace TerminalContextDamaRcs

/-- A capacity request; the CRA is taken off an RBDC request. -/
def hereIsRequest (terminal : TerminalContextDamaRcs) (cr : DecodedCr) : TerminalContextDamaRcs :=
  match cr.type with
  | some .damaVbdc => terminal.setRequiredVbdc (min (wrap 16 cr.value) terminal.maxVbdcKb)
  | some .damaRbdc =>
      terminal.setRequiredRbdc
        (min (wrap 16 cr.value - terminal.craRequestKbps) terminal.maxRbdcKbps)
  | _ => terminal

/-- What a request leaves, several of them leave. -/
theorem foldl_hereIsRequest {β : Type*} {field : TerminalContextDamaRcs → β}
    (kept : ∀ terminal cr, field (hereIsRequest terminal cr) = field terminal)
    (requests : List DecodedCr) (terminal : TerminalContextDamaRcs) :
    field (requests.foldl hereIsRequest terminal) = field terminal := by
  induction requests generalizing terminal with
  | nil => rfl
  | cons cr requests ih => exact (ih _).trans (kept terminal cr)

theorem foldl_hereIsRequest_talId (requests : List DecodedCr) (terminal : TerminalContextDamaRcs) :
    (requests.foldl hereIsRequest terminal).talId = terminal.talId := by
  refine foldl_hereIsRequest (fun terminal cr => ?_) requests terminal
  unfold hereIsRequest
  split <;> rfl

def resetAllocations (terminal : TerminalContextDamaRcs) : TerminalContextDamaRcs :=
  (((terminal.setCraAllocation 0).setRbdcAllocation 0).setVbdcAllocation 0).setFcaAllocation 0

theorem resetAllocations_eq (terminal : TerminalContextDamaRcs) :
    terminal.resetAllocations =
      { terminal with
        craAllocKbps := 0
        rbdcAllocKbps := 0
        vbdcAllocKb := 0
        fcaAllocKbps := 0 } := by
  simp [resetAllocations, setCraAllocation, setRbdcAllocation, setVbdcAllocation,
    setFcaAllocation]

/-- Some credit is left when the timer is decremented but does not end. -/
def hasCredit (terminal : TerminalContextDamaRcs) : Bool :=
  0 < terminal.decrementTimer.timerSf ∧ 0 < terminal.rbdcCredit

/-- The reset of a terminal: a packet of its credit is added to its request, which starts
the timer again. Without FMT definition, the credit is lost and the reset fails. -/
def reset (converter : UnitConverterFixedSymbolLength) (terminal : TerminalContextDamaRcs) :
    Bool × TerminalContextDamaRcs :=
  let reset := terminal.resetAllocations.decrementTimer
  if terminal.hasCredit then
    match terminal.fmt with
    | none => (false, reset.setRbdcCredit 0)
    | some fmt =>
        let timeslotKbps :=
          (converter.setModulationEfficiency fmt.modulationEfficiency).pktpfToKbps 1
        (true, (reset.setRequiredRbdc (addW 16 terminal.rbdcRequestKbps timeslotKbps)).setRbdcCredit
          (max (terminal.rbdcCredit - timeslotKbps) 0))
  else (true, reset)

/-- The converter follows the terminals with credit. -/
def resetConverter (converter : UnitConverterFixedSymbolLength)
    (terminal : TerminalContextDamaRcs) : UnitConverterFixedSymbolLength :=
  if terminal.hasCredit then
    terminal.fmt.elim converter fun fmt => converter.setModulationEfficiency fmt.modulationEfficiency
  else converter

end TerminalContextDamaRcs

/-- What happens to the controller. -/
inductive DamaEvent where
  | sac (talId : Nat) (requests : List DecodedCr)
  | superframe (waveForms : Nat → Nat × Option FmtDefinition) (fuel : Nat)

namespace DamaCtrlRcs2Legacy

variable (isGw : Nat → Bool) (legacy : DamaCtrlRcs2Legacy)

def mapTerminals (f : TerminalContextDamaRcs → TerminalContextDamaRcs) : DamaCtrlRcs2Legacy :=
  { legacy with
    categories := legacy.categories.map fun category =>
      { category with terminals := category.terminals.map f } }

def terminals : List TerminalContextDamaRcs := legacy.categories.flatMap (·.terminals)

/-- The SAC of an unknown terminal is discarded, but the program does not survive a capacity
request of a gateway. -/
def hereIsSAC (talId : Nat) (requests : List DecodedCr) : Option DamaCtrlRcs2Legacy :=
  let asks (type : ReturnAccessType) : Bool := requests.any (·.type = some type)
  if legacy.terminals.any (·.talId = talId) then
    some
      { legacy.mapTerminals fun terminal =>
          if terminal.talId = talId then requests.foldl (·.hereIsRequest) terminal else terminal with
        enableVbdc := legacy.enableVbdc || asks .damaVbdc
        enableRbdc := legacy.enableRbdc || asks .damaRbdc }
  else if isGw talId && (asks .damaVbdc || asks .damaRbdc) then none
  else some legacy

def updateWaveForms (waveForms : Nat → Nat × Option FmtDefinition) : DamaCtrlRcs2Legacy :=
  legacy.mapTerminals fun terminal =>
    { terminal with
      carrierId := (waveForms terminal.talId).1
      fmt := (waveForms terminal.talId).2 }

/-- Every terminal is reset, whatever the status of the others. -/
def resetTerminalsAllocations : Bool × DamaCtrlRcs2Legacy :=
  (legacy.terminals.all fun terminal => (terminal.reset legacy.ctrl.converter).1,
    { legacy.mapTerminals fun terminal => (terminal.reset legacy.ctrl.converter).2 with
      ctrl := { legacy.ctrl with
        converter := legacy.terminals.foldl TerminalContextDamaRcs.resetConverter
          legacy.ctrl.converter } })

/-- What the allocations of a superframe start from. -/
def prepare (waveForms : Nat → Nat × Option FmtDefinition) : Bool × DamaCtrlRcs2Legacy :=
  (legacy.resetCarriersCapacity.updateWaveForms waveForms).resetTerminalsAllocations

/-- Nothing is allocated when the reset of a terminal fails; there is no result when the
loop of the FCA does not end. -/
def runOnSuperFrameChange (waveForms : Nat → Nat × Option FmtDefinition) (fuel : Nat) :
    Option DamaCtrlRcs2Legacy :=
  let (ok, prepared) := legacy.prepare waveForms
  if ok then run allocateGroup prepared (prepared.superframe fuel) else some prepared

def step (legacy : DamaCtrlRcs2Legacy) : DamaEvent → Option DamaCtrlRcs2Legacy
  | .sac talId requests => legacy.hereIsSAC isGw talId requests
  | .superframe waveForms fuel => legacy.runOnSuperFrameChange waveForms fuel

/-- A superframe whose FCA is over is the one of the controller. -/
theorem runOnSuperFrameChange_eq {waveForms : Nat → Nat × Option FmtDefinition} {fuel : Nat}
    {legacy' : DamaCtrlRcs2Legacy}
    (h : legacy.runOnSuperFrameChange waveForms fuel = some legacy') :
    legacy' = if (legacy.prepare waveForms).1 then
        (legacy.prepare waveForms).2.computeTerminalsAllocations fuel
      else (legacy.prepare waveForms).2 := by
  unfold runOnSuperFrameChange at h
  dsimp only at h
  split at h
  next ok => rw [if_pos ok, computeTerminalsAllocations_of_run h]
  next failed =>
    rw [if_neg failed]
    exact (Option.some.inj h).symm

end DamaCtrlRcs2Legacy

end OpenSand
