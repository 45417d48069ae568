import OpenSand.Dama.UnitConverter

/-!
Terminals as the DAMA controller sees them (`TerminalContextDama`,
`TerminalContextDamaRcs`): what they ask for and what they are allocated.
-/

namespace OpenSand

open OpenSand.Word

structure TerminalContextDamaRcs where
  talId : Nat
  carrierId : Nat
  /-- No definition when the terminal cannot be served. -/
  fmt : Option FmtDefinition
  craRequestKbps : Nat
  maxRbdcKbps : Nat
  rbdcTimeoutSf : Nat
  maxVbdcKb : Nat
  timerSf : Nat
  rbdcRequestKbps : Nat
  rbdcCredit : ℚ
  vbdcRequestKb : Nat
  craAllocKbps : Nat
  rbdcAllocKbps : Nat
  vbdcAllocKb : Nat
  fcaAllocKbps : Nat

namespace TerminalContextDamaRcs

def setCraAllocation (valKbps : Nat) (terminal : TerminalContextDamaRcs) :
    TerminalContextDamaRcs :=
  { terminal with craAllocKbps := valKbps }

/-- The request is limited to the maximum RBDC and starts the timer. -/
def setRequiredRbdc (valKbps : Nat) (terminal : TerminalContextDamaRcs) :
    TerminalContextDamaRcs :=
  { terminal with
    rbdcRequestKbps := min valKbps terminal.maxRbdcKbps
    rbdcCredit := 0
    timerSf := terminal.rbdcTimeoutSf }

def setRbdcAllocation (valKbps : Nat) (terminal : TerminalContextDamaRcs) :
    TerminalContextDamaRcs :=
  { terminal with rbdcAllocKbps := valKbps }

def addRbdcCredit (credit : ℚ) (terminal : TerminalContextDamaRcs) : TerminalContextDamaRcs :=
  { terminal with rbdcCredit := terminal.rbdcCredit + credit }

def setRbdcCredit (credit : ℚ) (terminal : TerminalContextDamaRcs) : TerminalContextDamaRcs :=
  { terminal with rbdcCredit := credit }

def decrementTimer (terminal : TerminalContextDamaRcs) : TerminalContextDamaRcs :=
  { terminal with timerSf := terminal.timerSf - 1 }

/-- The requests are added in 16 bits, then limited to the maximum VBDC. -/
def setRequiredVbdc (valKb : Nat) (terminal : TerminalContextDamaRcs) : TerminalContextDamaRcs :=
  { terminal with
    vbdcRequestKb := min (addW 16 terminal.vbdcRequestKb valKb) terminal.maxVbdcKb }

/-- The volume granted lowers the outstanding request, down to 0. -/
def setVbdcAllocation (valKb : Nat) (terminal : TerminalContextDamaRcs) :
    TerminalContextDamaRcs :=
  { terminal with
    vbdcAllocKb := valKb
    vbdcRequestKb := if valKb ≤ terminal.vbdcRequestKb then terminal.vbdcRequestKb - valKb else 0 }

theorem setVbdcAllocation_vbdcRequestKb (valKb : Nat) (terminal : TerminalContextDamaRcs) :
    (terminal.setVbdcAllocation valKb).vbdcRequestKb = terminal.vbdcRequestKb - valKb := by
  dsimp only [setVbdcAllocation]
  split
  · rfl
  · omega

def setFcaAllocation (valKbps : Nat) (terminal : TerminalContextDamaRcs) :
    TerminalContextDamaRcs :=
  { terminal with fcaAllocKbps := valKbps }

/-- `sortByRemainingCredit` and `sortByVbdcReq`, as the order of a stable sort:
the first terminal does not come after the second one. -/
def creditOrder (first second : TerminalContextDamaRcs) : Bool :=
  second.rbdcCredit ≤ first.rbdcCredit

def vbdcOrder (first second : TerminalContextDamaRcs) : Bool :=
  second.vbdcRequestKb ≤ first.vbdcRequestKb

end TerminalContextDamaRcs

end OpenSand
