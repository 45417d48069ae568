import OpenSand.Dvb.TerminalCategory
import Mathlib.Logic.Function.Basic

/-!
Allocations and releases of band (`DvbChannel::allocateBand`, `DvbChannel::releaseBand`).

Carriers are exchanged between a category and the default category `SNO`. They are chosen from
the symbol rate list of the category that gives them, from the largest rate on, and then moved
rate by rate. A step that reads an iterator that was not set, an iterator at the end of its map
or a null pointer, or that converts a number out of its range, has no result.
-/

namespace OpenSand

open OpenSand.Word

/-- The inverses that a FMT definition keeps (`modulation_efficiency_inv`, `coding_rate_inv`).
Its constructors do not set them: they may have any value. -/
structure FmtInverses where
  modulationEfficiencyInv : ℚ
  codingRateInv : ℚ

namespace FmtInverses

def kbitsToSym (inverses : FmtInverses) (volKb : Nat) : Nat :=
  ceilW 32 (volKb * 1000 * inverses.modulationEfficiencyInv * inverses.codingRateInv)

end FmtInverses

namespace FmtDefinitionTable

/-- 0 without a definition. -/
def kbitsToSym (table : FmtDefinitionTable) (inverses : UInt8 → FmtInverses) (id : UInt8)
    (volKb : Nat) : Nat :=
  (table.getDefinition id).elim 0 fun _ => (inverses id).kbitsToSym volKb

end FmtDefinitionTable

/-- The last of the identifiers; a group without identifiers has none. -/
def FmtGroup.getMaxFmtId (group : FmtGroup) : Option UInt8 := group.getFmtIds.getLast?

/-- The categories of a band by label. -/
abbrev TerminalCategories := String → Option TerminalCategory

/-! ### The carriers to transfer -/

/-- The variables of the calculation; `ite2` is the key that `carriers_ite2` points to. -/
structure TransferCalculation where
  rateSymps : ℚ
  carriers : SortedMap ℚ Nat
  available : SortedMap ℚ Nat
  ite2 : Option ℚ

namespace TransferCalculation

/-- The carriers taken of a smaller rate are given back, with the ones that are available. -/
def eraseSmaller (state : TransferCalculation) (rate : ℚ) : TransferCalculation :=
  match state.carriers.lookup rate with
  | none => state
  | some _ =>
      { state with
        rateSymps := state.rateSymps + rate * (state.available.lookup rate).getD 0
        available := state.available.modify rate fun number => addW 32 number number
        carriers := state.carriers.erase rate }

/-- One carrier more of the rate of `carriers_ite2`. -/
def oneMore (state : TransferCalculation) : Option TransferCalculation :=
  state.ite2.map fun rate =>
    let carriers :=
      match state.carriers.lookup rate with
      | none => state.carriers.insert rate 1
      | some _ => state.carriers.modify rate fun number => addW 32 number 1
    let smaller := (state.available.entries.map Prod.fst).reverse.filter (· < rate)
    smaller.foldl eraseSmaller
      { state with
        rateSymps := state.rateSymps - rate
        carriers := carriers
        available := state.available.modify rate fun number => subW 32 number 1 }

/-- As many carriers of a rate as it takes and as are available. -/
def takeCarriers (state : TransferCalculation) (rate : ℚ) : Option TransferCalculation :=
  let number := ⌊state.rateSymps / rate⌋₊
  if rate ≤ 0 ∨ 2 ^ 32 ≤ number then none
  else
    let stock := (state.available.lookup rate).getD 0
    let number := min number stock
    some
      { rateSymps := state.rateSymps - rate * number
        carriers := state.carriers.insert rate number
        available := state.available.modify rate fun _ => stock - number
        -- compared with what is left, not with what was there
        ite2 := if number ≠ stock - number then some rate else state.ite2 }

/-- The loop over the rates, from the largest one on. After one carrier more `carriers_ite2` is
at the end, where it is read again if the rate is still positive. -/
def calculate (state : TransferCalculation) : List ℚ → Option TransferCalculation
  | [] =>
      if 0 < state.rateSymps then
        state.oneMore.bind fun state => if 0 < state.rateSymps then none else some state
      else some state
  | rate :: smaller =>
      if 0 < state.rateSymps then
        if state.rateSymps < rate then { state with ite2 := some rate }.calculate smaller
        else (state.takeCarriers rate).bind fun state => state.calculate smaller
      else some state

end TransferCalculation

/-- The carriers to take by rate, with the rate that is left to transfer. -/
def carriersTransferCalculation (category : TerminalCategory) (rateSymps : ℚ) :
    Option (SortedMap ℚ Nat × ℚ) :=
  let state : TransferCalculation :=
    { rateSymps := rateSymps, carriers := .empty, available := category.symbolRateList,
      ite2 := none }
  (state.calculate (category.symbolRateList.entries.map Prod.fst).reverse).map fun state =>
    (state.carriers, state.rateSymps)

/-! ### Their transfer -/

/-- The transfer of the carriers of one rate. The second category may be the first one. -/
def transferRate (durationMs : Nat) (first second : String) (carriersId : Nat) (rate : ℚ)
    (number : Nat) (categories : TerminalCategories) : Option (Bool × TerminalCategories) :=
  (categories first).bind fun category =>
    match category.deallocateCarriers rate number with
    | (false, _, category) => some (false, Function.update categories first (some category))
    | (true, ratio, category) =>
        let categories := Function.update categories first (some category)
        (categories second).bind fun category =>
          (category.addCarriersGroup carriersId category.getFmtGroup number ratio rate
            category.desiredAccess durationMs).map fun category =>
              (true, Function.update categories second (some category))

/-- The rates from the smallest one on; the transfer stops at the first one that fails. -/
def transferRates (durationMs : Nat) (first second : String) :
    List (ℚ × Nat) → Nat → TerminalCategories → Option (Bool × TerminalCategories)
  | [], _, categories => some (true, categories)
  | (rate, number) :: rest, highestId, categories =>
      if number = 0 then transferRates durationMs first second rest highestId categories
      else
        (transferRate durationMs first second (highestId + 1) rate number categories).bind
          fun
          | (false, categories) => some (false, categories)
          | (true, categories) =>
              transferRates durationMs first second rest (highestId + 1) categories

def carriersTransfer (durationMs : Nat) (first second : String) (carriers : SortedMap ℚ Nat)
    (categories : TerminalCategories) : Option (Bool × TerminalCategories) :=
  (categories second).bind fun category =>
    transferRates durationMs first second carriers.entries category.getHighestCarrierId categories

/-! ### The two operations -/

def snoLabel : String := "SNO"

namespace TerminalCategory

/-- The new symbol rate of the category, with its most efficient FMT. -/
def newSymbolRate (inverses : UInt8 → FmtInverses) (newRateKbps : Nat)
    (category : TerminalCategory) : Option ℚ :=
  category.getFmtGroup.bind fun group => group.getMaxFmtId.map fun id =>
    group.modcodDef.kbitsToSym inverses id newRateKbps

end TerminalCategory

section Operations

variable (inverses : UInt8 → FmtInverses) (durationMs : Nat) (catLabel : String)
  (newRateKbps : Nat) (categories : TerminalCategories)

def allocateBand : Option (Bool × TerminalCategories) :=
  match categories snoLabel, categories catLabel with
  | some catSno, some cat =>
      (cat.newSymbolRate inverses newRateKbps).bind fun newRs =>
        let oldRs := cat.getTotalSymbolRate
        if newRs ≤ oldRs then some (false, categories)
        else
          let rsNeeded := newRs - oldRs
          if catSno.getTotalSymbolRate < rsNeeded then some (false, categories)
          else
            (carriersTransferCalculation catSno rsNeeded).bind fun (carriers, _) =>
              carriersTransfer durationMs snoLabel catLabel carriers categories
  | _, _ => some (false, categories)

/-- The carriers without the one that makes the rate too large, of the smallest rate. -/
def withoutSurplus (carriers : SortedMap ℚ Nat) (left : ℚ) : SortedMap ℚ Nat :=
  if left < 0 then
    match carriers.entries.head? with
    | none => carriers
    | some (rate, _) => carriers.modify rate fun number => subW 32 number 1
  else carriers

def releaseBand : Option (Bool × TerminalCategories) :=
  match categories snoLabel, categories catLabel with
  | some _, some cat =>
      (cat.newSymbolRate inverses newRateKbps).bind fun newRs =>
        let oldRs := cat.getTotalSymbolRate
        if oldRs ≤ newRs then some (false, categories)
        else
          (carriersTransferCalculation cat (oldRs - newRs)).bind fun (carriers, left) =>
            carriersTransfer durationMs catLabel snoLabel (withoutSurplus carriers left) categories
  | _, _ => some (false, categories)

end Operations

end OpenSand
