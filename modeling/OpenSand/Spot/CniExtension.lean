import OpenSand.Common.NetPacket
import OpenSand.Fmt.StFmtSimu
import OpenSand.Lib.Run
import Mathlib.Data.String.Basic

/-!
The report of the C/N in header extensions (`DvbFmt::setPacketExtension`, `addCniExt`).

A gateway reports the C/N of the SCPC terminals in the packets to them, a SCPC terminal reports
its own in the packets to the gateway. The value is put in a queued packet, or in an empty one
when there is none. The plugin is asked anew in each call, where it is given each terminal
once at most. The record keeps the reports that were queued, the last one first.
-/

namespace OpenSand

/-! ### What both sides do -/

/-- `std::round`: a half is rounded away from 0. -/
def roundHalfAway (x : ℚ) : Int := if 0 ≤ x then ⌊x + 1 / 2⌋ else ⌈x - 1 / 2⌉

/-- The value carried: hundredths in a 16-bit integer, extended to a 32-bit word. -/
def hcnton (cn : ℚ) : Nat := ((roundHalfAway (cn * 100)).bmod (2 ^ 16) % 2 ^ 32).toNat

/-- The check keeps the packet when it can have an extension. The extension gives the new
packet, or fails. -/
structure CniPlugin where
  checkPacketForHeaderExtensions : NetPacket → Option NetPacket
  setHeaderExtensions : Option NetPacket → Nat → Nat → Nat → Option NetPacket

/-- The terminals, the ones that were put in the FIFOs in this call (`list_st`, `in_fifo`), and
the reports that were queued. -/
structure CniState where
  sts : StFmtSimuMap
  listSt : List Nat
  reports : List (Nat × Nat)

/-- A side of the link: the terminal that a packet can report, and the source of the packets. -/
structure CniSide where
  about : NetPacket → Option Nat
  source : Nat
  isGw : Bool

/-- The C/N required, as it is carried. -/
def StFmtSimuMap.cniValue (sts : StFmtSimuMap) (tables : ModcodDef → FmtDefinitionTable)
    (talId : Nat) : Nat := hcnton (sts.getRequiredCni tables talId).1

namespace CniSide

variable (tables : ModcodDef → FmtDefinitionTable) (plugin : CniPlugin) (side : CniSide)

/-- The terminal that a packet to a destination reports. -/
def reported (dest : Nat) : Nat := if side.isGw then dest else side.source

/-- The value is read, and with it the change is considered reported, before the plugin is
called. -/
def setPacketExtension (sts : StFmtSimuMap) (packet : Option NetPacket) (dest : Nat) :
    StFmtSimuMap × Option NetPacket :=
  ((sts.getRequiredCni tables (side.reported dest)).2,
    plugin.setHeaderExtensions (packet.bind plugin.checkPacketForHeaderExtensions) side.source dest
      (sts.cniValue tables (side.reported dest)))

/-- The state after the report of a terminal was queued. -/
def record (s : CniState) (dest : Nat) : CniState :=
  { s with
    sts := (s.sts.getRequiredCni tables (side.reported dest)).2
    reports := (side.reported dest, s.sts.cniValue tables (side.reported dest)) :: s.reports }

/-- The extension of the packets of a queue. -/
def extension : CniExtension CniState NetPacket where
  isWanted s packet := (side.about packet).any s.sts.getCniHasChanged
  setPacketExtension s packet :=
    match side.setPacketExtension tables plugin s.sts (some packet) packet.dstTalId with
    | (sts, none) => ({ s with sts := sts }, none)
    | (_, some extended) =>
        let s := side.record tables s packet.dstTalId
        ({ s with listSt := s.listSt ++ [side.reported packet.dstTalId] }, some extended)

/-- An empty packet with an extension is queued; a full FIFO drops it without an error. -/
def sendEmpty (s : CniState) (dest : Nat) (fifo : Option (DvbFifo NetPacket)) :
    Option (Bool × CniState × Option (DvbFifo NetPacket)) :=
  match side.setPacketExtension tables plugin s.sts none dest with
  | (sts, none) => some (false, { s with sts := sts }, fifo)
  | (sts, some extended) =>
      fifo.bind fun fifo => (fifo.pushBack ⟨some extended, 0, 0⟩).map fun (pushed, fifo) =>
        (true, if pushed then side.record tables s dest else { s with sts := sts }, some fifo)

end CniSide

/-! ### The gateway -/

/-- The downward channel of a gateway spot, as far as the reports go. The FIFOs are sorted by
category and by priority. -/
structure CniGateway where
  state : CniState
  macId : Nat
  isTalScpc : List Nat
  terminalAffectation : Nat → Option (Option String)
  defaultCategory : Option String
  fifos : SortedMap String (SortedMap Nat (DvbFifo NetPacket))

namespace CniGateway

variable (tables : ModcodDef → FmtDefinitionTable) (plugin : CniPlugin) (gateway : CniGateway)

/-- The packets to a SCPC terminal report it. -/
def side : CniSide where
  about packet :=
    if packet.dstTalId ∈ gateway.isTalScpc then some packet.dstTalId else none
  source := gateway.macId
  isGw := true

/-- The label of the category of a terminal, if there is one. -/
def categoryLabel (talId : Nat) : Option String :=
  match gateway.terminalAffectation talId with
  | some category => category
  | none => gateway.defaultCategory

/-- The turn of a terminal of the list, after the queued packets. -/
def sendSilent (gateway : CniGateway) (talId : Nat) : Option (Bool × CniGateway) :=
  if talId ∉ gateway.state.listSt ∧ talId ∈ gateway.isTalScpc ∧
      gateway.state.sts.getCniHasChanged talId = true then
    match gateway.categoryLabel talId with
    | none => some (false, gateway)
    | some label =>
        match gateway.fifos.lookup label with
        | none => some (false, gateway)
        | some fifos =>
            (gateway.side.sendEmpty tables plugin gateway.state talId (fifos.lookup 0)).map
              fun (ok, state, fifo) => (ok, { gateway with
                state := state
                fifos := gateway.fifos.modify label fun fifos =>
                  fifos.modify 0 fun former => fifo.getD former })
  else some (true, gateway)

def addCniExt : Option (Bool × CniGateway) :=
  (gateway.fifos.forValuesWhile (SortedMap.forValuesWhile (DvbFifo.addCniExt
      (gateway.side.extension tables plugin))) { gateway.state with listSt := [] }).bind
    fun (ok, state, fifos) =>
      let gateway := { gateway with state := state, fifos := fifos }
      if !ok then some (false, gateway)
      -- try to send an empty packet if no packet was found for a terminal
      else Run.forEach (sendSilent tables plugin) gateway gateway.state.sts.ids.keys

end CniGateway

/-! ### The terminal -/

structure CniTerminal where
  state : CniState
  talId : Nat
  gwId : Nat
  isScpc : Bool
  fifos : SortedMap Nat (DvbFifo NetPacket)

namespace CniTerminal

variable (tables : ModcodDef → FmtDefinitionTable) (plugin : CniPlugin) (terminal : CniTerminal)

/-- The packets to the gateway report a SCPC terminal. -/
def side : CniSide where
  about packet :=
    if packet.dstTalId = terminal.gwId ∧ terminal.isScpc then some terminal.talId else none
  source := terminal.talId
  isGw := false

def addCniExt : Option (Bool × CniTerminal) :=
  (terminal.fifos.forValuesWhile (DvbFifo.addCniExt (terminal.side.extension tables plugin))
      { terminal.state with listSt := [] }).bind fun (ok, state, fifos) =>
    let terminal := { terminal with state := state, fifos := fifos }
    if !ok then some (false, terminal)
    else if terminal.isScpc ∧ state.sts.getCniHasChanged terminal.talId ∧ state.listSt = [] then
      (terminal.side.sendEmpty tables plugin state terminal.gwId (fifos.lookup 0)).map
        fun (ok, state, fifo) => (ok, { terminal with
          state := state
          fifos := fifos.modify 0 fun former => fifo.getD former })
    else some (true, terminal)

end CniTerminal

end OpenSand
