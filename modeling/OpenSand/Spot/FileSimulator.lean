import OpenSand.Common.NetPacket
import OpenSand.Lib.Scanf

/-!
The events that are simulated from a file (`FileSimulator`).

A line of the file is kept from one call to the next: a call sends the events of its superframe
and stops at the first later one. Three patterns are tried on a line, and the number that they
store ends the loop of a call even when none of them matches.
-/

namespace OpenSand

open CharStream Scanf

def SIMU_BUFF_LEN : Nat := 255

inductive SimulatedRequest where
  | cr (stRequest : UInt32) (crType : UInt8)
  | logon (stRt stRbdc stVbdc : UInt16)
  | logoff
deriving DecidableEq, Repr

/-- A request of a terminal in a superframe. -/
structure SimulatedEvent where
  sfNr : UInt16
  stId : UInt16
  request : SimulatedRequest
deriving DecidableEq, Repr

/-- The frames that are built, with what their constructors and setters are given. -/
inductive SimulatedFrame where
  | sac (talId : UInt16) (prio type : UInt8) (value : UInt32) (cni : Nat)
  | logonRequest (mac rtBandwidth maxRbdc maxVbdc : UInt16)
  | logoff (mac : UInt16)
deriving DecidableEq, Repr

def SimulatedEvent.frame (event : SimulatedEvent) : SimulatedFrame :=
  match event.request with
  | .cr stRequest crType => .sac event.stId 0 crType stRequest 0xffff
  | .logon stRt stRbdc stVbdc => .logonRequest event.stId stRt stRbdc stVbdc
  | .logoff => .logoff event.stId

/-! ### The patterns of a line -/

def crFormat : List Directive := directives "SF%hu CR st%hu cr=%u type=%hhu".toList

def logonFormat : List Directive := directives "SF%hu LOGON st%hu rt=%hu rbdc=%hu vbdc=%hu".toList

def logoffFormat : List Directive := directives "SF%hu LOGOFF st%hu".toList

/-- The buffer as a string, which ends at the first null character. -/
def cString (buffer : List Char) : List Char := buffer.takeWhile (· ≠ '\x00')

/-- The superframe number after a scan: the first number stored, if there is one. -/
def stored (numbers : List Nat) (sfNr : UInt16) : UInt16 := (numbers.head?.map .ofNat).getD sfNr

/-- The event of a line, and the superframe number that the patterns leave. -/
def selectEvent (simuBuffer : List Char) (sfNr : UInt16) : Option SimulatedEvent × UInt16 :=
  let text := cString simuBuffer
  let cr := scan crFormat text
  let sfNr := stored cr sfNr
  match cr with
  | [_, stId, stRequest, crType] =>
      (some ⟨sfNr, .ofNat stId, .cr (.ofNat stRequest) (.ofNat crType)⟩, sfNr)
  | _ =>
      let logon := scan logonFormat text
      let sfNr := stored logon sfNr
      match logon with
      | [_, stId, stRt, stRbdc, stVbdc] =>
          (some ⟨sfNr, .ofNat stId, .logon (.ofNat stRt) (.ofNat stRbdc) (.ofNat stVbdc)⟩, sfNr)
      | _ =>
          let logoff := scan logoffFormat text
          let sfNr := stored logoff sfNr
          match logoff with
          | [_, stId] => (some ⟨sfNr, .ofNat stId, .logoff⟩, sfNr)
          | _ => (none, sfNr)

/-! ### The calls -/

/-- What is left of the file is not read yet; the buffer has the line read last. -/
structure FileSimulator where
  simuEof : Bool
  simuBuffer : List Char
  simuFile : List Char
deriving DecidableEq, Repr

/-- The outcome of reading a line. -/
inductive LineRead where
  | line (simuBuffer simuFile : List Char)
  | skipped (simuFile : List Char)
  | eof

namespace FileSimulator

def new (simuFile : List Char) : FileSimulator := ⟨false, [], simuFile⟩

/-- An empty line is not converted; a word is then skipped in its place. -/
def readLine (simuFile : List Char) : LineRead :=
  match simuFile with
  | [] => .eof
  | '\n' :: _ => .skipped ((skipWhitespace simuFile).dropWhile (!CharStream.isSpace ·))
  | _ => .line (firstPiece (SIMU_BUFF_LEN - 1) simuFile) (behindPiece (SIMU_BUFF_LEN - 1) simuFile)

/-- The frames sent for a line, unless its event is for a later call. -/
def send (superFrameCounter : UInt16) (selected : Option SimulatedEvent) (sfNr : UInt16) :
    Option (List SimulatedFrame) :=
  match selected with
  | none => some []
  | some event =>
      if event.stId.toNat ≤ BROADCAST_TAL_ID then some []
      else if sfNr < superFrameCounter then some []
      else if superFrameCounter < sfNr then none
      else some [event.frame]

/-- The loop of a call, within a number of turns. -/
def loop (superFrameCounter : UInt16) : Nat → UInt16 → List SimulatedFrame → FileSimulator →
    Option (List SimulatedFrame × Bool × FileSimulator)
  | 0, _, _, _ => none
  | fuel + 1, sfNr, msgs, simulator =>
      if superFrameCounter < sfNr then some (msgs, true, simulator)
      else
        let (selected, sfNr) := selectEvent simulator.simuBuffer sfNr
        match send superFrameCounter selected sfNr with
        | none => some (msgs, true, simulator)
        | some sent =>
            match readLine simulator.simuFile with
            | .eof => some (msgs ++ sent, true, { simulator with simuEof := true })
            | .skipped simuFile =>
                some (msgs ++ sent, false, { simulator with simuFile := simuFile })
            | .line simuBuffer simuFile =>
                loop superFrameCounter fuel sfNr (msgs ++ sent)
                  { simulator with simuBuffer := simuBuffer, simuFile := simuFile }

/-- A call for a superframe: the frames, the status and the state after it. -/
def simulation (simulator : FileSimulator) (superFrameCounter : UInt16) :
    Option (List SimulatedFrame × Bool × FileSimulator) :=
  if simulator.simuEof then some ([], true, simulator)
  else loop superFrameCounter (simulator.simuFile.length + 1) 0 [] simulator

/-- The call for a superframe, after those for the ones before it. -/
def call (simuFile : List Char) : Nat → Option (List SimulatedFrame × Bool × FileSimulator)
  | 0 => (new simuFile).simulation 0
  | superFrame + 1 => (call simuFile superFrame).bind fun out =>
      out.2.2.simulation (.ofNat (superFrame + 1))

end FileSimulator

end OpenSand
