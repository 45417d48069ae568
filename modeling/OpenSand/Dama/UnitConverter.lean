import OpenSand.Fmt.FmtGroup

/-!
Unit conversions of the return link.

A packet is a fixed number of symbols (`UnitConverterFixedSymbolLength`), so its
bits depend on the modulation efficiency, which is part of the converter's state.
The floating-point operations are taken as exact rational ones; rates and volumes
are 16-bit words and products of integers 32-bit words.
-/

namespace OpenSand

open OpenSand.Word

/-- The inverse of a duration, a length or an efficiency is 0 when it is 0. -/
structure UnitConverterFixedSymbolLength where
  frameDurationMs : Nat
  packetLengthSym : Nat
  modulationEfficiency : Nat

namespace UnitConverterFixedSymbolLength

variable (converter : UnitConverterFixedSymbolLength)

def setModulationEfficiency (efficiency : Nat) : UnitConverterFixedSymbolLength :=
  { converter with modulationEfficiency := efficiency }

def getPacketBitLength : Nat :=
  wrap 32 (converter.packetLengthSym * converter.modulationEfficiency)

def symToPkt (volSym : Nat) : Nat := ceilW 16 (volSym * (converter.packetLengthSym : ℚ)⁻¹)

def kbitsToPkt (volKb : Nat) : Nat :=
  ceilW 16 (volKb * (converter.packetLengthSym : ℚ)⁻¹ *
    (converter.modulationEfficiency : ℚ)⁻¹ * 1000)

def pktToKbits (volPkt : Nat) : Nat :=
  ceilW 16
    (wrap 32 (volPkt * converter.packetLengthSym * converter.modulationEfficiency) / 1000)

/-- No result when the number of packets is not a 16-bit word. -/
def sympsToPktpf (rateSymps : ℚ) : Option Nat :=
  let ratePktpf :=
    ⌈rateSymps * (converter.packetLengthSym : ℚ)⁻¹ * converter.frameDurationMs * 1000⌉₊
  if ratePktpf < 2 ^ 16 then some ratePktpf else none

/-- In symbols per second, a floating-point number. -/
def pktpfToSymps (ratePktpf : Nat) : Nat :=
  ⌈(wrap 32 (ratePktpf * converter.packetLengthSym) : ℚ) *
    (converter.frameDurationMs : ℚ)⁻¹ / 1000⌉₊

def kbpsToPktpf (rateKbps : Nat) : Nat :=
  ceilW 16 (rateKbps * (converter.packetLengthSym : ℚ)⁻¹ *
    (converter.modulationEfficiency : ℚ)⁻¹ * converter.frameDurationMs)

def pktpfToKbps (ratePktpf : Nat) : Nat :=
  ceilW 16
    (wrap 32 (ratePktpf * converter.packetLengthSym * converter.modulationEfficiency) *
      (converter.frameDurationMs : ℚ)⁻¹)

theorem symToPkt_lt (volSym : Nat) : converter.symToPkt volSym < 2 ^ 16 := wrap_lt 16 _

theorem kbpsToPktpf_lt (rateKbps : Nat) : converter.kbpsToPktpf rateKbps < 2 ^ 16 := wrap_lt 16 _

end UnitConverterFixedSymbolLength

end OpenSand
