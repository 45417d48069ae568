import OpenSand.Dvb.Fifo

/-!
Network packets (`NetPacket`): raw data with the QoS and the terminal
identifiers kept beside it.
-/

namespace OpenSand

/-- The terminal identifier of broadcast packets; the identifiers above it are
those of simulated terminals. -/
def BROADCAST_TAL_ID : Nat := 0x1F

structure NetPacket where
  data : List UInt8
  qos : Nat
  srcTalId : Nat
  dstTalId : Nat
deriving DecidableEq, Repr

instance : NetContainer NetPacket where
  getTotalLength packet := packet.data.length

end OpenSand
