import OpenSand.Lib.Word
import OpenSand.Dvb.Fifo
import OpenSand.Common.NetPacket
import OpenSand.Dvb.FifoAccounting
import OpenSand.Lib.CharStream
import OpenSand.Lib.Peeling
import OpenSand.Saloha.Crdsa
import OpenSand.Saloha.Reassembly
import OpenSand.Dvb.Sac
import OpenSand.Dama.Agent
import OpenSand.Dvb.Ttp
import OpenSand.Dvb.TtpRoundTrip
import OpenSand.Dvb.TtpSeveralFrames
import OpenSand.Dama.Terminal
import OpenSand.Lib.FairShare
import OpenSand.Dama.Controller
import OpenSand.Dama.CapacitySafety
import OpenSand.Dama.RbdcShares
import OpenSand.Dama.PhaseCapacity
import OpenSand.Dama.SuperframeSafety
import OpenSand.Sched.BBFrames
import OpenSand.Sched.PacketLoop
import OpenSand.Sched.Forward
import OpenSand.Sched.Scpc
import OpenSand.Sched.Moves
import OpenSand.Sched.LoopMoves
import OpenSand.Sched.Conservation
import OpenSand.Sched.ForwardMoves
import OpenSand.Sched.ForwardConservation
import OpenSand.Sched.ForwardCapacity
import OpenSand.Sched.ForwardModcod
import OpenSand.Sched.ScpcMoves
import OpenSand.Sched.ScpcConservation
import OpenSand.Dvb.FifoFlow
import OpenSand.Sched.LoopErrors
import OpenSand.Sched.ScpcCapacity
import OpenSand.Lib.Loop
import OpenSand.Sched.Return
import OpenSand.Sched.ReturnAllocation
import OpenSand.Dama.CapacityAccounting
import OpenSand.Dama.CapacityLevels
import OpenSand.Dama.RbdcExpiry
import OpenSand.Dama.TerminalsChange
import OpenSand.Dama.VbdcConservation
import OpenSand.Dama.Bookkeeping
import OpenSand.Dama.AllocationLoop
import OpenSand.Dvb.Band
import OpenSand.Dvb.BandConservation
import OpenSand.Common.UdpChannel
import OpenSand.Dama.Delivery
import OpenSand.Dvb.StartOfFrame
import OpenSand.Lib.ByteAccess
import OpenSand.Saloha.Frame
import OpenSand.Saloha.Lifecycle
import OpenSand.Saloha.Ncc
import OpenSand.Saloha.Propagation
import OpenSand.Encap.Gse
import OpenSand.Encap.GseReassembly
import OpenSand.Encap.Rle
import OpenSand.Encap.RleRoundTrip
import OpenSand.Lan.BlockLanAdaptation
import OpenSand.Lan.Learning
import OpenSand.Lan.Switching
import OpenSand.Interconnect.DelayLine
import OpenSand.Lib.Grouping
import OpenSand.Lib.Paths
import OpenSand.Output.DesiredLevels
import OpenSand.Output.LogItems
import OpenSand.Output.RegistrationOrder
import OpenSand.Rt.RtFifo
import OpenSand.Sat.Constellation
import OpenSand.Sat.Delivery
import OpenSand.Lan.EthernetContext
import OpenSand.Dama.LegacyAgent
import OpenSand.Dama.VbdcDemand
import OpenSand.Conf.DataModel
import OpenSand.Conf.MetaSound
import OpenSand.Dama.FcaEnd
import OpenSand.Dama.SacSafety
import OpenSand.Dama.SlidingWindow
import OpenSand.Dama.WaveForms
import OpenSand.Fmt.RequiredModcod
import OpenSand.Sched.Broadcast
import OpenSand.Dama.RbdcCredit
import OpenSand.Fmt.StFmtSimu
import OpenSand.Spot.CniExtension
import OpenSand.Spot.CniGatewayCall
import OpenSand.Spot.CniRuns
import OpenSand.Spot.GatewaySpot
import OpenSand.Spot.Membership
import OpenSand.Dvb.CarriersSelection
import OpenSand.Dvb.BandSharing
import OpenSand.Dvb.RateIndex
import OpenSand.Dvb.VcmShares
import OpenSand.Dama.RateUnits
import OpenSand.Saloha.Dsa
import OpenSand.Saloha.PacketIds
import OpenSand.Lib.Rand
import OpenSand.Saloha.Backoff
import OpenSand.Saloha.ReplicaUpdate
import OpenSand.Saloha.TimeSlots
import OpenSand.Conf.DataSound
import OpenSand.Conf.ListItems
import OpenSand.Lan.EthernetQos
import OpenSand.Lib.Bisect
import OpenSand.Physical.DelayFifo
import OpenSand.Physical.DelayOrder
import OpenSand.Physical.FileScenario
import OpenSand.Encap.FramePayload
import OpenSand.Encap.EmptyGse
import OpenSand.Encap.RleMemory
import OpenSand.Encap.RleRecord
import OpenSand.Lib.Lines
import OpenSand.Lib.Numeral
import OpenSand.Ncc.RequestLines
import OpenSand.Ncc.Requests
import OpenSand.Conf.ModelEquality
import OpenSand.Encap.Packing
import OpenSand.Encap.PackingTimers
import OpenSand.Conf.PathRelations
import OpenSand.Conf.SpotInfrastructure
import OpenSand.Rt.ChannelEvents
import OpenSand.Sat.CarrierIds
import OpenSand.Conf.CarrierRatios
import OpenSand.Dama.LegacyRequests
import OpenSand.Lib.Dated
import OpenSand.Lib.Scanf
import OpenSand.Spot.FileEvents
import OpenSand.Spot.FileReplay
import OpenSand.Conf.DataRuns
import OpenSand.Conf.PathAddressing
import OpenSand.Conf.ItemReferences
import OpenSand.Conf.Cloning
import OpenSand.Conf.Templates
import OpenSand.Conf.XmlFiles
import OpenSand.Spot.Sessions
import OpenSand.Dvb.AirFrames
import OpenSand.Sched.ForwardDelivery
