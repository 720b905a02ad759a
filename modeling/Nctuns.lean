import Nctuns.Lib.Run
import Nctuns.Lib.TreeHeap
import Nctuns.Engine.Proofs.HeapProofs
import Nctuns.Lib.PtrChain
import Nctuns.Engine.Proofs.TimerProofs
import Nctuns.Engine.Proofs.SchedulerProofs
import Nctuns.Dvb.Proofs.MpegTsProofs
import Nctuns.Dvb.StreamBuffer
import Nctuns.Dvb.Proofs.DvbS2Proofs
import Nctuns.Dvb.Proofs.RcsAtmProofs
import Nctuns.Dvb.Proofs.RcstQueueProofs
import Nctuns.Dvb.Proofs.SacProofs
import Nctuns.Dvb.Proofs.TimeslotPlanProofs
import Nctuns.Dvb.Proofs.SctTableProofs
import Nctuns.Dvb.Proofs.TbtpTableProofs
import Nctuns.Dsr.Proofs.SendBufferProofs
import Nctuns.Ps.Proofs.DrrProofs
import Nctuns.Switch.Proofs.SwitchTableProofs
import Nctuns.Switch.Proofs.SpanningTreeSettledProofs
import Nctuns.Wimax.Connection
import Nctuns.Lib.Fragments
import Nctuns.Wimax.Proofs.LinkProofs
import Nctuns.Mac.Proofs.Mac8023Proofs
import Nctuns.Lib.NextHops
import Nctuns.Dsdv.Dsdvd
import Nctuns.Dsdv.Proofs.DsdvdProofs
import Nctuns.Dsdv.Node
import Nctuns.Dsdv.Proofs.NodeProofs
import Nctuns.Opt.Obsw
import Nctuns.Opt.Proofs.ObswProofs
import Nctuns.Opt.Contention
import Nctuns.Opt.Proofs.RecordsProofs
import Nctuns.Opt.Proofs.ContentionProofs
import Nctuns.Engine.TimerAccount
import Nctuns.Engine.Proofs.TimerAccountProofs
import Nctuns.Lib.PriorityQueue
import Nctuns.Engine.MBinder
import Nctuns.Engine.Proofs.MBinderProofs
import Nctuns.Packet.Pbuf
import Nctuns.Packet.Proofs.PbufProofs
import Nctuns.Packet.Store
import Nctuns.Packet.Proofs.StoreProofs
import Nctuns.Packet.Reading
import Nctuns.Packet.Proofs.ReadingProofs
import Nctuns.Packet.Info
import Nctuns.Packet.Proofs.InfoProofs
import Nctuns.Opt.Obwa
import Nctuns.Opt.Proofs.ObwaTableProofs
import Nctuns.Opt.Proofs.ObwaPacketsProofs
import Nctuns.Gprs.StateArray
import Nctuns.Gprs.Proofs.SendBufProofs
import Nctuns.Gprs.Proofs.SenderProofs
import Nctuns.Gprs.Proofs.ReceiverProofs
import Nctuns.Gprs.Proofs.LinkProofs
import Nctuns.Lib.Keyed
import Nctuns.Aodv.RtTable
import Nctuns.Aodv.Aodv
import Nctuns.Ps.Proofs.TurnProofs
import Nctuns.Aodv.Proofs.RtTableProofs
import Nctuns.Aodv.Proofs.FreshProofs
import Nctuns.Aodv.Proofs.BcacheProofs
import Nctuns.Aodv.Timers
import Nctuns.Aodv.Proofs.TimersProofs
import Nctuns.Lib.Trellis
import Nctuns.Lib.BitBuffer
import Nctuns.Gprs.ChannelCoding
import Nctuns.Gprs.Proofs.ViterbiProofs
import Nctuns.Gprs.Proofs.ChannelCodingProofs
import Nctuns.Packet.HdrStack
import Nctuns.Packet.Proofs.HdrStackProofs
import Nctuns.Packet.SharedInfo
import Nctuns.Packet.Proofs.SharedInfoProofs
import Nctuns.Ps.Sweep
import Nctuns.Ps.Proofs.SweepProofs
import Nctuns.Lib.ShiftRegister
import Nctuns.Dvb.ErrorDetection
import Nctuns.Dvb.Proofs.ErrorDetectionProofs
import Nctuns.Lib.MaxMin
import Nctuns.Dvb.Volume
import Nctuns.Dvb.Proofs.CreditProofs
import Nctuns.Dvb.Proofs.DispatchProofs
import Nctuns.Dvb.Proofs.VolumeProofs
import Nctuns.Ds.Interior
import Nctuns.Ds.Proofs.InteriorProofs
import Nctuns.Ds.TokenBucket
import Nctuns.Ds.Proofs.TokenBucketProofs
import Nctuns.Lib.KeyEquation
import Nctuns.Lib.BinaryWord
import Nctuns.Lib.BinaryField
import Nctuns.Dvb.Bch
import Nctuns.Dvb.Proofs.BchLocatorProofs
import Nctuns.Dvb.Proofs.BchProofs
import Nctuns.Dvb.Proofs.BchTableProofs
import Nctuns.Dvb.Proofs.BchFailureProofs
import Nctuns.Engine.Random
import Nctuns.Engine.Proofs.RandomProofs
import Nctuns.Dvb.EvenDispatch
import Nctuns.Dvb.Proofs.EvenDispatchProofs
import Nctuns.Dvb.SacMessage
import Nctuns.Dvb.Proofs.SacMessageProofs
import Nctuns.Switch.OpenRule
import Nctuns.Switch.Proofs.OpenRuleProofs
import Nctuns.Switch.Forwarding
import Nctuns.Switch.Proofs.ForwardingProofs
import Nctuns.Dsr.RouteCache
import Nctuns.Dsr.Proofs.RouteCacheProofs
import Nctuns.Lib.Cycle
import Nctuns.Dvb.SlotClock
import Nctuns.Dvb.Proofs.SlotClockProofs
import Nctuns.Wimax.BandwidthReport
import Nctuns.Wimax.Proofs.BandwidthReportProofs
import Nctuns.Lib.SwapErase
import Nctuns.Adv.RtTable
import Nctuns.Adv.Proofs.RtTableProofs
import Nctuns.Mac.Dcf
import Nctuns.Mac.Attempts
import Nctuns.Mac.Proofs.DcfProofs
import Nctuns.Mesh.Bitmap
import Nctuns.Mesh.Proofs.BitmapProofs
import Nctuns.Lib.Records
import Nctuns.Mesh.MshDsch
import Nctuns.Mesh.Proofs.MshDschProofs
import Nctuns.Lib.WaitingRoom
import Nctuns.Adv.Advd
import Nctuns.Adv.Proofs.AdvdProofs
import Nctuns.Lib.LevelTree
import Nctuns.Mesh.Ospf
import Nctuns.Mesh.Proofs.RouteProofs
import Nctuns.Mesh.Proofs.OspfProofs
import Nctuns.Mac.HcScheduler
import Nctuns.Mac.Proofs.HcSchedulerProofs
import Nctuns.Arp.Arp
import Nctuns.Arp.Proofs.ArpProofs
import Nctuns.Wimax.BSScheduler
import Nctuns.Wimax.Proofs.BSSchedulerProofs
import Nctuns.Wimax.Proofs.DownlinkProofs
import Nctuns.Wimax.Proofs.FrameProofs
import Nctuns.Lib.Tally
import Nctuns.Dvb.LdpcTable
import Nctuns.Dvb.Ldpc
import Nctuns.Dvb.Proofs.LdpcGraphProofs
import Nctuns.Dvb.Proofs.LdpcProofs
import Nctuns.Dvb.Fec
import Nctuns.Dvb.Proofs.FecProofs
import Nctuns.Dvb.Proofs.FecLinkProofs
