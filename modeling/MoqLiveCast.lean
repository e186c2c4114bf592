import MoqLiveCast.Quic.StreamRecvLimit
import MoqLiveCast.Quic.TimerRun
import MoqLiveCast.Quic.StreamFinalSize
import MoqLiveCast.Quic.StreamSendFin
import MoqLiveCast.Quic.StreamRecvSize
import MoqLiveCast.Quic.StreamCredit
import MoqLiveCast.Quic.StreamPeerCount
import MoqLiveCast.Quic.RecoveryTimer
import MoqLiveCast.Quic.InFlightRun
import MoqLiveCast.Quic.AttributedRun
import MoqLiveCast.Quic.RecoveryPeriod
import MoqLiveCast.Quic.AmplificationRun
import MoqLiveCast.Quic.CryptoStream
import MoqLiveCast.Quic.WriteAcked
import MoqLiveCast.Moq.ClientAgree
import MoqLiveCast.Moq.EgressKey
import MoqLiveCast.Media.StreamClock
import MoqLiveCast.Media.PlayerView
import MoqLiveCast.Moq.AnnounceIds
import MoqLiveCast.Moq.PeerEnded
import MoqLiveCast.Moq.SetupGrammar
import MoqLiveCast.Quic.ClientWrites
import MoqLiveCast.Moq.OpenIntents
import MoqLiveCast.Moq.ServeWhole
import MoqLiveCast.Moq.LiteHeaders
import MoqLiveCast.Moq.PushLife
import MoqLiveCast.Quic.PacketReplay
import MoqLiveCast.Moq.TimeLine
import MoqLiveCast.Cluster.PullCycles
import MoqLiveCast.Cluster.Announced
import MoqLiveCast.Rtmp.ChunkRoundTrip
import MoqLiveCast.Rtmp.Amf0RoundTrip
import MoqLiveCast.Rtmp.SessionSizes
import MoqLiveCast.Wt2ws.Relay
import MoqLiveCast.Http3.QpackSafe
import MoqLiveCast.Http3.ClientConnect
import MoqLiveCast.Http3.ClientDemux
import MoqLiveCast.Http3.ServerRequests
import MoqLiveCast.Http3.ServerDemux
import MoqLiveCast.Moq.DownlinkWhole
import MoqLiveCast.Quic.PacketNumber
import MoqLiveCast.Quic.SendWhole
import MoqLiveCast.Media.FlvAgree
import MoqLiveCast.Media.FlvHeader
import MoqLiveCast.Rtmp.ChunkPieces
import MoqLiveCast.Media.AnnexB
import MoqLiveCast.Rtmp.Handshake
import MoqLiveCast.Media.SpsDimensions
import MoqLiveCast.Quic.RttSamples
import MoqLiveCast.Quic.TimerDefer
import MoqLiveCast.Quic.Pacing
import MoqLiveCast.Moq.PushWaits
import MoqLiveCast.Moq.HoldBuffer
import MoqLiveCast.Moq.SessionTables
import MoqLiveCast.Quic.StreamTransfer
import MoqLiveCast.Cluster.Discovery
import MoqLiveCast.Rtmp.CommandTransfer
import MoqLiveCast.Quic.WriteEnds
