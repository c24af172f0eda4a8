import GaleLB.Common.Transition
import GaleLB.Common.LastWrite
import GaleLB.Common.CyclicSearch
import GaleLB.Common.CyclicArcs
import GaleLB.Common.Crc
import GaleLB.Common.OnesComplement
import GaleLB.Common.ByteBuffer
import GaleLB.Common.Channel
import GaleLB.Common.Potential
import GaleLB.Common.GuardedObject
import GaleLB.Common.TimedHistory
import GaleLB.Common.TextFields
import GaleLB.Common.DnsMessage
import GaleLB.Common.NetAddress
import GaleLB.Common.IpText
import GaleLB.Common.Deferred
import GaleLB.Routing.Ring
import GaleLB.Routing.RingHistory
import GaleLB.Routing.Hashing
import GaleLB.Routing.RingLookup
import GaleLB.Routing.RingOwnership
import GaleLB.Routing.RingAgreement
import GaleLB.Routing.RingDisruption
import GaleLB.Routing.RingSlice
import GaleLB.Routing.RingLocking
import GaleLB.Routing.LoadShare
import GaleLB.Routing.Rerouting
import GaleLB.Routing.PacketPrograms
import GaleLB.Routing.PacketRewrite
import GaleLB.Routing.NatRoundTrip
import GaleLB.Routing.ConntrackHistory
import GaleLB.Routing.Checksums
import GaleLB.Routing.FrameLayout
import GaleLB.LbNetwork.HealthStream
import GaleLB.LbNetwork.ChannelSafety
import GaleLB.LbNetwork.MessageFlow
import GaleLB.LbNetwork.HealthCheckCount
import GaleLB.LbNetwork.StreamEnd
import GaleLB.LbNetwork.Registry
import GaleLB.LbNetwork.NodeManager
import GaleLB.LbNetwork.HealthAccounting
import GaleLB.LbNetwork.RegistryHistory
import GaleLB.LbNetwork.RegistryLocking
import GaleLB.LbNetwork.StreamProgress
import GaleLB.NodeNetwork.Dispatcher
import GaleLB.NodeNetwork.StopFinality
import GaleLB.NodeNetwork.StartFailure
import GaleLB.NodeNetwork.StatusTruth
import GaleLB.NodeNetwork.CancelOwnership
import GaleLB.NodeNetwork.Moves
import GaleLB.NodeNetwork.NodeProcess
import GaleLB.NodeNetwork.NodeExit
import GaleLB.Config.NodeConfig
import GaleLB.Config.HealthParameters
import GaleLB.LbNetwork.TimedStream
import GaleLB.Util.ArpCache
import GaleLB.Util.MulticastDns
import GaleLB.Util.MdnsRequest
import GaleLB.Util.PingRequest
import GaleLB.Util.Hosts
import GaleLB.LbNetwork.LbProcess
import GaleLB.System.Addressing
import GaleLB.NodeNetwork.Targets
import GaleLB.System.Cluster
import GaleLB.System.HealthReporting
import GaleLB.System.Survival
import GaleLB.Routing.XdpLoader
