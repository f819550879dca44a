import Aodv.State
import Aodv.Parameters
import Aodv.TimerQueue
import Aodv.Messages
import Aodv.Socket
import Aodv.Netlink
import Aodv.RoutingTable
import Aodv.Neighbor
import Aodv.Rrep
import Aodv.Hello
import Aodv.Rerr
import Aodv.Rreq
import Aodv.Timeout
import Aodv.Main
import Aodv.Invariant
import Aodv.LinkBreak
import Aodv.Steps
import Aodv.Handlers
import Aodv.Trace
import Aodv.Receive
import Aodv.Events
import Aodv.Reboot
import Aodv.Transmission
import Aodv.Lib.Serial
import Aodv.OwnSeqno
import Aodv.RingSearch
import Aodv.Moves
import Aodv.Effects
import Aodv.Routes
import Aodv.Expiry
import Aodv.Counter
import Aodv.Owners
import Aodv.OwnRoute
import Aodv.RouteList
import Aodv.KaodvQueue
import Aodv.PacketQueue
import Aodv.KaodvHook
import Aodv.RouteMap
import Aodv.Refresh
import Aodv.PacketOwner
import Aodv.ReceivedBytes
import Aodv.Staleness
import Aodv.Delivery
import Aodv.Ledger
import Aodv.MainRoutes
import Aodv.RouteMessages
import Aodv.KernelRoutes
import Aodv.Searches
import Aodv.Combined
import Aodv.TimerCalls
import Aodv.Lib.Drain
import Aodv.TimerExpiry
import Aodv.Lib.Sequences
import Aodv.RateLimit
import Aodv.HashTable
import Aodv.HelloCount
import Aodv.Acknowledged
import Aodv.RrepCalls
import Aodv.Replies
import Aodv.Answers
import Aodv.Circular
import Aodv.Frames
import Aodv.Duplicates
import Aodv.Heard
import Aodv.ReverseRoute
import Aodv.StoredSeqno
import Aodv.Blacklist
import Aodv.Discovery
import Aodv.Precursors
import Aodv.TimerSteps
import Aodv.SleepTime
import Aodv.TargetTime
import Aodv.Lifetime
import Aodv.RerrWire
import Aodv.Report
import Aodv.BrokenLinks
import Aodv.ReceivedRerr
import Aodv.RerrGuard
import Aodv.RerrSize
import Aodv.RouteTraffic
import Aodv.RouteUpdate
import Aodv.Lib.Chains
import Aodv.Ranks
import Aodv.Datagrams
import Aodv.Relays
import Aodv.LoopFreedom
import Aodv.Lib.OnesComplement
import Aodv.Encapsulation
import Aodv.Checksums
import Aodv.RouteRequest
import Aodv.RouteTimeouts
import Aodv.PeerMessages
import Aodv.RreqOutcome
import Aodv.Lib.Rings
import Aodv.LinkedList
import Aodv.TimerLinks
import Aodv.WireFormat
import Aodv.Contacts
import Aodv.Addressees
import Aodv.Provenance
import Aodv.NetlinkBytes
import Aodv.NetlinkLink
import Aodv.Shutdown
import Aodv.RouteBack
import Aodv.Flood
import Aodv.Askers
import Aodv.DataPlane
