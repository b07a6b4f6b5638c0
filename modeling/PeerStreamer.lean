import PeerStreamer.Foundation.Gather
import PeerStreamer.Foundation.Run
import PeerStreamer.NetHelper.Addressing
import PeerStreamer.NetHelper.CountedBucket
import PeerStreamer.NetHelper.CountedLists
import PeerStreamer.NetHelper.CountedNode
import PeerStreamer.NetHelper.CountedReassembly
import PeerStreamer.NetHelper.CountedRecovery
import PeerStreamer.NetHelper.DefaultAddress
import PeerStreamer.NetHelper.Fifo
import PeerStreamer.NetHelper.NodeDumpLimits
import PeerStreamer.NetHelper.PacketSlots
import PeerStreamer.NetHelper.SafeIteration
import PeerStreamer.NetHelper.SendToPeer
import PeerStreamer.NetHelper.ShaperDelay
import PeerStreamer.NetHelper.ShaperEstimate
import PeerStreamer.NetHelper.Shaping
import PeerStreamer.NetHelper.Wait4dataEnds
import PeerStreamer.Streaming.Ack
import PeerStreamer.Streaming.AdvertisedMetadata
import PeerStreamer.Streaming.ChunkInterval
import PeerStreamer.Streaming.Exchange
import PeerStreamer.Streaming.Inactive
import PeerStreamer.Streaming.LockTable
import PeerStreamer.Streaming.MessageBounds
import PeerStreamer.Streaming.OfferPacing
import PeerStreamer.Streaming.RandomUpdate
import PeerStreamer.Streaming.ReorderBounds
import PeerStreamer.Streaming.Reordering
import PeerStreamer.Streaming.Selection
import PeerStreamer.Streaming.SwarmSafety
import PeerStreamer.Streaming.TopologyTeardown
import PeerStreamer.Streaming.TransactionIds
import PeerStreamer.Streaming.TransactionList
