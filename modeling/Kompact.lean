import Kompact.Framework.BigEndian
import Kompact.Framework.FrameStream
import Kompact.Framework.KeyedList
import Kompact.Framework.BufMut
import Kompact.Framework.ByteBuf
import Kompact.Framework.Transition
import Kompact.Framework.ListSum
import Kompact.Framework.AssocMap
import Kompact.Framework.FrameQueue
import Kompact.Framework.Delivery
import Kompact.Framework.Buf
import Kompact.Framework.ByteVec
import Kompact.Framework.Reader
import Kompact.Framework.Lru
import Kompact.Framework.RoundRobin
import Kompact.Framework.Splice
import Kompact.Framework.Overlay
import Kompact.Framework.TwoLevelFifo
import Kompact.Framework.BitArray
import Kompact.Buffers.Memory
import Kompact.Buffers.ChunkLease
import Kompact.Buffers.Frames
import Kompact.Buffers.FrameEncode
import Kompact.Buffers.DecodeBuffer
import Kompact.Buffers.DecodeLaw
import Kompact.Buffers.DecodeTotality
import Kompact.Buffers.FrameBoundaries
import Kompact.Buffers.BufferPool
import Kompact.Buffers.EncodeBuffer
import Kompact.Buffers.EncodeIsolation
import Kompact.Buffers.ChunkRef
import Kompact.Buffers.ChunkChain
import Kompact.Net.Address
import Kompact.Messaging.Bitfields
import Kompact.Messaging.BitfieldStore
import Kompact.Messaging.Paths
import Kompact.Messaging.LookupPaths
import Kompact.Messaging.Serialised
import Kompact.Messaging.DispatchData
import Kompact.Messaging.PathText
import Kompact.Serialisation.SerHelpers
import Kompact.Serialisation.Deserialise
import Kompact.Serialisation.Forwarding
import Kompact.Serialisation.Untrusted
import Kompact.Serialisation.Builtin
import Kompact.Serialisation.Serde
import Kompact.Serialisation.EncoderWrites
import Kompact.Serialisation.Reservation
import Kompact.Utils.IterExtras
import Kompact.Network.QueueManager
import Kompact.Network.QueueOrder
import Kompact.Network.Events
import Kompact.Network.Dispatcher
import Kompact.Network.Outbound
import Kompact.Network.Thread
import Kompact.Network.System
import Kompact.Network.Registry
import Kompact.Network.Sessions
import Kompact.Network.Agreement
import Kompact.Network.Handshake
import Kompact.Network.MutualConnect
import Kompact.Network.Traffic
import Kompact.Network.Fifo
import Kompact.Network.BlockRules
import Kompact.Network.Udp
import Kompact.Network.ChannelMaps
import Kompact.Network.Blocking
import Kompact.Network.Discipline
import Kompact.Network.GracefulClose
import Kompact.Network.ThreadBuffers
import Kompact.Network.Receive
import Kompact.Network.Drain
import Kompact.Network.Limits
import Kompact.Network.Channel
import Kompact.Network.ReadFrames
import Kompact.Network.SendPath
import Kompact.Network.Datagrams
import Kompact.Network.Connections
import Kompact.Network.EventLoop
import Kompact.Component.Lifecycle
import Kompact.Component.LifecycleWord
import Kompact.Component.Execute
import Kompact.Component.Accounting
import Kompact.Component.Wakeup
import Kompact.Component.Mailbox
import Kompact.Component.Gate
import Kompact.Component.Tasks
import Kompact.Component.Destroyed
import Kompact.Component.Blocking
import Kompact.Component.Supervision
import Kompact.Component.Dedicated
import Kompact.Component.DerivedExecute
import Kompact.Component.Timers
import Kompact.Component.PortChannels
import Kompact.Component.PortLoop
import Kompact.Component.PortNetwork
import Kompact.Dispatch.PathTrie
import Kompact.Dispatch.PathTrieValues
import Kompact.Dispatch.PathTrieMap
import Kompact.Dispatch.Lookup
import Kompact.Dispatch.Registration
import Kompact.Dispatch.Groups
import Kompact.Dispatch.Removal
import Kompact.Dispatch.LookupGrammar
import Kompact.Dispatch.Routing
import Kompact.Dispatch.Broadcast
import Kompact.Dispatch.Service
import Kompact.Dispatch.ChunkLifetime
import Kompact.Dispatch.RemoteTell
import Kompact.Config.Merge
import Kompact.Config.Lookup
import Kompact.Config.Insert
import Kompact.Config.Sources
