import Eroil.Lib.Machine
import Eroil.Lib.ByteMemory
import Eroil.Lib.Ring
import Eroil.Model.Types
import Eroil.Model.Address
import Eroil.Model.Shm.Block
import Eroil.Model.Shm.Send
import Eroil.Model.Shm.Recv
import Eroil.Model.Shm.System
import Eroil.Model.Shm.Worker
import Eroil.Proofs.Shm.Layout
import Eroil.Proofs.Shm.Invariant
import Eroil.Proofs.Shm.Frame
import Eroil.Proofs.Shm.SendSteps
import Eroil.Proofs.Shm.RecvSteps
import Eroil.Proofs.Shm.Steps
import Eroil.Proofs.Shm.Account
import Eroil.Proofs.Shm.Runs
import Eroil.Proofs.Shm.Fifo
import Eroil.Proofs.Shm.Laps
import Eroil.Proofs.Shm.Bounds
import Eroil.Proofs.Shm.Stale
import Eroil.Proofs.Shm.Reinit
import Eroil.Proofs.Shm.Flush
import Eroil.Model.Router.RecvHandle
import Eroil.Lib.SlotRing
import Eroil.Proofs.Router.Deliver
import Eroil.Proofs.Router.Mailbox
import Eroil.Model.Router.SendHandle
import Eroil.Model.Router.RouteTable
import Eroil.Model.Router.Router
import Eroil.Model.Node
import Eroil.Proofs.Router.Registry
import Eroil.Proofs.Router.RecvNode
import Eroil.Proofs.Router.Footprint
import Eroil.Model.Send.Job
import Eroil.Model.Traffic
import Eroil.Proofs.Router.Subscribers
import Eroil.Proofs.Send.Completion
import Eroil.Model.LabelHeader
import Eroil.Model.Socket.TcpClient
import Eroil.Model.Socket.Connection
import Eroil.Model.Socket.RecvWorker
import Eroil.Proofs.Socket.Framing
import Eroil.Model.Socket.Peer
import Eroil.Proofs.Socket.Workers
import Eroil.Proofs.Socket.Dispatch
import Eroil.Proofs.Shm.Accepts
import Eroil.Proofs.Shm.Wakeup
import Eroil.Proofs.Shm.SecondRound
import Eroil.Proofs.Router.Consistency
import Eroil.Lib.ByteFields
import Eroil.Model.Discovery.Broadcast
import Eroil.Proofs.Router.SendNode
import Eroil.Lib.KeyedFold
import Eroil.Proofs.Discovery.Update
import Eroil.Proofs.Discovery.Converge
import Eroil.Proofs.Discovery.Snapshot
import Eroil.Proofs.Discovery.Receive
import Eroil.Proofs.Router.Handles
import Eroil.Proofs.Router.Close
import Eroil.Proofs.Peers
import Eroil.Proofs.AddressBook
import Eroil.Lib.Stamp
import Eroil.Proofs.Router.Rejected
import Eroil.Proofs.Router.NodeCalls
import Eroil.Proofs.Send.Build
import Eroil.Proofs.Router.Generation
import Eroil.Lib.Cyclic
import Eroil.Lib.BitFields
import Eroil.Model.Router.Iosb
import Eroil.Model.Api
import Eroil.Model.Socket.Transfer
import Eroil.Proofs.Socket.Transfer
import Eroil.Model.EventLog
import Eroil.Model.Shm.Object
import Eroil.Lib.WorkQueue
import Eroil.Lib.Links
import Eroil.Proofs.Shm.Corrupt
import Eroil.Proofs.Shm.Consume
import Eroil.Proofs.Shm.Oversize
import Eroil.Proofs.Shm.SendAlone
import Eroil.Proofs.Shm.Sizes
import Eroil.Model.Send.Label
import Eroil.Proofs.Send.Limits
import Eroil.Proofs.Router.RecvIosb
import Eroil.Proofs.Router.Iosb
import Eroil.Proofs.Api
import Eroil.Proofs.EventLog
import Eroil.Proofs.Shm.Object
import Eroil.Proofs.Send.Offsets
import Eroil.Model.Send.Workers
import Eroil.Proofs.Send.Queues
import Eroil.Proofs.Send.Order
import Eroil.Lib.Locality
import Eroil.Proofs.Router.Signals
import Eroil.Proofs.Router.Places
import Eroil.Proofs.Router.Isolation
import Eroil.Proofs.Router.Latest
import Eroil.Model.Discovery.Network
import Eroil.Proofs.Discovery.Network
import Eroil.Proofs.Send.Frames
import Eroil.Proofs.Shm.Forward
import Eroil.Proofs.Shm.RealTime
import Eroil.Model.Socket.Connections
import Eroil.Proofs.Socket.Connections
import Eroil.Proofs.Socket.Path
import Eroil.Proofs.Socket.Projection
import Eroil.Model.LogThreads
import Eroil.Proofs.LogThreads
import Eroil.Model.Shm.Receiver
import Eroil.Proofs.Router.Subscribed
import Eroil.Proofs.Shm.Receiver
import Eroil.Lib.Assignments
import Eroil.Model.Config
import Eroil.Proofs.Startup.Text
import Eroil.Proofs.Startup.Config
import Eroil.Proofs.Startup.PeerList
import Eroil.Proofs.Startup.Manager
import Eroil.Proofs.Discovery.Asked
