import Xrpc.Lib.Bytes
import Xrpc.Lib.Framing
import Xrpc.Lib.Wire
import Xrpc.Lib.Machine
import Xrpc.Lib.Sums
import Xrpc.Lib.Mutex
import Xrpc.Lib.CompletionTable
import Xrpc.Lib.SharedSocket
import Xrpc.Lib.HashRing
import Xrpc.Lib.UIntOrder
import Xrpc.Lib.SlotTable
import Xrpc.Lib.Text
import Xrpc.Lib.Numerals
import Xrpc.Lib.Feed
import Xrpc.Protocol.FrameHeader
import Xrpc.Protocol.Envelope
import Xrpc.Protocol.Metadata
import Xrpc.Protocol.FrameCodec
import Xrpc.Protocol.Lemmas.Header
import Xrpc.Protocol.Lemmas.Codec
import Xrpc.Protocol.FrameStream
import Xrpc.Protocol.Lemmas.Stream
import Xrpc.Protocol.Lemmas.Peers
import Xrpc.Protocol.Theorems
import Xrpc.Naming.ServiceDiscovery
import Xrpc.Naming.Lemmas.Canonical
import Xrpc.Naming.ConsulHttpClient
import Xrpc.Naming.Lemmas.Blank
import Xrpc.Naming.Lemmas.ConsulHttpClient
import Xrpc.Naming.Lemmas.HttpMessage
import Xrpc.Naming.StaticDiscovery
import Xrpc.Naming.Lemmas.StaticDiscovery
import Xrpc.Naming.ConsulDiscovery
import Xrpc.Naming.ConsulRegistrar
import Xrpc.Naming.Lemmas.ConsulDiscovery
import Xrpc.Naming.Theorems
import Xrpc.Client.CallAttempt
import Xrpc.Client.TcpTransport
import Xrpc.Client.Lemmas.Pending
import Xrpc.Client.Lemmas.ControlFlow
import Xrpc.Client.Lemmas.Descriptors
import Xrpc.Client.Lemmas.Generations
import Xrpc.Client.Lemmas.Written
import Xrpc.Client.RpcClient
import Xrpc.Client.Lemmas.Failover
import Xrpc.Client.Theorems
import Xrpc.Client.ReaderLoop
import Xrpc.Client.Lemmas.ReaderLoop
import Xrpc.Client.Lemmas.Received
import Xrpc.Client.ReaderTheorems
import Xrpc.Client.Routing
import Xrpc.Client.Lemmas.StickyRing
import Xrpc.Client.Lemmas.Routing
import Xrpc.Client.RoutingTheorems
import Xrpc.Client.Deadlines
import Xrpc.Client.Lemmas.Deadlines
import Xrpc.Client.DeadlineTheorems
import Xrpc.Common.MpscQueue
import Xrpc.Common.Lemmas.MpscQueue
import Xrpc.Common.Theorems
import Xrpc.Io.UringContext
import Xrpc.Io.Lemmas.UringContext
import Xrpc.Io.BufferPool
import Xrpc.Io.Lemmas.BufferPool
import Xrpc.Io.Operations
import Xrpc.Io.Lemmas.Operations
import Xrpc.Io.Socket
import Xrpc.Io.Lemmas.Socket
import Xrpc.Io.Theorems
import Xrpc.Server.ServiceRegistry
import Xrpc.Server.WorkerResults
import Xrpc.Server.Lemmas.WorkerResults
import Xrpc.Server.DrainFlag
import Xrpc.Server.Lemmas.DrainFlag
import Xrpc.Server.WorkerPool
import Xrpc.Server.Lemmas.WorkerPool
import Xrpc.Server.Lemmas.PoolCounters
import Xrpc.Server.Theorems
import Xrpc.Server.WriteLoop
import Xrpc.Server.ServerConfig
import Xrpc.Server.Lemmas.WriteLoop
import Xrpc.Server.Lemmas.WriteFrame
import Xrpc.Server.ServerConnection
import Xrpc.Server.Lemmas.Requests
import Xrpc.Server.Lemmas.ServerConnection
import Xrpc.Server.Lemmas.ConnectionLater
import Xrpc.Server.ConnectionIoLoop
import Xrpc.Server.Lemmas.ConnectionIoLoop
import Xrpc.Server.Lemmas.ConnectionStreams
import Xrpc.Server.ConnectionTheorems
import Xrpc.Server.RpcServer
import Xrpc.Server.Lemmas.Components
import Xrpc.Server.Lemmas.RpcServer
import Xrpc.Server.ShutdownTheorems
import Xrpc.Server.Admission
import Xrpc.Server.Lemmas.Admission
import Xrpc.Server.AdmissionTheorems
import Xrpc.Deployment.Network
import Xrpc.Deployment.Lemmas.Links
import Xrpc.Deployment.Lemmas.Requests
import Xrpc.Deployment.Lemmas.Responses
import Xrpc.Deployment.Theorems
