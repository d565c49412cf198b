import Xrpc.Io.BufferPool
import Xrpc.Naming.ConsulRegistrar
import Xrpc.Protocol.FrameCodec
import Xrpc.Server.WriteLoop

/-!
# サーバーの設定

`src/server/server_config.cpp`、`connection_config.cpp`、`connection_backpressure.cpp` と、`worker_pool.cpp` の
`MakeWorkerPoolConfig` を写す。`std::size_t` の値は自然数とする。ハードウェアの並列数とプロセスの番号は、引数で与える。
-/

namespace Xrpc.Server.Options
open Xrpc.Lib Xrpc.Protocol Xrpc.Naming

/-! ## 公開の設定 -/

structure RpcServerOptions where
  workerThreads : Nat := 0
  connectionIoThreads : Nat := 1
  listenBacklog : Nat := 128
  maxInflightPerConnection : Nat := 128
  maxWriteQueueBytesPerConnection : Nat := 8 * 1024 * 1024
  maxPendingJobsGlobal : Nat := 10000
  maxPayloadSize : Nat := 4 * 1024 * 1024
  serviceName : Bytes := []
  serviceId : Bytes := []
  serviceAddress : Bytes := []
  consulAddress : Bytes := text "127.0.0.1:8500"

/-! ## 部品ごとの設定 -/

structure WorkerPoolConfig where
  threads : Nat
  maxPendingJobs : Nat

def makeWorkerPoolConfig (hardwareConcurrency requestedThreads maxPendingJobs : Nat) : Except Status WorkerPoolConfig :=
  if maxPendingJobs = 0 then
    .error ⟨.invalidArgument, text "RpcServer max_pending_jobs_global must be greater than 0"⟩
  else
    .ok ⟨if requestedThreads = 0 then if hardwareConcurrency = 0 then 1 else hardwareConcurrency else requestedThreads,
      maxPendingJobs⟩

structure ListenConfig where
  backlog : Int32

def INT_MAX : Nat := 2 ^ 31 - 1

def makeListenConfig (backlog : Nat) : Except Status ListenConfig :=
  if backlog = 0 then .error ⟨.invalidArgument, text "RpcServer listen_backlog must be greater than 0"⟩
  else if backlog > INT_MAX then
    .error ⟨.invalidArgument, text "RpcServer listen_backlog exceeds the socket API range"⟩
  else .ok ⟨Int32.ofNat backlog⟩

def makeConnectionBackpressureLimits (maxInflight maxWriteQueueBytes : Nat) : Except Status BackpressureLimits :=
  if maxInflight = 0 then
    .error ⟨.invalidArgument, text "RpcServer max_inflight_per_connection must be greater than 0"⟩
  else if maxWriteQueueBytes = 0 then
    .error ⟨.invalidArgument, text "RpcServer max_write_queue_bytes_per_connection must be greater than 0"⟩
  else .ok ⟨maxInflight, maxWriteQueueBytes⟩

structure ConnectionIoConfig where
  threads : Nat
  limits : BackpressureLimits
  protocolLimits : ProtocolLimits
  bufferPool : Io.UringBufferPoolConfig := {}

def makeConnectionIoConfig (threads maxInflight maxWriteQueueBytes maxPayloadSize : Nat) :
    Except Status ConnectionIoConfig :=
  if threads = 0 then .error ⟨.invalidArgument, text "RpcServer connection_io_threads must be greater than 0"⟩
  else do
    let backpressure ← makeConnectionBackpressureLimits maxInflight maxWriteQueueBytes
    let protocol ← makeProtocolLimits maxPayloadSize
    .ok { threads := threads, limits := backpressure, protocolLimits := protocol }

structure ConsulRegistrationConfig where
  serviceName : Bytes
  serviceId : Bytes
  serviceAddress : Bytes
  agentAddress : Bytes

def makeConsulRegistrationConfig (options : RpcServerOptions) : Except Status ConsulRegistrationConfig :=
  let config : ConsulRegistrationConfig :=
    ⟨options.serviceName, options.serviceId, options.serviceAddress, options.consulAddress⟩
  if options.serviceName = [] then
    if options.serviceId ≠ [] then
      .error ⟨.invalidArgument, text "RpcServer service_id requires service_name"⟩
    else if options.serviceAddress ≠ [] then
      .error ⟨.invalidArgument, text "RpcServer service_address requires service_name"⟩
    else .ok config
  else if options.consulAddress = [] then
    .error ⟨.invalidArgument, text "RpcServer consul_address must not be empty when service registration is enabled"⟩
  else .ok config

/-! ## サーバーの設定 -/

structure ServerConfig where
  workerPool : WorkerPoolConfig
  listen : ListenConfig
  connectionIo : ConnectionIoConfig
  consul : ConsulRegistrationConfig

def ServerConfig.create (hardwareConcurrency : Nat) (options : RpcServerOptions) (bufferPool : Io.UringBufferPoolConfig) :
    Except Status ServerConfig :=
  if !bufferPool.validate.isOk then .error bufferPool.validate
  else do
    let workerPool ← makeWorkerPoolConfig hardwareConcurrency options.workerThreads options.maxPendingJobsGlobal
    let listen ← makeListenConfig options.listenBacklog
    let connectionIo ← makeConnectionIoConfig options.connectionIoThreads options.maxInflightPerConnection
      options.maxWriteQueueBytesPerConnection options.maxPayloadSize
    let consul ← makeConsulRegistrationConfig options
    .ok ⟨workerPool, listen, { connectionIo with bufferPool := bufferPool }, consul⟩

variable {hardwareConcurrency : Nat} {options : RpcServerOptions} {bufferPool : Io.UringBufferPoolConfig}

/-- 登録を行うほかは、既定の値の設定。 -/
def echoOptions : RpcServerOptions := { serviceName := text "echo" }

end Xrpc.Server.Options
