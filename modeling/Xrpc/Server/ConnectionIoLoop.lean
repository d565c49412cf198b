import Xrpc.Server.ServerConnection

/-!
# 接続を持つ入出力の繰り返し

`src/server/connection_io_loop.cpp` を写す。接続の実体には作った順の通し番号を与え、表 `connections_` は接続の番号から通し番号への
対応とする。通し番号は、表から消えた接続の実体も指し続ける。
-/

namespace Xrpc.Server
open Xrpc.Lib Xrpc.Protocol Function

/-- `ConnectionIoLoop::State` -/
inductive LoopState where
  | created
  | running
  | draining
  | stopped
  deriving DecidableEq

/-- `Running` を離れている。 -/
def LoopState.left : LoopState → Bool
  | .draining | .stopped => true
  | _ => false

/-- `pendingStarts` は、`Post` されてまだ走っていない接続の開始の数である。`drainPosted` と `closePosted` も同じく、
`BeginDrainOnContext` と `CloseConnectionsOnContext` の待ちを表す。`faults` は、次の歩みで例外に終わる呼び出しである。 -/
structure ConnectionIoLoop where
  state : LoopState
  connections : List (UInt64 × Nat)
  nextConnectionId : UInt64
  liveConnections : Nat
  pendingWriteBytes : Nat
  created : Nat
  objects : Nat → ServerConnection
  pendingStarts : Nat
  drainPosted : Bool
  closePosted : Bool
  stopRequested : Bool
  aborted : Bool
  faults : Faults

namespace ConnectionIoLoop

variable (cfg : ServerConnectionConfig)

def initial : ConnectionIoLoop where
  state := .created
  connections := []
  nextConnectionId := 1
  liveConnections := 0
  pendingWriteBytes := 0
  created := 0
  objects _ := ServerConnection.create cfg 0
  pendingStarts := 0
  drainPosted := false
  closePosted := false
  stopRequested := false
  aborted := false
  faults := {}

/-! ## 実体の上の歩み -/

/-- 数と例外の決まりを貸した実体。 -/
def lend (s : ConnectionIoLoop) (n : Nat) : ServerConnection :=
  { s.objects n with
    core := { (s.objects n).core with
      ownerPendingWriteBytes := s.pendingWriteBytes
      ownerLiveConnections := s.liveConnections
      faults := s.faults } }

/-- 数を貸して実体を歩ませ、数を受け取る。コルーチンの外へ抜けた例外は、`Run` が捕らえて `Abort` する。 -/
def runOn (n : Nat) (f : ServerConnection → ServerConnection) (s : ConnectionIoLoop) : ConnectionIoLoop :=
  let c := f (s.lend n)
  { s with
    objects := update s.objects n c
    pendingWriteBytes := c.core.ownerPendingWriteBytes
    liveConnections := c.core.ownerLiveConnections
    aborted := s.aborted || c.core.throwing.isSome }

/-- 作業の糸や記録の側の変化。 -/
def modify (n : Nat) (f : ServerConnection → ServerConnection) (s : ConnectionIoLoop) : ConnectionIoLoop :=
  { s with objects := update s.objects n (f (s.objects n)) }

/-! ## 表の操作 -/

def collectClosedConnections (s : ConnectionIoLoop) : ConnectionIoLoop :=
  { s with connections := s.connections.filter fun entry => !(s.objects entry.2).canBeCollected }

/-- 番号が尽きるか重なると `Abort` する。 -/
def startConnectionOnContext (recvRefused : Bool) (s : ConnectionIoLoop) : ConnectionIoLoop :=
  if s.state ≠ .running then s
  else if s.nextConnectionId = 0 then { s with aborted := true }
  else if (s.connections.lookup s.nextConnectionId).isSome then { s with aborted := true }
  else
    { s with
      nextConnectionId := s.nextConnectionId + 1
      connections := (s.nextConnectionId, s.created) :: s.connections
      liveConnections := s.liveConnections + 1
      created := s.created + 1
      objects := update s.objects s.created (ServerConnection.create cfg s.nextConnectionId) }.runOn s.created
      (·.start recvRefused)

def beginDrainOnContext (s : ConnectionIoLoop) : ConnectionIoLoop :=
  s.connections.foldl (fun s entry => s.runOn entry.2 fun c => { c with core := c.core.beginDrain }) s

def closeConnectionsOnContext (s : ConnectionIoLoop) : ConnectionIoLoop :=
  (s.connections.foldl (fun s entry =>
    if (s.objects entry.2).core.state = .closed then s
    else s.runOn entry.2 fun c => { c with core := c.core.close }) s).collectClosedConnections

def handleWorkerResult (refused : Bool) (result : WorkerResult) (s : ConnectionIoLoop) : ConnectionIoLoop :=
  match s.connections.lookup result.connectionId with
  | none => s
  | some n => s.runOn n (·.handleResult cfg refused result)

/-! ## 遷移 -/

/-- `n` は接続の実体の通し番号である。 -/
inductive Act where
  | start
  | postStartConnection
  | beginDrain
  | stopImmediately
  | requestStop
  | startConnection (recvRefused : Bool)
  | beginDrainOnContext
  | closeConnectionsOnContext
  | collectClosedConnections
  | received (n : Nat) (sendRefused recvRefused : Bool) (bytes : Bytes)
  | receivedEof (n : Nat)
  | receiveFailed (n : Nat)
  | submitAccepted (n : Nat) (requests : List Request)
  | countAdmitted (n : Nat) (recvRefused : Bool) (requestCount : Nat)
  | submitFull (n : Nat) (sendRefused recvRefused : Bool) (requests : List Request)
  | submitClosed (n : Nat) (requests : List Request)
  | sendCompleted (n : Nat) (refused : Bool) (bytes : Nat)
  | sendFailed (n : Nat)
  | submitThrew (n : Nat) (requests : List Request)
  | handleWorkerResult (n : Nat) (refused : Bool) (result : WorkerResult)
  | execute (n : Nat) (job : Job) (invoke : Request → Invocation)
  | post (n batch : Nat) (result : WorkerResult)
  | fault (faults : Faults)

/-- 動作が起こすと決める例外。 -/
def Act.faults : Act → Faults
  | .fault faults => faults
  | _ => {}

/-- 実体 `n` の受信の待ちが終わる。 -/
def Act.endsReceive (n : Nat) : Act → Bool
  | .received m _ _ _ | .receivedEof m | .receiveFailed m => m = n
  | _ => false

/-- 実体 `n` の送信の待ちが終わる。 -/
def Act.endsSend (n : Nat) : Act → Bool
  | .sendCompleted m _ _ | .sendFailed m => m = n
  | _ => false

/-- 入出力の糸が、どの接続の歩みの途中にもいない。 -/
def idle (s : ConnectionIoLoop) : Bool := (List.range s.created).all fun n => !(s.objects n).readLoop.busy

/-- 入出力の開始が断られるのは、停止の要求の後だけである。 -/
def mayRefuse (s : ConnectionIoLoop) (refused : Bool) : Bool := !refused || s.stopRequested

def enabled (s : ConnectionIoLoop) : Act → Prop
  | .start => s.state = .created
  | .postStartConnection => s.state = .running
  | .beginDrain => s.state = .created ∨ s.state = .running
  | .stopImmediately => s.state = .running ∨ s.state = .draining
  | .requestStop => s.state = .running ∨ s.state = .draining
  | .startConnection recvRefused => s.idle = true ∧ 0 < s.pendingStarts ∧ s.mayRefuse recvRefused = true
  | .beginDrainOnContext => s.idle = true ∧ s.drainPosted = true
  | .closeConnectionsOnContext => s.idle = true ∧ s.closePosted = true
  | .collectClosedConnections => s.idle = true
  | .received n sendRefused recvRefused bytes =>
      s.idle = true ∧ n < s.created ∧ (s.objects n).readLoop = .receiving ∧ bytes ≠ [] ∧
        s.mayRefuse sendRefused = true ∧ s.mayRefuse recvRefused = true
  | .receivedEof n | .receiveFailed n => s.idle = true ∧ n < s.created ∧ (s.objects n).readLoop = .receiving
  | .submitAccepted n requests | .submitClosed n requests | .submitThrew n requests =>
      n < s.created ∧ (s.objects n).readLoop = .submitting requests
  | .countAdmitted n recvRefused requestCount =>
      n < s.created ∧ (s.objects n).readLoop = .counting requestCount ∧ s.mayRefuse recvRefused = true
  | .submitFull n sendRefused recvRefused requests =>
      n < s.created ∧ (s.objects n).readLoop = .submitting requests ∧ s.mayRefuse sendRefused = true ∧
        s.mayRefuse recvRefused = true
  | .sendCompleted n refused bytes =>
      s.idle = true ∧ n < s.created ∧ 0 < bytes ∧ bytes ≤ (s.objects n).core.writeLoop.unsent.length ∧
        s.mayRefuse refused = true
  | .sendFailed n => s.idle = true ∧ n < s.created ∧ 0 < (s.objects n).core.writeLoop.unsent.length
  | .handleWorkerResult n refused result =>
      s.idle = true ∧ n < s.created ∧ result ∈ (s.objects n).results ∧ s.mayRefuse refused = true
  | .execute n job _ => n < s.created ∧ job ∈ (s.objects n).jobs
  | .post n batch result =>
      n < s.created ∧ (s.objects n).posting.find? (fun entry => entry.1 = batch) = some (batch, result)
  | .fault _ => True

def next (s : ConnectionIoLoop) : Act → ConnectionIoLoop
  | .start => { s with state := .running }
  | .postStartConnection => { s with pendingStarts := s.pendingStarts + 1 }
  | .beginDrain =>
      { s with
        state := if s.state = .created then .stopped else .draining
        drainPosted := s.drainPosted || s.state = .running }
  | .stopImmediately => { s with closePosted := true }
  | .requestStop => { s with stopRequested := true }
  | .startConnection recvRefused =>
      { s with pendingStarts := s.pendingStarts - 1 }.collectClosedConnections.startConnectionOnContext cfg recvRefused
  | .beginDrainOnContext => { s with drainPosted := false }.beginDrainOnContext
  | .closeConnectionsOnContext => { s with closePosted := false }.closeConnectionsOnContext
  | .collectClosedConnections => s.collectClosedConnections
  | .received n sendRefused recvRefused bytes => s.runOn n (·.received cfg sendRefused recvRefused bytes)
  | .receivedEof n => s.runOn n (·.receivedEof)
  | .receiveFailed n => s.runOn n (·.receiveFailed)
  | .submitAccepted n requests => s.runOn n (·.submitAccepted requests)
  | .countAdmitted n recvRefused requestCount => s.runOn n (·.countAdmitted recvRefused requestCount)
  | .submitFull n sendRefused recvRefused requests => s.runOn n (·.submitFull cfg sendRefused recvRefused requests)
  | .submitClosed n _ => s.runOn n (·.submitClosed)
  | .submitThrew n _ => s.runOn n (·.submitThrew)
  | .sendCompleted n refused bytes =>
      s.runOn n fun c => { c with core := c.core.sendCompleted refused (some bytes) }
  | .sendFailed n => s.runOn n fun c => { c with core := c.core.sendCompleted false none }
  | .handleWorkerResult n refused result =>
      if (s.connections.lookup result.connectionId).isSome then
        (s.modify n (·.takeResult result)).handleWorkerResult cfg refused result
      else s.modify n (·.discardResult result)
  | .execute n job invoke => s.modify n (·.execute cfg job invoke)
  | .post n batch result => s.modify n (·.post batch result)
  | .fault faults => { s with faults := faults }

/-- 入出力の糸、作業の糸、持ち主の糸の動作が、任意の順に起こる遷移系。例外に終わる呼び出しは、いつでも `fault` が改める。`Abort` の
後は何も起こらない。 -/
def connectionIoLoop : Machine ConnectionIoLoop Act where
  init s := s = initial cfg
  enabled s a := s.aborted = false ∧ s.enabled a
  next := next cfg

instance (s : ConnectionIoLoop) (a : Act) : Decidable ((connectionIoLoop cfg).enabled s a) := by
  cases a <;> dsimp only [connectionIoLoop, ConnectionIoLoop.enabled] <;> infer_instance

end ConnectionIoLoop

end Xrpc.Server
