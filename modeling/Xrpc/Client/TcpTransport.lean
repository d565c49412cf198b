import Xrpc.Client.CallAttempt
import Xrpc.Lib.Machine

/-!
# クライアントの輸送路

`src/client/tcp_transport.cpp` の `TcpTransport` を、任意個の輸送路、呼び出し、受信スレッド、`Close` の割り込み合う
遷移系として写す。ミューテックスの一つの区間を一つの動作とし、`state_mutex_` を握ったまま行う接続だけは複数の動作に
分ける。記述子の番号は、閉じた後の任意の `socket()` に再び割り当てられうる。
-/

namespace Xrpc.Client
open Xrpc.Lib Xrpc.Protocol Function

/-! ## スレッドの位置 -/

/-- `Call` を行うスレッドの位置。`g` は、記述子を得たときの接続の世代である。 -/
inductive CallPc where
  | idle
  | ensureConnected
  | joinReader (g : ConnId)
  | reconnect
  | connecting (fd : Fd) (g : ConnId)
  | assigning (g : ConnId)
  | register
  | lockWrite
  | connectedFd
  | setSendTimeout (fd : Fd) (g : ConnId)
  | retry (fd : Fd) (g : ConnId) (written : Nat)
  | send (fd : Fd) (g : ConnId) (written : Nat)
  | unregister (failure : CallFailure)
  | sendFailed (status : Status)
  | closing (status : Status)
  | wait
  | waitTaken
  | returned (result : CallAttemptResult)
  deriving DecidableEq

/-- `ReaderLoop` を行うスレッドの位置。 -/
inductive ReaderPc where
  | unborn
  | decoding
  | completing
  | receiving
  | closing (status : Status)
  | failAll (status : Status)
  | failing
  | done
  deriving DecidableEq

/-- `Close` の位置。`reader` は、合流のために引き取った受信スレッドである。 -/
inductive CloserPc where
  | idle
  | closing (t : TransportId)
  | failAll (t : TransportId) (reader : Option ConnId)
  | publishing (reader : Option ConnId)
  | done
  deriving DecidableEq

/-- 一回の `Close`。書き込みに失敗した呼び出しが行うものと、それ以外がある。 -/
inductive CloserId where
  | caller (c : CallId)
  | external (k : Nat)
  deriving DecidableEq

/-- 保留中の呼び出しに結果を与えるもの。 -/
inductive Agent where
  | reader (g : ConnId)
  | closer (i : CloserId)
  deriving DecidableEq

/-- `PendingCall` に書く結果。`agent` は書く者、`frame` は応答が何番目に復号したフレームかである。 -/
structure Completion where
  result : CallAttemptResult
  agent : Agent
  frame : Option Nat
  deriving DecidableEq

/-! ## 状態 -/

inductive IoKind where
  | send
  | recv
  | close
  deriving DecidableEq

/-- 記述子に対する操作の記録。`obtained` は番号を得た世代、`actual` は操作が実際に働いた世代である。 -/
structure IoEvent where
  kind : IoKind
  obtained : ConnId
  actual : ConnId
  deriving DecidableEq

/-- 全体の状態。輸送路の欄は輸送路の番号で、`PendingCall` の欄は呼び出しで引く。`hands` は、表から取り出してまだ結果を
書いていない `PendingCall` である。`obtained` からの欄は、性質を述べるための記録であり、動作の可否には影響しない。`obtained` は
記述子を得た世代、`wrote` はフレームの最後まで書き終えた世代、`current` は最後に接続した世代、`closed` は `Close` が閉じた
世代である。 -/
structure State where
  now : Nat
  fds : Fd → Option ConnId
  nextConn : ConnId
  connTransport : ConnId → TransportId
  connFd : ConnId → Fd
  socket : TransportId → Option (Fd × ConnId)
  stateMutex : TransportId → Option CallId
  readerThread : TransportId → Option ConnId
  writeMutex : TransportId → Option CallId
  pendingCalls : TransportId → List (UInt64 × CallId)
  pc : CallId → CallPc
  result : CallId → Option Completion
  readerPc : ConnId → ReaderPc
  readerBuffer : ConnId → Bytes
  closerPc : CloserId → CloserPc
  hands : Agent → List (CallId × Completion)
  obtained : CallId → Option ConnId
  wrote : CallId → Option ConnId
  current : TransportId → Option ConnId
  decoded : ConnId → List ResponseEnvelope
  closed : CloserId → Option ConnId
  resultSets : CallId → Nat
  sent : ConnId → List (CallId × UInt8)
  log : List IoEvent

namespace State

def initial : State where
  now := 0
  fds _ := none
  nextConn := 0
  connTransport _ := 0
  connFd _ := 0
  socket _ := none
  stateMutex _ := none
  readerThread _ := none
  writeMutex _ := none
  pendingCalls _ := []
  pc _ := .idle
  result _ := none
  readerPc _ := .unborn
  readerBuffer _ := []
  closerPc _ := .idle
  hands _ := []
  obtained _ := none
  wrote _ := none
  current _ := none
  decoded _ := []
  closed _ := none
  resultSets _ := 0
  sent _ := []
  log := []

/-! ## 共有する表への操作 -/

def ids (s : State) (t : TransportId) : List UInt64 := (s.pendingCalls t).map Prod.fst

/-- `pending_calls_[request_id] = pending`。 -/
def registerPending (s : State) (t : TransportId) (id : UInt64) (c : CallId) : State :=
  { s with pendingCalls := update s.pendingCalls t ((id, c) :: (s.pendingCalls t).filter (·.1 ≠ id)) }

def unregisterPending (s : State) (t : TransportId) (id : UInt64) : State :=
  { s with pendingCalls := update s.pendingCalls t ((s.pendingCalls t).filter (·.1 ≠ id)) }

/-- `CompletePending` の表の区間。 -/
def takePending (s : State) (g : ConnId) (c : CallId) (response : ResponseEnvelope) : State :=
  let t := s.connTransport g
  let completion : Completion := ⟨.response response, .reader g, some (s.decoded g).length⟩
  { s with
    pendingCalls := update s.pendingCalls t ((s.pendingCalls t).filter (·.1 ≠ response.requestId))
    hands := update s.hands (.reader g) (s.hands (.reader g) ++ [(c, completion)]) }

/-- `FailAllPending` の表の区間。 -/
def failAllPending (s : State) (a : Agent) (t : TransportId) (failure : CallFailure) : State :=
  { s with
    pendingCalls := update s.pendingCalls t []
    hands := update s.hands a (s.hands a ++ (s.pendingCalls t).map fun e => (e.2, ⟨.failure failure, a, none⟩)) }

/-- 表の外で、取り出した `PendingCall` に結果を書く。 -/
def publish (s : State) (a : Agent) (c : CallId) (completion : Completion) : State :=
  { s with
    result := update s.result c (some completion)
    resultSets := update s.resultSets c (s.resultSets c + 1)
    hands := update s.hands a ((s.hands a).erase (c, completion)) }

/-- `CloseSocketLocked`。接続している記述子を閉じる。 -/
def closeSocket (s : State) (t : TransportId) (fd : Fd) : State :=
  { s with fds := update s.fds fd none, socket := update s.socket t none }

def setPc (s : State) (c : CallId) (pc : CallPc) : State := { s with pc := update s.pc c pc }

def setReaderPc (s : State) (g : ConnId) (pc : ReaderPc) : State := { s with readerPc := update s.readerPc g pc }

def setCloserPc (s : State) (i : CloserId) (pc : CloserPc) : State := { s with closerPc := update s.closerPc i pc }

def record (s : State) (kind : IoKind) (obtained actual : ConnId) : State :=
  { s with log := s.log ++ [⟨kind, obtained, actual⟩] }

end State

/-! ## 動作 -/

/-- `SendAll` が失敗する理由。 -/
inductive SendFailure where
  | timedOut
  | setTimeout (errno : Errno)
  | peerClosed
  | error (errno : Errno)

/-- `ReaderLoop` が終わる理由。 -/
inductive ReaderFailure where
  | undecodable
  | notResponse
  | peerClosed
  | error (errno : Errno)

inductive Action where
  | tick
  -- `Call` の初めと `EnsureConnectedWithTimeout`
  | encodeFailed (c : CallId) (status : Status)
  | startExpired (c : CallId)
  | start (c : CallId)
  | connected (c : CallId)
  | takeReader (c : CallId) (g : ConnId)
  | joined (c : CallId) (g : ConnId)
  | socketFailed (c : CallId) (status : Status)
  | openSocket (c : CallId) (fd : Fd)
  | connectFailed (c : CallId) (fd : Fd) (g : ConnId) (status : Status)
  | connectOk (c : CallId) (fd : Fd) (g : ConnId)
  | assignReader (c : CallId) (g : ConnId)
  -- `TryRegisterPending`
  | registerFull (c : CallId)
  | register (c : CallId)
  -- `TryWriteRequestFrame`
  | writeExpired (c : CallId)
  | lockWrite (c : CallId)
  | notConnected (c : CallId)
  | connectedFd (c : CallId) (fd : Fd) (g : ConnId)
  | setSendTimeoutFailed (c : CallId) (fd : Fd) (g : ConnId) (errno : Errno)
  | setSendTimeout (c : CallId) (fd : Fd) (g : ConnId)
  | sendPart (c : CallId) (fd : Fd) (g : ConnId) (written n : Nat) (actual : ConnId)
  | sendLast (c : CallId) (fd : Fd) (g : ConnId) (written : Nat) (actual : ConnId)
  | sendInterrupted (c : CallId) (fd : Fd) (g : ConnId) (written : Nat)
  | sendRetry (c : CallId) (fd : Fd) (g : ConnId) (written : Nat)
  | sendFails (c : CallId) (fd : Fd) (g : ConnId) (written : Nat) (failure : SendFailure)
  | unregister (c : CallId) (failure : CallFailure)
  | abandonWrite (c : CallId) (status : Status)
  | writeFailed (c : CallId) (status : Status)
  -- `WaitForResult`
  | resultReady (c : CallId) (completion : Completion)
  | waitExpired (c : CallId)
  | waitLost (c : CallId)
  -- `Close`
  | close (k : Nat) (t : TransportId)
  | closeOpen (i : CloserId) (t : TransportId) (fd : Fd) (g : ConnId)
  | closeClosed (i : CloserId) (t : TransportId)
  | closeFailAll (i : CloserId) (t : TransportId) (reader : Option ConnId)
  | closeJoin (i : CloserId) (reader : Option ConnId)
  -- `ReaderLoop`
  | decodeMore (g : ConnId)
  | complete (g : ConnId) (consumed : Nat) (response : ResponseEnvelope) (c : CallId)
  | completeUnknown (g : ConnId) (consumed : Nat) (response : ResponseEnvelope)
  | completed (g : ConnId)
  | recv (g : ConnId) (bytes : Bytes) (actual : ConnId)
  | readerFails (g : ConnId) (failure : ReaderFailure)
  | closeFromReader (g : ConnId) (status : Status) (actual : ConnId)
  | closeFromReaderSkip (g : ConnId) (status : Status)
  | failAll (g : ConnId) (status : Status)
  | readerDone (g : ConnId)
  -- 取り出した `PendingCall` への結果の書き込み
  | publish (a : Agent) (c : CallId) (completion : Completion)

namespace SendFailure

def status (env : Env) : SendFailure → Status
  | .timedOut => timeoutStatus (text "send")
  | .setTimeout errno => ioStatus env (text "setsockopt(SO_SNDTIMEO)") errno
  | .peerClosed => peerClosedStatus (text "send")
  | .error errno => ioStatus env (text "send") errno

/-- 期限と送信の時限は、途中まで送った後と中断の後にだけ確かめ直す。 -/
def occurs (cfg : Config) (s : State) (c : CallId) (fd : Fd) (g : ConnId) (written : Nat) : SendFailure → Prop
  | .timedOut => s.pc c = .retry fd g written ∧ cfg.expired s.now c
  | .setTimeout _ => s.pc c = .retry fd g written ∧ (cfg.calls c).deadline ≠ none ∧ ¬ cfg.expired s.now c
  | .peerClosed => s.pc c = .send fd g written
  | .error errno => s.pc c = .send fd g written ∧ errno ≠ EINTR

end SendFailure

/-- 受信スレッドの手元の入力の復号。 -/
def State.decodeBuffer (cfg : Config) (s : State) (g : ConnId) : FrameDecodeResult :=
  FrameCodec.decode cfg.env.platform ⟨(cfg.transports (s.connTransport g)).protocolLimits⟩ (s.readerBuffer g)

namespace ReaderFailure

def status (env : Env) : ReaderFailure → Status
  | .undecodable => ⟨.dataLoss, text "failed to decode response frame"⟩
  | .notResponse => ⟨.dataLoss, text "response frame did not contain an RPC response"⟩
  | .peerClosed => peerClosedStatus (text "recv")
  | .error errno => ioStatus env (text "recv") errno

def occurs (cfg : Config) (s : State) (g : ConnId) : ReaderFailure → Prop
  | .undecodable =>
      s.readerPc g = .decoding ∧ (s.decodeBuffer cfg g).error ≠ .ok ∧ (s.decodeBuffer cfg g).error ≠ .needMoreData
  | .notResponse =>
      s.readerPc g = .decoding ∧ (s.decodeBuffer cfg g).error = .ok ∧ (s.decodeBuffer cfg g).response = none
  | .peerClosed => s.readerPc g = .receiving
  | .error errno => s.readerPc g = .receiving ∧ errno ≠ EINTR

end ReaderFailure

/-- 受信スレッドが復号した応答。 -/
def State.decodes (cfg : Config) (s : State) (g : ConnId) (consumed : Nat) (response : ResponseEnvelope) : Prop :=
  s.readerPc g = .decoding ∧ (s.decodeBuffer cfg g).error = .ok ∧ (s.decodeBuffer cfg g).response = some response ∧
    (s.decodeBuffer cfg g).consumed = consumed

/-- 引き取った受信スレッドが、あれば終わっている。 -/
def State.joinable (s : State) (reader : Option ConnId) : Prop := ∀ g ∈ reader, s.readerPc g = .done

/-- 接続を試みてよい。`state_mutex_` は空いていて、接続はなく、残った受信スレッドもない。 -/
def State.mayConnect (cfg : Config) (s : State) (c : CallId) : Prop :=
  s.stateMutex (cfg.transport c) = none ∧ s.socket (cfg.transport c) = none ∧
    (s.pc c = .reconnect ∨ s.pc c = .ensureConnected ∧ s.readerThread (cfg.transport c) = none)

/-- 動作が起こりうる条件。 -/
def Action.enabled (cfg : Config) (s : State) : Action → Prop
  | .tick => True
  | .encodeFailed c status => s.pc c = .idle ∧ cfg.encoded c = .error status
  | .startExpired c => s.pc c = .idle ∧ cfg.encoded c = .ok (cfg.requestFrame c) ∧ cfg.expired s.now c
  | .start c => s.pc c = .idle ∧ cfg.encoded c = .ok (cfg.requestFrame c) ∧ ¬ cfg.expired s.now c
  | .connected c =>
      (s.pc c = .ensureConnected ∨ s.pc c = .reconnect) ∧ s.stateMutex (cfg.transport c) = none ∧
        s.socket (cfg.transport c) ≠ none
  | .takeReader c g =>
      s.pc c = .ensureConnected ∧ s.stateMutex (cfg.transport c) = none ∧ s.socket (cfg.transport c) = none ∧
        s.readerThread (cfg.transport c) = some g
  | .joined c g => s.pc c = .joinReader g ∧ s.readerPc g = .done
  | .socketFailed c status => s.mayConnect cfg c ∧ status.code ≠ .ok
  | .openSocket c fd => s.mayConnect cfg c ∧ s.fds fd = none
  | .connectFailed c fd g status => s.pc c = .connecting fd g ∧ status.code ≠ .ok
  | .connectOk c fd g => s.pc c = .connecting fd g
  | .assignReader c g => s.pc c = .assigning g ∧ s.joinable (s.readerThread (cfg.transport c))
  | .registerFull c =>
      s.pc c = .register ∧
        (cfg.transports (cfg.transport c)).maxInflightPerEndpoint ≤ (s.pendingCalls (cfg.transport c)).length
  | .register c =>
      s.pc c = .register ∧
        (s.pendingCalls (cfg.transport c)).length < (cfg.transports (cfg.transport c)).maxInflightPerEndpoint
  | .writeExpired c => s.pc c = .lockWrite ∧ s.writeMutex (cfg.transport c) = none ∧ cfg.expired s.now c
  | .lockWrite c => s.pc c = .lockWrite ∧ s.writeMutex (cfg.transport c) = none ∧ ¬ cfg.expired s.now c
  | .notConnected c =>
      s.pc c = .connectedFd ∧ s.stateMutex (cfg.transport c) = none ∧ s.socket (cfg.transport c) = none
  | .connectedFd c fd g =>
      s.pc c = .connectedFd ∧ s.stateMutex (cfg.transport c) = none ∧ s.socket (cfg.transport c) = some (fd, g)
  | .setSendTimeoutFailed c fd g _ => s.pc c = .setSendTimeout fd g
  | .setSendTimeout c fd g => s.pc c = .setSendTimeout fd g ∧ s.fds fd ≠ none
  | .sendPart c fd g written n actual =>
      s.pc c = .send fd g written ∧ s.fds fd = some actual ∧ 0 < n ∧ written + n < (cfg.requestFrame c).length
  | .sendLast c fd g written actual =>
      s.pc c = .send fd g written ∧ s.fds fd = some actual ∧ written < (cfg.requestFrame c).length
  | .sendInterrupted c fd g written => s.pc c = .send fd g written
  | .sendRetry c fd g written =>
      s.pc c = .retry fd g written ∧ ((cfg.calls c).deadline = none ∨ ¬ cfg.expired s.now c ∧ s.fds fd ≠ none)
  | .sendFails c fd g written failure => failure.occurs cfg s c fd g written
  | .unregister c failure => s.pc c = .unregister failure
  | .abandonWrite c status => s.pc c = .sendFailed status
  | .writeFailed c status => s.pc c = .closing status ∧ s.closerPc (.caller c) = .done
  | .resultReady c completion => (s.pc c = .wait ∨ s.pc c = .waitTaken) ∧ s.result c = some completion
  | .waitExpired c =>
      s.pc c = .wait ∧ cfg.expired s.now c ∧ s.result c = none ∧ cfg.requestId c ∈ s.ids (cfg.transport c)
  | .waitLost c =>
      s.pc c = .wait ∧ cfg.expired s.now c ∧ s.result c = none ∧ cfg.requestId c ∉ s.ids (cfg.transport c)
  | .close k _ => s.closerPc (.external k) = .idle
  | .closeOpen i t fd g => s.closerPc i = .closing t ∧ s.stateMutex t = none ∧ s.socket t = some (fd, g)
  | .closeClosed i t => s.closerPc i = .closing t ∧ s.stateMutex t = none ∧ s.socket t = none
  | .closeFailAll i t reader => s.closerPc i = .failAll t reader
  | .closeJoin i reader => s.closerPc i = .publishing reader ∧ s.hands (.closer i) = [] ∧ s.joinable reader
  | .decodeMore g => s.readerPc g = .decoding ∧ (s.decodeBuffer cfg g).error = .needMoreData
  | .complete g consumed response c =>
      s.decodes cfg g consumed response ∧ (response.requestId, c) ∈ s.pendingCalls (s.connTransport g)
  | .completeUnknown g consumed response =>
      s.decodes cfg g consumed response ∧ response.requestId ∉ s.ids (s.connTransport g)
  | .completed g => s.readerPc g = .completing ∧ s.hands (.reader g) = []
  | .recv g bytes actual =>
      s.readerPc g = .receiving ∧ s.fds (s.connFd g) = some actual ∧ bytes ≠ [] ∧ bytes.length ≤ 4096
  | .readerFails g failure => failure.occurs cfg s g
  | .closeFromReader g status actual =>
      s.readerPc g = .closing status ∧ s.stateMutex (s.connTransport g) = none ∧
        s.socket (s.connTransport g) = some (s.connFd g, actual)
  | .closeFromReaderSkip g status =>
      s.readerPc g = .closing status ∧ s.stateMutex (s.connTransport g) = none ∧
        (s.socket (s.connTransport g)).map Prod.fst ≠ some (s.connFd g)
  | .failAll g status => s.readerPc g = .failAll status
  | .readerDone g => s.readerPc g = .failing ∧ s.hands (.reader g) = []
  | .publish a c completion => (c, completion) ∈ s.hands a

/-- 動作の結果。 -/
def Action.next (cfg : Config) (s : State) : Action → State
  | .tick => { s with now := s.now + 1 }
  | .encodeFailed c status => s.setPc c (.returned (makeCallFailure status .notSent))
  | .startExpired c => s.setPc c (.returned (makeCallFailure deadlineExceededStatus .notSent))
  | .start c => s.setPc c .ensureConnected
  | .connected c => s.setPc c .register
  | .takeReader c g =>
      { s.setPc c (.joinReader g) with readerThread := update s.readerThread (cfg.transport c) none }
  | .joined c _ => s.setPc c .reconnect
  | .socketFailed c status => s.setPc c (.returned (makeCallFailure status .notSent))
  | .openSocket c fd =>
      { s.setPc c (.connecting fd s.nextConn) with
        fds := update s.fds fd (some s.nextConn)
        nextConn := s.nextConn + 1
        connTransport := update s.connTransport s.nextConn (cfg.transport c)
        connFd := update s.connFd s.nextConn fd
        stateMutex := update s.stateMutex (cfg.transport c) (some c) }
  | .connectFailed c fd _ status =>
      { s.setPc c (.returned (makeCallFailure status .notSent)) with
        fds := update s.fds fd none
        stateMutex := update s.stateMutex (cfg.transport c) none }
  | .connectOk c fd g =>
      -- 受信スレッドは、前の受信スレッドとの合流を待たずに走り始める
      { (s.setPc c (.assigning g)).setReaderPc g .decoding with
        socket := update s.socket (cfg.transport c) (some (fd, g))
        current := update s.current (cfg.transport c) (some g) }
  | .assignReader c g =>
      { s.setPc c .register with
        readerThread := update s.readerThread (cfg.transport c) (some g)
        stateMutex := update s.stateMutex (cfg.transport c) none }
  | .registerFull c =>
      s.setPc c (.returned (makeCallFailure ⟨.resourceExhausted, text "client max in-flight per endpoint exceeded"⟩
        .notSent))
  | .register c => (s.registerPending (cfg.transport c) (cfg.requestId c) c).setPc c .lockWrite
  | .writeExpired c =>
      { s.setPc c (.unregister ⟨deadlineExceededStatus, .notSent⟩) with
        writeMutex := update s.writeMutex (cfg.transport c) (some c) }
  | .lockWrite c =>
      { s.setPc c .connectedFd with writeMutex := update s.writeMutex (cfg.transport c) (some c) }
  | .notConnected c => s.setPc c (.unregister ⟨⟨.unavailable, text "transport not connected"⟩, .notSent⟩)
  | .connectedFd c fd g => { s.setPc c (.setSendTimeout fd g) with obtained := update s.obtained c (some g) }
  | .setSendTimeoutFailed c _ _ errno =>
      s.setPc c (.unregister ⟨ioStatus cfg.env (text "setsockopt(SO_SNDTIMEO)") errno, .notSent⟩)
  | .setSendTimeout c fd g => s.setPc c (.send fd g 0)
  | .sendPart c fd g written n actual =>
      { (s.setPc c (.retry fd g (written + n))).record .send g actual with
        sent := update s.sent actual
          (s.sent actual ++ (((cfg.requestFrame c).drop written).take n).map fun b => (c, b)) }
  | .sendLast c _ g written actual =>
      { (s.setPc c .wait).record .send g actual with
        sent := update s.sent actual (s.sent actual ++ ((cfg.requestFrame c).drop written).map fun b => (c, b))
        wrote := update s.wrote c (some actual)
        writeMutex := update s.writeMutex (cfg.transport c) none }
  | .sendInterrupted c fd g written => s.setPc c (.retry fd g written)
  | .sendRetry c fd g written => s.setPc c (.send fd g written)
  | .sendFails c _ _ _ failure => s.setPc c (.sendFailed (failure.status cfg.env))
  | .unregister c failure =>
      { (s.unregisterPending (cfg.transport c) (cfg.requestId c)).setPc c (.returned (.failure failure)) with
        writeMutex := update s.writeMutex (cfg.transport c) none }
  | .abandonWrite c status =>
      ((s.unregisterPending (cfg.transport c) (cfg.requestId c)).setPc c (.closing status)).setCloserPc (.caller c)
        (.closing (cfg.transport c))
  | .writeFailed c status =>
      { s.setPc c (.returned (makeCallFailure status .maybeSent)) with
        writeMutex := update s.writeMutex (cfg.transport c) none }
  | .resultReady c completion => s.setPc c (.returned completion.result)
  | .waitExpired c =>
      (s.unregisterPending (cfg.transport c) (cfg.requestId c)).setPc c
        (.returned (makeCallFailure deadlineExceededStatus .maybeSent))
  | .waitLost c => s.setPc c .waitTaken
  | .close k t => s.setCloserPc (.external k) (.closing t)
  | .closeOpen i t fd g =>
      { (s.closeSocket t fd).setCloserPc i (.failAll t (s.readerThread t)) with
        readerThread := update s.readerThread t none
        closed := update s.closed i (some g) }
  | .closeClosed i t =>
      { s.setCloserPc i (.failAll t (s.readerThread t)) with readerThread := update s.readerThread t none }
  | .closeFailAll i t reader =>
      (s.failAllPending (.closer i) t ⟨⟨.unavailable, text "transport closed"⟩, .maybeSent⟩).setCloserPc i
        (.publishing reader)
  | .closeJoin i _ => s.setCloserPc i .done
  | .decodeMore g => s.setReaderPc g .receiving
  | .complete g consumed response c =>
      { (s.takePending g c response).setReaderPc g .completing with
        readerBuffer := update s.readerBuffer g ((s.readerBuffer g).drop consumed)
        decoded := update s.decoded g (s.decoded g ++ [response]) }
  | .completeUnknown g consumed response =>
      { s with
        readerBuffer := update s.readerBuffer g ((s.readerBuffer g).drop consumed)
        decoded := update s.decoded g (s.decoded g ++ [response]) }
  | .completed g => s.setReaderPc g .decoding
  | .recv g bytes actual =>
      { (s.setReaderPc g .decoding).record .recv g actual with
        readerBuffer := update s.readerBuffer g (s.readerBuffer g ++ bytes) }
  | .readerFails g failure => s.setReaderPc g (.closing (failure.status cfg.env))
  | .closeFromReader g status actual =>
      ((s.closeSocket (s.connTransport g) (s.connFd g)).setReaderPc g (.failAll status)).record .close g actual
  | .closeFromReaderSkip g status => s.setReaderPc g (.failAll status)
  | .failAll g status =>
      (s.failAllPending (.reader g) (s.connTransport g) ⟨status, .maybeSent⟩).setReaderPc g .failing
  | .readerDone g => s.setReaderPc g .done
  | .publish a c completion => s.publish a c completion

/-- クライアントの遷移系。 -/
def client (cfg : Config) : Machine State Action where
  init s := s = .initial
  enabled := Action.enabled cfg
  next := Action.next cfg

instance SendFailure.decidableOccurs (cfg : Config) (s : State) (c : CallId) (fd : Fd) (g : ConnId) (written : Nat) :
    (failure : SendFailure) → Decidable (failure.occurs cfg s c fd g written)
  | .timedOut => inferInstanceAs (Decidable (_ ∧ _))
  | .setTimeout _ => inferInstanceAs (Decidable (_ ∧ _ ∧ _))
  | .peerClosed => inferInstanceAs (Decidable (_ = _))
  | .error _ => inferInstanceAs (Decidable (_ ∧ _))

instance ReaderFailure.decidableOccurs (cfg : Config) (s : State) (g : ConnId) :
    (failure : ReaderFailure) → Decidable (failure.occurs cfg s g)
  | .undecodable => inferInstanceAs (Decidable (_ ∧ _ ∧ _))
  | .notResponse => inferInstanceAs (Decidable (_ ∧ _ ∧ _))
  | .peerClosed => inferInstanceAs (Decidable (_ = _))
  | .error _ => inferInstanceAs (Decidable (_ ∧ _))

instance (cfg : Config) (s : State) (g : ConnId) (consumed : Nat) (response : ResponseEnvelope) :
    Decidable (s.decodes cfg g consumed response) :=
  inferInstanceAs (Decidable (_ ∧ _ ∧ _ ∧ _))

instance (s : State) (reader : Option ConnId) : Decidable (s.joinable reader) :=
  inferInstanceAs (Decidable (∀ g ∈ reader, _))

instance (cfg : Config) (s : State) (c : CallId) : Decidable (s.mayConnect cfg c) :=
  inferInstanceAs (Decidable (_ ∧ _ ∧ _))

instance Action.decidableEnabled (cfg : Config) (s : State) (a : Action) : Decidable (a.enabled cfg s) := by
  cases a <;> dsimp only [Action.enabled] <;> infer_instance

instance (cfg : Config) (s : State) (a : Action) : Decidable ((client cfg).enabled s a) :=
  Action.decidableEnabled cfg s a

end Xrpc.Client
