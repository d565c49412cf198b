import Xrpc.Protocol.FrameCodec

/-!
# 呼び出しの試みの結果

`src/include/client/tcp_transport.h` の結果の型と、`tcp_transport.cpp` の先頭にある状態の組み立てを写す。
-/

namespace Xrpc.Client
open Xrpc.Lib Xrpc.Protocol

/-! ## 結果 -/

inductive RequestCommitState where
  | notSent
  | maybeSent
  deriving DecidableEq, Repr

structure CallFailure where
  status : Status
  commitState : RequestCommitState := .notSent
  deriving DecidableEq

inductive CallAttemptResult where
  | response (response : ResponseEnvelope)
  | failure (failure : CallFailure)
  deriving DecidableEq

namespace CallAttemptResult

def hasResponse : CallAttemptResult → Bool
  | .response _ => true
  | .failure _ => false

def mustStopRetryToAvoidDuplicateRequest : CallAttemptResult → Bool
  | .response _ => false
  | .failure f => f.commitState = .maybeSent

end CallAttemptResult

def makeCallFailure (status : Status) (commitState : RequestCommitState) : CallAttemptResult :=
  .failure ⟨status, commitState⟩

/-! ## 入出力の状態 -/

/-- `errno` の値。 -/
abbrev Errno := Nat

def EINTR : Errno := 4

/-- Linux では `EWOULDBLOCK` も同じ値である。 -/
def EAGAIN : Errno := 11

/-- 呼び出しの間に変わらない環境。`errorMessage` は `std::error_code` の説明文である。 -/
structure Env where
  platform : Platform
  errorMessage : Errno → Bytes

def makeSystemErrorMessage (env : Env) (action : Bytes) (errorCode : Errno) : Bytes :=
  action ++ text " failed" ++ (if errorCode ≠ 0 then text ": " ++ env.errorMessage errorCode else [])

def timeoutStatus (action : Bytes) : Status := ⟨.deadlineExceeded, action ++ text " timed out"⟩

def ioStatus (env : Env) (action : Bytes) (error : Errno) : Status :=
  if error = EAGAIN then timeoutStatus action else ⟨.unavailable, makeSystemErrorMessage env action error⟩

def peerClosedStatus (action : Bytes) : Status := ⟨.unavailable, action ++ text " failed: peer closed connection"⟩

def deadlineExceededStatus : Status := ⟨.deadlineExceeded, text "RPC deadline exceeded"⟩

/-! ## 呼び出しの設定 -/

abbrev TransportId := Nat

/-- 接続の世代。`socket()` が成功するたびに新しい番号になる。 -/
abbrev ConnId := Nat

/-- 記述子の番号。 -/
abbrev Fd := Nat

/-- 一回の `TcpTransport::Call`。`rpc` はそれを行う呼び出しの番号、`attempt` はその中での試みの番号である。 -/
structure CallId where
  rpc : Nat
  attempt : Nat
  deriving DecidableEq, Repr

structure TransportConfig where
  protocolLimits : ProtocolLimits := {}
  maxInflightPerEndpoint : Nat := 1024

structure CallConfig where
  transport : TransportId
  request : RequestEnvelope
  deadline : Option Nat

/-- 実行の間に変わらない、輸送路と呼び出しの設定。 -/
structure Config where
  env : Env
  transports : TransportId → TransportConfig
  calls : CallId → CallConfig

namespace Config

variable (cfg : Config)

def transport (c : CallId) : TransportId := (cfg.calls c).transport

def requestId (c : CallId) : UInt64 := (cfg.calls c).request.requestId

def encoded (c : CallId) : Except Status Bytes :=
  FrameCodec.encodeRequest cfg.env.platform ⟨(cfg.transports (cfg.transport c)).protocolLimits⟩ (cfg.calls c).request

def requestFrame (c : CallId) : Bytes :=
  match cfg.encoded c with
  | .ok frame => frame
  | .error _ => []

def expired (now : Nat) (c : CallId) : Bool :=
  match (cfg.calls c).deadline with
  | none => false
  | some deadline => deadline ≤ now

end Config

end Xrpc.Client
