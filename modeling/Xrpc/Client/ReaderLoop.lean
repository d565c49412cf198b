import Xrpc.Client.TcpTransport
import Xrpc.Protocol.FrameStream

/-!
# 応答の取り出し

`src/client/tcp_transport.cpp` の `ReaderLoop` を、一つの接続の `recv` の結果の列の上の関数として写す。`TcpTransport` の遷移系が
一歩ずつ行う復号と受信を、内側と外側のループのまま並べたものである。
-/

namespace Xrpc.Client
open Xrpc.Lib Xrpc.Protocol

/-- 一回の `recv` の結果。空の受信は、相手が閉じたことを表す。 -/
inductive RecvResult where
  | received (bytes : Bytes)
  | failed (errno : Errno)
  deriving DecidableEq

/-- `ReaderLoop` の進み。`completed` は `CompletePending` に渡した応答、`failure` は `CloseFromReader` を呼んだ理由である。 -/
structure ReaderRun where
  completed : List ResponseEnvelope
  buffer : Bytes
  failure : Option ReaderFailure

/-- 失敗していなければ、残った入力から続ける。 -/
def ReaderRun.andThen (run : ReaderRun) (next : Bytes → ReaderRun) : ReaderRun :=
  if run.failure.isSome then run
  else { next run.buffer with completed := run.completed ++ (next run.buffer).completed }

variable (p : Platform) (limits : ProtocolLimits)

/-- 内側のループ。応答を取り出すたびに、入力の先頭を消す。 -/
def decodeAvailableResponses (buffer : Bytes) : ReaderRun :=
  let decoded := FrameCodec.decode p ⟨limits⟩ buffer
  if decoded.error = .needMoreData then ⟨[], buffer, none⟩
  else if _hok : decoded.error = .ok then
    match decoded.response with
    | none => ⟨[], buffer, some .notResponse⟩
    | some response =>
        let rest := decodeAvailableResponses (buffer.drop decoded.consumed)
        { rest with completed := response :: rest.completed }
  else ⟨[], buffer, some .undecodable⟩
termination_by buffer.length
decreasing_by
  have hconsumed := decode_ok_consumed _hok
  have hpos : 0 < FrameHeader.SIZE := by decide
  rw [List.length_drop]
  omega

/-- `RecvSome` から先。中断された `recv` はやり直す。 -/
def receiveResponses : Bytes → List RecvResult → ReaderRun
  | buffer, [] => ⟨[], buffer, none⟩
  | buffer, .received bytes :: recvs =>
      if bytes = [] then ⟨[], buffer, some .peerClosed⟩
      else (decodeAvailableResponses p limits (buffer ++ bytes)).andThen fun buffer => receiveResponses buffer recvs
  | buffer, .failed errno :: recvs =>
      if errno = EINTR then receiveResponses buffer recvs else ⟨[], buffer, some (.error errno)⟩

/-- 最初の受信の前にも復号する。列が尽きれば、`recv` を待っている。 -/
def readerLoop (recvs : List RecvResult) : ReaderRun :=
  (decodeAvailableResponses p limits []).andThen fun buffer => receiveResponses p limits buffer recvs

/-- 受信が終わるまでに受け取ったバイト。 -/
def receivedBytes : List RecvResult → Bytes
  | [] => []
  | .received bytes :: recvs => if bytes = [] then [] else bytes ++ receivedBytes recvs
  | .failed errno :: recvs => if errno = EINTR then receivedBytes recvs else []

/-- 受信を終わらせた `recv` の結果。 -/
def receiveEnd : List RecvResult → Option ReaderFailure
  | [] => none
  | .received bytes :: recvs => if bytes = [] then some .peerClosed else receiveEnd recvs
  | .failed errno :: recvs => if errno = EINTR then receiveEnd recvs else some (.error errno)

/-- どのように区切って受け取っても、先頭の `k` バイトを受け取ったところで、すべてを応答として取り出し終えている。 -/
def ReaderLoopCutsAt (s : Bytes) (k : Nat) : Prop :=
  k ≤ s.length ∧ ∀ chunks : List Bytes, [] ∉ chunks → chunks.flatten = s.take k →
    (readerLoop p limits (chunks.map .received)).failure = none ∧
      (readerLoop p limits (chunks.map .received)).buffer = []

end Xrpc.Client
