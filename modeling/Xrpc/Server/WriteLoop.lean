import Xrpc.Lib.Bytes
import Xrpc.Lib.Machine

/-!
# 接続の書き込み側

`src/server/server_connection.cpp` のうち、状態と書き込みの列を扱う部分を写す。入出力の糸の一つの歩みは、コルーチンがその場で
再開することも含めて一つの関数である。`assert` が破れたことは `assertsHold` に残し、先へ進む。例外で終わる呼び出しは、歩みごとに
環境が `Faults` で決める。
-/

namespace Xrpc.Server
open Xrpc.Lib

/-! ## 接続の状態 -/

/-- `ServerConnection::State` -/
inductive ConnectionState where
  | active
  | draining
  | closed
  deriving DecidableEq

/-- 移る向き。 -/
def ConnectionState.rank : ConnectionState → Nat
  | .active => 0
  | .draining => 1
  | .closed => 2

/-- 接続が外へ出す呼び出し。 -/
inductive Effect where
  | recvProvided
  | send (bytes : Bytes)
  | shutdownRead
  | cancelFd
  | closeSocket
  | onClosed
  deriving DecidableEq

/-- `WriteLoop` の位置。`waiting` は `WriteQueueAwaiter` の待ち、`sending` は `Send` の待ちである。 -/
inductive WriteLoop where
  | unstarted
  | running
  | waiting
  | sending (batch : Bytes) (offset : Nat)
  | returned
  deriving DecidableEq

namespace WriteLoop

/-- 列から取り出して、まだ数を戻していないバイト数。 -/
def held : WriteLoop → Nat
  | .sending batch _ => batch.length
  | _ => 0

/-- 取り出したもののうち、まだ送っていないバイト。 -/
def unsent : WriteLoop → Bytes
  | .sending batch offset => batch.drop offset
  | _ => []

end WriteLoop

/-! ## 例外 -/

/-- 投げられる例外。`internal` は `InternalException` である。 -/
inductive Exception where
  | badAlloc
  | internal
  deriving DecidableEq

/-- 歩みの間に例外で終わる呼び出し。`enqueueWrite` は、受け付けた書き込みがその数のときの `push_back` を指す。 -/
structure Faults where
  cancelFd : Option Exception := none
  send : Bool := false
  recvProvided : Bool := false
  enqueueWrite : Option Nat := none
  deriving DecidableEq

/-- 数えたバイトを取り残す例外がない。 -/
def Faults.spareBytes (faults : Faults) : Bool := faults.send = false ∧ faults.enqueueWrite = none

/-- `ConnectionBackpressureLimits` -/
structure BackpressureLimits where
  maxInflight : Nat
  maxWriteQueueBytes : Nat

/-- `ServerConnection` の欄。`ownerPendingWriteBytes`、`ownerLiveConnections`、`faults` は、歩みの間だけ持ち主から借りる。
`throwing` は、いま外へ抜けつつある例外である。`accepted` から後は記録である。`accepted` は受け付けた書き込み、`sent` は `send` が
受け取ったバイト、`drained` は `TryFinishDrain` が閉じたこと、`cancelFdThrew` は `Close` の `CancelFd` が投げたこと、
`strandedBytes` は例外のために数えられたまま列にも `WriteLoop` にもないバイト数、`lostBytes` はそのうち `WriteLoop` が送る前に
失ったバイトを表す。 -/
structure ConnectionCore where
  state : ConnectionState := .active
  writeQueue : List Bytes := []
  writeQueueWaiter : Bool := false
  writeLoop : WriteLoop := .unstarted
  inflightRequests : Nat := 0
  pendingWriteBytes : Nat := 0
  ownerPendingWriteBytes : Nat := 0
  ownerLiveConnections : Nat := 1
  assertsHold : Bool := true
  effects : List Effect := []
  faults : Faults := {}
  throwing : Option Exception := none
  accepted : List Bytes := []
  sent : Bytes := []
  drained : Bool := false
  cancelFdThrew : Bool := false
  strandedBytes : Nat := 0
  lostBytes : Bytes := []
  deriving DecidableEq

namespace ConnectionCore

def check (c : ConnectionCore) (condition : Bool) : ConnectionCore :=
  { c with assertsHold := c.assertsHold && condition }

def call (c : ConnectionCore) (effects : List Effect) : ConnectionCore :=
  { c with effects := c.effects ++ effects }

/-- `ConnectionIoLoop::RecordWriteBytesChange` -/
def recordWriteBytesChange (before after : Nat) (c : ConnectionCore) : ConnectionCore :=
  { c.check (c.ownerPendingWriteBytes ≥ before) with
    ownerPendingWriteBytes := c.ownerPendingWriteBytes - before + after }

/-- `ConnectionIoLoop::OnConnectionClosed`。零より大きいときだけ引く。 -/
def onConnectionClosed (c : ConnectionCore) : ConnectionCore :=
  { c.call [.onClosed] with
    ownerLiveConnections := if c.ownerLiveConnections > 0 then c.ownerLiveConnections - 1 else c.ownerLiveConnections }

/-! ## 閉じること -/

/-- `Closed` になった後の `WakeWriteLoop`。再開した `WriteLoop` は何もせずに返る。 -/
def wakeClosed (c : ConnectionCore) : ConnectionCore :=
  { c with
    writeQueueWaiter := false
    writeLoop := if c.writeQueueWaiter then .returned else c.writeLoop }

/-- `CancelFd` が投げると、`socket_.Close()` も `on_closed_` も呼ばれない。 -/
def cancelAndClose (c : ConnectionCore) : ConnectionCore :=
  let c := c.call [.cancelFd]
  if c.faults.cancelFd.isSome then { c with throwing := c.faults.cancelFd, cancelFdThrew := true }
  else (c.call [.closeSocket]).onConnectionClosed

def close (c : ConnectionCore) : ConnectionCore :=
  if c.state = .closed then c
  else
    let c := { c with state := .closed, writeQueue := [] }
    let c := c.recordWriteBytesChange c.pendingWriteBytes 0
    { c with pendingWriteBytes := 0 }.wakeClosed.cancelAndClose

def tryFinishDrain (c : ConnectionCore) : ConnectionCore :=
  if c.state ≠ .draining then c
  else if c.inflightRequests = 0 ∧ c.pendingWriteBytes = 0 then
    { c.check c.writeQueue.isEmpty with drained := true }.close
  else c

def beginDrain (c : ConnectionCore) : ConnectionCore :=
  if c.state ≠ .active then c else ({ c with state := .draining }.call [.shutdownRead]).tryFinishDrain

/-! ## `WriteLoop` -/

def releaseWriteBytes (bytes : Nat) (c : ConnectionCore) : ConnectionCore :=
  let c := c.check (bytes ≤ c.pendingWriteBytes)
  { c with pendingWriteBytes := c.pendingWriteBytes - bytes }.recordWriteBytesChange c.pendingWriteBytes
    (c.pendingWriteBytes - bytes)

def MAX_WRITE_BATCH_BYTES : Nat := 64 * 1024

def coalesce (batch : Bytes) : List Bytes → Bytes × List Bytes
  | [] => (batch, [])
  | next :: rest =>
      if batch.length + next.length ≤ MAX_WRITE_BATCH_BYTES then coalesce (batch ++ next) rest else (batch, next :: rest)

/-- 先頭の書き込みに、続く書き込みを上限までつなぐ。列は空でない。 -/
def takeWriteBatch : List Bytes → Bytes × List Bytes
  | [] => ([], [])
  | first :: rest => coalesce first rest

/-- 送信の失敗。数を戻して閉じ、`WriteLoop` は返る。`Close` の例外は、`WriteLoop` の `Task` に留まる。 -/
def failSend (batch : Bytes) (c : ConnectionCore) : ConnectionCore :=
  { (c.releaseWriteBytes batch.length).close with writeLoop := .returned, throwing := none }

/-- `Send` の開始が投げた。例外は `WriteLoop` の `Task` に留まり、束は数を戻さずに失われる。 -/
def throwSend (batch : Bytes) (offset : Nat) (c : ConnectionCore) : ConnectionCore :=
  { c with
    writeLoop := .returned
    strandedBytes := c.strandedBytes + batch.length
    lostBytes := batch.drop offset }

/-- `Send` を始める。停止の要求の後は `refused` が真で、その場で `ECANCELED` の結果が返る。 -/
def startSend (refused : Bool) (batch : Bytes) (offset : Nat) (c : ConnectionCore) : ConnectionCore :=
  let c := { c with writeLoop := .sending batch offset }.call [.send (batch.drop offset)]
  if c.faults.send then c.throwSend batch offset
  else if refused then c.failSend batch
  else c

/-- `WriteQueueAwaiter::await_suspend` -/
def awaitSuspend (c : ConnectionCore) : ConnectionCore :=
  { c.check !c.writeQueueWaiter with writeQueueWaiter := true, writeLoop := .waiting }

/-- 内側の繰り返しを抜けた後。閉じていなければ列は空なので、書き込みを待つ。 -/
def finishWrites (c : ConnectionCore) : ConnectionCore :=
  let c := c.tryFinishDrain
  if c.state = .closed then { c with writeLoop := .returned, throwing := none } else c.awaitSuspend

/-- 内側の繰り返し。`fuel` は列の長さである。空の束は送らずに次へ進む。 -/
def writeBatches (refused : Bool) : Nat → ConnectionCore → ConnectionCore
  | 0, c => c.finishWrites
  | fuel + 1, c =>
      if c.state = .closed ∨ c.writeQueue = [] then c.finishWrites
      else
        let (batch, rest) := takeWriteBatch c.writeQueue
        let c := { c with writeQueue := rest }
        if batch.length = 0 then writeBatches refused fuel (c.releaseWriteBytes 0) else c.startSend refused batch 0

def runWriteLoop (refused : Bool) (c : ConnectionCore) : ConnectionCore :=
  { c with writeLoop := .running }.writeBatches refused c.writeQueue.length

/-- 最初の `await_ready` が真でなければ、書き込みを待つ。 -/
def startWriteLoop (refused : Bool) (c : ConnectionCore) : ConnectionCore :=
  if c.state = .closed then { c with writeLoop := .returned }
  else if c.writeQueue = [] then c.awaitSuspend
  else c.runWriteLoop refused

def wakeWriteLoop (refused : Bool) (c : ConnectionCore) : ConnectionCore :=
  if !c.writeQueueWaiter then c else { c with writeQueueWaiter := false }.runWriteLoop refused

/-- `Send` の待ちの終わり。`result` が `none` のものは、零以下の結果である。 -/
def sendCompleted (refused : Bool) (result : Option Nat) (c : ConnectionCore) : ConnectionCore :=
  match c.writeLoop with
  | .sending batch offset =>
      if c.state = .closed then { c with writeLoop := .returned }
      else
        match result with
        | none => c.failSend batch
        | some n =>
            let c := { c with sent := c.sent ++ (batch.drop offset).take n }
            if offset + n < batch.length then c.startSend refused batch (offset + n)
            else (c.releaseWriteBytes batch.length).runWriteLoop refused
  | _ => c

/-! ## 書き込みの受け付け -/

variable (limits : BackpressureLimits)

def tryReserveWriteBytes (bytes : Nat) (c : ConnectionCore) : ConnectionCore × Bool :=
  let c := c.check (c.pendingWriteBytes ≤ limits.maxWriteQueueBytes)
  if bytes > limits.maxWriteQueueBytes - c.pendingWriteBytes then (c.close, false)
  else
    ({ c with pendingWriteBytes := c.pendingWriteBytes + bytes }.recordWriteBytesChange c.pendingWriteBytes
      (c.pendingWriteBytes + bytes), true)

def pushWrite (refused : Bool) (bytes : Bytes) (c : ConnectionCore) : ConnectionCore :=
  { c with writeQueue := c.writeQueue ++ [bytes], accepted := c.accepted ++ [bytes] }.wakeWriteLoop refused

/-- `push_back` の `std::bad_alloc`。予約した数は戻らない。 -/
def throwPush (bytes : Bytes) (c : ConnectionCore) : ConnectionCore :=
  { c with throwing := some .badAlloc, strandedBytes := c.strandedBytes + bytes.length }

/-- 例外で終わったときも偽を返す。呼び出し側は `throwing` で見分ける。 -/
def enqueueWrite (refused : Bool) (bytes : Bytes) (c : ConnectionCore) : ConnectionCore × Bool :=
  if c.state = .closed then (c, false)
  else
    match c.tryReserveWriteBytes limits bytes.length with
    | (c, false) => (c, false)
    | (c, true) =>
        if c.faults.enqueueWrite = some c.accepted.length then (c.throwPush bytes, false)
        else (c.pushWrite refused bytes, true)

/-! ## 処理中の要求の数 -/

def releaseInflightRequests (released : Nat) (c : ConnectionCore) : ConnectionCore :=
  { c.check (released ≤ c.inflightRequests) with inflightRequests := c.inflightRequests - released }

/-- `std::bad_alloc` だけを捕らえて閉じる。ほかの例外は接続が閉じてから抜けるので、続く `TryFinishDrain` は何もしない。 -/
def isolateBadAlloc (c : ConnectionCore) : ConnectionCore :=
  if c.throwing = some .badAlloc then { c with throwing := none }.close else c

def onResponsesEncoded (refused : Bool) (bytes : Bytes) (released : Nat) (c : ConnectionCore) : ConnectionCore :=
  let c := c.releaseInflightRequests released
  if c.state = .closed then c else (c.enqueueWrite limits refused bytes).1.isolateBadAlloc.tryFinishDrain

def onResponseEncodeFailure (released : Nat) (c : ConnectionCore) : ConnectionCore :=
  (c.releaseInflightRequests released).close

/-! ## 任意の書き込みと送信の結果 -/

/-- 書き込み側への働きかけ。`refused` は、送信の開始が断られることを表す。 -/
inductive WriteAct where
  | start (refused : Bool)
  | enqueue (refused : Bool) (bytes : Bytes)
  | sendCompleted (refused : Bool) (n : Nat)
  | sendFailed
  | submitRequestBatch (requests : Nat)
  | release (requests : Nat)
  | beginDrain
  | tryFinishDrain
  | close
  deriving DecidableEq

def writeEnabled (c : ConnectionCore) : WriteAct → Prop
  | .start _ => c.writeLoop = .unstarted
  | .enqueue _ bytes => c.writeLoop ≠ .unstarted ∧ bytes ≠ []
  | .sendCompleted _ n => 0 < c.writeLoop.unsent.length ∧ 0 < n ∧ n ≤ c.writeLoop.unsent.length
  | .sendFailed => 0 < c.writeLoop.unsent.length
  | .submitRequestBatch _ => c.state = .active
  | .release requests => requests ≤ c.inflightRequests
  | .beginDrain | .tryFinishDrain | .close => c.writeLoop ≠ .unstarted

def writeNext (c : ConnectionCore) : WriteAct → ConnectionCore
  | .start refused => c.startWriteLoop refused
  | .enqueue refused bytes => (c.enqueueWrite limits refused bytes).1
  | .sendCompleted refused n => c.sendCompleted refused (some n)
  | .sendFailed => c.sendCompleted false none
  | .submitRequestBatch requests => { c with inflightRequests := c.inflightRequests + requests }
  | .release requests => c.releaseInflightRequests requests
  | .beginDrain => c.beginDrain
  | .tryFinishDrain => c.tryFinishDrain
  | .close => c.close

/-- 空でない書き込みと、正の長さか失敗である送信の結果が、任意の順に来る遷移系。 -/
def writeSide : Machine ConnectionCore WriteAct where
  init c := c = {}
  enabled := writeEnabled
  next := writeNext limits

instance (c : ConnectionCore) (a : WriteAct) : Decidable ((writeSide limits).enabled c a) := by
  cases a <;> dsimp only [writeSide, writeEnabled] <;> infer_instance

end ConnectionCore

end Xrpc.Server
