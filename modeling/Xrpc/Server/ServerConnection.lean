import Xrpc.Protocol.FrameStream
import Xrpc.Server.ServiceRegistry
import Xrpc.Server.WriteLoop

/-!
# サーバー側の接続

`src/server/server_connection.cpp` の読み取りの側、要求の束の提出、作業の糸での処理を写す。`refused` は、停止の要求の後に
入出力の開始が断られることを表す。
-/

namespace Xrpc.Server
open Xrpc.Lib Xrpc.Protocol

/-- `ServerConnectionConfig` と、接続が参照する環境。 -/
structure ServerConnectionConfig where
  platform : Platform
  policy : CapacityPolicy
  protocolLimits : ProtocolLimits
  limits : BackpressureLimits
  registry : ServiceRegistry

/-! ## 要求と応答 -/

/-- 復号した要求。`index` は、接続が復号した順の番号である。 -/
structure Request where
  index : Nat
  envelope : RequestEnvelope
  deriving DecidableEq

/-- 要求 `request` への応答と、符号化したフレーム。 -/
structure Response where
  request : Request
  envelope : ResponseEnvelope
  frame : Bytes
  deriving DecidableEq

/-- 作業の糸に渡した束。`batch` は、接続が提出した順の番号である。 -/
structure Job where
  batch : Nat
  requests : List Request
  deriving DecidableEq

/-- `WorkerResult`。`requests` は、枠を戻す要求の記録である。 -/
structure WorkerResult where
  connectionId : UInt64
  responses : List Response
  releasedRequests : Nat
  encodeFailed : Bool
  requests : List Request
  deriving DecidableEq

def WorkerResult.responseBytes (result : WorkerResult) : Bytes := (result.responses.map Response.frame).flatten

/-- 要求を順に処理し、符号化に失敗したところで止まる。残りは、失敗した要求と、処理しなかった要求である。 -/
def executeRequests (cfg : ServerConnectionConfig) (invoke : Request → Invocation) :
    List Request → List Response × List Request
  | [] => ([], [])
  | request :: rest =>
      let response := cfg.registry.dispatch request.envelope (invoke request)
      match FrameCodec.encodeResponse cfg.platform ⟨cfg.protocolLimits⟩ response with
      | .error _ => ([], request :: rest)
      | .ok frame =>
          let (responses, remainder) := executeRequests cfg invoke rest
          (⟨request, response, frame⟩ :: responses, remainder)

/-- `PostWorkerResult` に渡す結果を、渡す順に並べる。 -/
def executeRequestBatchOnWorker (cfg : ServerConnectionConfig) (connectionId : UInt64) (invoke : Request → Invocation)
    (requests : List Request) : List WorkerResult :=
  let requestCount := requests.length
  let (responses, remainder) := executeRequests cfg invoke requests
  let encodedResponses := responses.length
  (if encodedResponses > 0 then
    [⟨connectionId, responses, encodedResponses, false, responses.map Response.request⟩] else []) ++
  (if encodedResponses < requestCount then
    [⟨connectionId, [], requestCount - encodedResponses, true, remainder⟩] else [])

/-! ## 接続 -/

/-- `ReadLoop` の位置。`submitting` は `TrySubmitBatch` の中、`counting` は受け付けられて数を足す前である。 -/
inductive ReadLoop where
  | unstarted
  | receiving
  | submitting (requests : List Request)
  | counting (requestCount : Nat)
  | returned
  deriving DecidableEq

/-- 入出力の糸が、この接続の歩みの途中にいる。 -/
def ReadLoop.busy : ReadLoop → Bool
  | .submitting _ | .counting _ => true
  | _ => false

/-- 一つの接続と、その接続が出した仕事と結果。`decoded` から後は記録で、`discarded` は接続がなくなってから届いた結果である。 -/
structure ServerConnection where
  connectionId : UInt64
  core : ConnectionCore
  readLoop : ReadLoop
  frameStream : RpcFrameStream
  submissions : Nat
  jobs : List Job
  posting : List (Nat × WorkerResult)
  results : List WorkerResult
  decoded : List RequestEnvelope
  admitted : List Request
  rejected : List Request
  enqueued : List Response
  abandoned : List Request
  discarded : List WorkerResult

namespace ServerConnection

variable (cfg : ServerConnectionConfig)

def create (connectionId : UInt64) : ServerConnection where
  connectionId := connectionId
  core := {}
  readLoop := .unstarted
  frameStream := RpcFrameStream.fresh cfg.policy cfg.protocolLimits
  submissions := 0
  jobs := []
  posting := []
  results := []
  decoded := []
  admitted := []
  rejected := []
  enqueued := []
  abandoned := []
  discarded := []

def canBeCollected (c : ServerConnection) : Bool :=
  c.core.state = .closed ∧ c.readLoop = .returned ∧ c.core.writeLoop = .returned

/-! ## 背圧による拒否 -/

def rejection (request : Request) (message : Bytes) : ResponseEnvelope :=
  ⟨request.envelope.requestId, ⟨.resourceExhausted, message⟩, []⟩

def rejectForBackpressure (refused : Bool) (message : Bytes) (request : Request) (c : ServerConnection) :
    ServerConnection × Bool :=
  let response := rejection request message
  let c := { c with rejected := c.rejected ++ [request] }
  match FrameCodec.encodeResponse cfg.platform ⟨cfg.protocolLimits⟩ response with
  | .error _ => ({ c with core := c.core.close, abandoned := c.abandoned ++ [request] }, false)
  | .ok frame =>
      match c.core.enqueueWrite cfg.limits refused frame with
      | (core, true) => ({ c with core := core, enqueued := c.enqueued ++ [⟨request, response, frame⟩] }, true)
      | (core, false) => ({ c with core := core, abandoned := c.abandoned ++ [request] }, false)

/-- 要求を順に断る。偽が返れば、そこで止まる。 -/
def rejectAll (refused : Bool) (message : Bytes) : List Request → ServerConnection → ServerConnection × Bool
  | [], c => (c, true)
  | request :: rest, c =>
      match rejectForBackpressure cfg refused message request c with
      | (c, true) => rejectAll refused message rest c
      | (c, false) => (c, false)

/-! ## `ReadLoop` -/

/-- 繰り返しを抜けた後。例外で抜けたときは `Draining` でなく、`TryFinishDrain` は何もしない。例外は `ReadLoop` の `Task` に
留まる。 -/
def finishRead (c : ServerConnection) : ServerConnection :=
  { c with core := { c.core.tryFinishDrain with throwing := none }, readLoop := .returned }

/-- 繰り返しの先頭。次の受信が断られると、`ECANCELED` の結果で閉じる。受信の開始が投げると、`Active` のまま `ReadLoop` が終わる。 -/
def continueRead (refused : Bool) (c : ServerConnection) : ServerConnection :=
  if c.core.state = .active then
    let core := c.core.call [.recvProvided]
    if core.faults.recvProvided then { c with core := core, readLoop := .returned }
    else if refused then { c with core := core.close }.finishRead
    else { c with core := core, readLoop := .receiving }
  else c.finishRead

/-- `HandleFeedResult` や `SubmitRequestBatch` の返した値に従う。 -/
def resumeRead (refused : Bool) : ServerConnection × Bool → ServerConnection
  | (c, true) => c.continueRead refused
  | (c, false) => c.finishRead

def start (recvRefused : Bool) (c : ServerConnection) : ServerConnection :=
  { c with core := c.core.startWriteLoop false }.continueRead recvRefused

/-- 復号した要求に番号を付ける。 -/
def number (c : ServerConnection) (requests : List RequestEnvelope) : List Request :=
  (requests.zipIdx c.decoded.length).map fun (envelope, index) => ⟨index, envelope⟩

def handleFeedResult (sendRefused recvRefused : Bool) (feed : FrameStreamFeedResult) (c : ServerConnection) :
    ServerConnection :=
  let requests := c.number feed.requests.toList
  let c := { c with decoded := c.decoded ++ feed.requests.toList }
  if feed.closed then { c with core := c.core.close }.finishRead
  else
    let requestCount := feed.requests.size
    if requestCount = 0 then c.continueRead recvRefused
    else
      let c := { c with core := c.core.check (c.core.inflightRequests ≤ cfg.limits.maxInflight) }
      if requestCount > cfg.limits.maxInflight - c.core.inflightRequests then
        resumeRead recvRefused
          (c.rejectAll cfg sendRefused (text "server per-connection in-flight limit exceeded") requests)
      else { c with readLoop := .submitting requests }

/-- 受信の完了。`Abort` は `assert` の破れと同じに扱う。 -/
def received (sendRefused recvRefused : Bool) (bytes : Bytes) (c : ServerConnection) : ServerConnection :=
  if c.core.state ≠ .active then c.finishRead
  else
    match c.frameStream.feedBytes cfg.platform cfg.policy bytes with
    | none => { c with core := c.core.check false }
    | some (feed, frameStream) => { c with frameStream := frameStream }.handleFeedResult cfg sendRefused recvRefused feed

def receivedEof (c : ServerConnection) : ServerConnection :=
  if c.core.state ≠ .active then c.finishRead else { c with core := { c.core with state := .draining } }.finishRead

def receiveFailed (c : ServerConnection) : ServerConnection :=
  if c.core.state ≠ .active then c.finishRead else { c with core := c.core.close }.finishRead

/-! ## 束の提出 -/

/-- `TrySubmitBatch` が真を返した。 -/
def submitAccepted (requests : List Request) (c : ServerConnection) : ServerConnection :=
  { c with
    core := c.core.check (requests.length > 0)
    submissions := c.submissions + 1
    jobs := c.jobs ++ [⟨c.submissions, requests⟩]
    admitted := c.admitted ++ requests
    readLoop := .counting requests.length }

def countAdmitted (recvRefused : Bool) (requestCount : Nat) (c : ServerConnection) : ServerConnection :=
  { c with
    core := { c.core with inflightRequests := c.core.inflightRequests + requestCount } }.continueRead recvRefused

/-- `TrySubmitBatch` が偽を返し、受け付けは続いている。 -/
def submitFull (sendRefused recvRefused : Bool) (requests : List Request) (c : ServerConnection) : ServerConnection :=
  resumeRead recvRefused
    ({ c with submissions := c.submissions + 1 }.rejectAll cfg sendRefused
      (text "server global pending job limit exceeded") requests)

/-- `TrySubmitBatch` が偽を返し、受け付けは終わっている。 -/
def submitClosed (c : ServerConnection) : ServerConnection :=
  { c with submissions := c.submissions + 1, core := c.core.beginDrain }.finishRead

/-- `TrySubmitBatch` か、その前の `make_shared` が投げた。要求は失われ、`Active` のまま `ReadLoop` が終わる。 -/
def submitThrew (c : ServerConnection) : ServerConnection :=
  { c with submissions := c.submissions + 1, core := { c.core with throwing := some .badAlloc } }.finishRead

/-! ## 作業の糸 -/

def execute (job : Job) (invoke : Request → Invocation) (c : ServerConnection) : ServerConnection :=
  { c with
    jobs := c.jobs.erase job
    posting := c.posting ++
      (executeRequestBatchOnWorker cfg c.connectionId invoke job.requests).map fun result => (job.batch, result) }

def post (batch : Nat) (result : WorkerResult) (c : ServerConnection) : ServerConnection :=
  { c with
    posting := c.posting.eraseP fun entry => entry.1 = batch
    results := c.results ++ [result] }

/-! ## 結果の受け取り -/

/-- 結果を待ちから除く。 -/
def takeResult (result : WorkerResult) (c : ServerConnection) : ServerConnection :=
  { c with results := c.results.erase result }

/-- `HandleWorkerResult` が接続に対して行うこと。 -/
def handleResult (refused : Bool) (result : WorkerResult) (c : ServerConnection) : ServerConnection :=
  if result.encodeFailed then
    { c with
      core := c.core.onResponseEncodeFailure result.releasedRequests
      abandoned := c.abandoned ++ result.requests }
  else
    let core := c.core.onResponsesEncoded cfg.limits refused result.responseBytes result.releasedRequests
    if ((c.core.releaseInflightRequests result.releasedRequests).enqueueWrite cfg.limits refused
        result.responseBytes).2 then
      { c with core := core, enqueued := c.enqueued ++ result.responses }
    else { c with core := core, abandoned := c.abandoned ++ result.requests }

/-- 接続がもうないので、結果を捨てる。 -/
def discardResult (result : WorkerResult) (c : ServerConnection) : ServerConnection :=
  { c.takeResult result with discarded := c.discarded ++ [result] }

/-! ## 記録から読み取ること -/

/-- 受け付けられて、まだ結果が扱われていない要求。 -/
def outstanding (c : ServerConnection) : List Request :=
  c.jobs.flatMap Job.requests ++ c.posting.flatMap (fun entry => entry.2.requests) ++
    (c.results ++ c.discarded).flatMap WorkerResult.requests

/-- 受け付けられて、まだ `PostWorkerResult` された結果の覆っていない要求。 -/
def uncovered (c : ServerConnection) : List Request :=
  c.jobs.flatMap Job.requests ++ c.posting.flatMap fun entry => entry.2.requests

end ServerConnection

/-- 登録した処理関数の応答を、そのまま符号化したもの。 -/
def Response.Dispatched (cfg : ServerConnectionConfig) (response : Response) : Prop :=
  (∃ invocation, response.envelope = cfg.registry.dispatch response.request.envelope invocation) ∧
    FrameCodec.encodeResponse cfg.platform ⟨cfg.protocolLimits⟩ response.envelope = .ok response.frame

/-- 背圧による拒否を符号化したもの。 -/
def Response.Refused (cfg : ServerConnectionConfig) (response : Response) : Prop :=
  (∃ message, response.envelope = ServerConnection.rejection response.request message) ∧
    FrameCodec.encodeResponse cfg.platform ⟨cfg.protocolLimits⟩ response.envelope = .ok response.frame

end Xrpc.Server
