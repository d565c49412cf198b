import Xrpc.Server.ServerConnection
import Xrpc.Server.WorkerPool

/-!
# 一度に読み取った要求の受け付け

`src/server/server_connection.cpp` の `HandleFeedResult` と `SubmitRequestBatch` を、返るまでの一つの関数として写す。
`TrySubmitBatch` の答えは、集まりの実行から与えられる。例外で抜けたことは `throwing` に残る。
-/

namespace Xrpc.Server
open Xrpc.Lib Xrpc.Protocol

/-- `TrySubmitBatch` の終わり方。偽を返したものは、その後に読んだ `accepting_submissions()` で分ける。`threw` は例外である。 -/
inductive SubmitAnswer where
  | accepted
  | full
  | closed
  | threw
  deriving DecidableEq

namespace ServerConnection

variable (cfg : ServerConnectionConfig)

def submitRequestBatch (sendRefused : Bool) (answer : SubmitAnswer) (requests : List Request) (c : ServerConnection) :
    ServerConnection × Bool :=
  match answer with
  | .accepted =>
      let c := c.submitAccepted requests
      ({ c with core := { c.core with inflightRequests := c.core.inflightRequests + requests.length } }, true)
  | .full =>
      { c with submissions := c.submissions + 1 }.rejectAll cfg sendRefused
        (text "server global pending job limit exceeded") requests
  | .closed => ({ c with submissions := c.submissions + 1, core := c.core.beginDrain }, false)
  | .threw => ({ c with submissions := c.submissions + 1, core := { c.core with throwing := some .badAlloc } }, false)

/-- 接続ごとの上限を越える。 -/
def overLimit (feed : FrameStreamFeedResult) (c : ServerConnection) : Bool :=
  feed.requests.size > cfg.limits.maxInflight - c.core.inflightRequests

/-- `HandleFeedResult` の全体。次の受信を始める前に返る。 -/
def feedOutcome (sendRefused : Bool) (answer : SubmitAnswer) (feed : FrameStreamFeedResult) (c : ServerConnection) :
    ServerConnection × Bool :=
  let requests := c.number feed.requests.toList
  let c := { c with decoded := c.decoded ++ feed.requests.toList }
  if feed.closed then ({ c with core := c.core.close }, false)
  else if feed.requests.size = 0 then (c, true)
  else
    let c := { c with core := c.core.check (c.core.inflightRequests ≤ cfg.limits.maxInflight) }
    if c.overLimit cfg feed then
      c.rejectAll cfg sendRefused (text "server per-connection in-flight limit exceeded") requests
    else c.submitRequestBatch cfg sendRefused answer requests

end ServerConnection

/-! ## 終わり方 -/

/-- 断りの応答を符号化したもの。 -/
def Response.Exhausted (cfg : ServerConnectionConfig) (response : Response) : Prop :=
  response.envelope.requestId = response.request.envelope.requestId ∧
    response.envelope.status.code = .resourceExhausted ∧
    FrameCodec.encodeResponse cfg.platform ⟨cfg.protocolLimits⟩ response.envelope = .ok response.frame

/-- 要求は一つも渡されず、数は変わらず、要求ごとに一つずつ、順に断りの書き込みが積まれた。 -/
structure BatchRejected (cfg : ServerConnectionConfig) (requests : List Request) (c c' : ServerConnection) : Prop where
  active : c'.core.state = .active
  jobs : c'.jobs = c.jobs
  admitted : c'.admitted = c.admitted
  inflight : c'.core.inflightRequests = c.core.inflightRequests
  responses : ∃ responses : List Response, responses.map Response.request = requests ∧
    (∀ response ∈ responses, response.Exhausted cfg) ∧
    c'.core.accepted = c.core.accepted ++ responses.map Response.frame

/-- 要求は一つも渡されず、接続は閉じたか、受け付けの終わりを見て流し終えに入った。 -/
structure BatchDropped (answer : SubmitAnswer) (c c' : ServerConnection) : Prop where
  left : c'.core.state = .closed ∨ c'.core.state = .draining ∧ answer = .closed
  jobs : c'.jobs = c.jobs
  admitted : c'.admitted = c.admitted

/-- 例外で抜けた。要求は一つも渡されず、数は変わらず、断りの書き込みは要求の数に足りず、接続は働き続ける。 -/
structure BatchInterrupted (requests : List Request) (c c' : ServerConnection) : Prop where
  active : c'.core.state = .active
  threw : c'.core.throwing = some .badAlloc
  jobs : c'.jobs = c.jobs
  admitted : c'.admitted = c.admitted
  inflight : c'.core.inflightRequests = c.core.inflightRequests
  short : c'.core.accepted.length < c.core.accepted.length + requests.length

end Xrpc.Server
