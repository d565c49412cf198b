import Xrpc.Client.Lemmas.ControlFlow

/-!
# 障害時の切り替え

`src/client/rpc_client_impl.cpp` の `Call` と `CallWithFailover` を写す。任意個の呼び出しが、輸送路の遷移系の上で割り込み合う。
-/

namespace Xrpc.Client
open Xrpc.Lib Xrpc.Protocol Function

/-! ## 呼び出しの選択肢と結果 -/

/-- 時限はミリ秒であり、0 は既定の時限を使うことを表す。 -/
structure CallOptions where
  timeout : Int64 := 0
  stickyKey : Bytes := []

/-- 期限は `steady_clock` のナノ秒である。 -/
structure EffectiveCallOptions where
  deadline : Option Int64 := none
  stickyKey : Bytes := []

def validateCallOptions (options : CallOptions) : Status :=
  if options.timeout < 0 then ⟨.invalidArgument, text "CallOptions timeout must not be negative"⟩ else {}

def NANOS_PER_MILLI : Int64 := 1000000

/-- 呼び出しの時限が正なら、それを使う。 -/
def effectiveTimeout (defaultTimeout callTimeout : Int64) : Int64 :=
  if callTimeout > 0 then callTimeout else defaultTimeout

/-- `ResolveCallOptions` の定める期限。あふれは下位の 64 ビットに折り返す。 -/
def resolveDeadline (now defaultTimeout callTimeout : Int64) : Option Int64 :=
  let timeout := effectiveTimeout defaultTimeout callTimeout
  if timeout > 0 then some (now + timeout * NANOS_PER_MILLI) else none

def resolveCallOptions (now defaultTimeout : Int64) (options : CallOptions) : EffectiveCallOptions where
  deadline := resolveDeadline now defaultTimeout options.timeout
  stickyKey := options.stickyKey

/-- `RpcClient::Impl::Call`。応答の状態が OK のときに限り、応答の本体を返す。 -/
def call (now defaultTimeout : Int64) (options : CallOptions)
    (callWithFailover : EffectiveCallOptions → CallAttemptResult) : Except Status Bytes :=
  let callOptionsStatus := validateCallOptions options
  if !callOptionsStatus.isOk then .error callOptionsStatus
  else
    match callWithFailover (resolveCallOptions now defaultTimeout options) with
    | .response response => if !response.status.isOk then .error response.status else .ok response.payload
    | .failure failure => .error failure.status

/-! ## 切り替えの遷移系 -/

/-- 一回の `CallWithFailover`。`resolved` は `ResolveRoutingSnapshot` の結果、`start` は最初に選ぶ添字である。 -/
structure RpcCall where
  request : RequestEnvelope
  deadline : Option Nat
  resolved : Except Status (List TransportId)
  start : Nat

namespace RpcCall

variable (rpc : RpcCall)

def endpoints : List TransportId :=
  match rpc.resolved with
  | .ok transports => transports
  | .error _ => []

def endpointCount : Nat := rpc.endpoints.length

def index (offset : Nat) : Nat := (rpc.start + offset) % rpc.endpointCount

end RpcCall

structure RpcConfig where
  env : Env
  transports : TransportId → TransportConfig
  rpcs : Nat → RpcCall

/-- 試み `offset` は、`index` の指す輸送路に、同じ要求と期限で行う。 -/
def RpcConfig.config (cfg : RpcConfig) : Config where
  env := cfg.env
  transports := cfg.transports
  calls c :=
    { transport := (cfg.rpcs c.rpc).endpoints.getD ((cfg.rpcs c.rpc).index c.attempt) 0
      request := (cfg.rpcs c.rpc).request
      deadline := (cfg.rpcs c.rpc).deadline }

inductive FailoverPc where
  | idle
  | attempt (offset : Nat)
  | returned (result : CallAttemptResult)
  deriving DecidableEq

/-- `attempted` は、試みた添字の記録である。 -/
structure FailoverState where
  client : State
  pc : Nat → FailoverPc
  attempted : Nat → List Nat

inductive FailoverAction where
  | resolve (f : Nat)
  | call (a : Action)
  | finish (f offset : Nat) (result : CallAttemptResult)

namespace FailoverState

def initial : FailoverState where
  client := .initial
  pc _ := .idle
  attempted _ := []

/-- ループの先頭。添字が尽きていれば、最後の結果を返す。 -/
def loop (cfg : RpcConfig) (s : FailoverState) (f offset : Nat) (lastResult : CallAttemptResult) : FailoverState :=
  if offset < (cfg.rpcs f).endpointCount then
    { s with
      pc := update s.pc f (.attempt offset)
      attempted := update s.attempted f (s.attempted f ++ [(cfg.rpcs f).index offset]) }
  else
    { s with pc := update s.pc f (.returned lastResult) }

def resolve (cfg : RpcConfig) (s : FailoverState) (f : Nat) : FailoverState :=
  match (cfg.rpcs f).resolved with
  | .error status => { s with pc := update s.pc f (.returned (makeCallFailure status .notSent)) }
  | .ok _ => s.loop cfg f 0 (makeCallFailure ⟨.unavailable, text "no endpoints available"⟩ .notSent)

/-- ループの末尾。応答も、送ったかもしれないという失敗も、次の試みには進まない。 -/
def finish (cfg : RpcConfig) (s : FailoverState) (f offset : Nat) (result : CallAttemptResult) : FailoverState :=
  if result.hasResponse || result.mustStopRetryToAvoidDuplicateRequest then
    { s with pc := update s.pc f (.returned result) }
  else
    s.loop cfg f (offset + 1) result

end FailoverState

namespace FailoverAction

def enabled (cfg : RpcConfig) (s : FailoverState) : FailoverAction → Prop
  | .resolve f => s.pc f = .idle
  | .call a => a.enabled cfg.config s.client ∧ ∀ c ∈ a.starts, s.pc c.rpc = .attempt c.attempt
  | .finish f offset result => s.pc f = .attempt offset ∧ s.client.pc ⟨f, offset⟩ = .returned result

def next (cfg : RpcConfig) (s : FailoverState) : FailoverAction → FailoverState
  | .resolve f => s.resolve cfg f
  | .call a => { s with client := a.next cfg.config s.client }
  | .finish f offset result => s.finish cfg f offset result

end FailoverAction

/-- 切り替えを行うクライアントの遷移系。 -/
def failover (cfg : RpcConfig) : Machine FailoverState FailoverAction where
  init s := s = .initial
  enabled := FailoverAction.enabled cfg
  next := FailoverAction.next cfg

instance (cfg : RpcConfig) (s : FailoverState) (a : FailoverAction) : Decidable ((failover cfg).enabled s a) :=
  match a with
  | .resolve _ => inferInstanceAs (Decidable (_ = _))
  | .call _ => inferInstanceAs (Decidable (_ ∧ ∀ c ∈ _, _))
  | .finish _ _ _ => inferInstanceAs (Decidable (_ ∧ _))

end Xrpc.Client
