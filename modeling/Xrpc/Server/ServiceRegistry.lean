import Xrpc.Protocol.Envelope

/-!
# 処理関数の登録と呼び出し

`src/server/service_registry.cpp`、`src/common/xrpc_exception.cpp` と、`RpcServer::Impl::RegisterMethod` が登録する処理関数、
`include/xrpc/rpc_server.h` の `MakeMethodRegistration` が解析に渡す長さを写す。登録した関数の結果は、呼び出しごとに外から与える。
-/

namespace Xrpc.Server
open Xrpc.Lib Xrpc.Protocol

/-! ## 例外の変換 -/

/-- 投げられた例外。`message` は `what()` の返す文字列である。 -/
inductive Thrown where
  | xrpc (code : StatusCode) (message : Bytes)
  | badAlloc
  | invalidArgument (message : Bytes)
  | standard (message : Bytes)
  | other

def caughtExceptionToStatus (nonStandardExceptionMessage : Bytes) : Thrown → Status
  | .xrpc code message => ⟨code, message⟩
  | .badAlloc => ⟨.resourceExhausted, text "memory allocation failed"⟩
  | .invalidArgument message => ⟨.invalidArgument, message⟩
  | .standard message => ⟨.internal, message⟩
  | .other => ⟨.internal, nonStandardExceptionMessage⟩

/-! ## `MakeMethodRegistration` -/

/-- 登録した関数が `ParseFromArray` に渡す長さ。`int` への変換は、下位の 32 ビットを符号付きで読む。 -/
def parseLength (payload : Bytes) : Int32 := Int32.ofNat payload.length

/-! ## 登録 -/

/-- 登録した関数を一度呼び出した結果。 -/
inductive Invocation where
  | value (payload : Bytes)
  | status (status : Status)
  | thrown (exception : Thrown)

/-- サービスの名前から、登録したメソッドの名前への表。 -/
structure ServiceRegistry where
  services : List (Bytes × List Bytes) := []

namespace ServiceRegistry

def find (registry : ServiceRegistry) (service : Bytes) : Option (List Bytes) := registry.services.lookup service

def register (registry : ServiceRegistry) (service method : Bytes) : Except Status ServiceRegistry :=
  let methods := (registry.find service).getD []
  if method ∈ methods then
    .error ⟨.invalidArgument, text "method already registered: service=" ++ service ++ text ", method=" ++ method⟩
  else .ok ⟨(service, method :: methods) :: registry.services.filter (·.1 ≠ service)⟩

/-- `RegisterMethod` が登録する処理関数と、投げられた例外の受け取り。 -/
def handle (request : RequestEnvelope) : Invocation → ResponseEnvelope
  | .value payload => ⟨request.requestId, {}, payload⟩
  | .status status => ⟨request.requestId, status, []⟩
  | .thrown exception =>
      ⟨request.requestId, caughtExceptionToStatus (text "handler threw unknown exception") exception, []⟩

def dispatch (registry : ServiceRegistry) (request : RequestEnvelope) (invocation : Invocation) : ResponseEnvelope :=
  match registry.find request.serviceName with
  | none => ⟨request.requestId, ⟨.notFound, text "unknown service"⟩, []⟩
  | some methods =>
      if request.methodName ∈ methods then handle request invocation
      else ⟨request.requestId, ⟨.unimplemented, text "unknown method"⟩, []⟩

/-- 応答は、要求の番号を持つ。 -/
theorem dispatch_requestId (registry : ServiceRegistry) (request : RequestEnvelope) (invocation : Invocation) :
    (registry.dispatch request invocation).requestId = request.requestId := by
  unfold dispatch
  split
  · rfl
  · split
    · cases invocation <;> rfl
    · rfl

end ServiceRegistry

end Xrpc.Server
