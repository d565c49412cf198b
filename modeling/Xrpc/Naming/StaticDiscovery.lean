import Xrpc.Naming.ServiceDiscovery
import Xrpc.Naming.ConsulHttpClient

/-!
# 固定の接続先

`src/naming/static_discovery.cpp` の目標の解釈と、`src/naming/service_discovery.cpp` の `MakeServiceDiscovery` を写す。
-/

namespace Xrpc.Naming
open Xrpc.Lib Xrpc.Protocol

def LIST_SCHEME : Bytes := text "list://"

def CONSUL_SCHEME : Bytes := text "consul://"

def parsePort (portText : Bytes) : Except Status UInt16 := parsePortOr "invalid endpoint port" portText

def invalidEndpoint : Status := ⟨.invalidArgument, text "invalid list target endpoint"⟩

/-- 最後の `:` で、名前と番号に分ける。 -/
def parseEndpoint (endpointText : Bytes) : Except Status Endpoint :=
  let endpointText := trim endpointText
  match rfind 58 endpointText with
  | none => .error invalidEndpoint
  | some colon =>
      if colon = 0 ∨ endpointText.length ≤ colon + 1 then .error invalidEndpoint
      else
        let host := trim (endpointText.take colon)
        let port := trim (endpointText.drop (colon + 1))
        if host.isEmpty ∨ port.isEmpty then .error invalidEndpoint
        else
          match parsePort port with
          | .error status => .error status
          | .ok parsedPort => .ok ⟨host, parsedPort⟩

/-- `,` で分けた欄を、順に読む。読めない欄があれば、そこで失敗する。 -/
def parseFields (rest : Bytes) (endpoints : List Endpoint) : Except Status (List Endpoint) :=
  match _h : findPattern [44] rest with
  | none =>
      match parseEndpoint rest with
      | .error status => .error status
      | .ok endpoint => .ok (endpoints ++ [endpoint])
  | some comma =>
      match parseEndpoint (rest.take comma) with
      | .error status => .error status
      | .ok endpoint => parseFields (rest.drop (comma + 1)) (endpoints ++ [endpoint])
termination_by rest.length
decreasing_by
  have hle : comma + 1 ≤ rest.length := findPattern_le _h
  simp only [List.length_drop]
  omega

/-- `target` は `list://` で始まる。 -/
def parseListTarget (target : Bytes) : Except Status (List Endpoint) :=
  match parseFields (target.drop LIST_SCHEME.length) [] with
  | .error status => .error status
  | .ok endpoints =>
      if endpoints.isEmpty then .error ⟨.invalidArgument, text "list target requires at least one endpoint"⟩
      else .ok (canonicalizeEndpoints endpoints)

/-- 二つの `ServiceDiscovery`。固定の接続先の一覧は、変わらない。 -/
inductive Discovery where
  | static (snapshot : List Endpoint)
  | consul (serviceName : Bytes) (httpClient : ConsulHttpClient)
  deriving DecidableEq

def makeServiceDiscovery (target consulAddress : Bytes) : Except Status Discovery :=
  let target := trim target
  if LIST_SCHEME <+: target then
    match parseListTarget target with
    | .error status => .error status
    | .ok endpoints => .ok (.static endpoints)
  else if CONSUL_SCHEME <+: target then
    let serviceName := trim (target.drop CONSUL_SCHEME.length)
    if serviceName.isEmpty then .error ⟨.invalidArgument, text "consul target requires a service name"⟩
    else
      match ConsulHttpClient.create consulAddress with
      | .error status => .error status
      | .ok httpClient => .ok (.consul serviceName httpClient)
  else .error ⟨.invalidArgument, text "unsupported RpcClient target scheme"⟩

/-! ## 目標の書き方 -/

/-- 目標に書ける接続先。 -/
structure Endpoint.Listable (endpoint : Endpoint) : Prop where
  host_ne : endpoint.host ≠ []
  host_comma : 44 ∉ endpoint.host
  host_trimmed : Trimmed isSpace endpoint.host
  port_pos : 0 < endpoint.port

/-- 一つの欄。名前と番号の両側に空白があってよく、番号の先頭に 0 が続いてもよい。 -/
def Endpoint.WrittenAs (endpoint : Endpoint) (field : Bytes) : Prop :=
  ∃ leading afterHost beforePort port trailing,
    Blank leading ∧ Blank afterHost ∧ Blank beforePort ∧ Blank trailing ∧
    Numeral 10 port ∧ digitsValue 10 port = endpoint.port.toNat ∧
    field = leading ++ (endpoint.host ++ (afterHost ++ (58 :: (beforePort ++ (port ++ trailing)))))

/-- 欄を `,` でつなぎ、両側に空白を置いた目標。 -/
def listTarget (before : Bytes) (fields : List Bytes) (after : Bytes) : Bytes :=
  before ++ (LIST_SCHEME ++ ([44].intercalate fields ++ after))

end Xrpc.Naming
