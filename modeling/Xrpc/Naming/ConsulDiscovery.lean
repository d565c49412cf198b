import Xrpc.Naming.ServiceDiscovery
import Xrpc.Naming.ConsulHttpClient

/-!
# Consul による接続先の一覧

`src/naming/consul/consul_discovery.cpp` を写す。JSON の解釈 `nlohmann::json::parse` は、値か、解釈できないことを返す関数とする。
-/

namespace Xrpc.Naming
open Xrpc.Lib Xrpc.Protocol

/-! ## JSON -/

/-- `nlohmann::json` の値。負でない整数は `unsigned`、負の整数は `integer` になる。 -/
inductive Json where
  | null
  | boolean (b : Bool)
  | integer (n : Int64)
  | unsigned (n : UInt64)
  | float
  | string (s : Bytes)
  | array (elements : List Json)
  | object (fields : List (Bytes × Json))

/-- `contains` と `operator[]`。 -/
def jsonField (fields : List (Bytes × Json)) (name : String) : Option Json := fields.lookup (text name)

/-! ## 応答の解釈 -/

def headerValue (response : ConsulHttpResponse) (name : Bytes) : Bytes := (response.headers.lookup name).getD []

/-- 読めない値は 0 とする。 -/
def parseConsulIndex (response : ConsulHttpResponse) : UInt64 :=
  let value := headerValue response (text "x-consul-index")
  if value.isEmpty then 0
  else
    match fromChars 10 0 SIZE_MAX value with
    | .value parsed [] => UInt64.ofNat parsed.toNat
    | _ => 0

def healthError (message : String) : Status := ⟨.dataLoss, text message⟩

/-- `Address` がなければ空とし、文字列でなければ失敗する。 -/
def parseAddress (fields : List (Bytes × Json)) (message : String) : Except Status Bytes :=
  match jsonField fields "Address" with
  | none => .ok []
  | some (.string address) => .ok address
  | some _ => .error (healthError message)

/-- サービスの住所を、空ならノードの住所を使う。ノードの住所は、使うときだけ確かめる。 -/
def parseHost (service node : List (Bytes × Json)) : Except Status Bytes :=
  match parseAddress service "Consul health response contains an invalid service address" with
  | .error status => .error status
  | .ok host =>
      if host.isEmpty then parseAddress node "Consul health response contains an invalid node address" else .ok host

/-- 大きすぎる符号なしの値は 0 とする。 -/
def parseServicePort (service : List (Bytes × Json)) : Except Status Int :=
  match jsonField service "Port" with
  | some (.unsigned n) => .ok (if n ≤ 65535 then n.toNat else 0)
  | some (.integer n) => .ok n.toInt
  | _ => .error (healthError "Consul health response contains an invalid service port")

/-- 使えない住所と番号の項目は、読み飛ばす。 -/
def parseEntry (entry : Json) : Except Status (Option Endpoint) :=
  match entry with
  | .object fields =>
      match jsonField fields "Service", jsonField fields "Node" with
      | some (.object service), some (.object node) =>
          match parseHost service node with
          | .error status => .error status
          | .ok host =>
              match parseServicePort service with
              | .error status => .error status
              | .ok port =>
                  if host.isEmpty ∨ port ≤ 0 ∨ 65535 < port then .ok none
                  else .ok (some ⟨host, UInt16.ofNat port.toNat⟩)
      | _, _ => .error (healthError "Consul health response contains an invalid service entry")
  | _ => .error (healthError "Consul health response contains an invalid service entry")

def parseEntries : List Json → List Endpoint → Except Status (List Endpoint)
  | [], endpoints => .ok endpoints
  | entry :: entries, endpoints =>
      match parseEntry entry with
      | .error status => .error status
      | .ok none => parseEntries entries endpoints
      | .ok (some endpoint) => parseEntries entries (endpoints ++ [endpoint])

/-- `parse` が `none` を返すのは、解釈できない（discarded）ときである。 -/
def parseEndpoints (parse : Bytes → Option Json) (body : Bytes) : Except Status (List Endpoint) :=
  match parse body with
  | some (.array entries) => (parseEntries entries []).map canonicalizeEndpoints
  | _ => .error (healthError "Consul health response is not an array")

/-! ## 更新 -/

/-- `published` は、`snapshot_` に置いた一覧の番号である。置き換えるたびに変わる。 -/
structure ConsulDiscovery where
  serviceName : Bytes
  snapshot : List Endpoint := []
  published : Nat := 0
  lastIndex : UInt64 := 0
  lastError : Bytes := []
  deriving DecidableEq

namespace ConsulDiscovery

def CONSUL_QUERY_WAIT : Nat := 5

def queryPath (d : ConsulDiscovery) (useBlockingQuery : Bool) : Bytes :=
  text "/v1/health/service/" ++ d.serviceName ++ text "?passing=true" ++
    if useBlockingQuery ∧ d.lastIndex ≠ 0 then
      text "&index=" ++ toDecimal d.lastIndex.toNat ++ text "&wait=" ++ toDecimal CONSUL_QUERY_WAIT ++ text "s"
    else []

def setSnapshot (d : ConsulDiscovery) (endpoints : List Endpoint) (index : UInt64) : ConsulDiscovery :=
  let d := if d.snapshot ≠ endpoints then { d with snapshot := endpoints, published := d.published + 1 } else d
  if index ≠ 0 then { d with lastIndex := index } else d

def setLastError (d : ConsulDiscovery) (error : Bytes) : ConsulDiscovery := { d with lastError := error }

/-- `get` は、要求した道への応答である。 -/
def fetch (d : ConsulDiscovery) (parse : Bytes → Option Json) (useBlockingQuery : Bool)
    (get : Bytes → Except Status ConsulHttpResponse) : Except Status Unit × ConsulDiscovery :=
  match get (d.queryPath useBlockingQuery) with
  | .error status => (.error status, d.setLastError status.message)
  | .ok response =>
      if response.statusCode < 200 ∨ 300 ≤ response.statusCode then
        let error := text "Consul request failed with HTTP status " ++ toSignedDecimal response.statusCode
        (.error ⟨.unavailable, error⟩, d.setLastError error)
      else
        match parseEndpoints parse response.body with
        | .error status => (.error status, d.setLastError status.message)
        | .ok endpoints => (.ok (), (d.setSnapshot endpoints (parseConsulIndex response)).setLastError [])

/-- `Start` は待たずに一回、`RefreshLoop` は待つ問い合わせを繰り返す。 -/
def run (d : ConsulDiscovery) (parse : Bytes → Option Json) :
    List (Bool × (Bytes → Except Status ConsulHttpResponse)) → ConsulDiscovery
  | [] => d
  | (useBlockingQuery, get) :: queries => ((d.fetch parse useBlockingQuery get).2).run parse queries

end ConsulDiscovery

/-! ## 応答の表す集合 -/

/-- 文字列の `Address`。 -/
def addressOf (fields : List (Bytes × Json)) : Bytes :=
  match jsonField fields "Address" with
  | some (.string address) => address
  | _ => []

/-- 整数の `Port`。 -/
def portOf (fields : List (Bytes × Json)) : Option Int :=
  match jsonField fields "Port" with
  | some (.unsigned n) => some n.toNat
  | some (.integer n) => some n.toInt
  | _ => none

/-- 項目の表す接続先。 -/
def Advertises (entry : Json) (endpoint : Endpoint) : Prop :=
  ∃ fields service node, entry = .object fields ∧ jsonField fields "Service" = some (.object service) ∧
    jsonField fields "Node" = some (.object node) ∧
    endpoint.host = (if addressOf service ≠ [] then addressOf service else addressOf node) ∧ endpoint.host ≠ [] ∧
    portOf service = some (endpoint.port.toNat : Int) ∧ 0 < endpoint.port

end Xrpc.Naming
