import Xrpc.Client.CallAttempt
import Xrpc.Lib.Machine
import Xrpc.Naming.ServiceDiscovery

/-!
# 経路の決定

`src/client/rpc_client_impl.cpp` の `ResolveRoutingSnapshot` と、一致ハッシュの環を写す。`Fnv1a64` のほかの関数でも成り立つ性質が多い
ので、環の関数はハッシュ関数を引数に取る。共有の参照の同一性は、公表や作成の番号で表す。
-/

namespace Xrpc.Client
open Xrpc.Lib Xrpc.Protocol Xrpc.Naming Function

/-! ## 一致ハッシュの環 -/

def VIRTUAL_NODE_COUNT : Nat := 128
def FNV1A_OFFSET_BASIS : UInt64 := 14695981039346656037
def FNV1A_PRIME : UInt64 := 1099511628211

def fnv1a64 (value : Bytes) : UInt64 :=
  value.foldl (fun hash ch => (hash ^^^ ch.toUInt64) * FNV1A_PRIME) FNV1A_OFFSET_BASIS

/-- 仮想の節点の一つ。添字は、接続先の一覧の中の位置である。 -/
structure HashRingEntry where
  hash : UInt64
  endpointIndex : Nat
  deriving DecidableEq

def HashRingEntry.before (lhs rhs : HashRingEntry) : Bool :=
  if lhs.hash ≠ rhs.hash then lhs.hash < rhs.hash else lhs.endpointIndex < rhs.endpointIndex

def makeEndpointId (endpoint : Endpoint) : Bytes :=
  endpoint.host ++ text ":" ++ text (toString endpoint.port.toNat)

section

variable (hash : Bytes → UInt64)

def virtualNodeHash (endpoint : Endpoint) (vnode : Nat) : UInt64 :=
  hash (makeEndpointId endpoint ++ text "#" ++ text (toString vnode))

def buildHashRing (endpoints : List Endpoint) : List HashRingEntry :=
  (endpoints.zipIdx.flatMap fun (endpoint, endpointIndex) =>
    (List.range VIRTUAL_NODE_COUNT).map fun vnode => ⟨virtualNodeHash hash endpoint vnode, endpointIndex⟩).insertionSort
      fun lhs rhs => rhs.before lhs = false

/-- `lower_bound` が末尾を返せば、一周して先頭を選ぶ。`assert` の失敗は `none` で表す。 -/
def selectStickyStart (stickyKey : Bytes) (hashRing : List HashRingEntry) : Option Nat :=
  if stickyKey = [] then none
  else
    match hashRing with
    | [] => none
    | front :: _ =>
        match hashRing.find? fun item => decide (hash stickyKey ≤ item.hash) with
        | none => some front.endpointIndex
        | some entry => some entry.endpointIndex

/-- 一覧 `endpoints` の中で、鍵 `stickyKey` の呼び出しが最初に試みる接続先。 -/
def stickyOwner (endpoints : List Endpoint) (stickyKey : Bytes) : Option Endpoint :=
  (selectStickyStart hash stickyKey (buildHashRing hash endpoints)).bind (endpoints[·]?)

end

/-! ## 経路の断面 -/

/-- 公表された一覧への参照。`version` は何番目に公表されたかであり、参照の同一性を表す。 -/
structure DiscoverySnapshot where
  version : Nat
  endpoints : List Endpoint
  deriving DecidableEq

deriving instance DecidableEq for TransportConfig

/-- `TcpTransport` の実体。`id` は作られた順の番号であり、実体の同一性を表す。 -/
structure TcpTransport where
  id : TransportId
  host : Bytes
  port : UInt16
  config : TransportConfig
  deriving DecidableEq

structure RoutingSnapshot where
  endpoints : DiscoverySnapshot
  transports : List TcpTransport
  hashRing : List HashRingEntry
  deriving DecidableEq

def findReusableTransport (snapshot : Option RoutingSnapshot) (endpoint : Endpoint) : Option TcpTransport :=
  match snapshot with
  | none => none
  | some snapshot =>
      match snapshot.endpoints.endpoints.findIdx? (· = endpoint) with
      | none => none
      | some index => snapshot.transports[index]?

/-- 変わらない接続先の輸送路を使い続け、ほかは新しく作る。`nextTransport` は次に作る輸送路の番号である。 -/
def buildTransports (config : TransportConfig) (current : Option RoutingSnapshot) :
    TransportId → List Endpoint → List TcpTransport × TransportId
  | nextTransport, [] => ([], nextTransport)
  | nextTransport, endpoint :: rest =>
      match findReusableTransport current endpoint with
      | some transport =>
          let built := buildTransports config current nextTransport rest
          (transport :: built.1, built.2)
      | none =>
          let built := buildTransports config current (nextTransport + 1) rest
          (⟨nextTransport, endpoint.host, endpoint.port, config⟩ :: built.1, built.2)

/-- `CallWithFailover` が最初に試みる添字。`counter` は `next_endpoint_index_` の値である。 -/
def selectStart (hash : Bytes → UInt64) (counter : Nat) (stickyKey : Bytes) (snapshot : RoutingSnapshot) : Option Nat :=
  if stickyKey = [] then some (counter % snapshot.transports.length)
  else selectStickyStart hash stickyKey snapshot.hashRing

/-! ## `ResolveRoutingSnapshot` の遷移系 -/

namespace Routing

/-- `ResolveRoutingSnapshot` を行う呼び出しの位置。`discovered` は、その呼び出しが読んだ一覧である。 -/
inductive ResolvePc where
  | idle
  | noEndpoints
  | discovered (discovered : DiscoverySnapshot)
  | waiting (discovered : DiscoverySnapshot)
  | locked (discovered : DiscoverySnapshot)
  | rebuilding (discovered : DiscoverySnapshot) (current : Option RoutingSnapshot)
  | returned (discovered : DiscoverySnapshot) (snapshot : RoutingSnapshot)
  | failed (status : Status)
  deriving DecidableEq

/-- 作り直している呼び出しが読んだ一覧。 -/
def ResolvePc.rebuilding? : ResolvePc → Option DiscoverySnapshot
  | .rebuilding d _ => some d
  | _ => none

/-- 作り直している呼び出しが、排他の中で読んだ断面。 -/
def ResolvePc.current : ResolvePc → Option RoutingSnapshot
  | .rebuilding _ current => current
  | _ => none

/-- `published` は、公表された一覧の列である。呼び出しは `ρ` の値で区別する。 -/
structure State (ρ : Type) where
  published : List (List Endpoint)
  routingSnapshot : Option RoutingSnapshot
  routingUpdateMutex : Option ρ
  nextTransport : TransportId
  pc : ρ → ResolvePc

inductive Act (ρ : Type) where
  | publish (endpoints : List Endpoint)
  | readDiscovery (i : ρ)
  | readLastError (i : ρ) (lastError : Bytes)
  | loadShared (i : ρ) (discovered : DiscoverySnapshot)
  | lock (i : ρ) (discovered : DiscoverySnapshot)
  | loadLocked (i : ρ) (discovered : DiscoverySnapshot)
  | store (i : ρ) (discovered : DiscoverySnapshot)

structure Config where
  hash : Bytes → UInt64
  transport : TransportConfig

variable {ρ : Type} [DecidableEq ρ]

def State.initial : State ρ := ⟨[], none, none, 0, fun _ => .idle⟩

/-- `discovery_->Snapshot()` が返す参照。 -/
def State.snapshot (s : State ρ) : Option DiscoverySnapshot :=
  s.published.getLast?.map fun endpoints => ⟨s.published.length - 1, endpoints⟩

def State.setPc (s : State ρ) (i : ρ) (pc : ResolvePc) : State ρ := { s with pc := update s.pc i pc }

/-- 経路の断面が、読んだ一覧と同じ参照から作られているか。 -/
def State.upToDate (s : State ρ) (discovered : DiscoverySnapshot) : Option RoutingSnapshot :=
  s.routingSnapshot.filter fun current => current.endpoints.version = discovered.version

def noEndpointsStatus (lastError : Bytes) : Status :=
  ⟨.unavailable, text "service discovery has no endpoints" ++ if lastError = [] then [] else text ": " ++ lastError⟩

def enabled (s : State ρ) : Act ρ → Prop
  | .publish _ => True
  | .readDiscovery i => s.pc i = .idle
  | .readLastError i _ => s.pc i = .noEndpoints
  | .loadShared i discovered => s.pc i = .discovered discovered
  | .lock i discovered => s.pc i = .waiting discovered ∧ s.routingUpdateMutex = none
  | .loadLocked i discovered => s.pc i = .locked discovered
  | .store i discovered => (s.pc i).rebuilding? = some discovered

def next (cfg : Config) (s : State ρ) : Act ρ → State ρ
  | .publish endpoints => { s with published := s.published ++ [canonicalizeEndpoints endpoints] }
  | .readDiscovery i =>
      match s.snapshot with
      | none => s.setPc i .noEndpoints
      | some discovered =>
          if discovered.endpoints.isEmpty then s.setPc i .noEndpoints else s.setPc i (.discovered discovered)
  | .readLastError i lastError => s.setPc i (.failed (noEndpointsStatus lastError))
  | .loadShared i discovered =>
      match s.upToDate discovered with
      | some current => s.setPc i (.returned discovered current)
      | none => s.setPc i (.waiting discovered)
  | .lock i discovered => { s.setPc i (.locked discovered) with routingUpdateMutex := some i }
  | .loadLocked i discovered =>
      match s.upToDate discovered with
      | some current => { s.setPc i (.returned discovered current) with routingUpdateMutex := none }
      | none => s.setPc i (.rebuilding discovered s.routingSnapshot)
  | .store i discovered =>
      let built := buildTransports cfg.transport (s.pc i).current s.nextTransport discovered.endpoints
      let published : RoutingSnapshot := ⟨discovered, built.1, buildHashRing cfg.hash discovered.endpoints⟩
      { s.setPc i (.returned discovered published) with
        routingSnapshot := some published
        routingUpdateMutex := none
        nextTransport := built.2 }

/-- 一覧の公表と、任意個の呼び出しの割り込み合う遷移系。 -/
def routing (ρ : Type) [DecidableEq ρ] (cfg : Config) : Machine (State ρ) (Act ρ) where
  init s := s = .initial
  enabled := enabled
  next := next cfg

instance (cfg : Config) (s : State ρ) (a : Act ρ) : Decidable ((routing ρ cfg).enabled s a) :=
  match a with
  | .publish _ => inferInstanceAs (Decidable True)
  | .readDiscovery _ | .readLastError _ _ | .loadShared _ _ | .loadLocked _ _ | .store _ _ =>
      inferInstanceAs (Decidable (_ = _))
  | .lock _ _ => inferInstanceAs (Decidable (_ ∧ _))

/-- 今の経路の断面より古い一覧からは、断面を作り直さない。 -/
def Forward (s : State ρ) : Act ρ → Prop
  | .store _ discovered => ∀ current ∈ s.routingSnapshot, current.endpoints.version ≤ discovered.version
  | _ => True

instance (cfg : Config) (s : State ρ) (a : Act ρ) : Decidable (((routing ρ cfg).restrict Forward).enabled s a) := by
  refine @instDecidableAnd _ _ (inferInstanceAs (Decidable ((routing ρ cfg).enabled s a))) ?_
  cases a with
  | store i discovered =>
      exact inferInstanceAs (Decidable (∀ current ∈ s.routingSnapshot, current.endpoints.version ≤ discovered.version))
  | _ => exact inferInstanceAs (Decidable True)

end Routing

end Xrpc.Client
