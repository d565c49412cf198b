import Xrpc.Lib.Bytes
import Xrpc.Lib.UIntOrder

/-!
# 接続先の一覧

`include/xrpc/rpc_client.h` の `Endpoint` と、`src/naming/service_discovery.cpp` の `CanonicalizeEndpoints` を写す。
-/

namespace Xrpc.Naming
open Xrpc.Lib
open scoped Xrpc.Lib.UIntOrder

@[ext]
structure Endpoint where
  host : Bytes
  port : UInt16
  deriving DecidableEq, Repr

/-- `std::string` の大小は、符号なしのバイトの辞書式の順である。 -/
def Endpoint.before (lhs rhs : Endpoint) : Bool :=
  if lhs.host ≠ rhs.host then lhs.host < rhs.host else lhs.port < rhs.port

/-- 住所の順に並べ、隣り合う重複を取り除く。 -/
def canonicalizeEndpoints (endpoints : List Endpoint) : List Endpoint :=
  (endpoints.insertionSort fun lhs rhs => rhs.before lhs = false).destutter (· ≠ ·)

/-! ## 住所の順 -/

namespace Endpoint

def key (endpoint : Endpoint) : Bytes ×ₗ UInt16 := toLex (endpoint.host, endpoint.port)

theorem key_injective : Function.Injective key := by
  intro a b h
  exact Endpoint.ext (congrArg (fun x => (ofLex x).1) h) (congrArg (fun x => (ofLex x).2) h)

instance : LinearOrder Endpoint := LinearOrder.lift' key key_injective

theorem before_iff {lhs rhs : Endpoint} : lhs.before rhs = true ↔ lhs < rhs := by
  rw [before, show lhs < rhs ↔ key lhs < key rhs from Iff.rfl, key, key, Prod.Lex.toLex_lt_toLex]
  split_ifs with hhost
  · simp [hhost]
  · simp [not_not.mp hhost]

theorem before_eq_false_iff {lhs rhs : Endpoint} : rhs.before lhs = false ↔ lhs ≤ rhs := by
  rw [← not_lt, ← before_iff, Bool.not_eq_true]

end Endpoint

/-- 住所の順に並び、重複がない一覧。 -/
def Canonical (endpoints : List Endpoint) : Prop := endpoints.Pairwise (· < ·)

end Xrpc.Naming
