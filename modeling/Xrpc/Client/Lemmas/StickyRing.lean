import Xrpc.Client.Routing
import Xrpc.Lib.HashRing
import Xrpc.Naming.Lemmas.Canonical

/-!
# 一致ハッシュの環の中身

環の項は一覧の中の位置を持つが、正準な一覧では位置の順が住所の順なので、選ばれる接続先は接続先の集合だけで決まる。
-/

namespace Xrpc.Client
open Xrpc.Lib Xrpc.Naming
open scoped Xrpc.Lib.UIntOrder

variable {hash : Bytes → UInt64} {endpoints : List Endpoint} {stickyKey : Bytes}

namespace HashRingEntry

def key (entry : HashRingEntry) : UInt64 × Nat := (entry.hash, entry.endpointIndex)

theorem before_eq_false_iff {lhs rhs : HashRingEntry} : rhs.before lhs = false ↔ toLex lhs.key ≤ toLex rhs.key := by
  rw [before, key, key, Prod.Lex.toLex_le_toLex]
  split_ifs with hhash
  · rw [decide_eq_false_iff_not, not_lt]
    exact ⟨fun h => Or.inl (lt_of_le_of_ne h (Ne.symm hhash)),
      fun h => h.elim le_of_lt fun heq => absurd heq.1.symm hhash⟩
  · simp [not_not.mp hhash]

instance : Std.Total fun lhs rhs : HashRingEntry => rhs.before lhs = false :=
  ⟨fun lhs rhs => by simpa only [before_eq_false_iff] using le_total (toLex lhs.key) (toLex rhs.key)⟩

instance : IsTrans HashRingEntry fun lhs rhs => rhs.before lhs = false :=
  ⟨fun _ _ _ hab hbc => before_eq_false_iff.mpr ((before_eq_false_iff.mp hab).trans (before_eq_false_iff.mp hbc))⟩

end HashRingEntry

/-! ## 環の項 -/

/-- 並べる前の項。 -/
def ringEntries (hash : Bytes → UInt64) (endpoints : List Endpoint) : List HashRingEntry :=
  endpoints.zipIdx.flatMap fun (endpoint, endpointIndex) =>
    (List.range VIRTUAL_NODE_COUNT).map fun vnode => ⟨virtualNodeHash hash endpoint vnode, endpointIndex⟩

theorem buildHashRing_perm (hash : Bytes → UInt64) (endpoints : List Endpoint) :
    (buildHashRing hash endpoints).Perm (ringEntries hash endpoints) :=
  List.perm_insertionSort _ _

theorem buildHashRing_sorted (hash : Bytes → UInt64) (endpoints : List Endpoint) :
    (buildHashRing hash endpoints).Pairwise fun lhs rhs => rhs.before lhs = false :=
  List.pairwise_insertionSort _ _

theorem mem_buildHashRing {entry : HashRingEntry} :
    entry ∈ buildHashRing hash endpoints ↔
      ∃ endpoint, endpoints[entry.endpointIndex]? = some endpoint ∧
        ∃ vnode < VIRTUAL_NODE_COUNT, entry.hash = virtualNodeHash hash endpoint vnode := by
  rw [(buildHashRing_perm hash endpoints).mem_iff, ringEntries, List.mem_flatMap]
  constructor
  · rintro ⟨⟨endpoint, index⟩, hmem, hentry⟩
    obtain ⟨vnode, hvnode, rfl⟩ := List.mem_map.mp hentry
    exact ⟨endpoint, List.mem_zipIdx_iff_getElem?.mp hmem, vnode, List.mem_range.mp hvnode, rfl⟩
  · rintro ⟨endpoint, hindex, vnode, hvnode, hhash⟩
    refine ⟨(endpoint, entry.endpointIndex), List.mem_zipIdx_iff_getElem?.mpr hindex, ?_⟩
    exact List.mem_map.mpr ⟨vnode, List.mem_range.mpr hvnode, by rw [← hhash]⟩

theorem endpointIndex_lt {entry : HashRingEntry} (h : entry ∈ buildHashRing hash endpoints) :
    entry.endpointIndex < endpoints.length := by
  obtain ⟨endpoint, hindex, -⟩ := mem_buildHashRing.mp h
  exact (List.getElem?_eq_some_iff.mp hindex).1

/-- 接続先ごとに、ちょうど 128 の項がある。 -/
theorem countP_buildHashRing (hash : Bytes → UInt64) {index : Nat} (h : index < endpoints.length) :
    (buildHashRing hash endpoints).countP (fun entry => entry.endpointIndex = index) = VIRTUAL_NODE_COUNT := by
  -- 先頭の位置を一般にして、一覧についての帰納法を行う。
  have hfrom : ∀ (l : List Endpoint) (start : Nat),
      ((l.zipIdx start).flatMap fun (endpoint, endpointIndex) => (List.range VIRTUAL_NODE_COUNT).map fun vnode =>
        (⟨virtualNodeHash hash endpoint vnode, endpointIndex⟩ : HashRingEntry)).countP
          (fun entry => entry.endpointIndex = index) =
        if start ≤ index ∧ index < start + l.length then VIRTUAL_NODE_COUNT else 0 := by
    intro l
    induction l with
    | nil =>
        intro start
        rw [if_neg (by simp only [List.length_nil]; omega)]
        rfl
    | cons endpoint rest ih =>
        intro start
        have hhead : (List.range VIRTUAL_NODE_COUNT).countP (fun _ => decide (start = index)) =
            if start = index then VIRTUAL_NODE_COUNT else 0 := by
          split_ifs with heq <;> simp [heq]
        rw [List.zipIdx_cons, List.flatMap_cons, List.countP_append, ih, List.countP_map]
        simp only [Function.comp_def, hhead, List.length_cons]
        split_ifs <;> omega
  rw [(buildHashRing_perm hash endpoints).countP_eq, ringEntries, hfrom, if_pos (by omega)]

theorem map_key_ne_nil (hash : Bytes → UInt64) (h : endpoints ≠ []) :
    (buildHashRing hash endpoints).map (·.key) ≠ [] := by
  have hcount := countP_buildHashRing hash (List.length_pos_iff.mpr h)
  intro hnil
  rw [List.map_eq_nil_iff.mp hnil] at hcount
  cases hcount

theorem map_key_sorted (hash : Bytes → UInt64) (endpoints : List Endpoint) :
    ((buildHashRing hash endpoints).map (·.key)).Pairwise fun x y => toLex x ≤ toLex y :=
  List.pairwise_map.mpr ((buildHashRing_sorted hash endpoints).imp HashRingEntry.before_eq_false_iff.mp)

/-! ## 選ばれる接続先 -/

/-- 接続先の仮想の節点の位置。 -/
def virtualNodes (hash : Bytes → UInt64) (endpoint : Endpoint) : Set UInt64 :=
  {h | ∃ vnode < VIRTUAL_NODE_COUNT, h = virtualNodeHash hash endpoint vnode}

theorem selectStickyStart_eq (hkey : stickyKey ≠ []) (ring : List HashRingEntry) :
    selectStickyStart hash stickyKey ring = (HashRing.first (hash stickyKey) (ring.map (·.key))).map (·.2) := by
  cases ring with
  | nil => simp [selectStickyStart, HashRing.first]
  | cons front rest =>
      simp only [selectStickyStart, hkey, ↓reduceIte, HashRing.first, List.find?_map, Function.comp_def, HashRingEntry.key]
      cases (front :: rest).find? fun entry => decide (hash stickyKey ≤ entry.hash) <;> rfl

/-- 空でない一覧の環からは、範囲にある添字が選ばれる。 -/
theorem selectStickyStart_lt (hash : Bytes → UInt64) (hne : endpoints ≠ []) (hkey : stickyKey ≠ []) :
    ∃ start, selectStickyStart hash stickyKey (buildHashRing hash endpoints) = some start ∧ start < endpoints.length := by
  obtain ⟨x, hfirst⟩ := HashRing.first_isSome (q := hash stickyKey) (map_key_ne_nil hash hne)
  obtain ⟨hmem, -⟩ := HashRing.first_least (map_key_sorted hash endpoints) hfirst
  obtain ⟨entry, hentry, rfl⟩ := List.mem_map.mp hmem
  exact ⟨entry.endpointIndex, by rw [selectStickyStart_eq hkey, hfirst]; rfl, endpointIndex_lt hentry⟩

/-- 鍵の呼び出しが最初に試みるのは、鍵を受け持つ接続先である。 -/
theorem stickyOwner_owns (hash : Bytes → UInt64) (h : Canonical endpoints) (hne : endpoints ≠ []) (hkey : stickyKey ≠ []) :
    ∃ endpoint, stickyOwner hash endpoints stickyKey = some endpoint ∧
      HashRing.Owns (virtualNodes hash) {e | e ∈ endpoints} (hash stickyKey) endpoint := by
  obtain ⟨x, hfirst⟩ := HashRing.first_isSome (q := hash stickyKey) (map_key_ne_nil hash hne)
  obtain ⟨hmem, hleast⟩ := HashRing.first_least (map_key_sorted hash endpoints) hfirst
  obtain ⟨entry, hentry, rfl⟩ := List.mem_map.mp hmem
  obtain ⟨endpoint, hindex, vnode, hvnode, hhash⟩ := mem_buildHashRing.mp hentry
  refine ⟨endpoint, ?_, List.mem_of_getElem? hindex, _, ⟨vnode, hvnode, hhash⟩, fun other hother position hposition => ?_⟩
  · rw [stickyOwner, selectStickyStart_eq hkey, hfirst]
    exact hindex
  · obtain ⟨vnode', hvnode', rfl⟩ := hposition
    obtain ⟨j, hj⟩ := List.mem_iff_getElem?.mp hother
    have hle := hleast (virtualNodeHash hash other vnode', j)
      (List.mem_map.mpr ⟨⟨_, j⟩, mem_buildHashRing.mpr ⟨other, hj, vnode', hvnode', rfl⟩, rfl⟩)
    refine HashRing.clockwise_le_of_mono (fun hij => ?_) hle
    exact not_lt.mp fun hlt => absurd ((h.index_lt_iff hj hindex).mpr hlt) (not_lt.mpr hij)

end Xrpc.Client
