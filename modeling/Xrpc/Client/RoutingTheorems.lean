import Xrpc.Client.Lemmas.Routing

/-!
# 経路の決定についての定理
-/

namespace Xrpc.Client
open Xrpc.Lib Xrpc.Protocol Xrpc.Naming
open scoped Xrpc.Lib.UIntOrder

/-! ## 鍵の移動 -/

/-- 接続先が一つなくなっても、ほかの接続先の鍵は移らない。接続先が一つ加わるとき、移る鍵は加わった接続先に移る。
どのようなハッシュ関数でも成り立つ。 -/
theorem sticky_keys_move_minimally (hash : Bytes → UInt64) (raw : List Endpoint) (e : Endpoint) (stickyKey : Bytes)
    (hkey : stickyKey ≠ []) :
    (canonicalizeEndpoints raw ≠ [] →
      ∃ owner ∈ canonicalizeEndpoints raw, stickyOwner hash (canonicalizeEndpoints raw) stickyKey = some owner) ∧
    (stickyOwner hash (canonicalizeEndpoints raw) stickyKey ≠ some e →
      (canonicalizeEndpoints raw).filter (· ≠ e) ≠ [] →
      stickyOwner hash ((canonicalizeEndpoints raw).filter (· ≠ e)) stickyKey =
        stickyOwner hash (canonicalizeEndpoints raw) stickyKey) ∧
    (e ∉ canonicalizeEndpoints raw →
      stickyOwner hash (canonicalizeEndpoints (e :: canonicalizeEndpoints raw)) stickyKey =
          stickyOwner hash (canonicalizeEndpoints raw) stickyKey ∨
        stickyOwner hash (canonicalizeEndpoints (e :: canonicalizeEndpoints raw)) stickyKey = some e) := by
  have hcanonical := canonical_canonicalizeEndpoints raw
  generalize canonicalizeEndpoints raw = endpoints at hcanonical
  refine ⟨fun hne => ?_, fun howner hne => ?_, fun _ => ?_⟩
  · obtain ⟨owner, heq, howns⟩ := stickyOwner_owns hash hcanonical hne hkey
    exact ⟨owner, howns.1, heq⟩
  · have hne' : endpoints ≠ [] := fun hnil => hne (by rw [hnil]; rfl)
    obtain ⟨owner, heq, howns⟩ := stickyOwner_owns hash hcanonical hne' hkey
    obtain ⟨owner', heq', howns'⟩ := stickyOwner_owns hash (hcanonical.filter (· ≠ e)) hne hkey
    rw [heq] at howner
    have hkept : owner ∈ endpoints.filter (· ≠ e) := by
      simpa using And.intro howns.1 fun h : owner = e => howner (congrArg some h)
    have hsub : {x | x ∈ endpoints.filter (· ≠ e)} ⊆ {x | x ∈ endpoints} := fun x hx => (List.mem_filter.mp hx).1
    rw [heq, heq', (howns.of_subset hsub hkept).unique howns']
  · have hne : canonicalizeEndpoints (e :: endpoints) ≠ [] :=
      List.ne_nil_of_mem (mem_canonicalizeEndpoints.mpr List.mem_cons_self)
    obtain ⟨owner, heq, howns⟩ :=
      stickyOwner_owns hash (canonical_canonicalizeEndpoints (e :: endpoints)) hne hkey
    have hset : {x | x ∈ canonicalizeEndpoints (e :: endpoints)} = insert e {x | x ∈ endpoints} := by
      ext x
      simp [mem_canonicalizeEndpoints]
    rw [hset] at howns
    rcases howns.of_insert with rfl | howns
    · exact Or.inr heq
    · obtain ⟨owner', heq', howns'⟩ := stickyOwner_owns hash hcanonical (List.ne_nil_of_mem howns.1) hkey
      exact Or.inl (by rw [heq, heq', howns.unique howns'])

/-- すべての位置が重なる環。接続先 1 がなくなっても、鍵は接続先 0 のままである。 -/
theorem sticky_keys_move_minimally_pair :
    stickyOwner (fun _ => 0) [⟨text "a", 0⟩, ⟨text "a", 1⟩] (text "k") = some ⟨text "a", 0⟩ ∧
      stickyOwner (fun _ => 0) [⟨text "a", 0⟩] (text "k") = some ⟨text "a", 0⟩ := by
  have hpair : stickyOwner (fun _ => 0) [⟨text "a", 0⟩, ⟨text "a", 1⟩] (text "k") = some ⟨text "a", 0⟩ := by
    decide +kernel
  have hcanonical : canonicalizeEndpoints [⟨text "a", 1⟩, ⟨text "a", 0⟩] = [⟨text "a", 0⟩, ⟨text "a", 1⟩] := by
    decide +kernel
  have hmove := (sticky_keys_move_minimally (fun _ => 0) [⟨text "a", 1⟩, ⟨text "a", 0⟩] ⟨text "a", 1⟩ (text "k")
    (by decide)).2.1
  rw [hcanonical, hpair] at hmove
  exact ⟨hpair, hmove (by decide) (by decide)⟩

section

open Routing

variable {ρ : Type} [DecidableEq ρ] {cfg : Routing.Config} {s : Routing.State ρ}

/-! ## 断面の整合 -/

/-- 呼び出しに返る断面は、その呼び出しが読んだ一覧から作られている。輸送路は一覧と同じ順に並んで同じ住所につながり、環は整列し、
接続先ごとに 128 の項を持ち、添字はすべて範囲にある。最初の添字も、切り替えた先の添字も、範囲にある。 -/
theorem routing_snapshot_coherent (h : (routing ρ cfg).Reachable s) {i : ρ} {d : DiscoverySnapshot} {r : RoutingSnapshot}
    (hpc : s.pc i = .returned d r) :
    r.endpoints = d ∧ s.published[d.version]? = some d.endpoints ∧
      r.transports.length = d.endpoints.length ∧
      (∀ (index : Nat) (e : Endpoint), d.endpoints[index]? = some e →
        ∃ t : TcpTransport, r.transports[index]? = some t ∧ t.host = e.host ∧ t.port = e.port) ∧
      r.hashRing.Pairwise (fun lhs rhs => rhs.before lhs = false) ∧
      (∀ index < d.endpoints.length, r.hashRing.countP (fun entry => entry.endpointIndex = index) = 128) ∧
      (∀ entry ∈ r.hashRing, entry.endpointIndex < d.endpoints.length) ∧
      ∀ counter stickyKey, ∃ start, selectStart cfg.hash counter stickyKey r = some start ∧
        start < r.transports.length ∧ ∀ offset, (start + offset) % r.transports.length < r.transports.length := by
  have hinv := reachable_inv h
  have heq := hinv.returned i d r hpc
  obtain ⟨⟨hpublished, hne⟩, hcoherent⟩ := hinv.held i r (by rw [hpc]; rfl)
  rw [heq] at hpublished hne
  have hlen := hcoherent.length_eq
  have hring := hcoherent.ring_eq
  rw [heq] at hlen hring
  have hpos : 0 < r.transports.length := hlen ▸ List.length_pos_iff.mpr hne
  refine ⟨heq, hpublished, hlen, fun index e hindex => hcoherent.aligned (by rwa [heq]), ?_, fun index hindex => ?_,
    fun entry hentry => ?_, fun counter stickyKey => ?_⟩
  · rw [hring]
    exact buildHashRing_sorted cfg.hash d.endpoints
  · rw [hring]
    exact countP_buildHashRing cfg.hash hindex
  · rw [hring] at hentry
    exact endpointIndex_lt hentry
  · obtain ⟨start, hstart, hlt⟩ : ∃ start, selectStart cfg.hash counter stickyKey r = some start ∧
        start < r.transports.length := by
      by_cases hkey : stickyKey = []
      · exact ⟨_, if_pos hkey, Nat.mod_lt _ hpos⟩
      · obtain ⟨start, hstart, hlt⟩ := selectStickyStart_lt cfg.hash hne hkey
        exact ⟨start, by rw [selectStart, if_neg hkey, hring]; exact hstart, hlen ▸ hlt⟩
    exact ⟨start, hstart, hlt, fun offset => Nat.mod_lt _ hpos⟩

abbrev plainRouting : Routing.Config := ⟨fnv1a64, {}⟩

/-- 一覧 `d` を読んだ呼び出しが、断面を作り直して返す動作。 -/
def rebuilds (i : ρ) (d : DiscoverySnapshot) : List (Routing.Act ρ) :=
  [.loadShared i d, .lock i d, .loadLocked i d, .store i d]

def endpointA : Endpoint := ⟨text "a", 80⟩
def endpointB : Endpoint := ⟨text "b", 80⟩

/-- 接続先が二つの断面が返る。 -/
theorem routing_snapshot_coherent_pair :
    ∃ (s : Routing.State (Fin 1)) (d : DiscoverySnapshot) (r : RoutingSnapshot),
      (routing (Fin 1) plainRouting).Reachable s ∧ s.pc 0 = .returned d r ∧ d.endpoints.length = 2 ∧
        r.transports.length = d.endpoints.length := by
  obtain ⟨s, hs, hp⟩ := Machine.exists_reachable_of_exec (M := routing (Fin 1) plainRouting) (s := .initial)
    ([.publish [endpointB, endpointA], .readDiscovery 0] ++ rebuilds 0 ⟨0, [endpointA, endpointB]⟩)
    (fun s => match s.pc 0 with
      | .returned d _ => d.endpoints.length = 2
      | _ => false) (.init rfl) (by decide)
  cases hpc : s.pc 0 with
  | returned d r =>
      rw [hpc] at hp
      exact ⟨s, d, r, hs, hpc, of_decide_eq_true hp, (routing_snapshot_coherent hs hpc).2.2.1⟩
  | _ => simp [hpc] at hp

/-! ## 変わらない接続先の輸送路 -/

/-- 今の断面より古い一覧から断面を作り直すことのない実行では、ある一覧から先のすべてに含まれる接続先について、その一覧か後の
一覧を読んだ呼び出しに返る断面は、同じ輸送路を持つ。 -/
theorem unchanged_endpoint_keeps_transport (h : (routing ρ cfg).Reach Forward s) {v : Nat} {e : Endpoint}
    (he : ∀ u, v ≤ u → u < s.published.length → ∃ endpoints, s.published[u]? = some endpoints ∧ e ∈ endpoints)
    {i j : ρ} {d d' : DiscoverySnapshot} {r r' : RoutingSnapshot} (hi : s.pc i = .returned d r)
    (hj : s.pc j = .returned d' r') (hd : v ≤ d.version) (hd' : v ≤ d'.version) {index index' : Nat}
    (hindex : d.endpoints[index]? = some e) (hindex' : d'.endpoints[index']? = some e) :
    ∃ transport, r.transports[index]? = some transport ∧ r'.transports[index']? = some transport := by
  have hinv := reachable_inv h.reachable
  -- どちらの断面も、今の断面に引き継がれている。
  have hcarried : ∀ {i : ρ} {d : DiscoverySnapshot} {r : RoutingSnapshot} {index : Nat}, s.pc i = .returned d r →
      v ≤ d.version → d.endpoints[index]? = some e → ∃ c, s.routingSnapshot = some c ∧
        r.transports[index]? = findReusableTransport (some c) e ∧ e ∈ c.endpoints.endpoints := by
    intro i d r index hpc hv hget
    have heq := hinv.returned i d r hpc
    have hknown := (hinv.held i r (by rw [hpc]; rfl)).1
    obtain ⟨c, hc, hle, hfind⟩ := reach_carried h i d r hpc
    have hlast := (hinv.routed c hc).1
    have hrange : ∀ u, v ≤ u → u ≤ c.endpoints.version → ∃ es, s.published[u]? = some es ∧ e ∈ es := fun u hvu huc =>
      he u hvu (Nat.lt_of_le_of_lt huc (List.getElem?_eq_some_iff.mp hlast.1).1)
    rw [heq] at hle
    obtain ⟨es, hes, hmem⟩ := hrange c.endpoints.version (hv.trans hle) le_rfl
    rw [hlast.1] at hes
    cases hes
    refine ⟨c, hc, ?_, hmem⟩
    rw [← hfind e fun u hru huc => hrange u (hv.trans (heq ▸ hru)) huc]
    exact (findReusableTransport_of_getElem? (hinv.nodup hknown) (by rwa [heq])).symm
  obtain ⟨c, hc, htransport, hmem⟩ := hcarried hi hd hindex
  obtain ⟨c', hc', htransport', -⟩ := hcarried hj hd' hindex'
  rw [hc] at hc'
  cases hc'
  obtain ⟨t, hfind, -⟩ := (hinv.routed c hc).2.find_of_mem hmem
  exact ⟨t, htransport.trans hfind, htransport'.trans hfind⟩

/-- 返った断面。 -/
def returned? : ResolvePc → Option (DiscoverySnapshot × RoutingSnapshot)
  | .returned d r => some (d, r)
  | _ => none

theorem eq_returned_of_returned? {pc : ResolvePc} {d : DiscoverySnapshot} {r : RoutingSnapshot}
    (h : returned? pc = some (d, r)) : pc = .returned d r := by
  cases pc with
  | returned d' r' =>
      cases h
      rfl
  | _ => cases h

/-- 一覧に接続先が加わっても、前からある接続先の輸送路は変わらない。 -/
theorem unchanged_endpoint_keeps_transport_added :
    ∃ (s : Routing.State (Fin 2)) (r r' : RoutingSnapshot),
      (routing (Fin 2) plainRouting).Reach Forward s ∧ s.pc 0 = .returned ⟨0, [endpointA]⟩ r ∧
        s.pc 1 = .returned ⟨1, [endpointA, endpointB]⟩ r' ∧
        ∃ transport, r.transports[0]? = some transport ∧ r'.transports[0]? = some transport := by
  obtain ⟨s, hs, hp⟩ := Machine.exists_reachable_of_exec (M := (routing (Fin 2) plainRouting).restrict Forward)
    (s := .initial)
    ([.publish [endpointA], .readDiscovery 0] ++ rebuilds 0 ⟨0, [endpointA]⟩ ++
      [.publish [endpointA, endpointB], .readDiscovery 1] ++ rebuilds 1 ⟨1, [endpointA, endpointB]⟩)
    (fun s => s.published = [[endpointA], [endpointA, endpointB]] ∧
      (returned? (s.pc 0)).map (·.1) = some ⟨0, [endpointA]⟩ ∧
      (returned? (s.pc 1)).map (·.1) = some ⟨1, [endpointA, endpointB]⟩) (.init rfl) (by decide)
  obtain ⟨hpublished, h0, h1⟩ := of_decide_eq_true hp
  obtain ⟨⟨_, r⟩, hr, rfl⟩ := Option.map_eq_some_iff.mp h0
  obtain ⟨⟨_, r'⟩, hr', rfl⟩ := Option.map_eq_some_iff.mp h1
  have hreach := Machine.reach_of_restrict hs
  have hi := eq_returned_of_returned? hr
  have hj := eq_returned_of_returned? hr'
  refine ⟨s, r, r', hreach, hi, hj, ?_⟩
  refine unchanged_endpoint_keeps_transport hreach (v := 0) (e := endpointA) (fun u _ hu => ?_) hi hj (Nat.zero_le _)
    (Nat.zero_le _) rfl rfl
  rw [hpublished] at hu ⊢
  match u, hu with
  | 0, _ => exact ⟨_, rfl, List.mem_cons_self⟩
  | 1, _ => exact ⟨_, rfl, List.mem_cons_self⟩

/-- 古い一覧を読んだ呼び出しが遅れて断面を作り直すと、後の一覧にずっと含まれる接続先の輸送路が作り直される。 -/
theorem delayed_rebuild_replaces_transport :
    ∃ (s : Routing.State (Fin 3)) (r r' : RoutingSnapshot),
      (routing (Fin 3) plainRouting).Reachable s ∧ s.published = [[endpointA], [endpointA, endpointB]] ∧
        s.pc 1 = .returned ⟨1, [endpointA, endpointB]⟩ r ∧ s.pc 2 = .returned ⟨1, [endpointA, endpointB]⟩ r' ∧
        r.transports[1]?.map (·.id) = some 1 ∧ r'.transports[1]?.map (·.id) = some 2 := by
  obtain ⟨s, hs, hp⟩ := Machine.exists_reachable_of_exec (M := routing (Fin 3) plainRouting) (s := .initial)
    ([.publish [endpointA], .readDiscovery 0, .publish [endpointA, endpointB], .readDiscovery 1] ++
      rebuilds 1 ⟨1, [endpointA, endpointB]⟩ ++ rebuilds 0 ⟨0, [endpointA]⟩ ++ [.readDiscovery 2] ++
      rebuilds 2 ⟨1, [endpointA, endpointB]⟩)
    (fun s => s.published = [[endpointA], [endpointA, endpointB]] ∧
      (returned? (s.pc 1)).map (fun x => (x.1, x.2.transports[1]?.map (·.id))) =
        some (⟨1, [endpointA, endpointB]⟩, some 1) ∧
      (returned? (s.pc 2)).map (fun x => (x.1, x.2.transports[1]?.map (·.id))) =
        some (⟨1, [endpointA, endpointB]⟩, some 2)) (.init rfl) (by decide)
  obtain ⟨hpublished, h1, h2⟩ := of_decide_eq_true hp
  obtain ⟨⟨_, r⟩, hr, heq⟩ := Option.map_eq_some_iff.mp h1
  obtain ⟨⟨_, r'⟩, hr', heq'⟩ := Option.map_eq_some_iff.mp h2
  obtain ⟨rfl, hid⟩ := Prod.mk.inj heq
  obtain ⟨rfl, hid'⟩ := Prod.mk.inj heq'
  exact ⟨s, r, r', hs, hpublished, eq_returned_of_returned? hr, eq_returned_of_returned? hr', hid, hid'⟩

end

end Xrpc.Client
