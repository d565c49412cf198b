import Xrpc.Client.Lemmas.StickyRing

/-!
# 経路の断面の不変条件
-/

namespace Xrpc.Client
open Xrpc.Lib Xrpc.Naming Function

/-! ## 輸送路の組み立て -/

/-- 一つの断面の輸送路と環は、その一覧に揃っている。 -/
structure RoutingSnapshot.Coherent (hash : Bytes → UInt64) (r : RoutingSnapshot) : Prop where
  length_eq : r.transports.length = r.endpoints.endpoints.length
  aligned : ∀ {index : Nat} {e : Endpoint}, r.endpoints.endpoints[index]? = some e →
    ∃ t, r.transports[index]? = some t ∧ t.host = e.host ∧ t.port = e.port
  ring_eq : r.hashRing = buildHashRing hash r.endpoints.endpoints

section

variable {hash : Bytes → UInt64} {config : TransportConfig} {current : Option RoutingSnapshot} {r : RoutingSnapshot}
  {e : Endpoint}

/-- 一覧にある接続先の輸送路は、最初の位置の輸送路である。 -/
theorem RoutingSnapshot.Coherent.find_of_mem (h : r.Coherent hash) (he : e ∈ r.endpoints.endpoints) :
    ∃ t, findReusableTransport (some r) e = some t ∧ t.host = e.host ∧ t.port = e.port := by
  cases hindex : r.endpoints.endpoints.findIdx? (· = e) with
  | none => simpa using (List.findIdx?_eq_none_iff.mp hindex) e he
  | some index =>
      obtain ⟨hlt, heq, -⟩ := List.findIdx?_eq_some_iff_getElem.mp hindex
      have hget : r.endpoints.endpoints[index]? = some e := by
        rw [List.getElem?_eq_getElem hlt, of_decide_eq_true heq]
      obtain ⟨t, ht, hhost⟩ := h.aligned hget
      exact ⟨t, by simp only [findReusableTransport, hindex, ht], hhost⟩

theorem mem_of_findReusableTransport {t : TcpTransport} (h : findReusableTransport (some r) e = some t) :
    e ∈ r.endpoints.endpoints := by
  simp only [findReusableTransport] at h
  split at h
  · cases h
  · rename_i index hindex
    obtain ⟨hlt, heq, -⟩ := List.findIdx?_eq_some_iff_getElem.mp hindex
    exact of_decide_eq_true heq ▸ List.getElem_mem hlt

/-- 重複のない一覧では、どの位置の輸送路も、その接続先の輸送路である。 -/
theorem findReusableTransport_of_getElem? (h : r.endpoints.endpoints.Nodup) {index : Nat}
    (hindex : r.endpoints.endpoints[index]? = some e) : findReusableTransport (some r) e = r.transports[index]? := by
  have hfind : r.endpoints.endpoints.findIdx? (· = e) = some index := by
    obtain ⟨hlt, heq⟩ := List.getElem?_eq_some_iff.mp hindex
    refine List.findIdx?_eq_some_iff_getElem.mpr ⟨hlt, decide_eq_true heq, fun j hj => ?_⟩
    have hne : r.endpoints.endpoints[j] ≠ e := fun hej =>
      absurd ((List.Nodup.getElem_inj_iff h).mp (hej.trans heq.symm)) (Nat.ne_of_lt hj)
    simpa using hne
  simp only [findReusableTransport, hfind]

/-- 使い続けられる輸送路は使い続け、ほかはその接続先への輸送路を作る。 -/
theorem buildTransports_spec (config : TransportConfig) (current : Option RoutingSnapshot) (endpoints : List Endpoint)
    (nextTransport : TransportId) :
    (buildTransports config current nextTransport endpoints).1.length = endpoints.length ∧
      ∀ {index : Nat} {e : Endpoint}, endpoints[index]? = some e →
        ∃ t, (buildTransports config current nextTransport endpoints).1[index]? = some t ∧
          (findReusableTransport current e = some t ∨
            findReusableTransport current e = none ∧ t.host = e.host ∧ t.port = e.port) := by
  induction endpoints generalizing nextTransport with
  | nil => exact ⟨rfl, fun h => by simp at h⟩
  | cons endpoint rest ih =>
      simp only [buildTransports]
      cases hfind : findReusableTransport current endpoint with
      | some transport =>
          obtain ⟨hlen, hget⟩ := ih nextTransport
          refine ⟨congrArg (· + 1) hlen, fun {index e} hindex => ?_⟩
          cases index with
          | zero =>
              cases hindex
              exact ⟨transport, rfl, Or.inl hfind⟩
          | succ index => exact hget hindex
      | none =>
          obtain ⟨hlen, hget⟩ := ih (nextTransport + 1)
          refine ⟨congrArg (· + 1) hlen, fun {index e} hindex => ?_⟩
          cases index with
          | zero =>
              cases hindex
              exact ⟨_, rfl, Or.inr ⟨hfind, rfl, rfl⟩⟩
          | succ index => exact hget hindex

end

namespace Routing

variable {ρ : Type} [DecidableEq ρ] {cfg : Config} {s : State ρ} {i : ρ} {pc : ResolvePc} {d : DiscoverySnapshot}
  {r : RoutingSnapshot} {current : Option RoutingSnapshot}

/-! ## 断面の整合 -/

/-- 呼び出しが読んだ一覧。 -/
def ResolvePc.discovered? : ResolvePc → Option DiscoverySnapshot
  | .discovered d | .waiting d | .locked d | .rebuilding d _ | .returned d _ => some d
  | .idle | .noEndpoints | .failed _ => none

/-- 呼び出しが手元に持つ断面。 -/
def ResolvePc.snapshot? : ResolvePc → Option RoutingSnapshot
  | .rebuilding _ current => current
  | .returned _ snapshot => some snapshot
  | _ => none

theorem ResolvePc.eq_rebuilding (h : pc.rebuilding? = some d) : pc = .rebuilding d pc.current := by
  cases pc with
  | rebuilding d' current =>
      cases h
      rfl
  | _ => cases h

/-- 公表された、空でない一覧への参照である。 -/
def State.Knows (s : State ρ) (d : DiscoverySnapshot) : Prop :=
  s.published[d.version]? = some d.endpoints ∧ d.endpoints ≠ []

def State.Routes (s : State ρ) (cfg : Config) (r : RoutingSnapshot) : Prop :=
  s.Knows r.endpoints ∧ r.Coherent cfg.hash

omit [DecidableEq ρ] in
/-- 同じ番号の参照は、同じ一覧を指す。 -/
theorem State.Knows.eq {d' : DiscoverySnapshot} (h : s.Knows d) (h' : s.Knows d') (hversion : d.version = d'.version) :
    d = d' := by
  have heq := h.1
  rw [hversion, h'.1] at heq
  cases d
  cases d'
  cases hversion
  cases heq
  rfl

structure Inv (cfg : Config) (s : State ρ) : Prop where
  canonical : ∀ endpoints ∈ s.published, Canonical endpoints
  known : ∀ i d, (s.pc i).discovered? = some d → s.Knows d
  routed : ∀ r, s.routingSnapshot = some r → s.Routes cfg r
  held : ∀ i r, (s.pc i).snapshot? = some r → s.Routes cfg r
  returned : ∀ i d r, s.pc i = .returned d r → r.endpoints = d

namespace Inv

theorem setPc (h : Inv cfg s) (i : ρ) (hknown : ∀ d, pc.discovered? = some d → s.Knows d)
    (hheld : ∀ r, pc.snapshot? = some r → s.Routes cfg r) (hreturned : ∀ d r, pc = .returned d r → r.endpoints = d) :
    Inv cfg (s.setPc i pc) where
  canonical := h.canonical
  known j d hj := by
    by_cases hji : j = i
    · subst hji
      exact hknown d (by simpa [State.setPc] using hj)
    · exact h.known j d (by simpa [State.setPc, update_of_ne hji] using hj)
  routed := h.routed
  held j r hj := by
    by_cases hji : j = i
    · subst hji
      exact hheld r (by simpa [State.setPc] using hj)
    · exact h.held j r (by simpa [State.setPc, update_of_ne hji] using hj)
  returned j d r hj := by
    by_cases hji : j = i
    · subst hji
      exact hreturned d r (by simpa [State.setPc] using hj)
    · exact h.returned j d r (by simpa [State.setPc, update_of_ne hji] using hj)

/-- 断面を返さずに、読んだ一覧を持って進む。 -/
theorem advance (h : Inv cfg s) (i : ρ) (hknown : ∀ d, pc.discovered? = some d → s.Knows d) (hheld : pc.snapshot? = none)
    (hreturned : ∀ d r, pc ≠ .returned d r) : Inv cfg (s.setPc i pc) :=
  h.setPc i hknown (fun r hr => by rw [hheld] at hr; cases hr) (fun d r hr => absurd hr (hreturned d r))

omit [DecidableEq ρ] in
theorem publish (h : Inv cfg s) (endpoints : List Endpoint) :
    Inv cfg { s with published := s.published ++ [canonicalizeEndpoints endpoints] } := by
  have hknows : ∀ d, s.Knows d →
      ({ s with published := s.published ++ [canonicalizeEndpoints endpoints] } : State ρ).Knows d := by
    intro d hd
    have hlt := (List.getElem?_eq_some_iff.mp hd.1).1
    exact ⟨(List.getElem?_append_left hlt).trans hd.1, hd.2⟩
  have hroutes : ∀ r, s.Routes cfg r →
      ({ s with published := s.published ++ [canonicalizeEndpoints endpoints] } : State ρ).Routes cfg r :=
    fun r hr => ⟨hknows _ hr.1, hr.2⟩
  refine ⟨fun es hes => ?_, fun i d hd => hknows d (h.known i d hd), fun r hr => hroutes r (h.routed r hr),
    fun i r hr => hroutes r (h.held i r hr), h.returned⟩
  rcases List.mem_append.mp hes with hes | hes
  · exact h.canonical es hes
  · rw [List.mem_singleton.mp hes]
    exact canonical_canonicalizeEndpoints endpoints

end Inv

omit [DecidableEq ρ] in
theorem knows_snapshot (h : s.snapshot = some d) (hne : d.endpoints.isEmpty = false) : s.Knows d := by
  obtain ⟨endpoints, hlast, rfl⟩ := Option.map_eq_some_iff.mp h
  refine ⟨?_, List.isEmpty_eq_false_iff.mp hne⟩
  rw [← hlast, List.getLast?_eq_getElem?]

omit [DecidableEq ρ] in
theorem upToDate_eq_some (h : s.upToDate d = some r) : s.routingSnapshot = some r ∧ r.endpoints.version = d.version := by
  obtain ⟨hsome, hversion⟩ := Option.filter_eq_some_iff.mp h
  exact ⟨hsome, of_decide_eq_true hversion⟩

/-- 作り直した断面。 -/
def State.rebuilt (s : State ρ) (cfg : Config) (d : DiscoverySnapshot) (current : Option RoutingSnapshot) :
    RoutingSnapshot where
  endpoints := d
  transports := (buildTransports cfg.transport current s.nextTransport d.endpoints).1
  hashRing := buildHashRing cfg.hash d.endpoints

omit [DecidableEq ρ] in
theorem routes_rebuilt (h : Inv cfg s) (hpc : s.pc i = .rebuilding d current) :
    s.Routes cfg (s.rebuilt cfg d current) := by
  obtain ⟨hlen, hget⟩ := buildTransports_spec cfg.transport current d.endpoints s.nextTransport
  refine ⟨h.known i d (by rw [hpc]; rfl), hlen, fun {index e} hindex => ?_, rfl⟩
  obtain ⟨t, ht, hfind | ⟨-, hhost⟩⟩ := hget hindex
  · cases current with
    | none => cases hfind
    | some current =>
        have hcoherent := (h.held i current (by rw [hpc]; rfl)).2
        obtain ⟨t', hfind', hhost⟩ := hcoherent.find_of_mem (mem_of_findReusableTransport hfind)
        rw [hfind] at hfind'
        cases hfind'
        exact ⟨t, ht, hhost⟩
  · exact ⟨t, ht, hhost⟩

/-- 今の断面が読んだ一覧から作られていれば、その断面を返す。 -/
theorem Inv.returnCurrent (h : Inv cfg s) (hd : s.Knows d) (hcurrent : s.upToDate d = some r) :
    Inv cfg (s.setPc i (.returned d r)) := by
  obtain ⟨hsome, hversion⟩ := upToDate_eq_some hcurrent
  have hroutes := h.routed r hsome
  refine h.setPc i (fun d' hd' => ?_) (fun r' hr' => ?_) (fun d' r' heq => ?_)
  · cases hd'
    exact hd
  · cases hr'
    exact hroutes
  · cases heq
    exact hroutes.1.eq hd hversion

theorem Inv.next (h : Inv cfg s) {a : Act ρ} (henabled : enabled s a) : Inv cfg (next cfg s a) := by
  cases a with
  | publish endpoints => exact h.publish endpoints
  | readDiscovery i =>
      simp only [Routing.next]
      cases hsnapshot : s.snapshot with
      | none => exact h.advance i nofun rfl nofun
      | some d =>
          dsimp only
          split_ifs with hempty
          · exact h.advance i nofun rfl nofun
          · refine h.advance i (fun d' hd' => ?_) rfl nofun
            cases hd'
            exact knows_snapshot hsnapshot (Bool.eq_false_iff.mpr hempty)
  | readLastError i lastError => exact h.advance i nofun rfl nofun
  | loadShared i d =>
      have hd : s.Knows d := h.known i d (by rw [show s.pc i = .discovered d from henabled]; rfl)
      simp only [Routing.next]
      cases hcurrent : s.upToDate d with
      | some r => exact h.returnCurrent hd hcurrent
      | none =>
          refine h.advance i (fun d' hd' => ?_) rfl nofun
          cases hd'
          exact hd
  | lock i d =>
      have hd : s.Knows d := h.known i d (by rw [show s.pc i = .waiting d from henabled.1]; rfl)
      have hadvance : Inv cfg (s.setPc i (.locked d)) := h.advance i (fun d' hd' => by cases hd'; exact hd) rfl nofun
      exact ⟨hadvance.canonical, hadvance.known, hadvance.routed, hadvance.held, hadvance.returned⟩
  | loadLocked i d =>
      have hd : s.Knows d := h.known i d (by rw [show s.pc i = .locked d from henabled]; rfl)
      simp only [Routing.next]
      cases hcurrent : s.upToDate d with
      | some r =>
          have hreturn : Inv cfg (s.setPc i (.returned d r)) := h.returnCurrent hd hcurrent
          exact ⟨hreturn.canonical, hreturn.known, hreturn.routed, hreturn.held, hreturn.returned⟩
      | none =>
          refine h.setPc i (fun d' hd' => ?_) (fun r hr => h.routed r hr) nofun
          cases hd'
          exact hd
  | store i d =>
      have hroutes := routes_rebuilt h (ResolvePc.eq_rebuilding henabled)
      have hreturn : Inv cfg (s.setPc i (.returned d (s.rebuilt cfg d (s.pc i).current))) :=
        h.setPc i (fun d' hd' => by cases hd'; exact hroutes.1) (fun r' hr' => by cases hr'; exact hroutes)
          (fun d' r' heq => by cases heq; rfl)
      exact ⟨hreturn.canonical, hreturn.known, fun r hr => by cases hr; exact hroutes, hreturn.held, hreturn.returned⟩

theorem reachable_inv (h : (routing ρ cfg).Reachable s) : Inv cfg s := by
  refine h.invariant (I := Inv cfg) ?_ fun t a _ ht henabled _ => ht.next henabled
  rintro _ rfl
  exact ⟨nofun, nofun, nofun, nofun, nofun⟩

/-! ## 作り直しの直列化 -/

/-- `routing_update_mutex_` を握る位置。 -/
def ResolvePc.holdsMutex : ResolvePc → Bool
  | .locked _ | .rebuilding _ _ => true
  | _ => false

/-- 作り直しの間、断面はほかの呼び出しに置き換えられない。 -/
structure Serialized (s : State ρ) : Prop where
  guarded : ∀ i, (s.pc i).holdsMutex = true → s.routingUpdateMutex = some i
  current_eq : ∀ i d current, s.pc i = .rebuilding d current → current = s.routingSnapshot

theorem Serialized.setPc (h : Serialized s) {mutex : Option ρ} {snapshot : Option RoutingSnapshot} {n : TransportId}
    (hself : pc.holdsMutex = true → mutex = some i)
    (hother : ∀ j, j ≠ i → (s.pc j).holdsMutex = true → mutex = some j ∧ snapshot = s.routingSnapshot)
    (hcurrent : ∀ d current, pc = .rebuilding d current → current = snapshot) :
    Serialized { s.setPc i pc with routingSnapshot := snapshot, routingUpdateMutex := mutex, nextTransport := n } := by
  refine ⟨fun j hj => ?_, fun j d current hj => ?_⟩
  · by_cases hji : j = i
    · subst hji
      exact hself (by simpa [State.setPc] using hj)
    · exact (hother j hji (by simpa [State.setPc, update_of_ne hji] using hj)).1
  · by_cases hji : j = i
    · subst hji
      exact hcurrent d current (by simpa [State.setPc] using hj)
    · have hpc : s.pc j = .rebuilding d current := by simpa [State.setPc, update_of_ne hji] using hj
      exact (h.current_eq j d current hpc).trans (hother j hji (by rw [hpc]; rfl)).2.symm

/-- 排他の外での移動。 -/
theorem Serialized.outside (h : Serialized s) (hpc : pc.holdsMutex = false) : Serialized (s.setPc i pc) := by
  refine h.setPc (fun hself => ?_) (fun j _ hj => ⟨h.guarded j hj, rfl⟩) (fun d current heq => ?_)
  · rw [hpc] at hself
    cases hself
  · rw [heq] at hpc
    cases hpc

/-- 排他の中からの移動。ほかに排他の中にいる者はない。 -/
theorem Serialized.inside (h : Serialized s) {mutex : Option ρ} {snapshot : Option RoutingSnapshot} {n : TransportId}
    (hi : (s.pc i).holdsMutex = true) (hself : pc.holdsMutex = true → mutex = some i)
    (hcurrent : ∀ d current, pc = .rebuilding d current → current = snapshot) :
    Serialized { s.setPc i pc with routingSnapshot := snapshot, routingUpdateMutex := mutex, nextTransport := n } := by
  refine h.setPc hself (fun j hji hj => ?_) hcurrent
  have hown := h.guarded j hj
  rw [h.guarded i hi] at hown
  exact absurd (Option.some.inj hown).symm hji

theorem Serialized.next (h : Serialized s) {a : Act ρ} (henabled : enabled s a) : Serialized (next cfg s a) := by
  cases a with
  | publish endpoints => exact ⟨h.guarded, h.current_eq⟩
  | readDiscovery i =>
      simp only [Routing.next]
      cases s.snapshot with
      | none => exact h.outside rfl
      | some d =>
          dsimp only
          split_ifs
          · exact h.outside rfl
          · exact h.outside rfl
  | readLastError i lastError => exact h.outside rfl
  | loadShared i d =>
      simp only [Routing.next]
      cases s.upToDate d with
      | some r => exact h.outside rfl
      | none => exact h.outside rfl
  | lock i d =>
      refine h.setPc (fun _ => rfl) (fun j _ hj => ?_) nofun
      have hown := h.guarded j hj
      rw [henabled.2] at hown
      cases hown
  | loadLocked i d =>
      have hi : (s.pc i).holdsMutex = true := by rw [show s.pc i = .locked d from henabled]; rfl
      simp only [Routing.next]
      cases s.upToDate d with
      | some r => exact h.inside hi nofun nofun
      | none =>
          refine h.inside hi (fun _ => h.guarded i hi) fun d' current heq => ?_
          cases heq
          rfl
  | store i d =>
      have hi : (s.pc i).holdsMutex = true := by rw [ResolvePc.eq_rebuilding henabled]; rfl
      exact h.inside hi nofun nofun

theorem reachable_serialized (h : (routing ρ cfg).Reachable s) : Serialized s := by
  refine h.invariant (I := Serialized) ?_ fun t a _ ht henabled _ => ht.next henabled
  rintro _ rfl
  exact ⟨nofun, nofun⟩

/-! ## 輸送路の引き継ぎ -/

/-- 断面 `r` の一覧から断面 `c` の一覧まで、ずっと含まれる接続先の輸送路は、同じ実体である。 -/
def Carries (published : List (List Endpoint)) (r c : RoutingSnapshot) : Prop :=
  r.endpoints.version ≤ c.endpoints.version ∧
    ∀ e, (∀ v, r.endpoints.version ≤ v → v ≤ c.endpoints.version → ∃ es, published[v]? = some es ∧ e ∈ es) →
      findReusableTransport (some r) e = findReusableTransport (some c) e

omit [DecidableEq ρ] in
theorem Inv.nodup (h : Inv cfg s) (hd : s.Knows d) : d.endpoints.Nodup :=
  (h.canonical _ (List.mem_of_getElem? hd.1)).nodup

omit [DecidableEq ρ] in
/-- 前の断面と読んだ一覧の両方にある接続先は、作り直した断面でも同じ輸送路を持つ。 -/
theorem find_rebuilt (h : Inv cfg s) (hpc : s.pc i = .rebuilding d (some r)) {e : Endpoint}
    (hr : e ∈ r.endpoints.endpoints) (hd : e ∈ d.endpoints) :
    findReusableTransport (some (s.rebuilt cfg d (some r))) e = findReusableTransport (some r) e := by
  obtain ⟨index, hindex⟩ := List.mem_iff_getElem?.mp hd
  obtain ⟨t', hfind', -⟩ := (h.held i r (by rw [hpc]; rfl)).2.find_of_mem hr
  obtain ⟨t, ht, hfind | ⟨hnone, -⟩⟩ :=
    (buildTransports_spec cfg.transport (some r) d.endpoints s.nextTransport).2 hindex
  · rw [findReusableTransport_of_getElem? (r := s.rebuilt cfg d (some r))
      (h.nodup (h.known i d (by rw [hpc]; rfl))) hindex, hfind]
    exact ht
  · rw [hfind'] at hnone
    cases hnone

/-- 返した断面は、今の断面に引き継がれている。 -/
def Carried (s : State ρ) : Prop :=
  ∀ i d r, s.pc i = .returned d r → ∃ c, s.routingSnapshot = some c ∧ Carries s.published r c

theorem Carried.setPc (h : Carried s) (i : ρ)
    (hpc : ∀ d r, pc = .returned d r → ∃ c, s.routingSnapshot = some c ∧ Carries s.published r c) :
    Carried (s.setPc i pc) := by
  intro j d r hj
  by_cases hji : j = i
  · subst hji
    exact hpc d r (by simpa [State.setPc] using hj)
  · exact h j d r (by simpa [State.setPc, update_of_ne hji] using hj)

theorem Carried.returnCurrent (h : Carried s) (hcurrent : s.upToDate d = some r) :
    Carried (s.setPc i (.returned d r)) := by
  refine h.setPc i fun d' r' heq => ?_
  cases heq
  exact ⟨r, (upToDate_eq_some hcurrent).1, le_rfl, fun _ _ => rfl⟩

omit [DecidableEq ρ] in
theorem Carried.publish (h : Carried s) (hinv : Inv cfg s) (endpoints : List Endpoint) :
    Carried { s with published := s.published ++ [endpoints] } := by
  intro i d r hpc
  obtain ⟨c, hc, hle, hfind⟩ := h i d r hpc
  refine ⟨c, hc, hle, fun e he => hfind e fun v hrv hvc => ?_⟩
  have hlt : v < s.published.length :=
    Nat.lt_of_le_of_lt hvc (List.getElem?_eq_some_iff.mp (hinv.routed c hc).1.1).1
  obtain ⟨es, hes, hmem⟩ := he v hrv hvc
  exact ⟨es, by rwa [List.getElem?_append_left hlt] at hes, hmem⟩

/-- 古い一覧からの作り直しでなければ、それまでに返した断面は、作り直した断面に引き継がれる。 -/
theorem Carried.store (h : Carried s) (hinv : Inv cfg s) (hserialized : Serialized s)
    (henabled : (s.pc i).rebuilding? = some d)
    (hforward : ∀ c, s.routingSnapshot = some c → c.endpoints.version ≤ d.version) :
    Carried (next cfg s (.store i d)) := by
  have hpc := ResolvePc.eq_rebuilding henabled
  intro j d' r hj
  refine ⟨s.rebuilt cfg d (s.pc i).current, rfl, ?_⟩
  by_cases hji : j = i
  · subst hji
    have heq : .returned d (s.rebuilt cfg d (s.pc j).current) = ResolvePc.returned d' r := by
      simpa [next, State.setPc, State.rebuilt] using hj
    cases heq
    exact ⟨le_rfl, fun _ _ => rfl⟩
  · obtain ⟨c, hc, hle, hfind⟩ := h j d' r (by simpa [next, State.setPc, update_of_ne hji] using hj)
    have hcurrent := hserialized.current_eq i d _ hpc
    rw [hc] at hcurrent
    rw [hcurrent] at hpc ⊢
    have hnewer := hforward c hc
    refine ⟨hle.trans hnewer, fun e he => ?_⟩
    have hmem : ∀ d', s.Knows d' → r.endpoints.version ≤ d'.version → d'.version ≤ d.version → e ∈ d'.endpoints := by
      intro d' hd' hlow hhigh
      obtain ⟨es, hes, hmem⟩ := he d'.version hlow hhigh
      rw [show (next cfg s (.store i d)).published = s.published from rfl, hd'.1] at hes
      cases hes
      exact hmem
    have hc' := hmem c.endpoints (hinv.routed c hc).1 hle hnewer
    have hd' := hmem d (hinv.known i d (by rw [hpc]; rfl)) (hle.trans hnewer) le_rfl
    rw [find_rebuilt hinv hpc hc' hd']
    exact hfind e fun v hlow hhigh => he v hlow (hhigh.trans hnewer)

theorem reach_carried (h : (routing ρ cfg).Reach Forward s) : Carried s := by
  refine h.invariant (I := Carried) ?_ fun t a ht hcarried henabled hforward => ?_
  · rintro _ rfl
    exact nofun
  have hinv := reachable_inv ht.reachable
  cases a with
  | publish endpoints => exact hcarried.publish hinv _
  | readDiscovery i =>
      simp only [routing, next]
      cases t.snapshot with
      | none => exact hcarried.setPc i nofun
      | some d =>
          dsimp only
          split_ifs
          · exact hcarried.setPc i nofun
          · exact hcarried.setPc i nofun
  | readLastError i lastError => exact hcarried.setPc i nofun
  | loadShared i d =>
      simp only [routing, next]
      cases hcurrent : t.upToDate d with
      | some r => exact hcarried.returnCurrent hcurrent
      | none => exact hcarried.setPc i nofun
  | lock i d => exact hcarried.setPc i nofun
  | loadLocked i d =>
      simp only [routing, next]
      cases hcurrent : t.upToDate d with
      | some r => exact hcarried.returnCurrent hcurrent
      | none => exact hcarried.setPc i nofun
  | store i d => exact hcarried.store hinv (reachable_serialized ht.reachable) henabled hforward

end Routing

end Xrpc.Client
