import Xrpc.Naming.ConsulDiscovery
import Xrpc.Naming.Lemmas.Canonical

/-!
# Consul による一覧の更新
-/

namespace Xrpc.Naming
open Xrpc.Lib Xrpc.Protocol

/-! ## 項目 -/

theorem parseAddress_eq_ok {fields : List (Bytes × Json)} {message : String} {host : Bytes}
    (h : parseAddress fields message = .ok host) : host = addressOf fields := by
  rw [parseAddress] at h
  rw [addressOf]
  split at h
  next hnone => cases h; rw [hnone]
  next address hsome => cases h; rw [hsome]
  next => cases h

theorem parseHost_eq_ok {service node : List (Bytes × Json)} {host : Bytes} (h : parseHost service node = .ok host) :
    host = if addressOf service ≠ [] then addressOf service else addressOf node := by
  rw [parseHost] at h
  split at h
  next => cases h
  next address hservice =>
    rw [← parseAddress_eq_ok hservice]
    split at h
    next hempty => rw [parseAddress_eq_ok h, if_neg (not_not.mpr (List.isEmpty_iff.mp hempty))]
    next hempty => cases h; rw [if_pos (by simpa using hempty)]

/-- 使える番号は、書いてある番号である。 -/
theorem parseServicePort_eq_ok {service : List (Bytes × Json)} {n : Int} (h : parseServicePort service = .ok n)
    (port : UInt16) (hpos : 0 < port) : n = port.toNat ↔ portOf service = some (port.toNat : Int) := by
  have hlt := port.toNat_lt
  have hport : 0 < port.toNat := UInt16.lt_iff_toNat_lt.mp hpos
  rw [parseServicePort] at h
  rw [portOf]
  split at h
  next m hm =>
    cases h
    simp only [Option.some.injEq]
    split
    next => rfl
    next hbig =>
      have : ¬ m.toNat ≤ 65535 := fun hle => hbig (UInt64.le_iff_toNat_le.mpr hle)
      omega
  next m hm =>
    cases h
    simp only [Option.some.injEq]
  next => cases h

/-- 読めた項目は、表す接続先があればそれを、なければ何も返さない。 -/
theorem parseEntry_eq_ok {entry : Json} {found : Option Endpoint} (h : parseEntry entry = .ok found) (endpoint : Endpoint) :
    found = some endpoint ↔ Advertises entry endpoint := by
  unfold parseEntry at h
  split at h
  next fields =>
    split at h
    next service node hservice hnode =>
      split at h
      next => cases h
      next host hhost =>
        split at h
        next => cases h
        next n hn =>
          have hhost' := parseHost_eq_ok hhost
          constructor
          · rintro rfl
            split at h
            next => cases h
            next hskip =>
              rw [not_or, not_or] at hskip
              cases h
              have htoNat : (UInt16.ofNat n.toNat).toNat = n.toNat := by rw [UInt16.toNat_ofNat']; omega
              have hpos : 0 < UInt16.ofNat n.toNat := UInt16.lt_iff_toNat_lt.mpr (by rw [htoNat]; show 0 < n.toNat; omega)
              refine ⟨fields, service, node, rfl, hservice, hnode, hhost', by simpa using hskip.1, ?_, hpos⟩
              exact (parseServicePort_eq_ok hn _ hpos).mp (by rw [htoNat]; omega)
          · rintro ⟨fields', service', node', hfields, hservice', hnode', heq, hne, hport, hpos⟩
            cases hfields
            rw [hservice] at hservice'
            rw [hnode] at hnode'
            cases hservice'
            cases hnode'
            have hn' := (parseServicePort_eq_ok hn _ hpos).mpr hport
            have hlt := endpoint.port.toNat_lt
            have hpos' : 0 < endpoint.port.toNat := UInt16.lt_iff_toNat_lt.mp hpos
            rw [← hhost'] at heq
            have hempty : ¬ host.isEmpty = true := by rw [← heq]; simpa using hne
            rw [if_neg (not_or.mpr ⟨hempty, by omega⟩)] at h
            cases h
            rw [hn', Int.toNat_natCast, UInt16.ofNat_toNat, ← heq]
    next => cases h
  next => cases h

theorem mem_parseEntries {entries : List Json} {endpoints result : List Endpoint}
    (h : parseEntries entries endpoints = .ok result) (endpoint : Endpoint) :
    endpoint ∈ result ↔ endpoint ∈ endpoints ∨ ∃ entry ∈ entries, Advertises entry endpoint := by
  induction entries generalizing endpoints with
  | nil => cases h; simp
  | cons entry entries ih =>
      rw [parseEntries] at h
      split at h
      next => cases h
      next hentry =>
        have hnone : ¬ Advertises entry endpoint := fun ha => by
          have := (parseEntry_eq_ok hentry endpoint).mpr ha
          cases this
        rw [ih h]
        simp [hnone]
      next found hentry =>
        have hfound := parseEntry_eq_ok hentry endpoint
        rw [Option.some.injEq, eq_comm] at hfound
        rw [ih h]
        simp [hfound, or_assoc]

/-- 読めた応答の一覧は、項目の表す接続先の正準な一覧である。 -/
theorem parseEndpoints_eq_ok {parse : Bytes → Option Json} {body : Bytes} {endpoints : List Endpoint}
    (h : parseEndpoints parse body = .ok endpoints) :
    ∃ entries, parse body = some (.array entries) ∧ Canonical endpoints ∧
      ∀ endpoint, endpoint ∈ endpoints ↔ ∃ entry ∈ entries, Advertises entry endpoint := by
  rw [parseEndpoints] at h
  split at h
  next entries hparse =>
    cases hentries : parseEntries entries [] with
    | error status => rw [hentries] at h; cases h
    | ok result =>
        rw [hentries] at h
        cases h
        refine ⟨entries, hparse, canonical_canonicalizeEndpoints result, fun endpoint => ?_⟩
        rw [mem_canonicalizeEndpoints, mem_parseEntries hentries]
        simp
  next => cases h

/-! ## 更新 -/

namespace ConsulDiscovery

variable {d : ConsulDiscovery} {parse : Bytes → Option Json} {useBlockingQuery : Bool}
  {get : Bytes → Except Status ConsulHttpResponse}

/-- 失敗した更新が変えるのは、最後の失敗だけである。 -/
theorem fetch_of_error {status : Status} (h : (d.fetch parse useBlockingQuery get).1 = .error status) :
    (d.fetch parse useBlockingQuery get).2 = d.setLastError status.message := by
  rw [fetch] at h ⊢
  split
  next status' hget =>
    rw [hget] at h
    cases h
    rfl
  next response hget =>
    simp only [hget] at h
    split at h
    next hcode => cases h; rw [if_pos hcode]
    next hcode =>
      rw [if_neg hcode]
      split at h
      next status' hparse => cases h; rfl
      next => cases h

/-- 成功した更新は、応答の一覧を置く。 -/
theorem fetch_of_ok (h : (d.fetch parse useBlockingQuery get).1 = .ok ()) :
    ∃ response endpoints, get (d.queryPath useBlockingQuery) = .ok response ∧ 200 ≤ response.statusCode ∧
      response.statusCode < 300 ∧ parseEndpoints parse response.body = .ok endpoints ∧
      (d.fetch parse useBlockingQuery get).2 = (d.setSnapshot endpoints (parseConsulIndex response)).setLastError [] := by
  rw [fetch] at h ⊢
  split at h
  next => cases h
  next response hget =>
    split at h
    next => cases h
    next hcode =>
      split at h
      next => cases h
      next endpoints hparse =>
        rw [not_or] at hcode
        refine ⟨response, endpoints, hget, by omega, by omega, hparse, ?_⟩
        rw [if_neg (by omega)]

theorem snapshot_setSnapshot (d : ConsulDiscovery) (endpoints : List Endpoint) (index : UInt64) :
    (d.setSnapshot endpoints index).snapshot = endpoints := by
  simp only [setSnapshot]
  split_ifs with hindex hne hne
  · rfl
  · exact not_not.mp hne
  · rfl
  · exact not_not.mp hne

/-- 一覧を置き換えるのは、異なるときに限る。 -/
theorem published_setSnapshot (d : ConsulDiscovery) (endpoints : List Endpoint) (index : UInt64) :
    (d.setSnapshot endpoints index).published = d.published ↔ d.snapshot = endpoints := by
  simp only [setSnapshot]
  split_ifs with hindex hne hne
  · simpa using hne
  · simpa using hne
  · simpa using hne
  · simpa using hne

theorem canonical_fetch (h : Canonical d.snapshot) : Canonical (d.fetch parse useBlockingQuery get).2.snapshot := by
  cases hresult : (d.fetch parse useBlockingQuery get).1 with
  | error status => rw [fetch_of_error hresult]; exact h
  | ok =>
      obtain ⟨response, endpoints, -, -, -, hparse, heq⟩ := fetch_of_ok hresult
      rw [heq]
      show Canonical (d.setSnapshot endpoints _).snapshot
      rw [snapshot_setSnapshot]
      exact (parseEndpoints_eq_ok hparse).choose_spec.2.1

theorem canonical_run (queries : List (Bool × (Bytes → Except Status ConsulHttpResponse))) (h : Canonical d.snapshot) :
    Canonical (d.run parse queries).snapshot := by
  induction queries generalizing d with
  | nil => exact h
  | cons query queries ih => exact ih (canonical_fetch h)

end ConsulDiscovery

end Xrpc.Naming
