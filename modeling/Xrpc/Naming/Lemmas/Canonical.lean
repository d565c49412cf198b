import Xrpc.Naming.ServiceDiscovery

/-!
# 正準な一覧

`CanonicalizeEndpoints` の結果は、含む接続先の集合だけで決まる。
-/

namespace Xrpc.Naming
open scoped Xrpc.Lib.UIntOrder

variable {endpoints endpoints' : List Endpoint} {endpoint : Endpoint}

theorem mem_destutter_ne {l : List Endpoint} : endpoint ∈ l.destutter (· ≠ ·) ↔ endpoint ∈ l := by
  cases l with
  | nil => rfl
  | cons first rest =>
      rw [List.destutter_cons']
      induction rest generalizing first with
      | nil => rfl
      | cons next rest ih =>
          rw [List.destutter'_cons]
          split_ifs with hne
          · simp only [List.mem_cons, ih]
          · obtain rfl := not_not.mp hne
            rw [ih, List.mem_cons, List.mem_cons, List.mem_cons, or_self_left]

theorem mem_canonicalizeEndpoints : endpoint ∈ canonicalizeEndpoints endpoints ↔ endpoint ∈ endpoints := by
  rw [canonicalizeEndpoints, mem_destutter_ne, List.mem_insertionSort]

theorem canonical_canonicalizeEndpoints (endpoints : List Endpoint) : Canonical (canonicalizeEndpoints endpoints) := by
  have hsorted : (endpoints.insertionSort fun lhs rhs => rhs.before lhs = false).Pairwise (· ≤ ·) := by
    simp only [Endpoint.before_eq_false_iff]
    exact List.pairwise_insertionSort _ _
  have hchain := (hsorted.sublist (List.destutter_sublist (· ≠ ·) _)).isChain
  -- 隣り合う二つは、順に並び、異なる。
  have hne := List.isChain_destutter (· ≠ ·) (endpoints.insertionSort fun lhs rhs => rhs.before lhs = false)
  rw [List.isChain_iff_getElem] at hchain hne
  exact List.isChain_iff_pairwise.mp
    (List.isChain_iff_getElem.mpr fun i hi => lt_of_le_of_ne (hchain i hi) (hne i hi))

theorem Canonical.nodup (h : Canonical endpoints) : endpoints.Nodup := h.imp fun hlt => hlt.ne

/-- 同じ接続先を含む正準な一覧は等しい。 -/
theorem Canonical.ext (h : Canonical endpoints) (h' : Canonical endpoints')
    (hmem : ∀ endpoint, endpoint ∈ endpoints ↔ endpoint ∈ endpoints') : endpoints = endpoints' := by
  have hperm := (List.perm_ext_iff_of_nodup h.nodup h'.nodup).mpr hmem
  exact hperm.eq_of_pairwise (fun a b _ _ hab hba => absurd hab (lt_asymm hba)) h h'

theorem Canonical.filter (h : Canonical endpoints) (p : Endpoint → Bool) : Canonical (endpoints.filter p) :=
  h.sublist List.filter_sublist

/-- 添字の順は、住所の順である。 -/
theorem Canonical.index_lt_iff (h : Canonical endpoints) {i j : Nat} {e e' : Endpoint} (hi : endpoints[i]? = some e)
    (hj : endpoints[j]? = some e') : i < j ↔ e < e' := by
  have hlt : ∀ {i j : Nat} {e e' : Endpoint}, endpoints[i]? = some e → endpoints[j]? = some e' → i < j → e < e' := by
    intro i j e e' hi hj hij
    obtain ⟨hil, rfl⟩ := List.getElem?_eq_some_iff.mp hi
    obtain ⟨hjl, rfl⟩ := List.getElem?_eq_some_iff.mp hj
    exact List.pairwise_iff_getElem.mp h i j hil hjl hij
  refine ⟨hlt hi hj, fun hee => ?_⟩
  by_contra hij
  rcases Nat.eq_or_lt_of_le (Nat.le_of_not_lt hij) with rfl | hji
  · rw [hi] at hj
    cases hj
    exact lt_irrefl _ hee
  · exact lt_asymm hee (hlt hj hi hji)

end Xrpc.Naming
