import Mathlib

/-!
# 一致ハッシュの環

節点ごとに環の上の点がある。鍵から時計回りに見て最初の点を持つ節点が、その鍵を受け持つ。点の位置が重なるときは、節点の順で決める。
受け持つ節点は、節点の集合だけで決まり、ほかの節点の出入りでは変わらない。
-/

namespace Xrpc.Lib.HashRing

variable {η α : Type*} [LinearOrder η] [LinearOrder α]

/-- 鍵 `q` から時計回りに見た順。一周して戻った点は、鍵より先のどの点よりも後である。 -/
def clockwise (q : η) (x : η × α) : Bool ×ₗ η ×ₗ α := toLex (decide (x.1 < q), toLex x)

omit [LinearOrder α] in
theorem clockwise_injective (q : η) : Function.Injective (clockwise q : η × α → _) := by
  intro x y h
  exact (Prod.mk.inj h).2

/-- 一周して戻らない限り、位置と節点の順に従う。 -/
theorem clockwise_le_of_lex {q : η} {x y : η × α} (hle : toLex x ≤ toLex y) (hwrap : x.1 < q → y.1 < q) :
    clockwise q x ≤ clockwise q y := by
  rw [clockwise, clockwise, Prod.Lex.toLex_le_toLex]
  by_cases hx : x.1 < q
  · exact Or.inr ⟨by simp [hx, hwrap hx], hle⟩
  · by_cases hy : y.1 < q
    · exact Or.inl (by simp [hx, hy])
    · exact Or.inr ⟨by simp [hx, hy], hle⟩

theorem clockwise_le_of_wrap {q : η} {x y : η × α} (hx : q ≤ x.1) (hy : y.1 < q) : clockwise q x ≤ clockwise q y := by
  rw [clockwise, clockwise, Prod.Lex.toLex_le_toLex]
  exact Or.inl (by simp [not_lt.mpr hx, hy])

/-- 節点の名を順を保って付け替えても、時計回りの順は保たれる。 -/
theorem clockwise_le_of_mono {β : Type*} [LinearOrder β] {q h h' : η} {a b : α} {a' b' : β} (hmono : a ≤ b → a' ≤ b')
    (hle : clockwise q (h, a) ≤ clockwise q (h', b)) : clockwise q (h, a') ≤ clockwise q (h', b') := by
  simp only [clockwise, Prod.Lex.toLex_le_toLex] at hle ⊢
  rcases hle with hlt | ⟨hside, hlt | ⟨heq, hle⟩⟩
  · exact Or.inl hlt
  · exact Or.inr ⟨hside, Or.inl hlt⟩
  · exact Or.inr ⟨hside, Or.inr ⟨heq, hmono hle⟩⟩

/-! ## 受け持つ節点 -/

/-- 節点の集合 `nodes` の中で、`a` が鍵 `q` を受け持つ。`points a` は、`a` の点の位置である。 -/
def Owns (points : α → Set η) (nodes : Set α) (q : η) (a : α) : Prop :=
  a ∈ nodes ∧ ∃ h ∈ points a, ∀ b ∈ nodes, ∀ h' ∈ points b, clockwise q (h, a) ≤ clockwise q (h', b)

variable {points : α → Set η} {nodes nodes' : Set α} {q : η} {a b : α}

theorem Owns.unique (ha : Owns points nodes q a) (hb : Owns points nodes q b) : a = b := by
  obtain ⟨hamem, h, hh, hleast⟩ := ha
  obtain ⟨hbmem, h', hh', hleast'⟩ := hb
  have heq := clockwise_injective q (le_antisymm (hleast b hbmem h' hh') (hleast' a hamem h hh))
  exact (Prod.mk.inj heq).2

/-- ほかの節点がなくなっても、受け持つ節点は変わらない。 -/
theorem Owns.of_subset (ha : Owns points nodes q a) (hsub : nodes' ⊆ nodes) (hmem : a ∈ nodes') :
    Owns points nodes' q a := by
  obtain ⟨-, h, hh, hleast⟩ := ha
  exact ⟨hmem, h, hh, fun b hb => hleast b (hsub hb)⟩

/-- 節点が加わるとき、受け持つ節点が変わるなら、加わった節点になる。 -/
theorem Owns.of_insert (ha : Owns points (insert b nodes) q a) : a = b ∨ Owns points nodes q a := by
  rcases ha.1 with rfl | hmem
  · exact Or.inl rfl
  · exact Or.inr (ha.of_subset (Set.subset_insert b nodes) hmem)

/-! ## 並べた点の上の探索 -/

/-- 鍵以上の最初の点。なければ、一周して先頭の点。 -/
def first (q : η) (ring : List (η × α)) : Option (η × α) := (ring.find? fun x => decide (q ≤ x.1)).or ring.head?

theorem lex_le_of_pairwise_cons {x y : η × α} {rest : List (η × α)}
    (h : (x :: rest).Pairwise fun x y => toLex x ≤ toLex y) (hy : y ∈ x :: rest) : toLex x ≤ toLex y := by
  rcases List.mem_cons.mp hy with rfl | hy
  · exact le_rfl
  · exact List.rel_of_pairwise_cons h hy

theorem first_least {ring : List (η × α)} {x : η × α} (hsorted : ring.Pairwise fun x y => toLex x ≤ toLex y)
    (h : first q ring = some x) : x ∈ ring ∧ ∀ y ∈ ring, clockwise q x ≤ clockwise q y := by
  cases hfind : ring.find? fun x => decide (q ≤ x.1) with
  | some z =>
      rw [first, hfind, Option.some_or] at h
      cases h
      obtain ⟨hahead, before, after, rfl, hbefore⟩ := List.find?_eq_some_iff_append.mp hfind
      have hx : q ≤ x.1 := of_decide_eq_true hahead
      refine ⟨by simp, fun y hy => ?_⟩
      rcases List.mem_append.mp hy with hy | hy
      · -- 手前の点は、すべて鍵より小さい。
        exact clockwise_le_of_wrap hx (by simpa using hbefore y hy)
      · have hle := lex_le_of_pairwise_cons (List.pairwise_append.mp hsorted).2.1 hy
        exact clockwise_le_of_lex hle (fun h => absurd h (not_lt.mpr hx))
  | none =>
      rw [first, hfind, Option.none_or] at h
      have hbehind : ∀ y ∈ ring, y.1 < q := by simpa using hfind
      cases ring with
      | nil => cases h
      | cons z rest =>
          cases h
          refine ⟨List.mem_cons_self, fun y hy => ?_⟩
          exact clockwise_le_of_lex (lex_le_of_pairwise_cons hsorted hy) (fun _ => hbehind y hy)

omit [LinearOrder α] in
theorem first_isSome {ring : List (η × α)} (h : ring ≠ []) : ∃ x, first q ring = some x := by
  rw [← Option.isSome_iff_exists, first, Option.isSome_or]
  cases ring with
  | nil => exact absurd rfl h
  | cons => simp

end Xrpc.Lib.HashRing
