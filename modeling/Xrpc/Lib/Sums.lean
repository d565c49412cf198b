import Mathlib

/-!
# 並びの上の和
-/

namespace Xrpc.Lib

variable {α : Type} {l : List α} {a : α} {f g : α → Nat}

/-- 一つの項だけが変わるとき、和はその項の差だけ変わる。 -/
theorem sum_map_change [DecidableEq α] (hl : l.Nodup) (ha : a ∈ l) (h : ∀ b, b ≠ a → g b = f b) :
    (l.map g).sum + f a = (l.map f).sum + g a := by
  have hrest : (l.erase a).map g = (l.erase a).map f :=
    List.map_congr_left fun b hb => h b ((List.Nodup.mem_erase_iff hl).mp hb).1
  rw [← List.sum_map_erase f ha, ← List.sum_map_erase g ha, hrest]
  omega

theorem le_sum_map (ha : a ∈ l) : f a ≤ (l.map f).sum := List.single_le_sum (by simp) _ (List.mem_map_of_mem ha)

/-- 残りの項が零なら、和は変わらない。 -/
theorem sum_map_subset [DecidableEq α] {m : List α} (hl : l.Nodup) (hm : m.Nodup) (hsub : l ⊆ m)
    (hzero : ∀ b ∈ m, b ∉ l → f b = 0) : (l.map f).sum = (m.map f).sum := by
  rw [← List.sum_toFinset f hl, ← List.sum_toFinset f hm]
  refine Finset.sum_subset (fun b hb => ?_) fun b hb hne => ?_
  · exact List.mem_toFinset.mpr (hsub (List.mem_toFinset.mp hb))
  · exact hzero b (List.mem_toFinset.mp hb) fun hmem => hne (List.mem_toFinset.mpr hmem)

theorem sum_map_ite_eq_countP (p : α → Prop) [DecidablePred p] (l : List α) :
    (l.map fun b => if p b then 0 else 1).sum = l.countP fun b => ¬ p b := by
  induction l with
  | nil => rfl
  | cons b rest ih =>
      rw [List.map_cons, List.sum_cons, List.countP_cons, ih]
      by_cases hb : p b <;> simp [hb, Nat.add_comm]

end Xrpc.Lib
