import Mathlib

/-!
# 相互排除
-/

namespace Xrpc.Lib
open Function

variable {ι μ : Type} [DecidableEq ι] [DecidableEq μ] {crit : ι → Bool} {home : ι → μ} {owner : μ → Option ι}

/-- 危険区域にいる者は自分のミューテックスを握っており、握っている者はその危険区域にいる。 -/
structure Guarded (crit : ι → Bool) (home : ι → μ) (owner : μ → Option ι) : Prop where
  owned : ∀ i, crit i → owner (home i) = some i
  inside : ∀ m i, owner m = some i → crit i ∧ home i = m

namespace Guarded

omit [DecidableEq ι] [DecidableEq μ] in
/-- 一つのミューテックスの危険区域には、高々一人しかいない。 -/
theorem unique (h : Guarded crit home owner) {i j : ι} (hi : crit i) (hj : crit j) (hhome : home i = home j) : i = j := by
  have hown := h.owned i hi
  rw [hhome, h.owned j hj] at hown
  exact (Option.some.inj hown).symm

omit [DecidableEq μ] in
/-- 危険区域への出入りのない移動。 -/
theorem keep (h : Guarded crit home owner) {i : ι} {b : Bool} (hi : crit i = b) :
    Guarded (update crit i b) home owner := by
  subst hi
  rw [update_eq_self]
  exact h

theorem acquire (h : Guarded crit home owner) {i : ι} (hfree : owner (home i) = none) :
    Guarded (update crit i true) home (update owner (home i) (some i)) := by
  constructor
  · intro j hj
    by_cases hij : j = i
    · subst hij; exact update_self _ _ _
    · rw [update_of_ne hij] at hj
      have hne : home j ≠ home i := by
        intro hhome
        have hown := h.owned j hj
        rw [hhome, hfree] at hown
        cases hown
      rw [update_of_ne hne]
      exact h.owned j hj
  · intro m j hown
    by_cases hm : m = home i
    · subst hm
      rw [update_self] at hown
      obtain rfl := Option.some.inj hown
      exact ⟨update_self _ _ _, rfl⟩
    · rw [update_of_ne hm] at hown
      obtain ⟨hcrit, hhome⟩ := h.inside m j hown
      have hij : j ≠ i := by rintro rfl; exact hm hhome.symm
      exact ⟨by rw [update_of_ne hij]; exact hcrit, hhome⟩

theorem release (h : Guarded crit home owner) {i : ι} (hi : crit i) :
    Guarded (update crit i false) home (update owner (home i) none) := by
  constructor
  · intro j hj
    by_cases hij : j = i
    · subst hij; simp at hj
    · rw [update_of_ne hij] at hj
      have hne : home j ≠ home i := fun hhome => hij (h.unique hj hi hhome)
      rw [update_of_ne hne]
      exact h.owned j hj
  · intro m j hown
    by_cases hm : m = home i
    · subst hm
      rw [update_self] at hown
      cases hown
    · rw [update_of_ne hm] at hown
      obtain ⟨hcrit, hhome⟩ := h.inside m j hown
      have hij : j ≠ i := by rintro rfl; exact hm hhome.symm
      exact ⟨by rw [update_of_ne hij]; exact hcrit, hhome⟩

end Guarded

end Xrpc.Lib
