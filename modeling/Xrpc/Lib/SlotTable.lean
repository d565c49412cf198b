import Mathlib

/-!
# 自分の位置を知る要素の表

要素を末尾に加え、抜けた所を末尾の要素で埋める表。要素から位置への写像 `index` が、表と食い違わないことを保つ。
-/

namespace Xrpc.Lib
open Function

variable {α : Type}

/-- 表のどの要素についても、`index` がその位置を指す。 -/
def Indexed (slots : List α) (index : α → Nat) : Prop := ∀ i a, slots[i]? = some a → index a = i

namespace Indexed

variable {slots front : List α} {index : α → Nat} {a last : α}

theorem nil (index : α → Nat) : Indexed [] index := nofun

theorem get?_of_mem (h : Indexed slots index) (ha : a ∈ slots) : slots[index a]? = some a := by
  obtain ⟨i, hi⟩ := List.mem_iff_getElem?.mp ha
  rwa [h i a hi]

theorem nodup (h : Indexed slots index) : slots.Nodup := by
  refine List.nodup_iff_injective_get.mpr fun i j hij => Fin.ext ?_
  have hi := h i _ (List.getElem?_eq_getElem i.isLt)
  have hj := h j _ (List.getElem?_eq_getElem j.isLt)
  rw [← hi, ← hj]
  exact congrArg index hij

theorem dropLast (h : Indexed (front ++ [last]) index) : Indexed front index := by
  intro i a hi
  obtain ⟨hlt, -⟩ := List.getElem?_eq_some_iff.mp hi
  exact h i a (by rwa [List.getElem?_append_left hlt])

variable [DecidableEq α]

theorem push (h : Indexed slots index) (ha : a ∉ slots) : Indexed (slots ++ [a]) (update index a slots.length) := by
  intro i b hi
  by_cases hb : b = a
  · subst hb
    rw [update_self]
    rcases Nat.lt_or_ge i slots.length with hlt | hge
    · rw [List.getElem?_append_left hlt] at hi
      exact absurd (List.mem_of_getElem? hi) ha
    · obtain ⟨hlt, -⟩ := List.getElem?_eq_some_iff.mp hi
      rw [List.length_append, List.length_singleton] at hlt
      omega
  · rw [update_of_ne hb]
    rcases Nat.lt_or_ge i slots.length with hlt | hge
    · exact h i b (by rwa [List.getElem?_append_left hlt] at hi)
    · rw [List.getElem?_append_right hge, List.getElem?_singleton] at hi
      split at hi
      · exact absurd (Option.some.inj hi).symm hb
      · cases hi

/-- 位置 `i` を、末尾の要素で埋める。 -/
theorem fill (h : Indexed (front ++ [last]) index) {i : Nat} (hi : i < front.length) :
    Indexed (front.set i last) (update index last i) := by
  intro j b hj
  have hlast : index last = front.length := h _ _ (by simp)
  rw [List.getElem?_set] at hj
  split at hj
  next hij =>
    subst hij
    rw [← Option.some.inj hj, update_self]
  next hij =>
    have hb : index b = j := h.dropLast j b hj
    obtain ⟨hlt, -⟩ := List.getElem?_eq_some_iff.mp hj
    have hne : b ≠ last := fun heq => by rw [heq, hlast] at hb; omega
    rw [update_of_ne hne]
    exact hb

end Indexed

/-- 末尾の要素で埋めた表は、抜いた要素だけを失う。 -/
theorem cons_set_perm {front : List α} {a last : α} {i : Nat} (hi : front[i]? = some a) :
    (a :: front.set i last).Perm (front ++ [last]) := by
  obtain ⟨hlt, rfl⟩ := List.getElem?_eq_some_iff.mp hi
  calc
    List.Perm (front[i] :: front.set i last) (front[i] :: last :: front.eraseIdx i) :=
        (List.set_perm_cons_eraseIdx hlt last).cons _
    List.Perm _ (last :: front[i] :: front.eraseIdx i) := .swap ..
    List.Perm _ (last :: front) := (List.getElem_cons_eraseIdx_perm hlt).cons _
    List.Perm _ (front ++ [last]) := (List.perm_append_singleton last front).symm

end Xrpc.Lib
