import Mathlib

/-!
# 列の走査

両端の切り落とし、部分列の最初の位置、要素の最後の位置。
-/

namespace Xrpc.Lib

variable {α : Type}

/-! ## 両端の切り落とし -/

/-- 両端から、`p` を満たす要素を取り除く。 -/
def trimBy (p : α → Bool) (l : List α) : List α := (l.dropWhile p).rdropWhile p

/-- 両端の要素が `p` を満たさない。 -/
def Trimmed (p : α → Bool) (l : List α) : Prop :=
  (∀ a, l.head? = some a → p a = false) ∧ ∀ a, l.getLast? = some a → p a = false

instance (p : α → Bool) (l : List α) : Decidable (Trimmed p l) :=
  decidable_of_iff (l.head?.all (fun a => !p a) = true ∧ l.getLast?.all (fun a => !p a) = true) (by
    simp only [Option.all_eq_true, Bool.not_eq_true', Trimmed])

section Trim

variable {p : α → Bool} {l m r : List α}

theorem dropWhile_append_trimmed (hl : ∀ a ∈ l, p a = true) (hm : ∀ a, m.head? = some a → p a = false) (hne : m ≠ []) :
    (l ++ m).dropWhile p = m := by
  rw [List.dropWhile_append_of_pos hl]
  cases m with
  | nil => exact absurd rfl hne
  | cons a m => rw [List.dropWhile_cons_of_neg (by rw [hm a rfl]; nofun)]

/-- 切り落とされる要素を両端に付け足しても、切り落とせば元に戻る。 -/
theorem trimBy_append (hl : ∀ a ∈ l, p a = true) (hm : Trimmed p m) (hr : ∀ a ∈ r, p a = true) :
    trimBy p (l ++ (m ++ r)) = m := by
  rcases eq_or_ne m [] with rfl | hne
  · rw [List.nil_append, trimBy, List.dropWhile_append_of_pos hl, List.dropWhile_eq_nil_iff.mpr hr]
    rfl
  · have hhead : ∀ a, (m ++ r).head? = some a → p a = false := by
      intro a ha
      rw [List.head?_append_of_ne_nil _ hne] at ha
      exact hm.1 a ha
    rw [trimBy, dropWhile_append_trimmed hl hhead (by simp [hne]), List.rdropWhile, List.reverse_append,
      dropWhile_append_trimmed (by simpa using hr) (by simpa [List.head?_reverse] using hm.2) (by simpa using hne),
      List.reverse_reverse]

theorem trimmed_trimBy (p : α → Bool) (l : List α) : Trimmed p (trimBy p l) := by
  refine ⟨fun a ha => ?_, fun a ha => ?_⟩
  · -- 右を切り落としても、残りがあれば先頭は変わらない
    obtain ⟨tail, htail⟩ := List.rdropWhile_prefix p (l.dropWhile p)
    have hhead : (l.dropWhile p).head? = some a := by
      rw [← htail, List.head?_append, show (List.rdropWhile p (l.dropWhile p)).head? = some a from ha]
      rfl
    have := List.head?_dropWhile_not p l
    rw [hhead] at this
    simpa using this
  · have := List.head?_dropWhile_not p (l.dropWhile p).reverse
    rw [trimBy, List.rdropWhile, List.getLast?_reverse] at ha
    rw [ha] at this
    simpa using this

/-- 切り落とした部分は、`p` を満たす要素だけからなる。 -/
theorem exists_trimBy (p : α → Bool) (l : List α) :
    ∃ a b, l = a ++ (trimBy p l ++ b) ∧ (∀ x ∈ a, p x = true) ∧ ∀ x ∈ b, p x = true := by
  refine ⟨l.takeWhile p, ((l.dropWhile p).reverse.takeWhile p).reverse, ?_, fun x hx => List.mem_takeWhile_imp hx,
    fun x hx => List.mem_takeWhile_imp (List.mem_reverse.mp hx)⟩
  rw [trimBy, List.rdropWhile, ← List.reverse_append, List.takeWhile_append_dropWhile, List.reverse_reverse,
    List.takeWhile_append_dropWhile]

end Trim

/-! ## 部分列の最初の位置 -/

section Find

variable [DecidableEq α]

/-- `pattern` が最初に現れる位置。 -/
def findPattern (pattern : List α) : List α → Option Nat
  | [] => if pattern = [] then some 0 else none
  | a :: l => if pattern <+: a :: l then some 0 else (findPattern pattern l).map (· + 1)

variable {pattern l r : List α} {n : Nat} {c d : α}

theorem findPattern_of_head (h : pattern <+: l) : findPattern pattern l = some 0 := by
  cases l with
  | nil => rw [findPattern, if_pos (List.prefix_nil.mp h)]
  | cons a l => rw [findPattern, if_pos h]

/-- 見つけた位置で、列は三つに分かれる。 -/
theorem findPattern_split (h : findPattern pattern l = some n) :
    l = l.take n ++ (pattern ++ l.drop (n + pattern.length)) := by
  induction l generalizing n with
  | nil =>
      rw [findPattern] at h
      split at h
      next hpattern => cases h; simp [hpattern]
      next => cases h
  | cons a l ih =>
      rw [findPattern] at h
      split at h
      next hhead =>
        cases h
        obtain ⟨tail, htail⟩ := hhead
        rw [← htail]
        simp
      next =>
        obtain ⟨n, hn, rfl⟩ := Option.map_eq_some_iff.mp h
        rw [show n + 1 + pattern.length = n + pattern.length + 1 by omega, List.take_succ_cons, List.drop_succ_cons,
          List.cons_append, ← ih hn]

theorem findPattern_le (h : findPattern pattern l = some n) : n + pattern.length ≤ l.length := by
  induction l generalizing n with
  | nil =>
      rw [findPattern] at h
      split at h
      next hpattern => cases h; simp [hpattern]
      next => cases h
  | cons a l ih =>
      rw [findPattern] at h
      split at h
      next hhead => cases h; simpa using hhead.length_le
      next =>
        obtain ⟨n, hn, rfl⟩ := Option.map_eq_some_iff.mp h
        have := ih hn
        rw [List.length_cons]
        omega

/-- 見つけた位置は、後に何が続いても変わらない。 -/
theorem findPattern_append (h : findPattern pattern l = some n) (r : List α) :
    findPattern pattern (l ++ r) = some n := by
  induction l generalizing n with
  | nil =>
      rw [findPattern] at h
      split at h
      next hpattern => cases h; exact findPattern_of_head (by simp [hpattern])
      next => cases h
  | cons a l ih =>
      rw [findPattern] at h
      split at h
      next hhead => cases h; exact findPattern_of_head (hhead.trans (List.prefix_append _ _))
      next hhead =>
        obtain ⟨n, hn, rfl⟩ := Option.map_eq_some_iff.mp h
        have hlt := findPattern_le hn
        have hhead' : ¬ pattern <+: a :: (l ++ r) := by
          intro hp
          refine hhead (List.prefix_of_prefix_length_le hp ?_ (by rw [List.length_cons]; omega))
          exact (List.prefix_append (a :: l) r)
        rw [List.cons_append, findPattern, if_neg hhead', ih hn]
        rfl

/-- 先頭の要素が前の部分に現れなければ、前の部分を読み飛ばせる。 -/
theorem findPattern_skip (h : c ∉ l) (r : List α) :
    findPattern (c :: pattern) (l ++ r) = (findPattern (c :: pattern) r).map (l.length + ·) := by
  induction l with
  | nil => simp
  | cons a l ih =>
      have hhead : ¬ c :: pattern <+: a :: (l ++ r) := by
        rintro ⟨tail, htail⟩
        exact h (by rw [(List.cons.inj htail).1]; exact List.mem_cons_self)
      rw [List.cons_append, findPattern, if_neg hhead, ih (fun hc => h (List.mem_cons_of_mem a hc)), Option.map_map]
      congr 1
      funext n
      simp only [Function.comp_apply, List.length_cons]
      omega

theorem findPattern_append_of_notMem {rest : List α} (h : c ∉ l) :
    findPattern (c :: pattern) (l ++ (c :: pattern ++ rest)) = some l.length := by
  rw [findPattern_skip h, findPattern_of_head (List.prefix_append _ _)]
  rfl

theorem findPattern_of_notMem (h : c ∉ l) : findPattern (c :: pattern) l = none := by
  have hskip : findPattern (c :: pattern) (l ++ []) = _ := findPattern_skip h []
  rw [List.append_nil, findPattern, if_neg (List.cons_ne_nil _ _)] at hskip
  exact hskip

/-- 見つからないのは、部分列として現れないときに限る。 -/
theorem findPattern_eq_none_iff : findPattern pattern l = none ↔ ¬ pattern <:+: l := by
  induction l with
  | nil =>
      rw [findPattern, List.infix_nil]
      split
      next h => simp [h]
      next h => simp [h]
  | cons a l ih =>
      rw [findPattern, List.infix_cons_iff]
      split
      next h => simp [h]
      next h => simp [h, ih]

/-- 一つの要素を探すと、最初のものの前で分かれる。 -/
theorem findPattern_singleton (h : findPattern [c] l = some n) : c ∉ l.take n := by
  induction l generalizing n with
  | nil => simp
  | cons a l ih =>
      rw [findPattern] at h
      split at h
      next => cases h; simp
      next hhead =>
        obtain ⟨n, hn, rfl⟩ := Option.map_eq_some_iff.mp h
        rw [List.take_succ_cons, List.mem_cons, not_or]
        refine ⟨fun hc => hhead ?_, ih hn⟩
        rw [hc]
        exact List.prefix_append [a] l

theorem notMem_of_findPattern_none (h : findPattern [c] l = none) : c ∉ l := by
  intro hc
  obtain ⟨a, b, rfl⟩ := List.append_of_mem hc
  induction a with
  | nil =>
      have hhead : findPattern [c] (c :: b) = some 0 := findPattern_of_head (List.prefix_append [c] b)
      rw [List.nil_append, hhead] at h
      cases h
  | cons x a ih =>
      rw [List.cons_append, findPattern] at h
      split at h
      next => cases h
      next => exact ih (Option.map_eq_none_iff.mp h) (by simp)

/-- 二つの要素の並びは、前の部分に現れなければ、境目をまたいでも現れない。 -/
theorem findPattern_pair_append {rest : List α} (hne : c ≠ d) (h : ¬ [c, d] <:+: l) :
    findPattern [c, d] (l ++ (c :: d :: rest)) = some l.length := by
  induction l with
  | nil => exact findPattern_of_head ⟨rest, rfl⟩
  | cons a l ih =>
      have htail : ¬ [c, d] <:+: l := fun hl => h (hl.trans (List.suffix_cons a l).isInfix)
      have hhead : ¬ [c, d] <+: a :: (l ++ (c :: d :: rest)) := by
        rintro ⟨tail, heq⟩
        obtain ⟨hca, hrest⟩ := List.cons.inj heq
        cases l with
        | nil => exact hne (List.cons.inj hrest).1.symm
        | cons b l => exact h ⟨[], l, by rw [hca, (List.cons.inj hrest).1]; rfl⟩
      rw [List.cons_append, findPattern, if_neg hhead, ih htail]
      rfl

/-! ## 要素の最後の位置 -/

omit [DecidableEq α] in
/-- 区切りの後。 -/
theorem drop_separator (l : List α) (c : α) (r : List α) : (l ++ c :: r).drop (l.length + 1) = r := by
  rw [← List.drop_drop, List.drop_left]
  rfl

/-- `c` が最後に現れる位置。 -/
def rfind (c : α) : List α → Option Nat
  | [] => none
  | a :: l =>
      match rfind c l with
      | some n => some (n + 1)
      | none => if a = c then some 0 else none

theorem rfind_of_notMem (h : c ∉ l) : rfind c l = none := by
  induction l with
  | nil => rfl
  | cons a l ih =>
      rw [rfind, ih (fun hc => h (List.mem_cons_of_mem a hc))]
      exact if_neg fun hac => h (by rw [hac]; exact List.mem_cons_self)

theorem rfind_append (h : c ∉ r) : rfind c (l ++ c :: r) = some l.length := by
  induction l with
  | nil => rw [List.nil_append, rfind, rfind_of_notMem h]; exact if_pos rfl
  | cons a l ih => rw [List.cons_append, rfind, ih]; rfl

theorem exists_rfind (h : c ∈ l) : ∃ n, rfind c l = some n := by
  induction l with
  | nil => cases h
  | cons a l ih =>
      rw [rfind]
      cases hl : rfind c l with
      | some n => exact ⟨n + 1, rfl⟩
      | none =>
          rcases List.mem_cons.mp h with rfl | hmem
          · exact ⟨0, if_pos rfl⟩
          · obtain ⟨n, hn⟩ := ih hmem
            rw [hl] at hn
            cases hn

theorem rfind_eq_some (h : rfind c l = some n) : ∃ a b, l = a ++ c :: b ∧ c ∉ b ∧ a.length = n := by
  induction l generalizing n with
  | nil => cases h
  | cons x l ih =>
      rw [rfind] at h
      split at h
      next m hm =>
        cases h
        obtain ⟨a, b, rfl, hb, rfl⟩ := ih hm
        exact ⟨x :: a, b, rfl, hb, rfl⟩
      next hnone =>
        split at h
        next hx =>
          cases h
          refine ⟨[], l, by rw [hx]; rfl, fun hc => ?_, rfl⟩
          -- `l` に `c` があれば、そこで見つかる
          obtain ⟨n, hn⟩ := exists_rfind hc
          rw [hnone] at hn
          cases hn
        next => cases h

end Find

/-! ## 対応する二つの列 -/

section Forall₂

variable {β : Type} {R : α → β → Prop} {l : List α} {l' : List β}

theorem exists_of_forall₂_left (h : List.Forall₂ R l l') {a : α} (ha : a ∈ l) : ∃ b, R a b := by
  induction h with
  | nil => cases ha
  | cons hab _ ih =>
      rcases List.mem_cons.mp ha with rfl | htail
      · exact ⟨_, hab⟩
      · exact ih htail

theorem exists_forall₂ (h : ∀ a ∈ l, ∃ b, R a b) : ∃ l' : List β, List.Forall₂ R l l' := by
  induction l with
  | nil => exact ⟨[], .nil⟩
  | cons a l ih =>
      obtain ⟨b, hb⟩ := h a List.mem_cons_self
      obtain ⟨l', hl'⟩ := ih fun a ha => h a (List.mem_cons_of_mem _ ha)
      exact ⟨b :: l', .cons hb hl'⟩

end Forall₂

end Xrpc.Lib
