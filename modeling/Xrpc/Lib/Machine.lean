import Mathlib

/-!
# 遷移系と模倣
-/

namespace Xrpc.Lib

/-- 遷移系。動作 `a` は `enabled s a` のときに起こり、状態を `next s a` へ移す。 -/
structure Machine (σ α : Type) where
  init : σ → Prop
  enabled : σ → α → Prop
  next : σ → α → σ

namespace Machine

variable {σ α τ β : Type} {M : Machine σ α} {N : Machine τ β} {C D : σ → α → Prop} {E : τ → β → Prop}

/-! ## 実行 -/

/-- どの動作も条件 `C` を満たす実行で、`s` から移れる状態。 -/
inductive Steps (M : Machine σ α) (C : σ → α → Prop) (s : σ) : σ → Prop where
  | refl : Steps M C s s
  | step {s' : σ} {a : α} : Steps M C s s' → M.enabled s' a → C s' a → Steps M C s (M.next s' a)

/-- どの動作も条件 `C` を満たす実行で、到達する状態。 -/
inductive Reach (M : Machine σ α) (C : σ → α → Prop) : σ → Prop where
  | init {s : σ} : M.init s → Reach M C s
  | step {s : σ} {a : α} : Reach M C s → M.enabled s a → C s a → Reach M C (M.next s a)

/-- 動作に条件を置かない実行で、到達する状態。 -/
abbrev Reachable (M : Machine σ α) : σ → Prop := M.Reach fun _ _ => True

/-- 最初に成り立ち、一つの動作で保たれる性質は、到達するすべての状態で成り立つ。 -/
theorem Reach.invariant {I : σ → Prop} (hinit : ∀ s, M.init s → I s)
    (hstep : ∀ s a, M.Reach C s → I s → M.enabled s a → C s a → I (M.next s a)) {s : σ} (h : M.Reach C s) : I s := by
  induction h with
  | init h => exact hinit _ h
  | step hreach henabled hc ih => exact hstep _ _ hreach ih henabled hc

theorem Reach.mono (hCD : ∀ s a, C s a → D s a) {s : σ} (h : M.Reach C s) : M.Reach D s := by
  induction h with
  | init h => exact .init h
  | step _ henabled hc ih => exact .step ih henabled (hCD _ _ hc)

theorem Reach.reachable {s : σ} (h : M.Reach C s) : M.Reachable s := h.mono fun _ _ _ => trivial

theorem Reach.steps {s s' : σ} (h : M.Reach C s) (hsteps : M.Steps C s s') : M.Reach C s' := by
  induction hsteps with
  | refl => exact h
  | step _ henabled hc ih => exact .step ih henabled hc

/-- 一つの動作で保たれる性質は、到達した状態から先の実行で保たれる。 -/
theorem Steps.preserves {I : σ → Prop} {s s' : σ} (hsteps : M.Steps C s s') (hreach : M.Reach C s)
    (hstep : ∀ t a, M.Reach C t → I t → M.enabled t a → C t a → I (M.next t a)) (h : I s) : I s' := by
  induction hsteps with
  | refl => exact h
  | step hsteps henabled hc ih => exact hstep _ _ (hreach.steps hsteps) ih henabled hc

/-- 条件を満たす動作だけを起こす遷移系。 -/
def restrict (M : Machine σ α) (C : σ → α → Prop) : Machine σ α := { M with enabled := fun s a => M.enabled s a ∧ C s a }

theorem reach_of_restrict {s : σ} (h : (M.restrict C).Reachable s) : M.Reach C s := by
  induction h with
  | init h => exact .init h
  | step _ henabled _ ih => exact .step ih henabled.1 henabled.2

/-! ## 動作の並びの実行 -/

section Exec

variable [∀ s a, Decidable (M.enabled s a)]

/-- 動作を順に起こす。起こせない動作があれば `none` である。 -/
def exec (M : Machine σ α) [∀ s a, Decidable (M.enabled s a)] : σ → List α → Option σ
  | s, [] => some s
  | s, a :: as => if M.enabled s a then M.exec (M.next s a) as else none

theorem exec_cons_eq_some {s s' : σ} {a : α} {as : List α} (h : M.exec s (a :: as) = some s') :
    M.enabled s a ∧ M.exec (M.next s a) as = some s' := by
  rw [exec] at h
  split at h
  next henabled => exact ⟨henabled, h⟩
  next => cases h

theorem exec_append (s : σ) (as bs : List α) : M.exec s (as ++ bs) = (M.exec s as).bind fun s' => M.exec s' bs := by
  induction as generalizing s with
  | nil => rfl
  | cons a as ih =>
      rw [List.cons_append, exec, exec]
      split
      next => exact ih _
      next => rfl

/-- 並びの最後の動作の前の状態。 -/
theorem exec_append_singleton {s s' : σ} {as : List α} {a : α} (h : M.exec s (as ++ [a]) = some s') :
    ∃ t, M.exec s as = some t ∧ M.enabled t a ∧ M.next t a = s' := by
  rw [exec_append] at h
  obtain ⟨t, ht, hlast⟩ := Option.bind_eq_some_iff.mp h
  obtain ⟨henabled, hnext⟩ := exec_cons_eq_some hlast
  exact ⟨t, ht, henabled, Option.some.inj hnext⟩

/-- 条件が、列のどの動作についても、どの状態でも成り立つとき。 -/
theorem reach_of_exec {s s' : σ} {as : List α} (hs : M.Reach C s) (hC : ∀ a ∈ as, ∀ t, C t a) (h : M.exec s as = some s') :
    M.Reach C s' := by
  induction as generalizing s with
  | nil => exact Option.some.inj h ▸ hs
  | cons a as ih =>
      obtain ⟨henabled, hrest⟩ := exec_cons_eq_some h
      exact ih (.step hs henabled (hC a List.mem_cons_self s)) (fun b hb => hC b (List.mem_cons_of_mem _ hb)) hrest

theorem reachable_of_exec {s s' : σ} {as : List α} (hs : M.Reachable s) (h : M.exec s as = some s') :
    M.Reachable s' := reach_of_exec hs (fun _ _ _ => trivial) h

theorem exists_reach_of_exec {s : σ} (as : List α) (p : σ → Bool) (hs : M.Reach C s) (hC : ∀ a ∈ as, ∀ t, C t a)
    (h : (M.exec s as).any p = true) : ∃ s', M.Reach C s' ∧ p s' = true := by
  obtain ⟨s', hexec, hp⟩ := (Option.any_eq_true p _).mp h
  exact ⟨s', reach_of_exec hs hC hexec, hp⟩

theorem exists_reachable_of_exec {s : σ} (as : List α) (p : σ → Bool) (hs : M.Reachable s)
    (h : (M.exec s as).any p = true) : ∃ s', M.Reachable s' ∧ p s' = true := by
  obtain ⟨s', hexec, hp⟩ := (Option.any_eq_true p _).mp h
  exact ⟨s', reachable_of_exec hs hexec, hp⟩

end Exec

/-! ## 模倣 -/

/-- `M` の実行を `N` の実行として見る。`act` が `none` を返す動作は、見えない動作である。 -/
structure Simulation (M : Machine σ α) (C : σ → α → Prop) (N : Machine τ β) (E : τ → β → Prop) where
  view : σ → τ
  act : σ → α → Option β
  init : ∀ s, M.init s → N.init (view s)
  silent : ∀ s a, M.Reach C s → M.enabled s a → C s a → act s a = none → view (M.next s a) = view s
  step : ∀ s a b, M.Reach C s → M.enabled s a → C s a → act s a = some b →
    N.enabled (view s) b ∧ E (view s) b ∧ view (M.next s a) = N.next (view s) b

/-- 見た側の状態も、見た側の実行で到達する。 -/
theorem Simulation.reach (S : Simulation M C N E) {s : σ} (h : M.Reach C s) : N.Reach E (S.view s) := by
  induction h with
  | init h => exact .init (S.init _ h)
  | @step s a hreach henabled hc ih =>
      cases hact : S.act s a with
      | none => rw [S.silent s a hreach henabled hc hact]; exact ih
      | some b =>
          obtain ⟨henabled', hc', hview⟩ := S.step s a b hreach henabled hc hact
          rw [hview]
          exact .step ih henabled' hc'

theorem Simulation.steps (S : Simulation M C N E) {s s' : σ} (h : M.Reach C s) (hsteps : M.Steps C s s') :
    N.Steps E (S.view s) (S.view s') := by
  induction hsteps with
  | refl => exact .refl
  | @step s' a hsteps henabled hc ih =>
      have hreach := h.steps hsteps
      cases hact : S.act s' a with
      | none => rw [S.silent s' a hreach henabled hc hact]; exact ih
      | some b =>
          obtain ⟨henabled', hc', hview⟩ := S.step s' a b hreach henabled hc hact
          rw [hview]
          exact .step ih henabled' hc'

end Machine

end Xrpc.Lib
