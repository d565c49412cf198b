import Xrpc.Lib.Machine

/-!
# 至りうる状態

遷移系が行き詰まらないことを、「条件に従うある続きが、求める状態に至る」という形で述べ、つなぐ。
-/

namespace Xrpc.Lib.Machine

variable {σ α : Type} {M : Machine σ α} {C D : σ → α → Prop} {s : σ} {P Q : σ → Prop}

theorem Steps.mono (hCD : ∀ s a, C s a → D s a) {s s' : σ} (h : M.Steps C s s') : M.Steps D s s' := by
  induction h with
  | refl => exact .refl
  | step _ henabled hc ih => exact .step ih henabled (hCD _ _ hc)

theorem Steps.trans {s s' s'' : σ} (h : M.Steps C s s') (h' : M.Steps C s' s'') : M.Steps C s s'' := by
  induction h' with
  | refl => exact h
  | step _ henabled hc ih => exact .step ih henabled hc

/-- 条件 `C` に従うある続きが、`P` の成り立つ状態に至る。 -/
def Leads (M : Machine σ α) (C : σ → α → Prop) (s : σ) (P : σ → Prop) : Prop := ∃ s', M.Steps C s s' ∧ P s'

namespace Leads

theorem here (h : P s) : M.Leads C s P := ⟨s, .refl, h⟩

theorem step {a : α} (henabled : M.enabled s a) (hc : C s a) (h : M.Leads C (M.next s a) P) : M.Leads C s P := by
  obtain ⟨s', hsteps, hp⟩ := h
  exact ⟨s', (Steps.step .refl henabled hc).trans hsteps, hp⟩

theorem last {a : α} (henabled : M.enabled s a) (hc : C s a) (h : P (M.next s a)) : M.Leads C s P :=
  step henabled hc (here h)

/-- 途中の状態を経て至る。 -/
theorem bind (h : M.Leads C s P) (hnext : ∀ s', M.Steps C s s' → P s' → M.Leads C s' Q) : M.Leads C s Q := by
  obtain ⟨s', hsteps, hp⟩ := h
  obtain ⟨s'', hsteps', hq⟩ := hnext s' hsteps hp
  exact ⟨s'', hsteps.trans hsteps', hq⟩

theorem mono (hCD : ∀ s a, C s a → D s a) (hPQ : ∀ s, P s → Q s) (h : M.Leads C s P) : M.Leads D s Q := by
  obtain ⟨s', hsteps, hp⟩ := h
  exact ⟨s', hsteps.mono hCD, hPQ s' hp⟩

end Leads

end Xrpc.Lib.Machine
