import Xrpc.Server.DrainFlag
import Xrpc.Server.Lemmas.WorkerResults

/-!
# 届いてから読む実行の補題

書き込みが届いてから `TryPop` が読み始める実行を、遅れのない受け渡しの実行として見る。
-/

namespace Xrpc.Server.DrainFlag
open Xrpc.Lib Xrpc.Common WorkerResults

variable {ι : Type} [DecidableEq ι] {capacity : Nat} {s : TsoState ι}

/-- 届いていない書き込みがあるのは、旗を下ろした直後だけである。 -/
structure Waiting (s : TsoState ι) : Prop where
  le_one : s.inFlight ≤ 1
  recheck : s.inFlight ≠ 0 → s.base.drain = .recheck

omit [DecidableEq ι] in
theorem afterPop_push (pc : DrainPc ι) {a : MpscQueue.Act ι} {i : ι} (h : a.pusher = some i) : pc.afterPop a = pc := by
  cases a with
  | popEmpty | popLoad | popUnready | popReady | popTake v | popStore v => cases h
  | _ => rfl

/-- 旗を下ろした直後に動けるのは、ほかの糸だけである。 -/
theorem next_drain_of_recheck {a : WorkerResults.Act ι} (hdrain : s.base.drain = .recheck) (hin : s.inFlight ≠ 0)
    (hb : (tsoWorkerResults ι capacity).enabled s (.base a)) (hc : Fenced s (.base a)) (pc : DrainPc ι) :
    WorkerResults.enabled capacity { s.base with drain := pc } a ∧ a ≠ .clear ∧
      { WorkerResults.next capacity s.base a with drain := pc } =
        WorkerResults.next capacity { s.base with drain := pc } a ∧
      (WorkerResults.next capacity s.base a).drain = .recheck := by
  obtain ⟨hb, hfence⟩ := hb
  cases a with
  | queue a =>
      cases hpusher : a.pusher with
      | none => exact absurd (hc hpusher hdrain) hin
      | some i =>
          obtain ⟨hqueue, hruns⟩ := hb
          refine ⟨⟨hqueue, ?_⟩, by rintro ⟨⟩, ?_, ?_⟩
          · rw [State.runs, hpusher] at hruns ⊢
            exact hruns
          · simp only [WorkerResults.next, afterPop_push _ hpusher]
          · simp only [WorkerResults.next, afterPop_push _ hpusher, hdrain]
  | begin i => exact ⟨hb, by rintro ⟨⟩, rfl, hdrain⟩
  | exchange i => exact ⟨hb, by rintro ⟨⟩, rfl, hdrain⟩
  | postDrain i => exact ⟨hb, by rintro ⟨⟩, rfl, hdrain⟩
  | postOverflow i => exact ⟨hb, by rintro ⟨⟩, rfl, hdrain⟩
  | postControl => exact ⟨hb, by rintro ⟨⟩, rfl, hdrain⟩
  | swapCallbacks => exact absurd (hfence rfl) hin
  | runControl | runOverflow i | runDrain => rw [WorkerResults.enabled, hdrain] at hb; cases hb.2
  | rearm i => exact absurd (hfence rfl) hin
  | yield => exact absurd (hfence rfl) hin
  | handle d i | clear | handleLast i => rw [WorkerResults.enabled, hdrain] at hb; cases hb

theorem next_base {a : WorkerResults.Act ι} (h : a ≠ .clear) :
    (tsoWorkerResults ι capacity).next s (.base a) = { s with base := WorkerResults.next capacity s.base a } := by
  cases a with
  | clear => exact absurd rfl h
  | _ => rfl

theorem reach_waiting (h : (tsoWorkerResults ι capacity).Reach Fenced s) : Waiting s := by
  refine h.invariant (I := Waiting) ?_ ?_
  · rintro s ⟨_, hin⟩
    exact ⟨by omega, fun hne => absurd hin hne⟩
  intro s a _ hs hb hc
  cases a with
  | deliver =>
      refine ⟨?_, ?_⟩
      · exact (Nat.sub_le _ _).trans hs.le_one
      · have hle := hs.le_one
        intro (hne : s.inFlight - 1 ≠ 0)
        omega
  | base a =>
      by_cases hclear : a = .clear
      · subst hclear
        have hdrain : s.base.drain = .clear := hb.1
        have hzero : s.inFlight = 0 := by
          by_contra hne
          rw [hs.recheck hne] at hdrain
          cases hdrain
        exact ⟨by show s.inFlight + 1 ≤ 1; omega, fun _ => rfl⟩
      · rw [next_base hclear]
        refine ⟨hs.le_one, fun hne => ?_⟩
        exact (next_drain_of_recheck (hs.recheck hne) hne hb hc .recheck).2.2.2

/-- 届いていない書き込みを、まだ行っていないものと見る。 -/
def TsoState.view (s : TsoState ι) : WorkerResults.State ι :=
  if s.inFlight = 0 then s.base else { s.base with drain := .clear }

/-- 届いてから読む実行は、遅れのない受け渡しの実行である。書き込みは、届いたときに行われたと見る。 -/
def flagSimulation (ι : Type) [DecidableEq ι] (capacity : Nat) :
    Machine.Simulation (tsoWorkerResults ι capacity) Fenced (workerResults ι capacity) (fun _ _ => True) where
  view := TsoState.view
  act _ a :=
    match a with
    | .deliver => some .clear
    | .base .clear => none
    | .base a => some a
  init s hs := by
    rw [TsoState.view, if_pos hs.2]
    exact hs.1
  silent s a hreach hb hc hact := by
    have hw := reach_waiting hreach
    cases a with
    | deliver => cases hact
    | base a =>
        cases a with
        | clear =>
            have hdrain : s.base.drain = .clear := hb.1
            have hzero : s.inFlight = 0 := by
              by_contra hne
              rw [hw.recheck hne] at hdrain
              cases hdrain
            obtain ⟨⟨queue, scheduled, posted, callbacks, producer, drain, begun, handled⟩, inFlight⟩ := s
            simp only at hdrain hzero
            subst hdrain hzero
            rfl
        | _ => cases hact
  step s a b hreach hb hc hact := by
    have hw := reach_waiting hreach
    cases a with
    | deliver =>
        obtain rfl := Option.some.inj hact
        have hne : s.inFlight ≠ 0 := Nat.ne_of_gt hb
        have hone : s.inFlight = 1 := by have := hw.le_one; omega
        have hdrain := hw.recheck hne
        obtain ⟨⟨queue, scheduled, posted, callbacks, producer, drain, begun, handled⟩, inFlight⟩ := s
        simp only at hdrain hone
        subst hdrain hone
        exact ⟨rfl, trivial, rfl⟩
    | base a =>
        have hclear : a ≠ .clear := by
          rintro rfl
          cases hact
        have hab : b = a := by
          cases a with
          | clear => exact absurd rfl hclear
          | _ => exact (Option.some.inj hact).symm
        subst hab
        rw [next_base hclear]
        by_cases hzero : s.inFlight = 0
        · simp only [TsoState.view, hzero, if_true]
          exact ⟨hb.1, trivial, rfl⟩
        · obtain ⟨henabled, _, hnext, _⟩ := next_drain_of_recheck (hw.recheck hzero) hzero hb hc .clear
          simp only [TsoState.view, hzero, if_false]
          exact ⟨henabled, trivial, hnext⟩

end Xrpc.Server.DrainFlag
