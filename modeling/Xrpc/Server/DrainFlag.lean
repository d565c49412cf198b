import Xrpc.Server.WorkerResults

/-!
# 旗の書き込みの遅れ

`DrainWorkerResults` の `worker_result_drain_scheduled_.store(false, release)` は、ただの書き込みである。x86-TSO では、同じ糸の
後の読み出しより遅れて記憶に届きうる。`WorkerResults` の遷移系に、届いていない書き込みの数を加える。書き込みは、同じ糸の次の
読み書きの不可分な操作（旗の `exchange`、`Post` と `RunPostedCallbacks` の排他）より前に届く。
-/

namespace Xrpc.Server
open Xrpc.Lib Xrpc.Common

namespace DrainFlag
open WorkerResults

/-- `inFlight` は、届いていない `store(false)` の数である。`base.drainScheduled` は記憶にある値を表す。 -/
structure TsoState (ι : Type) where
  base : WorkerResults.State ι
  inFlight : Nat

inductive TsoAct (ι : Type) where
  | base (act : WorkerResults.Act ι)
  | deliver

variable {ι : Type} [DecidableEq ι] (capacity : Nat)

/-- 書き込みが届くのを待つ、文脈の糸の動作。 -/
def fences : WorkerResults.Act ι → Bool
  | .rearm _ | .yield | .swapCallbacks => true
  | _ => false

def enabled (s : TsoState ι) : TsoAct ι → Prop
  | .base a => WorkerResults.enabled capacity s.base a ∧ (fences a = true → s.inFlight = 0)
  | .deliver => 0 < s.inFlight

def next (s : TsoState ι) : TsoAct ι → TsoState ι
  | .base .clear => { base := { s.base with drain := .recheck }, inFlight := s.inFlight + 1 }
  | .base a => { s with base := WorkerResults.next capacity s.base a }
  | .deliver => { base := { s.base with drainScheduled := false }, inFlight := s.inFlight - 1 }

/-- 旗を下ろす書き込みが遅れる、受け渡しの遷移系。 -/
def tsoWorkerResults (ι : Type) [DecidableEq ι] (capacity : Nat) : Machine (TsoState ι) (TsoAct ι) where
  init s := s.base = .initial ∧ s.inFlight = 0
  enabled := enabled capacity
  next := next capacity

instance decidableEnabled (s : TsoState ι) (a : TsoAct ι) : Decidable ((tsoWorkerResults ι capacity).enabled s a) := by
  cases a with
  | base a => exact inferInstanceAs (Decidable ((workerResults ι capacity).enabled s.base a ∧ (fences a = true → s.inFlight = 0)))
  | deliver => exact inferInstanceAs (Decidable (0 < s.inFlight))

/-- 届いていない書き込みも、呼び出しの途中の `PostWorkerResult` も、走っていない、または走っている取り出しもない。 -/
def TsoState.quiet (s : TsoState ι) : Prop :=
  s.inFlight = 0 ∧ (∀ i, s.base.producer i = .idle ∨ s.base.producer i = .done) ∧ ¬ s.base.drainPosted ∧
    s.base.drain = .idle

instance [Fintype ι] (s : TsoState ι) : Decidable s.quiet :=
  inferInstanceAs (Decidable (s.inFlight = 0 ∧ (∀ i, s.base.producer i = .idle ∨ s.base.producer i = .done) ∧
    ¬ .drain ∈ s.base.postedCallbacks ++ s.base.callbacks ∧ s.base.drain = .idle))

/-- 旗を下ろした後の `TryPop` は、書き込みが届いてから読み始める。 -/
def Fenced (s : TsoState ι) : TsoAct ι → Prop
  | .base (.queue a) => a.pusher = none → s.base.drain = .recheck → s.inFlight = 0
  | _ => True

instance (s : TsoState ι) (a : TsoAct ι) : Decidable (Fenced s a) :=
  match a with
  | .base (.queue a) =>
      inferInstanceAs (Decidable (a.pusher = none → s.base.drain = .recheck → s.inFlight = 0))
  | .base (.begin _) | .base (.exchange _) | .base (.postDrain _) | .base (.postOverflow _) | .base .postControl
  | .base .swapCallbacks | .base .runControl | .base (.runOverflow _) | .base .runDrain | .base (.rearm _)
  | .base .yield | .base (.handle _ _) | .base .clear | .base (.handleLast _) | .deliver => .isTrue trivial

instance (s : TsoState ι) (a : TsoAct ι) : Decidable (((tsoWorkerResults ι capacity).restrict Fenced).enabled s a) :=
  inferInstanceAs (Decidable ((tsoWorkerResults ι capacity).enabled s a ∧ Fenced s a))

end DrainFlag

end Xrpc.Server
