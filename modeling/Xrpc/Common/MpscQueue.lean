import Xrpc.Lib.Machine

/-!
# 上限のある待ち行列

`src/include/common/mpsc_queue.h` の `MpscQueue` を、原子操作ごとの動作からなる遷移系として写す。一回の `TryPush` を一つの
名前 `ι` で表し、名前を値の代わりに置く。位置は一周しない（`size_t` の一周には、2^64 回の予約が要る）。
-/

namespace Xrpc.Common
open Xrpc.Lib Function

namespace MpscQueue

/-- `TryPush` の位置。読んだ値を持って進む。 -/
inductive PushPc where
  | loadDequeue
  | loadEnqueue (dequeuePosition : Nat)
  | exchange (dequeuePosition enqueuePosition : Nat)
  | construct (position : Nat)
  | publish (position : Nat)
  | returned (pushed : Bool)
  deriving DecidableEq

/-- ただ一人の取り出し手が行う `TryPop` の位置。 -/
inductive PopPc (ι : Type) where
  | loadEnqueue
  | loadReady
  | take
  | storeDequeue (value : ι)
  deriving DecidableEq

/-- `reserved` は位置を予約した順の、`popped` は `TryPop` が返した順の記録である。 -/
structure State (ι : Type) where
  enqueuePosition : Nat
  dequeuePosition : Nat
  storage : Nat → Option ι
  ready : Nat → Bool
  push : ι → PushPc
  pop : PopPc ι
  reserved : List ι
  popped : List ι

def State.initial {ι : Type} : State ι where
  enqueuePosition := 0
  dequeuePosition := 0
  storage _ := none
  ready _ := false
  push _ := .loadDequeue
  pop := .loadEnqueue
  reserved := []
  popped := []

inductive Act (ι : Type) where
  | loadDequeue (i : ι)
  | loadEnqueue (i : ι) (dequeuePosition : Nat)
  | refuse (i : ι) (dequeuePosition : Nat)
  | reserve (i : ι) (dequeuePosition position : Nat)
  | retry (i : ι) (dequeuePosition position : Nat)
  | construct (i : ι) (position : Nat)
  | publish (i : ι) (position : Nat)
  | popEmpty
  | popLoad
  | popUnready
  | popReady
  | popTake (value : ι)
  | popStore (value : ι)

/-- 動作を行う `TryPush`。`none` は取り出し手の動作である。 -/
def Act.pusher {ι : Type} : Act ι → Option ι
  | .loadDequeue i | .loadEnqueue i _ | .refuse i _ | .reserve i _ _ | .retry i _ _ | .construct i _ | .publish i _ => some i
  | _ => none

variable {ι : Type} [DecidableEq ι] (capacity : Nat)

/-- 取り出しの位置の枠。 -/
def State.head (s : State ι) : Nat := s.dequeuePosition % capacity

def enabled (s : State ι) : Act ι → Prop
  | .loadDequeue i => s.push i = .loadDequeue
  | .loadEnqueue i d => s.push i = .loadEnqueue d ∧ s.enqueuePosition - d < capacity
  | .refuse i d => s.push i = .loadEnqueue d ∧ capacity ≤ s.enqueuePosition - d
  | .reserve i d p => s.push i = .exchange d p ∧ s.enqueuePosition = p
  | .retry i d p => s.push i = .exchange d p
  | .construct i p => s.push i = .construct p
  | .publish i p => s.push i = .publish p
  | .popEmpty => s.pop = .loadEnqueue ∧ s.enqueuePosition = s.dequeuePosition
  | .popLoad => s.pop = .loadEnqueue ∧ s.enqueuePosition ≠ s.dequeuePosition
  | .popUnready => s.pop = .loadReady ∧ s.ready (s.head capacity) = false
  | .popReady => s.pop = .loadReady ∧ s.ready (s.head capacity) = true
  | .popTake v => s.pop = .take ∧ s.storage (s.head capacity) = some v
  | .popStore v => s.pop = .storeDequeue v

/-- `compare_exchange_weak` は、値が等しいときにも失敗しうる。 -/
def next (s : State ι) : Act ι → State ι
  | .loadDequeue i => { s with push := update s.push i (.loadEnqueue s.dequeuePosition) }
  | .loadEnqueue i d => { s with push := update s.push i (.exchange d s.enqueuePosition) }
  | .refuse i _ => { s with push := update s.push i (.returned false) }
  | .reserve i _ p =>
      { s with
        enqueuePosition := p + 1
        push := update s.push i (.construct p)
        reserved := s.reserved ++ [i] }
  | .retry i _ _ => { s with push := update s.push i .loadDequeue }
  | .construct i p =>
      { s with storage := update s.storage (p % capacity) (some i), push := update s.push i (.publish p) }
  | .publish i p =>
      { s with ready := update s.ready (p % capacity) true, push := update s.push i (.returned true) }
  | .popEmpty => s
  | .popLoad => { s with pop := .loadReady }
  | .popUnready => { s with pop := .loadEnqueue }
  | .popReady => { s with pop := .take }
  | .popTake v =>
      { s with
        storage := update s.storage (s.head capacity) none
        ready := update s.ready (s.head capacity) false
        pop := .storeDequeue v }
  | .popStore v =>
      { s with dequeuePosition := s.dequeuePosition + 1, pop := .loadEnqueue, popped := s.popped ++ [v] }

/-- 任意個の `TryPush` と、一人の取り出し手の遷移系。 -/
def mpscQueue (ι : Type) [DecidableEq ι] (capacity : Nat) : Machine (State ι) (Act ι) where
  init s := s = .initial
  enabled := enabled capacity
  next := next capacity

instance decidableEnabled (s : State ι) (a : Act ι) : Decidable (enabled capacity s a) := by
  cases a <;> dsimp only [enabled] <;> infer_instance

instance (s : State ι) (a : Act ι) : Decidable ((mpscQueue ι capacity).enabled s a) := decidableEnabled capacity s a

/-- 枠に置かれている値。 -/
def State.contents (s : State ι) : List ι := (List.range capacity).filterMap s.storage

/-- 取り出し手が枠から取り出し、まだ位置を進めていない値。 -/
def State.taken (s : State ι) : List ι :=
  match s.pop with
  | .storeDequeue v => [v]
  | _ => []

/-- 予約されてまだ取り出されていない値が、枠の数だけある。 -/
def State.Full (s : State ι) : Prop := s.reserved.length = s.popped.length + capacity

instance (s : State ι) : Decidable (s.Full capacity) := inferInstanceAs (Decidable (_ = _))

/-- `before` の後に `i` が最初の位置を読んでから、`during` が終わるまでのある時点で、枠に空きがない。 -/
def FullDuring (i : ι) (before during : List (Act ι)) : Prop :=
  ∃ early, early <+: during ∧
    ∃ s, (mpscQueue ι capacity).exec .initial (before ++ .loadDequeue i :: early) = some s ∧ s.Full capacity

end MpscQueue

end Xrpc.Common
