import Xrpc.Lib.Machine

/-!
# 文脈への関数の受け渡し

`src/io/uring/context.cpp` の `Post`、`RequestStop`、`RunPostedCallbacks`、`SignalWakeup`、`ConsumeWakeupSignal`、
`ProcessWakeupCqe` と `Run` のうち、起床に関わる部分を遷移系として写す。一つの動作は、`post_mutex_` の区間、eventfd の一回の
読み書き、起床の CQE の一つの処理のどれかである。一回の `Post` を一つの名前 `ι` で表し、名前を関数の代わりに置く。
-/

namespace Xrpc.Io
open Xrpc.Lib Function

namespace UringContext

/-- eventfd の値の上限。これを超える書き込みは `EAGAIN` になる。 -/
def eventCountMax : Nat := 2 ^ 64 - 2

/-- eventfd の poll の CQE。`more` は `IORING_CQE_F_MORE` である。 -/
structure WakeupCqe where
  cancelled : Bool
  more : Bool
  deriving DecidableEq

/-- `Post` の位置。`signalling` は、積んだ後、`SignalWakeup` の前である。 -/
inductive PosterPc where
  | idle
  | signalling
  | done
  deriving DecidableEq

/-- `Run` の糸の位置。`wakeup` は CQE を受け取った後、`swapping` は `ConsumeWakeupSignal` の後、`running` は
`RunPostedCallbacks` が取り出した関数を呼ぶ間である。 -/
inductive RunPc where
  | unstarted
  | waiting
  | wakeup (more : Bool)
  | swapping (more : Bool)
  | running (more : Bool)
  | returned
  deriving DecidableEq

/-- `armed` は、eventfd の poll が核に掛かっていることを表す。`accepted` と `ran` は、受け付けた順と呼んだ順の記録である。 -/
structure State (ι : Type) where
  postedCallbacks : List ι
  acceptingPosts : Bool
  stopRequested : Bool
  stopSignalling : Bool
  eventCount : Nat
  armed : Bool
  cqes : List WakeupCqe
  cancelSubmitted : Bool
  poster : ι → PosterPc
  run : RunPc
  callbacks : List ι
  accepted : List ι
  ran : List ι

def State.initial {ι : Type} : State ι where
  postedCallbacks := []
  acceptingPosts := true
  stopRequested := false
  stopSignalling := false
  eventCount := 0
  armed := false
  cqes := []
  cancelSubmitted := false
  poster _ := .idle
  run := .unstarted
  callbacks := []
  accepted := []
  ran := []

/-- `more` は、書き込みや読み出しの可能な poll が残る CQE を核が返すかどうかを選ぶ。 -/
inductive Act (ι : Type) where
  | post (i : ι)
  | refuse (i : ι)
  | signal (i : ι) (more : Bool)
  | requestStop
  | signalStop (more : Bool)
  | start
  | pollReady (more : Bool)
  | pollCancelled
  | takeWakeup (more : Bool)
  | takeCancelled
  | consume (more : Bool)
  | swapCallbacks (more : Bool)
  | runCallback (more : Bool) (i : ι)
  | finish (more : Bool)
  | exit

variable {ι : Type} [DecidableEq ι]

/-- eventfd への書き込み。掛かっている poll は、値が零でなくなる書き込みごとに CQE を返す。 -/
def State.writeEvent (s : State ι) (more : Bool) : State ι :=
  { s with
    eventCount := if s.eventCount < eventCountMax then s.eventCount + 1 else s.eventCount
    cqes := if s.armed then s.cqes ++ [⟨false, more⟩] else s.cqes
    armed := s.armed && more }

def enabled (s : State ι) : Act ι → Prop
  | .post i => s.poster i = .idle ∧ s.acceptingPosts = true
  | .refuse i => s.poster i = .idle ∧ s.acceptingPosts = false
  | .signal i _ => s.poster i = .signalling
  | .requestStop => True
  | .signalStop _ => s.stopSignalling = true
  | .start => s.run = .unstarted
  | .pollReady _ => s.armed = true ∧ 0 < s.eventCount
  | .pollCancelled => s.armed = true ∧ s.cancelSubmitted = true
  | .takeWakeup more => s.run = .waiting ∧ s.cqes.head? = some ⟨false, more⟩
  | .takeCancelled => s.run = .waiting ∧ s.cqes.head? = some ⟨true, false⟩ ∧ s.stopRequested = true
  | .consume more => s.run = .wakeup more
  | .swapCallbacks more => s.run = .swapping more
  | .runCallback more i => s.run = .running more ∧ s.callbacks.head? = some i
  | .finish more => s.run = .running more ∧ s.callbacks = []
  | .exit => s.run = .waiting ∧ s.stopRequested = true ∧ s.armed = false ∧ s.cqes = []

def next (s : State ι) : Act ι → State ι
  | .post i =>
      { s with
        postedCallbacks := s.postedCallbacks ++ [i]
        poster := update s.poster i (if s.postedCallbacks.isEmpty then .signalling else .done)
        accepted := s.accepted ++ [i] }
  | .refuse i => { s with poster := update s.poster i .done }
  | .signal i more => { s.writeEvent more with poster := update s.poster i .done }
  | .requestStop =>
      if s.acceptingPosts then { s with acceptingPosts := false, stopRequested := true, stopSignalling := true } else s
  | .signalStop more => { s.writeEvent more with stopSignalling := false }
  | .start => { s with run := .waiting, armed := true }
  | .pollReady more => { s with cqes := s.cqes ++ [⟨false, more⟩], armed := more }
  | .pollCancelled => { s with cqes := s.cqes ++ [⟨true, false⟩], armed := false }
  | .takeWakeup more => { s with cqes := s.cqes.tail, run := .wakeup more }
  | .takeCancelled => { s with cqes := s.cqes.tail, cancelSubmitted := false }
  | .consume more => { s with eventCount := 0, run := .swapping more }
  | .swapCallbacks more => { s with callbacks := s.postedCallbacks, postedCallbacks := [], run := .running more }
  | .runCallback _ i => { s with callbacks := s.callbacks.tail, ran := s.ran ++ [i] }
  -- 止める求めがあれば poll を取り消し、なければ終わった poll を掛け直す
  | .finish more =>
      if s.stopRequested then { s with run := .waiting, cancelSubmitted := s.cancelSubmitted || more }
      else { s with run := .waiting, armed := s.armed || !more }
  | .exit => { s with run := .returned }

/-- 任意個の `Post` と `RequestStop`、`Run` の糸、核の poll の遷移系。 -/
def wakeup (ι : Type) [DecidableEq ι] : Machine (State ι) (Act ι) where
  init s := s = .initial
  enabled := enabled
  next := next

instance (s : State ι) (a : Act ι) : Decidable ((wakeup ι).enabled s a) := by
  cases a <;> dsimp only [wakeup, enabled] <;> infer_instance

/-- 積んだ後、`SignalWakeup` をまだ行っていない `Post` がある。 -/
def State.signalPending (s : State ι) : Prop := ∃ i, s.poster i = .signalling

/-- 書き込みを知らせる CQE が、処理されずに残っている。 -/
def State.pollinPending (s : State ι) : Prop := ∃ more, ⟨false, more⟩ ∈ s.cqes

/-- `ProcessWakeupCqe` が止める求めを見るときには、積まれた関数がないか、書き込みを知らせる CQE が残っている。 -/
def DrainedAtStop (s : State ι) : Act ι → Prop
  | .finish _ => s.stopRequested = true → s.postedCallbacks = [] ∨ s.pollinPending
  | _ => True

instance (s : State ι) (a : Act ι) : Decidable (DrainedAtStop s a) := by
  cases a <;> dsimp only [DrainedAtStop, State.pollinPending] <;> infer_instance

instance (s : State ι) (a : Act ι) : Decidable (((wakeup ι).restrict DrainedAtStop).enabled s a) :=
  inferInstanceAs (Decidable ((wakeup ι).enabled s a ∧ DrainedAtStop s a))

end UringContext

end Xrpc.Io
