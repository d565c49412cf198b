import Xrpc.Common.MpscQueue

/-!
# 処理結果の受け渡し

`src/server/connection_io_loop.cpp` の `PostWorkerResult`、`ScheduleWorkerResultDrain`、`DrainWorkerResults` を、待ち行列の
原子操作と旗の読み書きからなる遷移系として写す。一回の `PostWorkerResult` を一つの名前 `ι` で表し、名前を結果の代わりに置く。
文脈は `Post` を受け付けている間を扱う。
-/

namespace Xrpc.Server
open Xrpc.Lib Xrpc.Common Function

namespace WorkerResults

def maxWorkerResultsPerDrain : Nat := 256

/-- `UringContext::Post` に渡された関数。`control` は、結果に触れないものを表す。 -/
inductive Callback (ι : Type) where
  | drain
  | overflow (result : ι)
  | control
  deriving DecidableEq

/-- `PostWorkerResult` の位置。`posting` は、旗を立てて `Post` を呼ぶ前である。 -/
inductive ProducerPc where
  | idle
  | pushing
  | posting
  | done
  deriving DecidableEq

/-- `DrainWorkerResults` の位置。`loop` は内側の繰り返しの `TryPop`、`recheck` は旗を下ろした後の `TryPop` を行う。 -/
inductive DrainPc (ι : Type) where
  | idle
  | loop (drained : Nat)
  | handling (drained : Nat) (result : ι)
  | clear
  | recheck
  | rearm (result : ι)
  | handleLast (result : ι)
  deriving DecidableEq

/-- `callbacks` は `RunPostedCallbacks` が取り出した残りである。`begun` と `handled` は、呼び出された `PostWorkerResult` と
`HandleWorkerResult` の記録である。 -/
structure State (ι : Type) where
  queue : MpscQueue.State ι
  drainScheduled : Bool
  postedCallbacks : List (Callback ι)
  callbacks : List (Callback ι)
  producer : ι → ProducerPc
  drain : DrainPc ι
  begun : List ι
  handled : List ι

def State.initial {ι : Type} : State ι where
  queue := .initial
  drainScheduled := false
  postedCallbacks := []
  callbacks := []
  producer _ := .idle
  drain := .idle
  begun := []
  handled := []

inductive Act (ι : Type) where
  | begin (i : ι)
  | queue (act : MpscQueue.Act ι)
  | exchange (i : ι)
  | postDrain (i : ι)
  | postOverflow (i : ι)
  | postControl
  | swapCallbacks
  | runControl
  | runOverflow (i : ι)
  | runDrain
  | handle (drained : Nat) (i : ι)
  | yield
  | clear
  | rearm (i : ι)
  | handleLast (i : ι)

/-- 次に `TryPop` を行う位置。 -/
def DrainPc.pops {ι : Type} : DrainPc ι → Bool
  | .loop drained => drained < maxWorkerResultsPerDrain
  | .recheck => true
  | _ => false

/-- `TryPop` の動作の後の位置。結果が返る動作のほかは動かない。 -/
def DrainPc.afterPop {ι : Type} (pc : DrainPc ι) : MpscQueue.Act ι → DrainPc ι
  | .popEmpty | .popUnready =>
      match pc with
      | .loop _ => .clear
      | .recheck => .idle
      | pc => pc
  | .popStore v =>
      match pc with
      | .loop drained => .handling drained v
      | .recheck => .rearm v
      | pc => pc
  | _ => pc

variable {ι : Type} [DecidableEq ι] (capacity : Nat)

/-- 待ち行列の動作 `a` を行う者が、その呼び出しの中にいる。 -/
def State.runs (s : State ι) (a : MpscQueue.Act ι) : Bool :=
  match a.pusher with
  | some i => s.producer i = .pushing
  | none => s.drain.pops

def enabled (s : State ι) : Act ι → Prop
  | .begin i => s.producer i = .idle
  | .queue a => MpscQueue.enabled capacity s.queue a ∧ s.runs a = true
  | .exchange i => s.producer i = .pushing ∧ s.queue.push i = .returned true
  | .postDrain i => s.producer i = .posting
  | .postOverflow i => s.producer i = .pushing ∧ s.queue.push i = .returned false
  | .postControl => True
  | .swapCallbacks => s.callbacks = [] ∧ s.drain = .idle
  | .runControl => s.callbacks.head? = some .control ∧ s.drain = .idle
  | .runOverflow i => s.callbacks.head? = some (.overflow i) ∧ s.drain = .idle
  | .runDrain => s.callbacks.head? = some .drain ∧ s.drain = .idle
  | .handle drained i => s.drain = .handling drained i
  | .yield => s.drain = .loop maxWorkerResultsPerDrain
  | .clear => s.drain = .clear
  | .rearm i => s.drain = .rearm i
  | .handleLast i => s.drain = .handleLast i

def next (s : State ι) : Act ι → State ι
  | .begin i => { s with producer := update s.producer i .pushing, begun := i :: s.begun }
  | .queue a => { s with queue := MpscQueue.next capacity s.queue a, drain := s.drain.afterPop a }
  | .exchange i =>
      { s with
        drainScheduled := true
        producer := update s.producer i (if s.drainScheduled then .done else .posting) }
  | .postDrain i =>
      { s with postedCallbacks := s.postedCallbacks ++ [.drain], producer := update s.producer i .done }
  | .postOverflow i =>
      { s with postedCallbacks := s.postedCallbacks ++ [.overflow i], producer := update s.producer i .done }
  | .postControl => { s with postedCallbacks := s.postedCallbacks ++ [.control] }
  | .swapCallbacks => { s with callbacks := s.postedCallbacks, postedCallbacks := [] }
  | .runControl => { s with callbacks := s.callbacks.tail }
  | .runOverflow i => { s with callbacks := s.callbacks.tail, handled := i :: s.handled }
  | .runDrain => { s with callbacks := s.callbacks.tail, drain := .loop 0 }
  | .handle drained i => { s with drain := .loop (drained + 1), handled := i :: s.handled }
  -- 旗を立てたまま、次の巡回へ譲る
  | .yield => { s with postedCallbacks := s.postedCallbacks ++ [.drain], drain := .idle }
  | .clear => { s with drainScheduled := false, drain := .recheck }
  | .rearm i => { s with drainScheduled := true, drain := .handleLast i }
  | .handleLast i => { s with drain := .loop 0, handled := i :: s.handled }

/-- 任意個の `PostWorkerResult` と、文脈の一つの糸の遷移系。 -/
def workerResults (ι : Type) [DecidableEq ι] (capacity : Nat) : Machine (State ι) (Act ι) where
  init s := s = .initial
  enabled := enabled capacity
  next := next capacity

instance decidableEnabled (s : State ι) (a : Act ι) : Decidable ((workerResults ι capacity).enabled s a) := by
  cases a <;> dsimp only [workerResults, enabled] <;> infer_instance

/-- 待ち行列から取り出し、まだ `HandleWorkerResult` に渡していない結果。 -/
def DrainPc.hand {ι : Type} : DrainPc ι → List ι
  | .handling _ v | .rearm v | .handleLast v => [v]
  | _ => []

def Callback.results {ι : Type} : Callback ι → List ι
  | .overflow i => [i]
  | _ => []

/-- あふれた結果を持つ、まだ走っていない関数の中の結果。 -/
def State.overflow (s : State ι) : List ι := (s.postedCallbacks ++ s.callbacks).flatMap Callback.results

/-- 待ち行列の中の結果。位置を進める前の、取り出し途中のものを含む。 -/
def State.queued (s : State ι) : List ι := s.queue.taken ++ s.queue.contents capacity

/-- 結果がまだ `PostWorkerResult` の手元にある。枠に置かれると手を離れる。 -/
def holding : ProducerPc → MpscQueue.PushPc → Bool
  | .pushing, .publish _ => false
  | .pushing, .returned true => false
  | .pushing, _ => true
  | _, _ => false

def State.holds (s : State ι) (i : ι) : Bool := holding (s.producer i) (s.queue.push i)

def State.producersHands (s : State ι) : List ι := s.begun.filter s.holds

/-- 走っていない `DrainWorkerResults` がある。 -/
def State.drainPosted (s : State ι) : Prop := .drain ∈ s.postedCallbacks ++ s.callbacks

/-- 枠を予約し、`ScheduleWorkerResultDrain` をまだ終えていない。 -/
def State.unfinished (s : State ι) (i : ι) : Prop := i ∈ s.queue.reserved ∧ s.producer i ≠ .done

end WorkerResults

end Xrpc.Server
