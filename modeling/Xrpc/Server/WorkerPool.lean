import Xrpc.Lib.Machine

/-!
# 作業の糸の集まり

`src/server/worker_pool.cpp` の `TrySubmitBatch`、`CloseSubmissions`、`DrainAndJoin`、`WorkerLoop` を、原子操作と排他の獲得ごとの
動作からなる遷移系として写す。一回の `TrySubmitBatch` を一つの名前 `ι` で、`CloseSubmissions` か `DrainAndJoin` の一回の呼び出しを
`κ` で、作業の糸とその列を `ω` で表す。`SelectWorkerQueue` の選ぶ列は、どれでもよいものとする。
-/

namespace Xrpc.Server
open Xrpc.Lib Function

/-! ## `std::size_t` の加減 -/

def addSize (a b : Nat) : Nat := (a + b) % 2 ^ 64

def subSize (a b : Nat) : Nat := (a + (2 ^ 64 - b)) % 2 ^ 64

namespace WorkerPool

/-- `logicalJobs` は、それぞれの呼び出しが渡す要求の数である。 -/
structure Config (ι ω : Type) where
  maxPendingJobs : Nat
  logicalJobs : ι → Nat
  workers : List ω
  max_lt : maxPendingJobs < 2 ^ 64
  logicalJobs_pos : ∀ i, 0 < logicalJobs i
  mem_workers : ∀ w, w ∈ workers
  workers_nodup : workers.Nodup

/-- `TrySubmitBatch` の位置。`recheck` から `unlock` までと `unwind` は、列 `w` の排他を握る。`unwind` から後は、積む
途中で投げた例外の道である。 -/
inductive SubmitPc (ω : Type) where
  | check
  | load
  | reserve (pending : Nat)
  | select
  | lock (w : ω)
  | recheck (w : ω)
  | rollback (w : ω)
  | push (w : ω)
  | unlock (w : ω) (accepted : Bool)
  | returned (accepted : Bool)
  | unwind (w : ω)
  | release
  | threw
  deriving DecidableEq

/-- `WorkerLoop` の位置。`test`、`pop`、`unlock`、`exiting` は列の排他を握る。 -/
inductive WorkerPc (ι : Type) where
  | lock
  | test
  | sleep
  | pop
  | unlock (job : ι)
  | run (job : ι)
  | subtract (job : ι)
  | release (job : ι)
  | exiting
  | exited
  deriving DecidableEq

/-- `CloseSubmissions` と `DrainAndJoin` の位置。`drain` は後者の中の呼び出しを表す。 -/
inductive CloserPc (ω : Type) where
  | idle
  | store (drain : Bool)
  | sweep (drain : Bool) (rest : List ω)
  | closed
  | exchange
  | notify (rest : List ω)
  | join (rest : List ω)
  | joined
  deriving DecidableEq

/-- 列の排他を握る者。 -/
inductive Holder (ι : Type) where
  | submitter (i : ι)
  | worker
  deriving DecidableEq

/-- `reserving` は、数を予約してまだ列に積んでも戻してもいない呼び出しである。`pushed` と `ran` は、列ごとに積んだ順と走らせた順の
記録である。 -/
structure State (ι ω κ : Type) where
  accepting : Bool
  drainRequested : Bool
  pendingJobs : Nat
  mutex : ω → Option (Holder ι)
  jobs : ω → List ι
  queuedLogicalJobs : ω → Nat
  pendingLogicalJobs : ω → Nat
  submit : ι → SubmitPc ω
  worker : ω → WorkerPc ι
  closer : κ → CloserPc ω
  reserving : List ι
  pushed : ω → List ι
  ran : ω → List ι

def State.initial {ι ω κ : Type} : State ι ω κ where
  accepting := true
  drainRequested := false
  pendingJobs := 0
  mutex _ := none
  jobs _ := []
  queuedLogicalJobs _ := 0
  pendingLogicalJobs _ := 0
  submit _ := .check
  worker _ := .lock
  closer _ := .idle
  reserving := []
  pushed _ := []
  ran _ := []

inductive Act (ι ω κ : Type) where
  | check (i : ι)
  | refuseClosed (i : ι)
  | load (i : ι)
  | refuseFull (i : ι) (pending : Nat)
  | reserve (i : ι) (pending : Nat)
  | retry (i : ι) (pending : Nat)
  | select (i : ι) (w : ω)
  | lock (i : ι) (w : ω)
  | recheck (i : ι) (w : ω)
  | rollback (i : ι) (w : ω)
  | push (i : ι) (w : ω)
  | unlock (i : ι) (w : ω) (accepted : Bool)
  | throwPush (i : ι) (w : ω)
  | unwind (i : ι) (w : ω)
  | release (i : ι)
  | workerLock (w : ω)
  | workerNonEmpty (w : ω)
  | workerDrained (w : ω)
  | workerSleep (w : ω)
  | workerWake (w : ω)
  | workerPop (w : ω) (job : ι)
  | workerUnlock (w : ω) (job : ι)
  | workerRun (w : ω) (job : ι)
  | workerSubtract (w : ω) (job : ι)
  | workerRelease (w : ω) (job : ι)
  | workerExit (w : ω)
  | close (k : κ) (drain : Bool)
  | store (k : κ) (drain : Bool)
  | sweep (k : κ) (drain : Bool) (w : ω) (rest : List ω)
  | swept (k : κ) (drain : Bool)
  | exchange (k : κ)
  | notify (k : κ) (w : ω) (rest : List ω)
  | notified (k : κ)
  | join (k : κ) (w : ω) (rest : List ω)
  | joined (k : κ)

variable {ι ω κ : Type} [DecidableEq ι] [DecidableEq ω] [DecidableEq κ] (cfg : Config ι ω)

/-- 予約できる。`pending` は、先に読んだ `pending_jobs_` の値である。 -/
def Config.fits (cfg : Config ι ω) (i : ι) (pending : Nat) : Bool :=
  !(pending > cfg.maxPendingJobs || cfg.logicalJobs i > cfg.maxPendingJobs - pending)

def enabled (s : State ι ω κ) : Act ι ω κ → Prop
  | .check i => s.submit i = .check ∧ s.accepting = true
  | .refuseClosed i => s.submit i = .check ∧ s.accepting = false
  | .load i => s.submit i = .load
  | .refuseFull i p => s.submit i = .reserve p ∧ cfg.fits i p = false
  | .reserve i p => s.submit i = .reserve p ∧ cfg.fits i p = true ∧ s.pendingJobs = p
  | .retry i p => s.submit i = .reserve p ∧ cfg.fits i p = true
  | .select i _ => s.submit i = .select
  | .lock i w => s.submit i = .lock w ∧ s.mutex w = none
  | .recheck i w => s.submit i = .recheck w
  | .rollback i w => s.submit i = .rollback w
  | .push i w => s.submit i = .push w
  | .unlock i w b => s.submit i = .unlock w b
  | .throwPush i w => s.submit i = .push w
  | .unwind i w => s.submit i = .unwind w
  | .release i => s.submit i = .release
  | .workerLock w => s.worker w = .lock ∧ s.mutex w = none
  | .workerNonEmpty w => s.worker w = .test ∧ s.jobs w ≠ []
  | .workerDrained w => s.worker w = .test ∧ s.jobs w = [] ∧ s.drainRequested = true
  | .workerSleep w => s.worker w = .test ∧ s.jobs w = [] ∧ s.drainRequested = false
  | .workerWake w => s.worker w = .sleep
  | .workerPop w i => s.worker w = .pop ∧ (s.jobs w).head? = some i
  | .workerUnlock w i => s.worker w = .unlock i
  | .workerRun w i => s.worker w = .run i
  | .workerSubtract w i => s.worker w = .subtract i
  | .workerRelease w i => s.worker w = .release i
  | .workerExit w => s.worker w = .exiting
  | .close k _ => s.closer k = .idle
  | .store k drain => s.closer k = .store drain
  | .sweep k drain w rest => s.closer k = .sweep drain (w :: rest) ∧ s.mutex w = none
  | .swept k drain => s.closer k = .sweep drain []
  | .exchange k => s.closer k = .exchange
  | .notify k w rest => s.closer k = .notify (w :: rest) ∧ s.mutex w = none
  | .notified k => s.closer k = .notify []
  | .join k w rest => s.closer k = .join (w :: rest) ∧ s.worker w = .exited
  | .joined k => s.closer k = .join []

def next (s : State ι ω κ) : Act ι ω κ → State ι ω κ
  | .check i => { s with submit := update s.submit i .load }
  | .refuseClosed i => { s with submit := update s.submit i (.returned false) }
  | .load i => { s with submit := update s.submit i (.reserve s.pendingJobs) }
  | .refuseFull i _ => { s with submit := update s.submit i (.returned false) }
  | .reserve i _ =>
      { s with
        pendingJobs := addSize s.pendingJobs (cfg.logicalJobs i)
        submit := update s.submit i .select
        reserving := i :: s.reserving }
  | .retry i _ => { s with submit := update s.submit i (.reserve s.pendingJobs) }
  | .select i w => { s with submit := update s.submit i (.lock w) }
  | .lock i w => { s with mutex := update s.mutex w (some (.submitter i)), submit := update s.submit i (.recheck w) }
  | .recheck i w => { s with submit := update s.submit i (if s.accepting then .push w else .rollback w) }
  | .rollback i w =>
      { s with
        pendingJobs := subSize s.pendingJobs (cfg.logicalJobs i)
        submit := update s.submit i (.unlock w false)
        reserving := s.reserving.erase i }
  | .push i w =>
      { s with
        jobs := update s.jobs w (s.jobs w ++ [i])
        pendingLogicalJobs := update s.pendingLogicalJobs w (addSize (s.pendingLogicalJobs w) (cfg.logicalJobs i))
        queuedLogicalJobs := update s.queuedLogicalJobs w (addSize (s.queuedLogicalJobs w) (cfg.logicalJobs i))
        submit := update s.submit i (.unlock w true)
        reserving := s.reserving.erase i
        pushed := update s.pushed w (s.pushed w ++ [i]) }
  | .unlock i w b => { s with mutex := update s.mutex w none, submit := update s.submit i (.returned b) }
  | .throwPush i w => { s with submit := update s.submit i (.unwind w) }
  | .unwind i w => { s with mutex := update s.mutex w none, submit := update s.submit i .release }
  | .release i =>
      { s with
        pendingJobs := subSize s.pendingJobs (cfg.logicalJobs i)
        submit := update s.submit i .threw
        reserving := s.reserving.erase i }
  | .workerLock w => { s with mutex := update s.mutex w (some .worker), worker := update s.worker w .test }
  | .workerNonEmpty w => { s with worker := update s.worker w .pop }
  | .workerDrained w => { s with worker := update s.worker w .exiting }
  | .workerSleep w => { s with mutex := update s.mutex w none, worker := update s.worker w .sleep }
  | .workerWake w => { s with worker := update s.worker w .lock }
  | .workerPop w i =>
      { s with
        jobs := update s.jobs w (s.jobs w).tail
        queuedLogicalJobs := update s.queuedLogicalJobs w (subSize (s.queuedLogicalJobs w) (cfg.logicalJobs i))
        worker := update s.worker w (.unlock i) }
  | .workerUnlock w i => { s with mutex := update s.mutex w none, worker := update s.worker w (.run i) }
  | .workerRun w i => { s with worker := update s.worker w (.subtract i), ran := update s.ran w (s.ran w ++ [i]) }
  | .workerSubtract w i =>
      { s with
        pendingLogicalJobs := update s.pendingLogicalJobs w (subSize (s.pendingLogicalJobs w) (cfg.logicalJobs i))
        worker := update s.worker w (.release i) }
  | .workerRelease w i =>
      { s with
        pendingJobs := subSize s.pendingJobs (cfg.logicalJobs i)
        worker := update s.worker w .lock }
  | .workerExit w => { s with mutex := update s.mutex w none, worker := update s.worker w .exited }
  | .close k drain => { s with closer := update s.closer k (.store drain) }
  | .store k drain => { s with accepting := false, closer := update s.closer k (.sweep drain cfg.workers) }
  | .sweep k drain _ rest => { s with closer := update s.closer k (.sweep drain rest) }
  | .swept k drain => { s with closer := update s.closer k (if drain then .exchange else .closed) }
  | .exchange k =>
      { s with
        drainRequested := true
        closer := update s.closer k (if s.drainRequested then .closed else .notify cfg.workers) }
  | .notify k _ rest => { s with closer := update s.closer k (.notify rest) }
  | .notified k => { s with closer := update s.closer k (.join cfg.workers) }
  | .join k _ rest => { s with closer := update s.closer k (.join rest) }
  | .joined k => { s with closer := update s.closer k .joined }

/-- 任意個の `TrySubmitBatch`、`CloseSubmissions`、`DrainAndJoin` と、作業の糸の遷移系。 -/
def workerPool (κ : Type) [DecidableEq κ] (cfg : Config ι ω) : Machine (State ι ω κ) (Act ι ω κ) where
  init s := s = .initial
  enabled := enabled cfg
  next := next cfg

instance (s : State ι ω κ) (a : Act ι ω κ) : Decidable ((workerPool κ cfg).enabled s a) := by
  cases a <;> dsimp only [workerPool, enabled] <;> infer_instance

/-! ## 位置から読み取ること -/

/-- 数を予約していて、まだ積んでも戻してもいない。 -/
def SubmitPc.reserved : SubmitPc ω → Bool
  | .select | .lock _ | .recheck _ | .rollback _ | .push _ | .unwind _ | .release => true
  | _ => false

/-- 列に積み終えている。 -/
def SubmitPc.queued : SubmitPc ω → Bool
  | .unlock _ true | .returned true => true
  | _ => false

/-- 取り出して、まだ走らせていない仕事。 -/
def WorkerPc.taken : WorkerPc ι → List ι
  | .unlock i | .run i => [i]
  | _ => []

/-- 取り出して、`pending_logical_jobs_` からまだ引いていない仕事。 -/
def WorkerPc.unsubtracted : WorkerPc ι → List ι
  | .unlock i | .run i | .subtract i => [i]
  | _ => []

/-- 取り出して、`pending_jobs_` からまだ引いていない仕事。 -/
def WorkerPc.executing : WorkerPc ι → List ι
  | .unlock i | .run i | .subtract i | .release i => [i]
  | _ => []

/-- `CloseSubmissions` が返った後の位置。 -/
def CloserPc.hasClosed : CloserPc ω → Bool
  | .closed | .exchange | .notify _ | .join _ | .joined => true
  | _ => false

/-- 仕事の並びの要求の数。 -/
def Config.logical (cfg : Config ι ω) (jobs : List ι) : Nat := (jobs.map cfg.logicalJobs).sum

/-- 列ごとの数の和。 -/
def Config.total (cfg : Config ι ω) (count : ω → Nat) : Nat := (cfg.workers.map count).sum

/-- 動作の中の `std::size_t` の加減が、範囲を越えない。 -/
def inRange (cfg : Config ι ω) (s : State ι ω κ) : Act ι ω κ → Prop
  | .reserve i p | .retry i p => p + cfg.logicalJobs i < 2 ^ 64
  | .rollback i _ | .release i | .workerRelease _ i => cfg.logicalJobs i ≤ s.pendingJobs
  | .push i w =>
      s.pendingLogicalJobs w + cfg.logicalJobs i < 2 ^ 64 ∧ s.queuedLogicalJobs w + cfg.logicalJobs i < 2 ^ 64
  | .workerPop w i => cfg.logicalJobs i ≤ s.queuedLogicalJobs w
  | .workerSubtract w i => cfg.logicalJobs i ≤ s.pendingLogicalJobs w
  | _ => True

end WorkerPool

end Xrpc.Server
