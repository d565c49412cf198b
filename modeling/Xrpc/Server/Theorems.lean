import Xrpc.Server.Lemmas.DrainFlag
import Xrpc.Server.Lemmas.PoolCounters

/-!
# サーバーの主定理
-/

namespace Xrpc.Server
open Xrpc.Lib Xrpc.Common

/-! ## 処理結果の受け渡し -/

section

open WorkerResults

variable {ι : Type} [DecidableEq ι] {capacity : Nat} {s : State ι}

/-- 渡された結果は、`HandleWorkerResult` に渡されたもの、取り出しの手元のもの、待ち行列の中のもの、あふれたもの、
`PostWorkerResult` の手元のもののちょうど一つであり、二度は渡されない。待ち行列が空でなければ、取り出す者か、取り出しを
始める者がいる。 -/
theorem worker_results_conserved (h : (workerResults ι capacity).Reachable s) :
    s.handled.Nodup ∧
      s.begun.Perm (s.handled ++ s.drain.hand ++ s.queued capacity ++ s.overflow ++ s.producersHands) ∧
      (s.queue.enqueuePosition ≠ s.queue.dequeuePosition →
        s.drainPosted ∨ s.drain ≠ .idle ∨ ∃ i, s.unfinished i) := by
  have hplaces := reachable_places h
  have hpaired := reachable_paired h
  refine ⟨?_, ?_, ?_⟩
  · refine List.nodup_iff_count_le_one.mpr fun j => ?_
    have hj := hplaces j
    have hbegun := hpaired.begun j
    rw [State.places] at hj
    split at hbegun <;> omega
  · refine List.perm_iff_count.mpr fun j => ?_
    have hj := hplaces j
    rw [State.places] at hj
    simp only [List.count_append, State.producersHands, count_filter_holds hpaired, hj]
  · exact reachable_served h

/-- 空きを `d` で確かめて位置 `p` を予約し、結果を公開するまでの動作。 -/
def pushes (i : ι) (d p : Nat) : List (Act ι) :=
  [.begin i, .queue (.loadDequeue i), .queue (.loadEnqueue i d), .queue (.reserve i d p), .queue (.construct i p),
    .queue (.publish i p)]

/-- `TryPop` が値 `v` を返すまでの動作。 -/
def pops (v : ι) : List (Act ι) := [.queue .popLoad, .queue .popReady, .queue (.popTake v), .queue (.popStore v)]

/-- 最初の結果が渡され、取り出しが空の待ち行列を見るまでの動作。 -/
def drainsFirst (i : ι) : List (Act ι) :=
  pushes i 0 0 ++ [.exchange i, .postDrain i, .swapCallbacks, .runDrain] ++ pops i ++ [.handle 0 i, .queue .popEmpty]

/-- 枠が一つの待ち行列に二つの結果が渡され、後の一つがあふれる。 -/
theorem worker_results_conserved_overflow :
    ∃ s, (workerResults (Fin 2) 1).Reachable s ∧ s.queued 1 = [0] ∧ s.overflow = [1] ∧
      s.begun.Perm (s.handled ++ s.drain.hand ++ s.queued 1 ++ s.overflow ++ s.producersHands) := by
  obtain ⟨s, hs, hp⟩ := Machine.exists_reachable_of_exec (M := workerResults (Fin 2) 1) (s := .initial)
    (pushes 0 0 0 ++ [.begin 1, .queue (.loadDequeue 1), .queue (.refuse 1 0), .postOverflow 1])
    (fun s => decide (s.queued 1 = [0] ∧ s.overflow = [1])) (.init rfl) (by decide)
  obtain ⟨hqueued, hoverflow⟩ := of_decide_eq_true hp
  exact ⟨s, hs, hqueued, hoverflow, (worker_results_conserved hs).2.1⟩

/-- 旗を下ろした後の `TryPop` が結果を返し、旗を立て直す前の状態。渡された二つのうちの一つは、取り出しの手元にだけある。 -/
theorem popped_result_in_drain_hand :
    ∃ s, (workerResults (Fin 2) 2).Reachable s ∧ s.drain = .rearm 1 ∧
      s.begun.length = 2 ∧ (s.handled ++ s.queued 2 ++ s.overflow ++ s.producersHands).length = 1 := by
  obtain ⟨s, hs, hp⟩ := Machine.exists_reachable_of_exec (M := workerResults (Fin 2) 2) (s := .initial)
    (drainsFirst 0 ++ pushes 1 1 1 ++ [.exchange 1, .clear] ++ pops 1)
    (fun s => decide (s.drain = .rearm 1 ∧ s.begun.length = 2 ∧
      (s.handled ++ s.queued 2 ++ s.overflow ++ s.producersHands).length = 1)) (.init rfl) (by decide)
  exact ⟨s, hs, of_decide_eq_true hp⟩

end

/-! ## 旗の書き込みの遅れ -/

section

open WorkerResults DrainFlag

variable {ι : Type} [DecidableEq ι] {capacity : Nat} {s : TsoState ι}

/-- 旗を下ろす書き込みが届いてから読み直す実行では、静かな状態の待ち行列は空である。 -/
theorem quiet_queue_empty (h : (tsoWorkerResults ι capacity).Reach Fenced s) (hquiet : s.quiet) :
    s.base.queue.enqueuePosition = s.base.queue.dequeuePosition := by
  obtain ⟨hzero, hproducer, hposted, hdrain⟩ := hquiet
  have hreach := (flagSimulation ι capacity).reach h
  have hview : s.view = s.base := by rw [TsoState.view, if_pos hzero]
  rw [show (flagSimulation ι capacity).view s = s.base from hview] at hreach
  by_contra hne
  rcases reachable_served hreach hne with h | h | ⟨i, hreserved, hdone⟩
  · exact hposted h
  · exact h hdrain
  · have hidle := (hproducer i).resolve_right hdone
    have hpush := (reachable_paired hreach).idle i hidle
    have := ((reachable_queue hreach).reserved_iff i).mp hreserved
    rw [hpush] at this
    cases this

/-- 結果を一つ渡し終えるまでの動作。書き込みは、読み直す前に届く。 -/
theorem quiet_queue_empty_delivered :
    ∃ s, (tsoWorkerResults (Fin 1) 1).Reach Fenced s ∧ s.base.handled = [0] ∧ s.quiet ∧
      s.base.queue.enqueuePosition = s.base.queue.dequeuePosition := by
  obtain ⟨s, hs, hp⟩ := Machine.exists_reachable_of_exec (M := (tsoWorkerResults (Fin 1) 1).restrict Fenced)
    (s := ⟨.initial, 0⟩)
    ((drainsFirst 0).map .base ++ [.base .clear, .deliver, .base (.queue .popEmpty)])
    (fun s => decide (s.base.handled = [0] ∧ s.quiet)) (.init ⟨rfl, rfl⟩) (by decide)
  obtain ⟨hhandled, hquiet⟩ := of_decide_eq_true hp
  have hreach := Machine.reach_of_restrict hs
  exact ⟨s, hreach, hhandled, hquiet, quiet_queue_empty hreach hquiet⟩

/-- 書き込みが読み直しより遅れると、結果が取り残される。静かな状態で、公開された結果が待ち行列に残っている。 -/
theorem delayed_flag_strands_result :
    ∃ s, (tsoWorkerResults (Fin 2) 2).Reachable s ∧ s.quiet ∧ s.base.queue.contents 2 = [1] ∧
      s.base.queue.enqueuePosition ≠ s.base.queue.dequeuePosition := by
  obtain ⟨s, hs, hp⟩ := Machine.exists_reachable_of_exec (M := tsoWorkerResults (Fin 2) 2) (s := ⟨.initial, 0⟩)
    ((drainsFirst 0).map .base ++ [.base .clear, .base (.queue .popEmpty)] ++ (pushes 1 1 1).map .base ++
      [.base (.exchange 1), .deliver])
    (fun s => decide (s.quiet ∧ s.base.queue.contents 2 = [1] ∧ s.base.queue.enqueuePosition ≠ s.base.queue.dequeuePosition))
    (.init ⟨rfl, rfl⟩) (by decide)
  exact ⟨s, hs, of_decide_eq_true hp⟩

end

/-! ## 作業の糸の集まり -/

section

open WorkerPool

variable {ι ω κ : Type} [DecidableEq ι] [DecidableEq ω] [DecidableEq κ] {cfg : Config ι ω} {s : State ι ω κ}

/-- `CloseSubmissions` が返った後は誰も積まず、`TrySubmitBatch` は積んだ仕事にだけ真を返し、積んだ仕事は列の糸が順に高々一度
走らせる。`DrainAndJoin` が糸を待ち終えると、積んだ仕事はすべて走り終えている。 -/
theorem workerPool_drains (h : (workerPool κ cfg).Reachable s) :
    (∀ k s', (s.closer k).hasClosed = true → (workerPool κ cfg).Steps (fun _ _ => True) s s' → s'.pushed = s.pushed) ∧
      (∀ i accepted, s.submit i = .returned accepted → (accepted = true ↔ ∃ w, i ∈ s.pushed w)) ∧
      (∀ w, s.ran w ++ (s.worker w).taken ++ s.jobs w = s.pushed w ∧ (s.pushed w).Nodup) ∧
      (∀ i w v, i ∈ s.pushed w → i ∈ s.pushed v → w = v) ∧
      (∀ k, s.closer k = .joined → ∀ w, s.ran w = s.pushed w ∧ s.jobs w = []) := by
  have hrecorded := reachable_recorded h
  refine ⟨fun k s' hk => pushed_of_hasClosed h hk, ?_, fun w => ⟨hrecorded.order w, hrecorded.nodup w⟩,
    hrecorded.unique, fun k hk => ran_of_joined h hk⟩
  intro i accepted hi
  rw [hrecorded.queued i, hi]
  cases accepted <;> simp [SubmitPc.queued]

/-- 二つの要求を一つの糸が受け持つ設定。 -/
def singleWorker : Config (Fin 2) (Fin 1) where
  maxPendingJobs := 4
  logicalJobs _ := 2
  workers := [0]
  max_lt := by decide
  logicalJobs_pos _ := by decide
  mem_workers := by decide
  workers_nodup := by decide

/-- 仕事 `i` を予約して積むまでの動作。`pending` は、先に読む数である。 -/
def submits (i : Fin 2) (pending : Nat) : List (Act (Fin 2) (Fin 1) (Fin 1)) :=
  [.check i, .load i, .reserve i pending, .select i 0, .lock i 0, .recheck i 0, .push i 0, .unlock i 0 true]

/-- 受け付けを終える動作。 -/
def closes (drain : Bool) : List (Act (Fin 2) (Fin 1) (Fin 1)) :=
  [.close 0 drain, .store 0 drain, .sweep 0 drain 0 [], .swept 0 drain]

/-- 積まれた仕事を走らせ、糸が終わるのを待つ。 -/
theorem workerPool_drains_joined :
    ∃ s, (workerPool (Fin 1) singleWorker).Reachable s ∧ s.closer 0 = .joined ∧ s.pushed 0 = [0] ∧
      s.ran 0 = s.pushed 0 ∧ s.jobs 0 = [] := by
  obtain ⟨s, hs, hp⟩ := Machine.exists_reachable_of_exec (M := workerPool (Fin 1) singleWorker) (s := .initial)
    (submits 0 0 ++ closes true ++
      [.exchange 0, .notify 0 0 [], .notified 0, .workerLock 0, .workerNonEmpty 0, .workerPop 0 0, .workerUnlock 0 0,
        .workerRun 0 0, .workerSubtract 0 0, .workerRelease 0 0, .workerLock 0, .workerDrained 0, .workerExit 0,
        .join 0 0 [], .joined 0])
    (fun s => decide (s.closer 0 = .joined ∧ s.pushed 0 = [0])) (.init rfl) (by decide)
  obtain ⟨hjoined, hpushed⟩ := of_decide_eq_true hp
  exact ⟨s, hs, hjoined, hpushed, (workerPool_drains hs).2.2.2.2 0 hjoined 0⟩

/-- `pending_jobs_` は、予約されたもの、列にあるもの、走っているものの要求の数の和であり、上限を越えない。列の数は、列の仕事と、
糸が取り出してまだ引いていないものの数である。加減は溢れず、断られた呼び出しは、自身の動作でどの数も変えていない。 -/
theorem workerPool_counters {acts : List (Act ι ω κ)} (h : (workerPool κ cfg).exec .initial acts = some s) :
    s.pendingJobs = cfg.logical s.reserving +
        cfg.total (fun w => cfg.logical (s.jobs w) + cfg.logical (s.worker w).executing) ∧
      (∀ i, i ∈ s.reserving ↔ (s.submit i).reserved = true) ∧ s.reserving.Nodup ∧
      s.pendingJobs ≤ cfg.maxPendingJobs ∧ (∀ a, (workerPool κ cfg).enabled s a → inRange cfg s a) ∧
      (∀ w, s.queuedLogicalJobs w = cfg.logical (s.jobs w) ∧
        s.pendingLogicalJobs w = cfg.logical (s.jobs w) + cfg.logical (s.worker w).unsubtracted) ∧
      (∀ i, s.submit i = .returned false ∨ s.submit i = .threw →
        ownChange cfg i (·.pendingJobs) .initial acts = 0 ∧
          ∀ w, ownChange cfg i (·.queuedLogicalJobs w) .initial acts = 0 ∧
            ownChange cfg i (·.pendingLogicalJobs w) .initial acts = 0) := by
  have hreach := Machine.reachable_of_exec (.init rfl) h
  have hcounted := reachable_counted hreach
  exact ⟨hcounted.pending, hcounted.mem, hcounted.nodup, hcounted.le_max, fun _ => reachable_inRange hreach,
    fun w => ⟨hcounted.queued w, hcounted.perQueue w⟩, fun _ => ownChange_refused h⟩

/-- 一つが積まれた後、予約した呼び出しが、受け付けの終わりを見て数を戻す。 -/
theorem workerPool_counters_rollback :
    ∃ acts s, (workerPool (Fin 1) singleWorker).exec .initial acts = some s ∧ s.submit 1 = .returned false ∧
      s.pendingJobs = 2 ∧ ownChange singleWorker 1 (·.pendingJobs) .initial acts = 0 := by
  have hrun : ((workerPool (Fin 1) singleWorker).exec .initial
      (submits 0 0 ++ [.check 1, .load 1, .reserve 1 2] ++ closes false ++
        [.select 1 0, .lock 1 0, .recheck 1 0, .rollback 1 0, .unlock 1 0 false])).any
      (fun s => decide (s.submit 1 = .returned false ∧ s.pendingJobs = 2)) = true := by decide
  obtain ⟨s, hexec, hp⟩ := (Option.any_eq_true _ _).mp hrun
  obtain ⟨hrefused, hpending⟩ := of_decide_eq_true hp
  exact ⟨_, s, hexec, hrefused, hpending, ((workerPool_counters hexec).2.2.2.2.2.2 1 (.inl hrefused)).1⟩

end

end Xrpc.Server
