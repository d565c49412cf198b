import Xrpc.Server.Lemmas.ConnectionIoLoop

/-!
# 例外の起こらない実行

例外の記録は、環境がその例外を起こすと決めた歩みでしか変わらない。
-/

namespace Xrpc.Server.ConnectionIoLoop
open Xrpc.Lib Function ServerConnection ConnectionCore

variable {cfg : ServerConnectionConfig} {s : ConnectionIoLoop} {P : ConnectionCore → Prop} {faults : Faults}

/-- `faults` の下で、書き込み側の歩みが保つ性質。借りる数にも、処理中の数にもよらない。 -/
structure Unharmed (faults : Faults) (P : ConnectionCore → Prop) : Prop where
  carry : ∀ {c c'}, c.faults = faults → Carry c c' → P c → P c'
  lend : ∀ {c bytes connections faults}, P c →
    P { c with ownerPendingWriteBytes := bytes, ownerLiveConnections := connections, faults := faults }
  count : ∀ {c inflight}, P c → P { c with inflightRequests := inflight }
  fresh : ∀ {faults}, P { faults := faults }

theorem unharmed_cancelFdThrew (h : faults.cancelFd = none) : Unharmed faults fun c => c.cancelFdThrew = false where
  carry hfaults hcarry hfalse := (hcarry.cancelled (hfaults ▸ h)).trans hfalse
  lend hfalse := hfalse
  count hfalse := hfalse
  fresh := rfl

namespace Unharmed

theorem runOn (h : Unharmed s.faults P) (hall : ∀ n, P (s.objects n).core) {n : Nat}
    {f : ServerConnection → ServerConnection} (hf : Carry (s.lend n).core (f (s.lend n)).core) (m : Nat) :
    P ((s.runOn n f).objects m).core := by
  show P (update s.objects n (f (s.lend n)) m).core
  by_cases hmn : m = n
  · rw [hmn, update_self]
    exact h.carry rfl hf (h.lend (hall n))
  · rw [update_of_ne hmn]
    exact hall m

theorem runOnCore (h : Unharmed s.faults P) (hall : ∀ n, P (s.objects n).core) {n : Nat}
    {g : ConnectionCore → ConnectionCore} (hg : Carry (s.lend n).core (g (s.lend n).core)) (m : Nat) :
    P ((s.runOn n fun c => { c with core := g c.core }).objects m).core :=
  h.runOn hall hg m

theorem modify (hall : ∀ n, P (s.objects n).core) {n : Nat} {f : ServerConnection → ServerConnection}
    (hf : (f (s.objects n)).core = (s.objects n).core) (m : Nat) : P ((s.modify n f).objects m).core := by
  show P (update s.objects n (f (s.objects n)) m).core
  by_cases hmn : m = n
  · rw [hmn, update_self, hf]
    exact hall n
  · rw [update_of_ne hmn]
    exact hall m

/-- 表の並びの実体を、順に歩ませる。 -/
theorem foldl {w : ConnectionIoLoop → UInt64 × Nat → ConnectionIoLoop} (hfaults : ∀ s entry, (w s entry).faults = s.faults)
    (hw : ∀ s entry, Unharmed s.faults P → (∀ n, P (s.objects n).core) → ∀ n, P ((w s entry).objects n).core)
    (entries : List (UInt64 × Nat)) (h : Unharmed s.faults P) (hall : ∀ n, P (s.objects n).core) (n : Nat) :
    P ((entries.foldl w s).objects n).core := by
  induction entries generalizing s with
  | nil => exact hall n
  | cons entry rest ih => exact ih (by rw [hfaults]; exact h) (hw s entry h hall)

theorem startConnectionOnContext (h : Unharmed s.faults P) (hall : ∀ n, P (s.objects n).core) (recvRefused : Bool)
    (n : Nat) : P ((s.startConnectionOnContext cfg recvRefused).objects n).core := by
  rw [ConnectionIoLoop.startConnectionOnContext]
  split
  next => exact hall n
  next =>
    split
    next => exact hall n
    next =>
      split
      next => exact hall n
      next =>
        refine Unharmed.runOn (f := fun c => c.start recvRefused) (s := { s with
          nextConnectionId := s.nextConnectionId + 1
          connections := (s.nextConnectionId, s.created) :: s.connections
          liveConnections := s.liveConnections + 1
          created := s.created + 1
          objects := update s.objects s.created (create cfg s.nextConnectionId) }) h (fun m => ?_) ?_ n
        · show P (update s.objects s.created (create cfg s.nextConnectionId) m).core
          by_cases hm : m = s.created
          · rw [hm, update_self]
            exact h.fresh
          · rw [update_of_ne hm]
            exact hall m
        · exact (kept_start recvRefused).toCarry

theorem handleWorkerResult (h : Unharmed s.faults P) (hall : ∀ n, P (s.objects n).core) (refused : Bool)
    (result : WorkerResult) (n : Nat) : P ((s.handleWorkerResult cfg refused result).objects n).core := by
  rw [ConnectionIoLoop.handleWorkerResult]
  split
  next => exact hall n
  next m _ =>
    show P (update s.objects m ((s.lend m).handleResult cfg refused result) n).core
    by_cases hnm : n = m
    · have hrelease : P ((s.lend m).core.releaseInflightRequests result.releasedRequests) :=
        h.carry (c := { (s.lend m).core with
          inflightRequests := (s.lend m).core.inflightRequests - result.releasedRequests }) rfl (.of_eq rfl)
          (h.count (h.lend (hall m)))
      rw [hnm, update_self, handleResult]
      split
      next => exact h.carry rfl carry_close hrelease
      next =>
        have hencoded : P ((s.lend m).core.onResponsesEncoded cfg.limits refused result.responseBytes
            result.releasedRequests) := by
          rw [onResponsesEncoded]
          split
          next => exact hrelease
          next =>
            have hisolate := frame_isolateBadAlloc
              (c := (((s.lend m).core.releaseInflightRequests result.releasedRequests).enqueueWrite cfg.limits refused
                result.responseBytes).1)
            exact h.carry rfl ((enqueueWrite_forward cfg.limits refused _).1.trans
              (hisolate.trans frame_tryFinishDrain).toCarry) hrelease
        dsimp only
        split <;> exact hencoded
    · rw [update_of_ne hnm]
      exact hall n

theorem next (h : Unharmed s.faults P) (hall : ∀ n, P (s.objects n).core) (a : Act) (n : Nat) :
    P ((next cfg s a).objects n).core := by
  cases a with
  | start | postStartConnection | beginDrain | stopImmediately | requestStop | collectClosedConnections | fault =>
      exact hall n
  | startConnection recvRefused =>
      exact startConnectionOnContext (s := { s with pendingStarts := s.pendingStarts - 1 }.collectClosedConnections)
        h hall recvRefused n
  | beginDrainOnContext =>
      exact foldl (s := { s with drainPosted := false })
        (w := fun s entry => s.runOn entry.2 fun c => { c with core := c.core.beginDrain }) (fun _ _ => rfl)
        (fun _ _ h hall => h.runOnCore hall frame_beginDrain.toCarry) _ h hall n
  | closeConnectionsOnContext =>
      refine foldl (s := { s with closePosted := false })
        (w := fun s entry => if (s.objects entry.2).core.state = .closed then s
          else s.runOn entry.2 fun c => { c with core := c.core.close })
        (fun s entry => ?_) (fun s entry h hall => ?_) _ h hall n
      · split <;> rfl
      · split
        next => exact hall
        next => exact h.runOnCore hall carry_close
  | received n sendRefused recvRefused bytes => exact h.runOn hall (kept_received cfg sendRefused recvRefused bytes).toCarry _
  | receivedEof n => exact h.runOn hall kept_receivedEof.toCarry _
  | receiveFailed n => exact h.runOn hall kept_receiveFailed.toCarry _
  | submitAccepted n requests => exact h.runOn hall (.of_eq rfl) _
  | countAdmitted m recvRefused requestCount =>
      show P (update s.objects m ((s.lend m).countAdmitted recvRefused requestCount) n).core
      by_cases hnm : n = m
      · rw [hnm, update_self]
        exact h.carry rfl (kept_continueRead recvRefused).toCarry (h.count (h.lend (hall m)))
      · rw [update_of_ne hnm]
        exact hall n
  | submitFull n sendRefused recvRefused requests =>
      exact h.runOn hall (kept_submitFull cfg sendRefused recvRefused requests).toCarry _
  | submitClosed n requests => exact h.runOn hall kept_submitClosed.toCarry _
  | submitThrew n requests => exact h.runOn hall kept_submitThrew.toCarry _
  | sendCompleted n refused bytes => exact h.runOnCore hall (frame_sendCompleted refused (some bytes)).toCarry _
  | sendFailed n => exact h.runOnCore hall (frame_sendCompleted false none).toCarry _
  | handleWorkerResult m refused result =>
      rw [ConnectionIoLoop.next]
      split
      next =>
        exact handleWorkerResult (s := s.modify m fun c => c.takeResult result) h (modify hall rfl) refused result n
      next => exact modify hall rfl n
  | execute m job invoke => exact modify hall rfl n
  | post m batch result => exact modify hall rfl n

end Unharmed

/-- 例外の決まりは、`fault` だけが改める。 -/
theorem faults_next (cfg : ServerConnectionConfig) (s : ConnectionIoLoop) (a : Act) :
    (next cfg s a).faults = a.faults ∨ (next cfg s a).faults = s.faults := by
  cases a with
  | fault faults => exact .inl rfl
  | startConnection recvRefused =>
      refine .inr ?_
      rw [next, ConnectionIoLoop.startConnectionOnContext]
      repeat' split
      all_goals rfl
  | beginDrainOnContext =>
      exact .inr (foldl_keeps (s := { s with drainPosted := false }) ConnectionIoLoop.faults
        (w := fun s entry => s.runOn entry.2 fun c => { c with core := c.core.beginDrain }) (fun _ _ => rfl) _)
  | closeConnectionsOnContext => exact .inr (foldl_keeps ConnectionIoLoop.faults (fun _ _ => by split <;> rfl) _)
  | handleWorkerResult n refused result =>
      refine .inr ?_
      rw [next]
      split
      next =>
        rw [ConnectionIoLoop.handleWorkerResult]
        split <;> rfl
      next => rfl
  | _ => exact .inr rfl

/-- `CancelFd` の投げない実行では、どの接続の `Close` も終わりまで進む。 -/
theorem cancelFdThrew_of_reach (h : (connectionIoLoop cfg).Reach (fun _ a => a.faults.cancelFd = none) s) (n : Nat) :
    (s.objects n).core.cancelFdThrew = false := by
  refine (h.invariant (I := fun s => s.faults.cancelFd = none ∧ ∀ n, (s.objects n).core.cancelFdThrew = false)
    (by rintro _ rfl; exact ⟨rfl, fun _ => rfl⟩) fun s a _ hall _ hcancel => ?_).2 n
  refine ⟨?_, (unharmed_cancelFdThrew hall.1).next hall.2 a⟩
  rcases faults_next cfg s a with hfaults | hfaults
  · exact hfaults ▸ hcancel
  · exact hfaults ▸ hall.1

/-! ## 生きている接続の数 -/

/-- 数えられている実体は、閉じていないか、`Close` の `CancelFd` が投げたかの、どちらか一方である。 -/
theorem LoopInv.live_eq (h : LoopInv cfg s) :
    s.liveConnections = s.connections.countP (fun entry => (s.objects entry.2).core.state ≠ .closed) +
      (List.range s.created).countP fun n => (s.objects n).core.cancelFdThrew := by
  have hweight : ∀ n ∈ List.range s.created, (if (s.objects n).core.notified then 0 else 1) =
      (if (s.objects n).core.state = .closed then 0 else 1) +
        if (s.objects n).core.cancelFdThrew = false then 0 else 1 := by
    intro n hn
    obtain ⟨_, _, hobject⟩ := h.objects n (List.mem_range.mp hn)
    by_cases hclosed : (s.objects n).core.state = .closed
    · cases hthrew : (s.objects n).core.cancelFdThrew <;> simp [notified, hclosed, hthrew]
    · simp [notified, hclosed, hobject.write.not_threw hclosed]
  rw [h.live, unnotifiedConnections, List.map_congr_left hweight, List.sum_map_add, ← h.sum_connections
    (f := fun c => if c.core.state = .closed then 0 else 1) fun n _ hclosed => if_pos hclosed,
    sum_map_ite_eq_countP (fun entry : UInt64 × Nat => (s.objects entry.2).core.state = .closed),
    sum_map_ite_eq_countP (fun n => (s.objects n).core.cancelFdThrew = false)]
  simp

end Xrpc.Server.ConnectionIoLoop
