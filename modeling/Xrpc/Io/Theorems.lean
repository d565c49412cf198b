import Xrpc.Io.Lemmas.BufferPool
import Xrpc.Io.Lemmas.Operations
import Xrpc.Io.Lemmas.Socket
import Xrpc.Io.Lemmas.UringContext
import Xrpc.Protocol.Metadata

/-!
# 文脈の定理
-/

namespace Xrpc.Io
open Xrpc.Lib UringContext

variable {ι : Type} [DecidableEq ι] {s : UringContext.State ι}

/-- 積まれた関数があれば、読まれていない eventfd の値、処理していない CQE、`SignalWakeup` の前の `Post`、取り出す直前の `Run` の
どれかがある。受け付けた関数は、受け付けた順に、高々一度ずつ呼ばれる。 -/
theorem post_wakeup_not_lost (h : (wakeup ι).Reachable s) :
    (s.postedCallbacks ≠ [] →
      0 < s.eventCount ∨ s.cqes ≠ [] ∨ s.signalPending ∨ ∃ more, s.run = .swapping more) ∧
    s.ran.Nodup ∧ s.ran <+: s.accepted ∧ s.accepted = s.ran ++ s.callbacks ++ s.postedCallbacks := by
  have hordered := reachable_ordered h
  have hfront : s.ran <+: s.accepted := by
    rw [← hordered.order, List.append_assoc]
    exact List.prefix_append _ _
  refine ⟨fun hne => ?_, hfront.sublist.nodup hordered.nodup, hfront, hordered.order.symm⟩
  rcases reachable_woken h hne with hcount | hrest
  · exact .inl hcount
  · exact .inr (.inr hrest)

/-- 二つの関数が積まれ、一つ目だけが書き込む。 -/
theorem post_wakeup_not_lost_pair :
    ∃ s, (wakeup (Fin 2)).Reachable s ∧ s.postedCallbacks = [0, 1] ∧ s.signalPending ∧
      (0 < s.eventCount ∨ s.cqes ≠ [] ∨ s.signalPending ∨ ∃ more, s.run = .swapping more) := by
  obtain ⟨s, hs, hp⟩ := Machine.exists_reachable_of_exec (M := wakeup (Fin 2)) (s := .initial)
    [.start, .post 0, .post 1] (fun s => decide (s.postedCallbacks = [0, 1] ∧ s.poster 0 = .signalling)) (.init rfl)
    (by decide)
  obtain ⟨hposted, hsignal⟩ := of_decide_eq_true hp
  exact ⟨s, hs, hposted, ⟨0, hsignal⟩, (post_wakeup_not_lost hs).1 (by rw [hposted]; nofun)⟩

/-- 止める求めを見るときに、積まれた関数がないか、書き込みを知らせる CQE が残っていれば、`Run` は受け付けた関数をすべて呼んでから
戻る。 -/
theorem posted_callbacks_drained (h : (wakeup ι).Reach DrainedAtStop s) (hrun : s.run = .returned) : s.ran = s.accepted := by
  have hordered := reachable_ordered h.reachable
  have hawaited := reach_awaited h
  simp only [Awaited, hrun] at hawaited
  have hcallbacks : s.callbacks = [] := by
    by_contra hne
    obtain ⟨more, hmore⟩ := hordered.running hne
    rw [hrun] at hmore
    cases hmore
  have horder := hordered.order
  rwa [hcallbacks, hawaited.2, List.append_nil, List.append_nil] at horder

/-- 止める求めの書き込みを受けて取り出し、poll を取り消して戻る。 -/
theorem posted_callbacks_drained_once :
    ∃ s, (wakeup (Fin 1)).Reach DrainedAtStop s ∧ s.run = .returned ∧ s.accepted = [0] ∧ s.ran = s.accepted := by
  obtain ⟨s, hs, hp⟩ := Machine.exists_reachable_of_exec (M := (wakeup (Fin 1)).restrict DrainedAtStop) (s := .initial)
    [.start, .post 0, .requestStop, .signal 0 true, .takeWakeup true, .consume true, .swapCallbacks true,
      .runCallback true 0, .finish true, .pollCancelled, .takeCancelled, .exit]
    (fun s => decide (s.run = .returned ∧ s.accepted = [0])) (.init rfl) (by decide)
  have hreach := Machine.reach_of_restrict hs
  obtain ⟨hrun, haccepted⟩ := of_decide_eq_true hp
  exact ⟨s, hreach, hrun, haccepted, posted_callbacks_drained hreach hrun⟩

/-- 取り出した後に受け付けた関数は、書き込みの前に止める求めを見て poll を取り消すと、呼ばれないまま `Run` が戻る。 -/
theorem accepted_callback_lost_at_stop :
    ∃ s, (wakeup (Fin 2)).Reachable s ∧ s.run = .returned ∧ s.accepted = [0, 1] ∧ s.ran = [0] := by
  obtain ⟨s, hs, hp⟩ := Machine.exists_reachable_of_exec (M := wakeup (Fin 2)) (s := .initial)
    [.start, .post 0, .signal 0 true, .takeWakeup true, .consume true, .swapCallbacks true, .runCallback true 0, .post 1,
      .requestStop, .finish true, .pollCancelled, .takeCancelled, .exit]
    (fun s => decide (s.run = .returned ∧ s.accepted = [0, 1] ∧ s.ran = [0])) (.init rfl) (by decide)
  exact ⟨s, hs, of_decide_eq_true hp⟩

/-! ## 操作の表 -/

section OperationTable

variable {α : Type} [DecidableEq α] {ringEntries : Nat} {s : TableState α}

/-- 表は、加えられて最後の CQE を処理していない操作をちょうど一つずつ持ち、どの操作も自分の位置を知る。`staged_sqe_count_` は提出
待ちの数であり、待つときは零である。追跡の失敗と、提出待ちを残して待つ失敗は起こらず、`Run` は表が空のときだけ戻る。 -/
theorem operation_table_exact (h : (operationTable α ringEntries).Reachable s) :
    (∀ address, address ∈ s.operations ↔ s.Outstanding address) ∧ s.operations.Nodup ∧
    (∀ i address, s.operations[i]? = some address → s.ownerIndex address = i) ∧
    s.stagedSqeCount = s.sqes.length ∧ (s.pc = .wait → s.stagedSqeCount = 0) ∧
    s.pc ≠ .aborted TableState.untracked ∧ s.pc ≠ .aborted TableState.waitWithStaged ∧
    (s.pc = .returned → s.operations = []) := by
  obtain ⟨htracked, hsafe⟩ := TableState.reachable_sound h
  refine ⟨htracked.mem_iff, htracked.indexed.nodup, htracked.indexed, htracked.staged, ?_, ?_, ?_, ?_⟩
  · intro hpc
    rwa [TableState.PcSafe, hpc] at hsafe
  · intro hpc
    rw [TableState.PcSafe, hpc] at hsafe
    exact hsafe.1 rfl
  · intro hpc
    rw [TableState.PcSafe, hpc] at hsafe
    exact hsafe.2 rfl
  · intro hpc
    rwa [TableState.PcSafe, hpc] at hsafe

/-- 起床の poll の CQE の処理の中で二つの操作を始め、一部だけを提出する。先に始めた操作の完了は、後の操作を空いた所に移す。 -/
theorem operation_table_exact_swapped :
    ∃ s, (operationTable (Fin 3) 4).Reachable s ∧ s.operations = [0, 2] ∧ s.stagedSqeCount = 0 ∧ s.ownerIndex 2 = 1 ∧
      (2 ∈ s.operations ↔ s.Outstanding 2) := by
  obtain ⟨s, hs, hp⟩ := Machine.exists_reachable_of_exec (M := operationTable (Fin 3) 4) (s := .initial fun _ => 0)
    [.run 0, .getSqe, .submit .interrupted, .submit (.submitted 1), .endSubmit, .checkLoop, .kernelMore 0, .waitCqe,
      .processCqe, .tryStart 1 false, .getSqe, .tryStart 2 false, .getSqe, .endHandler, .submit (.submitted 1),
      .submit (.submitted 1), .endSubmit, .checkLoop, .kernelFinal 1, .waitCqe, .processCqe]
    (fun s => decide (s.operations = [0, 2] ∧ s.stagedSqeCount = 0 ∧ s.ownerIndex 2 = 1)) (.init ⟨_, rfl⟩)
    (by decide)
  obtain ⟨hoperations, hstaged, hindex⟩ := of_decide_eq_true hp
  exact ⟨s, hs, hoperations, hstaged, hindex, (operation_table_exact hs).1 2⟩

end OperationTable

/-! ## 受信バッファ -/

section BufferLeases

variable {ω : Type} [DecidableEq ω] {config : UringBufferPoolConfig} {s : LeaseState ω}

/-- どの番号も、核に差し出された所、処理していない CQE、借りた値のうちのちょうど一つにあり、借りた値は一つしかない。`leased_` と
`outstanding_leases_` は借りられた番号を正しく表し、差し出した数は `buffer_count_` を超えず、`Abort` は起こらない。 -/
theorem provided_buffer_leases_exact (h : (bufferLeases ω config).Reachable s) :
    (∀ bufferId : UInt16, bufferId.toNat < config.bufferCount.toNat → ∃! place, s.At bufferId place) ∧
    (∀ bufferId : UInt16, config.bufferCount.toNat ≤ bufferId.toNat → ∀ place, ¬ s.At bufferId place) ∧
    s.pool.bufferRing.Nodup ∧ (s.cqes.map ProvidedCqe.bufferId).Nodup ∧
    (∀ o o' bufferId, s.holding o = some bufferId → s.holding o' = some bufferId → o = o') ∧
    (∀ bufferId, s.pool.leased bufferId = true ↔ s.At bufferId .held) ∧
    s.pool.outstandingLeases = {bufferId | s.At bufferId .held}.ncard ∧
    s.pool.bufferRing.length ≤ config.bufferCount.toNat ∧ s.aborted = none := by
  have hsound := LeaseState.reachable_sound h
  have htotal := hsound.exact.total
  rw [hsound.config_eq] at htotal
  refine ⟨fun _ hid => hsound.existsUnique_place hid, fun _ hid place => hsound.not_at_of_le hid place, ?_, ?_,
    hsound.exact.unique, hsound.exact.leased, hsound.outstandingLeases_eq, by omega, hsound.running⟩
  · exact List.nodup_iff_count_le_one.mpr fun bufferId => hsound.copies_le bufferId .offered
  · exact List.nodup_iff_count_le_one.mpr fun bufferId => hsound.copies_le bufferId .selected

/-- 二つのバッファのうち、`0` は借りられて移され、`1` は選ばれている。 -/
theorem provided_buffer_leases_exact_moved :
    ∃ s, (bufferLeases (Fin 2) ⟨2, 16⟩).Reachable s ∧ s.holding 1 = some 0 ∧ s.holding 0 = none ∧
      s.cqes = [⟨1, 3⟩] ∧ s.pool.outstandingLeases = 1 ∧ ∃! place, s.At 0 place := by
  have hinit : (bufferLeases (Fin 2) ⟨2, 16⟩).init ⟨⟨⟨2, 16⟩, [0, 1], fun _ => false, 0⟩, [], fun _ => none, none⟩ :=
    ⟨rfl, rfl, rfl, rfl⟩
  obtain ⟨s, hs, hp⟩ := Machine.exists_reachable_of_exec (M := bufferLeases (Fin 2) ⟨2, 16⟩)
    [.select 0 5, .acquire 0 ⟨0, 5⟩, .moveConstruct 1 0, .select 1 3, .reset 0]
    (fun s => decide (s.holding 1 = some 0 ∧ s.holding 0 = none ∧ s.cqes = [⟨1, 3⟩] ∧ s.pool.outstandingLeases = 1))
    (.init hinit) (by decide)
  obtain ⟨hholding, hempty, hcqes, houtstanding⟩ := of_decide_eq_true hp
  exact ⟨s, hs, hholding, hempty, hcqes, houtstanding, (provided_buffer_leases_exact hs).1 0 (by decide)⟩

end BufferLeases

/-! ## 時限のある接続 -/

section Connect

open Xrpc.Protocol Xrpc.Client

/-- 時限までに接続が成り立つ答えの列で `Connect` が元の旗で成功するのは、旗を戻せて、`connect` が `EALREADY` も `EISCONN` も答えず、
`int` に縮めた時限の `poll` が時間切れにならないときに限る。時限が 2^32 ミリ秒に満たなければ、時間切れは起こらない。失敗を返すときの
ソケットは、旗を戻せなかったときを除いて、閉じている。 -/
theorem timed_connect_with_signals (env : Env) (kernel : ConnectKernel) (timeout : Int64) (htimeout : 0 < timeout)
    (descriptor : Option Descriptor) :
    (∀ fd flags (established : Nat), (descriptor = some (fd, flags) ∨ descriptor = none ∧ kernel.socket = .ok (fd, flags)) →
      kernel.addressValid = true → kernel.getFlagsFailure = none → kernel.setNonblockFailure = none →
      (established : Int) < timeout.toInt →
      Establishes (Socket.pollTimeout timeout) established 0 .idle kernel.answers →
      (Socket.connect env kernel timeout descriptor = some ⟨{}, some (fd, flags)⟩ ↔
        kernel.restoreFailure = none ∧ ∀ answer ∈ kernel.answers, answer ≠ .failed EALREADY ∧ answer ≠ .failed EISCONN ∧
          ¬ answer.TimesOut (Socket.pollTimeout timeout)) ∧
      (timeout.toInt < 2 ^ 32 → ∀ answer ∈ kernel.answers, ¬ answer.TimesOut (Socket.pollTimeout timeout))) ∧
    ∀ outcome, Socket.connect env kernel timeout descriptor = some outcome → outcome.status.isOk = false →
      outcome.descriptor = none ∨ ∃ errno fd flags, kernel.restoreFailure = some errno ∧
        outcome = ⟨makeSocketStatus env .configureFailed (text "fcntl(F_SETFL)") errno, some (fd, flags ||| O_NONBLOCK)⟩ := by
  refine ⟨fun fd flags established hopened haddress hget hset hbefore hestablishes => ⟨?_, fun hlt => ?_⟩,
    fun outcome h hfailed => ?_⟩
  · have hconnect : Socket.connect env kernel timeout descriptor =
        Socket.timedConnect env kernel timeout fd flags kernel.answers := by
      have hopen : Socket.connectOpened env kernel timeout fd flags =
          Socket.timedConnect env kernel timeout fd flags kernel.answers := by
        rw [Socket.connectOpened, if_neg (by simp [haddress]), if_neg (show ¬ timeout ≤ 0 from Int64.not_le.mpr htimeout),
          hget, hset]
      rcases hopened with rfl | ⟨rfl, hsocket⟩
      · exact hopen
      · simp only [Socket.connect, hsocket, hopen]
    rw [hconnect, Socket.timedConnect_iff hestablishes]
  · exact hestablishes.not_timesOut (Int64.lt_iff_toInt_lt.mp htimeout) hlt hbefore
  · cases descriptor with
    | some opened => exact Socket.connectOpened_failed htimeout h hfailed
    | none =>
        rw [Socket.connect] at h
        split at h
        · cases h
          exact .inl rfl
        · exact Socket.connectOpened_failed htimeout h hfailed

/-- 説明文のない環境。 -/
def plainEnv : Env := ⟨⟨.little, proto3⟩, fun _ => []⟩

/-- 記述子 3 を開き、旗の操作は成功するカーネル。 -/
def freshKernel (answers : List ConnectAnswer) : ConnectKernel := { socket := .ok (3, 2), answers := answers }

/-- `connect` が二度中断され、`poll` が書き込めることを告げる。接続は 600 ミリ秒で成り立つ。 -/
theorem timed_connect_with_signals_interrupted :
    Socket.connect plainEnv (freshKernel [.failed EINTR, .failed EINTR, .inProgress fun _ => .ready (.ok 0)]) 1000 none =
      some ⟨{}, some (3, 2)⟩ := by
  refine ((timed_connect_with_signals _ _ 1000 (by decide) none).1 3 2 600 (.inr ⟨rfl, rfl⟩) rfl rfl rfl (by decide)
    (.interrupted (Nat.zero_le 200) (.interrupted (by decide : 200 ≤ 300) (.polled rfl (.inr (by decide)))))).1.mpr ⟨rfl, ?_⟩
  simp [freshKernel, ConnectAnswer.TimesOut, EINTR, EALREADY, EISCONN]

/-- 時限までに接続が成り立つのに、失敗を返す三つの場合。`poll` が一度中断されると、次の `connect` の `EALREADY` や `EISCONN` を失敗と
みなして閉じる。2^32 ミリ秒の時限は `poll` に 0 として渡り、その場で時間切れになる。旗を戻せなければ、ソケットは開いたままである。 -/
theorem interrupted_poll_fails_connect :
    (Establishes (Socket.pollTimeout 1000) 2 0 .idle
        [.inProgress fun _ => .failed EINTR, .failed EALREADY, .connected] ∧
      Socket.connect plainEnv (freshKernel [.inProgress fun _ => .failed EINTR, .failed EALREADY, .connected]) 1000 none =
        some ⟨⟨.unavailable, text "connect failed: "⟩, none⟩) ∧
    (Establishes (Socket.pollTimeout 1000) 1 0 .idle [.inProgress fun _ => .failed EINTR, .failed EISCONN] ∧
      Socket.connect plainEnv (freshKernel [.inProgress fun _ => .failed EINTR, .failed EISCONN]) 1000 none =
        some ⟨⟨.unavailable, text "connect failed: "⟩, none⟩) ∧
    (Establishes (Socket.pollTimeout (2 ^ 32)) 1 0 .idle [.inProgress fun _ => .timedOut] ∧
      Socket.connect plainEnv (freshKernel [.inProgress fun _ => .timedOut]) (2 ^ 32) none =
        some ⟨⟨.deadlineExceeded, text "connect timed out"⟩, none⟩) ∧
    (Establishes (Socket.pollTimeout 1000) 0 0 .idle [.connected] ∧
      Socket.connect plainEnv { freshKernel [.connected] with restoreFailure := some 9 } 1000 none =
        some ⟨⟨.unavailable, text "fcntl(F_SETFL) failed: "⟩, some (3, 2 ||| O_NONBLOCK)⟩) := by
  refine ⟨⟨?_, rfl⟩, ⟨?_, rfl⟩, ⟨?_, rfl⟩, .connected, rfl⟩
  · exact .pollInterrupted rfl (Nat.zero_le 1) (.already (by decide) (by decide : 1 ≤ 2) (.completed (by decide) .zero))
  · exact .pollInterrupted rfl (Nat.zero_le 1) (.completed (by decide) .isConnected)
  · exact .pollTimedOut rfl (by decide) (by decide)

end Connect

end Xrpc.Io
