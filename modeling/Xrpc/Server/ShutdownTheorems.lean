import Xrpc.Server.ConnectionTheorems
import Xrpc.Server.Lemmas.RpcServer

/-!
# 終了の主定理
-/

namespace Xrpc.Server
open Xrpc.Lib Xrpc.Protocol RpcServer

section

variable {ℓ ω : Type} [DecidableEq ℓ] [DecidableEq ω] {cfg : ServerConfig ℓ ω} {s : RpcServer ℓ ω}

/-- 終了の手順が終わると、積まれた仕事はすべてちょうど一度処理され、すべての接続が閉じている。`Running` を離れた繰り返しには接続が
加わらない。停止を求められた繰り返しでは、`TryFinishDrain` が閉じた接続の結果はすべて扱われている。 -/
theorem graceful_shutdown (h : (rpcServer cfg).Reachable s) :
    (s.run = .completed →
      s.executed.Nodup ∧ (∀ i, i ∈ s.executed ↔ ∃ w, i ∈ s.pool.pushed w) ∧
        (∀ w, s.pool.ran w = s.pool.pushed w ∧ s.pool.jobs w = []) ∧
        ∀ l n, n < (s.loops l).created → ((s.loops l).objects n).core.state = .closed ∧
          ((s.loops l).objects n).jobs = [] ∧ ((s.loops l).objects n).posting = []) ∧
      (∀ l s', (s.loops l).state.left = true → (rpcServer cfg).Steps (fun _ _ => True) s s' →
        (s'.loops l).created = (s.loops l).created ∧
          ∀ entry ∈ (s'.loops l).connections, entry ∈ (s.loops l).connections) ∧
      ∀ l n, (s.loops l).stopRequested = true → n < (s.loops l).created →
        ((s.loops l).objects n).core.state = .closed ∧
          (((s.loops l).objects n).core.drained = true →
            ((s.loops l).objects n).jobs = [] ∧ ((s.loops l).objects n).posting = [] ∧
              ((s.loops l).objects n).results = [] ∧ ((s.loops l).objects n).discarded = []) := by
  have hstopping := reachable_stopping h
  have hcoupled := reachable_coupled h
  refine ⟨fun hcompleted => ?_, fun l s' hleft hsteps => steps_of_left h hsteps hleft, fun l n hstopped hn => ?_⟩
  · have hjoined := hstopping.joined (by rw [hcompleted]; rfl)
    refine ⟨List.nodup_iff_count_le_one.mpr fun i => ?_, mem_executed_iff hcoupled h hjoined,
      WorkerPool.ran_of_joined (reachable_pool h) hjoined, fun l n hn => ⟨?_, work_of_joined h hjoined hn⟩⟩
    · have hcounted := hcoupled.counted i
      split at hcounted <;> omega
    · exact (hstopping.closed l (by rw [hcompleted]; trivial)).2 n hn
  · refine ⟨(hstopping.stopped l hstopped).2 n hn, fun hdrained => ?_⟩
    obtain ⟨_, _, hobject⟩ := (ConnectionIoLoop.reachable_loopInv (reachable_loop h l)).objects n hn
    exact hobject.work_of_drained hdrained

end

/-! ## 束を一つ処理して終わる実行 -/

/-- ただ一つの番号。 -/
def solo : Fin 1 := Fin.last 0

theorem four_lt_counter : 4 < 2 ^ 64 := by decide

/-- 繰り返しと作業の糸を一つずつ持つサーバー。 -/
def soloServer : ServerConfig (Fin 1) (Fin 1) where
  connection := echoServer
  maxPendingJobs := 4
  loops := [solo]
  workers := [solo]
  max_lt := four_lt_counter
  mem_loops := by decide
  mem_workers := by decide
  workers_nodup := by decide

def echoJob : JobId (Fin 1) := ⟨solo, 0, ⟨0, [echoRequest]⟩, List.cons_ne_nil _ _⟩

/-- 起動して接続を一つ受け取り、要求を一つ読むまでの動作。 -/
def acceptsEcho : List (Act (Fin 1) (Fin 1)) :=
  [.startConnectionLoops, .startLoop solo [], .serve, .dispatchAcceptedConnection solo, .loop solo (.startConnection false),
    .loop solo (.received 0 false false
      ((FrameCodec.encodeRequest echoServer.platform ⟨echoServer.protocolLimits⟩ echoRequest.envelope).toOption.getD []))]

/-- 束を列に積むまでの動作。 -/
def submitsJob : List (Act (Fin 1) (Fin 1)) :=
  [.pool (.check echoJob), .pool (.load echoJob), .pool (.reserve echoJob 0), .pool (.select echoJob solo),
    .pool (.lock echoJob solo), .pool (.recheck echoJob solo), .push echoJob solo, .pool (.unlock echoJob solo true),
    .countAdmitted echoJob false]

/-- 呼び出し `k` が受け付けを終えるまでの動作。 -/
def closesPool (k : Closer) (drain : Bool) : List (Act (Fin 1) (Fin 1)) :=
  [.pool (.store k drain), .pool (.sweep k drain solo []), .pool (.swept k drain)]

/-- `Stop` から `DrainAndJoin` の呼び出しまでの動作。 -/
def stopsServer : List (Act (Fin 1) (Fin 1)) :=
  [.stop, .closeSubmissions] ++ closesPool .stop false ++ [.stopAcceptingOnContext, .completeShutdown] ++
    closesPool .shutdown false ++ [.beginConnectionDrain, .beginDrain solo [], .loop solo .beginDrainOnContext, .drainAndJoin]

/-- 作業の糸が束を処理して終わり、`DrainAndJoin` が返るまでの動作。 -/
def runsJob : List (Act (Fin 1) (Fin 1)) :=
  [.pool (.exchange .drain), .pool (.notify .drain solo []), .pool (.notified .drain), .pool (.workerLock solo),
    .pool (.workerNonEmpty solo), .pool (.workerPop solo echoJob), .pool (.workerUnlock solo echoJob),
    .execute solo echoJob echoInvocation]

def exitsWorker : List (Act (Fin 1) (Fin 1)) :=
  [.finishJob solo echoJob, .pool (.workerSubtract solo echoJob), .pool (.workerRelease solo echoJob), .pool (.workerLock solo),
    .pool (.workerDrained solo), .pool (.workerExit solo), .pool (.join .drain solo []), .pool (.joined .drain),
    .finishConnectionDrain, .alreadyDraining solo []]

/-- 結果を扱い、応答を送り終えて、手順が終わるまでの動作。 -/
def finishesServer : List (Act (Fin 1) (Fin 1)) :=
  echoResults.map (fun result => .loop solo (.handleWorkerResult 0 false result)) ++
    [.loop solo (.sendCompleted 0 false (echoResults.flatMap WorkerResult.responseBytes).length), .waited solo [],
      .requestStop solo [], .complete]

def servesAndStops : List (Act (Fin 1) (Fin 1)) :=
  acceptsEcho ++ submitsJob ++ stopsServer ++ closesPool .drain true ++ runsJob ++ echoResults.map (.post solo echoJob) ++
    exitsWorker ++ finishesServer

/-- 終了の手順の間に束が処理され、応答が送られてから接続が閉じる。 -/
theorem graceful_shutdown_completed :
    ∃ s, (rpcServer soloServer).Reachable s ∧ s.run = .completed ∧ s.pool.pushed 0 = [echoJob] ∧
      (∀ i, i ∈ s.executed ↔ ∃ w, i ∈ s.pool.pushed w) ∧ ((s.loops 0).objects 0).core.drained = true ∧
      ((s.loops 0).objects 0).core.state = .closed := by
  obtain ⟨s, hs, hp⟩ := Machine.exists_reachable_of_exec (M := rpcServer soloServer) (s := initial soloServer)
    servesAndStops
    (fun s => decide (s.run = .completed ∧ s.pool.pushed 0 = [echoJob] ∧ 0 < (s.loops 0).created ∧
      ((s.loops 0).objects 0).core.drained = true)) (.init rfl) (by decide +kernel)
  obtain ⟨hcompleted, hpushed, hcreated, hdrained⟩ := of_decide_eq_true hp
  obtain ⟨_, hexecuted, _, hclosed⟩ := (graceful_shutdown hs).1 hcompleted
  exact ⟨s, hs, hcompleted, hpushed, hexecuted, hdrained, (hclosed 0 0 hcreated).1⟩

end Xrpc.Server
