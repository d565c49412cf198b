import Xrpc.Protocol.Metadata
import Xrpc.Server.Lemmas.Unharmed

/-!
# 接続の主定理
-/

namespace Xrpc.Server
open Xrpc.Lib Xrpc.Protocol

/-! ## 送られるバイトの並び -/

section

open ConnectionCore

variable {limits : BackpressureLimits} {c : ConnectionCore}

/-- 閉じるまでは、`send` が受け取ったバイト、手元の束の送り残し、列をつなぐと、受け付けた書き込みを順につないだものになる。
書き込みは `EnqueueWrite` が真を返したときにだけ加わる。束は、列の先頭の一つであるか、64 KiB に収まる。 -/
theorem sent_bytes_in_order (h : (writeSide limits).Reachable c) :
    (c.state ≠ .closed → c.sent ++ c.writeLoop.unsent ++ c.writeQueue.flatten = c.accepted.flatten) ∧
      (∀ refused bytes, bytes ≠ [] → (c.enqueueWrite limits refused bytes).1.accepted =
        c.accepted ++ if (c.enqueueWrite limits refused bytes).2 then [bytes] else []) ∧
      ∀ queue : List Bytes, queue ≠ [] → ∃ first taken,
        queue = first :: taken ++ (takeWriteBatch queue).2 ∧
          (takeWriteBatch queue).1 = (first :: taken).flatten ∧
          (taken = [] ∨ (takeWriteBatch queue).1.length ≤ MAX_WRITE_BATCH_BYTES) := by
  obtain ⟨hinv, _⟩ := reachable_writeInv h
  refine ⟨fun hopen => ?_, fun refused bytes hbytes => ?_, fun queue hne => takeWriteBatch_spec hne⟩
  · have hwire := hinv.wire hopen
    rwa [(reachable_lostBytes h).2, List.append_nil] at hwire
  rcases (hinv.enqueueWrite_cases refused hbytes).2.2.2 with ⟨htook, _, haccepted⟩ | ⟨htook, haccepted, _⟩
  · rw [htook, haccepted, if_pos rfl]
  · rw [htook, haccepted, if_neg Bool.false_ne_true, List.append_nil]

/-- 送信の途中に二つ目の書き込みが来て、最初の書き込みは途中まで送られる。 -/
theorem sent_bytes_in_order_partial :
    ∃ c, (writeSide ⟨1, 8⟩).Reachable c ∧ c.sent = [1] ∧ c.writeLoop = .sending [1, 2] 1 ∧ c.writeQueue = [[3]] ∧
      c.sent ++ c.writeLoop.unsent ++ c.writeQueue.flatten = c.accepted.flatten := by
  obtain ⟨c, hc, hp⟩ := Machine.exists_reachable_of_exec (M := writeSide ⟨1, 8⟩) (s := {})
    [.start false, .enqueue false [1, 2], .enqueue false [3], .sendCompleted false 1]
    (fun c => decide (c.sent = [1] ∧ c.writeLoop = .sending [1, 2] 1 ∧ c.writeQueue = [[3]] ∧ c.state ≠ .closed))
    (.init rfl) (by decide)
  obtain ⟨hsent, hloop, hqueue, hopen⟩ := of_decide_eq_true hp
  exact ⟨c, hc, hsent, hloop, hqueue, (sent_bytes_in_order hc).1 hopen⟩

end

/-! ## 要求を一つ処理する実行 -/

section

open ConnectionIoLoop

/-- 処理関数を一つ登録した環境。 -/
def echoServer : ServerConnectionConfig where
  platform := ⟨.little, proto3⟩
  policy := ⟨0, fun _ data => data.length, fun _ _ => Nat.le_refl _⟩
  protocolLimits := {}
  limits := ⟨1, 1024⟩
  registry := ⟨[(text "e", [text "m"])]⟩

def echoRequest : Request := ⟨0, ⟨7, text "e", text "m", [1, 2]⟩⟩

def echoInvocation (request : Request) : Invocation := .value request.envelope.payload

def echoResults : List WorkerResult := executeRequestBatchOnWorker echoServer 1 echoInvocation [echoRequest]

/-- 要求のフレーム。 -/
def echoFrame : Bytes :=
  (FrameCodec.encodeRequest echoServer.platform ⟨echoServer.protocolLimits⟩ echoRequest.envelope).toOption.getD []

/-- 接続を一つ始めるまでの動作。 -/
def startsEcho : List Act := [.start, .postStartConnection, .startConnection false]

/-- 接続を一つ始め、要求を一つ受け取り、提出するまでの動作。 -/
def submitsEcho : List Act :=
  startsEcho ++ [.received 0 false false echoFrame, .submitAccepted 0 [echoRequest], .countAdmitted 0 false 1]

/-- 提出した束を処理し、結果を渡すまでの動作。 -/
def postsEcho : List Act :=
  .execute 0 ⟨0, [echoRequest]⟩ echoInvocation :: echoResults.map (.post 0 0)

/-- 結果を扱い、応答を送り始めるまでの動作。 -/
def handlesEcho : List Act := echoResults.map (.handleWorkerResult 0 false)

/-- 例外を起こさない動作の並び。 -/
theorem calm_of_mem {acts : List Act} (h : (acts.all fun a => a.faults = {}) = true) : ∀ a ∈ acts, a.faults = {} :=
  fun a ha => of_decide_eq_true (List.all_eq_true.mp h a ha)

/-- 応答をすべて送り、相手が接続を閉じるまでの動作。 -/
def finishesEcho : List Act :=
  [.sendCompleted 0 false (echoResults.flatMap WorkerResult.responseBytes).length, .receivedEof 0]

end

/-! ## 要求ごとの応答 -/

section

open ConnectionIoLoop

variable {cfg : ServerConnectionConfig} {s : ConnectionIoLoop} {n : Nat}

/-- 復号した要求への応答は高々一つであり、処理関数の応答か、背圧による拒否の、どちらか一方である。積まれる書き込みは、それらの
応答のフレームである。`TryFinishDrain` が閉じた接続では、受け付けた要求と断った要求のすべてに一つずつ応答があり、それらの
フレームがすべて送られている。 -/
theorem one_response_per_request (h : (connectionIoLoop cfg).Reachable s) (hn : n < s.created) :
    ((s.objects n).enqueued.map fun response => response.request.index).Nodup ∧
      (∀ response ∈ (s.objects n).enqueued,
        (s.objects n).decoded[response.request.index]? = some response.request.envelope ∧
          response.envelope.requestId = response.request.envelope.requestId ∧
          (response.Dispatched cfg ∧ response.request ∈ (s.objects n).admitted ∨
            response.Refused cfg ∧ response.request ∈ (s.objects n).rejected)) ∧
      (s.objects n).admitted.Disjoint (s.objects n).rejected ∧
      (s.objects n).core.accepted.flatten = ((s.objects n).enqueued.map Response.frame).flatten ∧
      ((s.objects n).core.drained = true →
        ((s.objects n).enqueued.map Response.request).Perm ((s.objects n).admitted ++ (s.objects n).rejected) ∧
          (s.objects n).core.sent = ((s.objects n).enqueued.map Response.frame).flatten) := by
  obtain ⟨_, _, hobject⟩ := (reachable_loopInv h).objects n hn
  have hrequests := hobject.requests
  have hdistinct := hrequests.distinct
  rw [List.map_append, List.nodup_append', List.map_append] at hdistinct
  obtain ⟨hdistinct, _, _⟩ := hdistinct
  refine ⟨?_, fun response hmem => ?_, ?_, hrequests.accepted, fun hdrained => ?_⟩
  · have hsettled := (hrequests.settled.map Request.index).nodup_iff.mp (by rwa [List.map_append])
    rw [List.map_append, List.nodup_append', List.map_append, List.nodup_append', List.map_map] at hsettled
    exact hsettled.1.2.1
  · have hcases := hrequests.enqueued response hmem
    have hsettled : response.request ∈ (s.objects n).admitted ++ (s.objects n).rejected :=
      List.mem_append.mpr (hcases.imp And.right And.right)
    refine ⟨hrequests.decoded _ (List.mem_append_left _ hsettled), ?_, hcases⟩
    rcases hcases with ⟨⟨⟨invocation, henvelope⟩, _⟩, _⟩ | ⟨⟨⟨message, henvelope⟩, _⟩, _⟩
    · rw [henvelope, ServiceRegistry.dispatch_requestId]
    · rw [henvelope, ServerConnection.rejection]
  · rw [List.nodup_append'] at hdistinct
    exact fun request hadmitted hrejected =>
      hdistinct.2.2 (List.mem_map_of_mem hadmitted) (List.mem_map_of_mem hrejected)
  · obtain ⟨_, _, hsent, hstranded⟩ := hobject.write.drained hdrained
    have houtstanding := hobject.outstanding_of_drained hdrained
    have habandoned : (s.objects n).abandoned = [] := by
      by_contra hne
      rcases hrequests.abandoned hne with ⟨_, hnot⟩ | hpos
      · exact Bool.false_ne_true (hnot.symm.trans hdrained)
      · omega
    have hsettled := hrequests.settled
    rw [houtstanding, habandoned, List.nil_append, List.append_nil] at hsettled
    exact ⟨hsettled.symm, hsent.trans hrequests.accepted⟩

theorem one_response_per_request_drained :
    ∃ s, (connectionIoLoop echoServer).Reachable s ∧ 0 < s.created ∧ (s.objects 0).core.drained = true ∧
      (s.objects 0).admitted = [echoRequest] ∧
      ((s.objects 0).enqueued.map Response.request).Perm ((s.objects 0).admitted ++ (s.objects 0).rejected) := by
  obtain ⟨s, hs, hp⟩ := Machine.exists_reachable_of_exec (M := connectionIoLoop echoServer) (s := initial echoServer)
    (submitsEcho ++ postsEcho ++ handlesEcho ++ finishesEcho)
    (fun s => decide (0 < s.created ∧ (s.objects 0).core.drained = true ∧ (s.objects 0).admitted = [echoRequest]))
    (.init rfl) (by decide +kernel)
  obtain ⟨hcreated, hdrained, hadmitted⟩ := of_decide_eq_true hp
  exact ⟨s, hs, hcreated, hdrained, hadmitted, ((one_response_per_request hs hcreated).2.2.2.2 hdrained).1⟩

/-! ## 書き込みのバイト数 -/

/-- 入出力の糸の歩みの間、処理中の数は、受け付けられてまだ結果の覆っていない要求の数と、渡されてまだ扱われていない結果が
戻す数の和である。上限を超えず、戻す数は数えた数を超えない。束を断っても数は変わらない。 -/
theorem inflight_requests_conserved (h : (connectionIoLoop cfg).Reachable s) (hn : n < s.created) :
    ((s.objects n).readLoop.busy = false → n ∈ s.connections.map Prod.snd →
      (s.objects n).core.inflightRequests =
          (s.objects n).uncovered.length + ((s.objects n).results.map WorkerResult.releasedRequests).sum ∧
        (s.objects n).uncovered.Nodup ∧
        (∀ request, request ∈ (s.objects n).uncovered ↔
          request ∈ (s.objects n).admitted ∧ request ∉ (s.objects n).results.flatMap WorkerResult.requests ∧
            request ∉ (s.objects n).enqueued.map Response.request ∧ request ∉ (s.objects n).abandoned) ∧
        ∀ result ∈ (s.objects n).results, result.releasedRequests ≤ (s.objects n).core.inflightRequests) ∧
      (s.objects n).core.inflightRequests ≤ cfg.limits.maxInflight ∧
      (s.objects n).core.assertsHold = true ∧
      ∀ sendRefused recvRefused bytes requests,
        ((next cfg s (.received n sendRefused recvRefused bytes)).objects n).core.inflightRequests =
            (s.objects n).core.inflightRequests ∧
          ((next cfg s (.submitFull n sendRefused recvRefused requests)).objects n).core.inflightRequests =
            (s.objects n).core.inflightRequests ∧
          ((next cfg s (.submitClosed n requests)).objects n).core.inflightRequests =
            (s.objects n).core.inflightRequests := by
  have hinv := reachable_loopInv h
  obtain ⟨_, _, hobject⟩ := hinv.objects n hn
  refine ⟨fun hidle hlisted => ?_, ?_, hobject.write.asserts, fun sendRefused recvRefused bytes requests => ?_⟩
  · obtain ⟨entry, hentry, rfl⟩ := List.mem_map.mp hlisted
    have hdiscarded := hinv.kept entry hentry
    have hrequests := (hobject.midway hidle).requests
    have hnodup := hrequests.nodup_settled
    rw [List.nodup_append', List.nodup_append', ServerConnection.Requests.outstanding_eq hdiscarded,
      List.nodup_append'] at hnodup
    exact ⟨hrequests.inflight_eq hdiscarded, hnodup.1.1.1, hrequests.mem_uncovered_iff hdiscarded,
      fun result hmem => (hobject.released_le hidle hmem).2⟩
  · exact (Nat.le_add_right _ _).trans hobject.requests.le_max
  · simp only [next, runOn, Function.update_self]
    exact ⟨(ServerConnection.kept_received cfg sendRefused recvRefused bytes).inflight,
      (ServerConnection.kept_submitFull cfg sendRefused recvRefused requests).inflight,
      ServerConnection.kept_submitClosed.inflight⟩

/-- 結果が渡されてまだ扱われていない間、その枠が数えられている。 -/
theorem inflight_requests_conserved_posted :
    ∃ s, (connectionIoLoop echoServer).Reachable s ∧ 0 < s.created ∧ (s.objects 0).results = echoResults ∧
      (s.objects 0).core.inflightRequests =
        (s.objects 0).uncovered.length + ((s.objects 0).results.map WorkerResult.releasedRequests).sum := by
  obtain ⟨s, hs, hp⟩ := Machine.exists_reachable_of_exec (M := connectionIoLoop echoServer) (s := initial echoServer)
    (submitsEcho ++ postsEcho)
    (fun s => decide (0 < s.created ∧ (s.objects 0).results = echoResults ∧ (s.objects 0).readLoop.busy = false ∧
      0 ∈ s.connections.map Prod.snd)) (.init rfl) (by decide +kernel)
  obtain ⟨hcreated, hresults, hidle, hlisted⟩ := of_decide_eq_true hp
  exact ⟨s, hs, hcreated, hresults, ((inflight_requests_conserved hs hcreated).1 hidle hlisted).1⟩

/-! ## 閉じること -/

/-- 状態は先へしか移らず、`on_closed_` は、`Close` の `CancelFd` が投げなければ、`Closed` になるときに一度だけ、外への最後の呼び出し
として呼ばれる。その後は、外へ何も呼び出さず、書き込みを受け付けず、列は空のままである。二つの繰り返しは、待ちの途中か、返った後かの
どちらかで、待ちが終われば返る。`assert` は破れない。`CancelFd` の投げない実行では、どの接続の `Close` も終わりまで進む。 -/
theorem closed_final_silent (h : (connectionIoLoop cfg).Reachable s) {s' : ConnectionIoLoop}
    (hsteps : (connectionIoLoop cfg).Steps (fun _ _ => True) s s') (hn : n < s.created) :
    (s.objects n).core.state.rank ≤ (s'.objects n).core.state.rank ∧
      (s'.objects n).core.effects.count .onClosed =
        (if (s'.objects n).core.state = .closed ∧ (s'.objects n).core.cancelFdThrew = false then 1 else 0) ∧
      ((s'.objects n).core.state = .closed → ∃ before, .onClosed ∉ before ∧
        (s'.objects n).core.effects = before ++
          if (s'.objects n).core.cancelFdThrew then [.cancelFd] else [.cancelFd, .closeSocket, .onClosed]) ∧
      ((connectionIoLoop cfg).Reach (fun _ a => a.faults.cancelFd = none) s' →
        (s'.objects n).core.cancelFdThrew = false) ∧
      (s'.objects n).core.assertsHold = true ∧
      ((s.objects n).core.state = .closed →
        (s'.objects n).core.effects = (s.objects n).core.effects ∧
          (s'.objects n).core.accepted = (s.objects n).core.accepted ∧
          (s'.objects n).core.writeQueue = [] ∧
          ((s'.objects n).core.writeLoop = .returned ∨
            (∃ batch offset, (s.objects n).core.writeLoop = .sending batch offset) ∧
              (s'.objects n).core.writeLoop = (s.objects n).core.writeLoop) ∧
          ((s'.objects n).readLoop = .returned ∨
            (s.objects n).readLoop = .receiving ∧ (s'.objects n).readLoop = .receiving) ∧
          ∀ a, s'.enabled a →
            (a.endsSend n = true → ((next cfg s' a).objects n).core.writeLoop = .returned) ∧
              (a.endsReceive n = true → ((next cfg s' a).objects n).readLoop = .returned)) := by
  have hadvance := steps_advance h hsteps
  have hprogress := hadvance.progress n hn
  obtain ⟨_, _, hbefore⟩ := (reachable_loopInv h).objects n hn
  obtain ⟨_, _, hafter⟩ := hadvance.inv.objects n (hn.trans_le hadvance.created)
  have hcount := hafter.write.onClosed
  refine ⟨hprogress.forward, by simpa [ConnectionCore.notified] using hcount, hafter.write.ends,
    fun hcalm => cancelFdThrew_of_reach hcalm n, hafter.write.asserts, fun hclosed => ?_⟩
  have hclosed' := hprogress.closed hclosed
  obtain ⟨heffects, haccepted, _, hwrite, hread⟩ := hprogress.silent hclosed
  refine ⟨heffects, haccepted, (hafter.write.closed hclosed').2, ?_, ?_, fun a henabled => ⟨fun hends => ?_, fun hends => ?_⟩⟩
  · rcases hwrite with hwrite | hwrite
    · rcases hbefore.resting with hreturned | hsending | ⟨_, hopen⟩
      · exact .inl (hwrite.trans hreturned)
      · exact .inr ⟨hsending, hwrite⟩
      · exact absurd hclosed hopen
    · exact .inl hwrite
  · rcases hread with hread | hread
    · have hidle := hbefore.busy_of_closed hclosed
      cases hloop : (s.objects n).readLoop with
      | unstarted => exact absurd hloop hbefore.started
      | receiving => exact .inr ⟨rfl, hread.trans hloop⟩
      | returned => exact .inl (hread.trans hloop)
      | _ => rw [hloop] at hidle; cases hidle
    · exact .inl hread
  · exact writeLoop_of_endsSend hclosed' henabled hends
  · exact readLoop_of_endsReceive hclosed' hends

/-- 例外のない実行で送信に失敗して閉じた後、受信の待ちが終わる。 -/
theorem closed_final_silent_sendFailed :
    ∃ s s', (connectionIoLoop echoServer).Reach (fun _ a => a.faults.cancelFd = none) s ∧
      (connectionIoLoop echoServer).Steps (fun _ _ => True) s s' ∧ (s.objects 0).core.state = .closed ∧
      (s.objects 0).core.effects.count .onClosed = 1 ∧
      (s.objects 0).readLoop = .receiving ∧ (s'.objects 0).readLoop = .returned ∧
      (s'.objects 0).core.effects = (s.objects 0).core.effects := by
  obtain ⟨s, hs, hp⟩ := Machine.exists_reach_of_exec (M := connectionIoLoop echoServer) (s := initial echoServer)
    (C := fun _ a => a.faults.cancelFd = none) (submitsEcho ++ postsEcho ++ handlesEcho ++ [.sendFailed 0])
    (fun s => decide (0 < s.created ∧ (s.objects 0).core.state = .closed ∧ (s.objects 0).readLoop = .receiving ∧
      (connectionIoLoop echoServer).enabled s (.receiveFailed 0))) (.init rfl) (fun a ha _ => by
        rw [calm_of_mem (by decide) a ha]) (by decide +kernel)
  obtain ⟨hcreated, hclosed, hloop, henabled⟩ := of_decide_eq_true hp
  have hsteps := Machine.Steps.step (C := fun _ _ => True) .refl henabled trivial
  have hstill := closed_final_silent hs.reachable .refl hcreated
  have hafter := (closed_final_silent hs.reachable hsteps hcreated).2.2.2.2.2 hclosed
  refine ⟨s, _, hs, hsteps, hclosed, hstill.2.1.trans (if_pos ⟨hclosed, hstill.2.2.2.1 hs⟩), hloop, ?_, hafter.1⟩
  exact ((hstill.2.2.2.2.2 hclosed).2.2.2.2.2 (.receiveFailed 0) henabled.2).2 rfl

/-- 受信の失敗で閉じるときに `CancelFd` が投げると、例外は `ReadLoop` の `Task` に留まり、接続は、ソケットを閉じず `on_closed_` も
呼ばないまま `Closed` になる。 -/
theorem closed_without_onClosed :
    ∃ s, (connectionIoLoop echoServer).Reachable s ∧ s.created = 1 ∧ s.aborted = false ∧
      (s.objects 0).core.state = .closed ∧ (s.objects 0).canBeCollected = true ∧
      (s.objects 0).core.effects.count .onClosed = 0 ∧ (s.objects 0).core.effects.count .closeSocket = 0 := by
  obtain ⟨s, hs, hp⟩ := Machine.exists_reachable_of_exec (M := connectionIoLoop echoServer) (s := initial echoServer)
    (startsEcho ++ [.fault { cancelFd := some .internal }, .receiveFailed 0])
    (fun s => decide (s.created = 1 ∧ s.aborted = false ∧ (s.objects 0).core.state = .closed ∧
      (s.objects 0).canBeCollected = true ∧ (s.objects 0).core.effects.count .onClosed = 0 ∧
      (s.objects 0).core.effects.count .closeSocket = 0)) (.init rfl) (by decide +kernel)
  exact ⟨s, hs, of_decide_eq_true hp⟩

/-! ## 接続の表 -/

/-- 生きている接続の数は、表にある閉じていない接続の数に、`Close` の `CancelFd` が投げた接続の数を足したものであり、`CancelFd` の
投げない実行では、表にある閉じていない接続の数である。表の番号は互いに異なり、接続自身の番号であり、一度使った番号は二度と使われない。
表から消えるのは、閉じて二つの繰り返しが返った接続だけであり、結果はそれを出した接続にだけ届く。 -/
theorem connection_table (h : (connectionIoLoop cfg).Reachable s) :
    s.liveConnections = s.connections.countP (fun entry => (s.objects entry.2).core.state ≠ .closed) +
        (List.range s.created).countP (fun n => (s.objects n).core.cancelFdThrew) ∧
      ((connectionIoLoop cfg).Reach (fun _ a => a.faults.cancelFd = none) s →
        s.liveConnections = s.connections.countP fun entry => (s.objects entry.2).core.state ≠ .closed) ∧
      (s.connections.map Prod.fst).Nodup ∧
      (∀ entry ∈ s.connections, (s.objects entry.2).connectionId = entry.1) ∧
      (∀ m n, m < s.created → n < s.created → (s.objects m).connectionId = (s.objects n).connectionId → m = n) ∧
      (∀ a, ∀ entry ∈ s.connections, entry ∉ (next cfg s a).connections →
        ((next cfg s a).objects entry.2).canBeCollected = true) ∧
      ∀ n refused result, (connectionIoLoop cfg).enabled s (.handleWorkerResult n refused result) →
        (∀ m, s.connections.lookup result.connectionId = some m → m = n) ∧
          ∀ m, m ≠ n → (next cfg s (.handleWorkerResult n refused result)).objects m = s.objects m := by
  have hinv := reachable_loopInv h
  have hunique : ∀ m n, m < s.created → n < s.created →
      (s.objects m).connectionId = (s.objects n).connectionId → m = n := by
    intro m n hm hn heq
    have := hinv.ids m hm
    have := hinv.ids n hn
    rw [heq] at *
    omega
  refine ⟨hinv.live_eq, fun hcalm => ?_, ?_, fun entry hentry => (hinv.entries entry hentry).2, hunique,
    fun a entry hentry hgone => hinv.canBeCollected_of_gone a hentry hgone, ?_⟩
  · have hnone : (List.range s.created).countP (fun n => (s.objects n).core.cancelFdThrew) = 0 :=
      List.countP_eq_zero.mpr fun n _ => by rw [cancelFdThrew_of_reach hcalm n]; exact Bool.false_ne_true
    rw [hinv.live_eq, hnone, Nat.add_zero]
  · have hkeys : s.connections.map Prod.fst =
        (s.connections.map Prod.snd).map fun n => (s.objects n).connectionId := by
      rw [List.map_map]
      exact List.map_congr_left fun entry hentry => (hinv.entries entry hentry).2.symm
    have hlt : ∀ n ∈ s.connections.map Prod.snd, n < s.created := by
      intro n hn
      obtain ⟨entry, hentry, rfl⟩ := List.mem_map.mp hn
      exact (hinv.entries entry hentry).1
    rw [hkeys]
    exact hinv.serials.map_on fun m hm n hn => hunique m n (hlt m hm) (hlt n hn)
  · rintro n refused result ⟨_, _, hn, hmem, _⟩
    obtain ⟨_, _, hobject⟩ := hinv.objects n hn
    refine ⟨fun m hlookup => ?_, fun m hmn => hinv.objects_handleWorkerResult hn hmem refused hmn⟩
    rw [(hobject.requests.results result hmem).connectionId] at hlookup
    exact hinv.lookup_eq hn hlookup

/-- 例外のない実行で接続が二つ始まり、先の接続は閉じて表から消え、後の接続だけが数えられる。 -/
theorem connection_table_collected :
    ∃ s, (connectionIoLoop echoServer).Reach (fun _ a => a.faults.cancelFd = none) s ∧ s.created = 2 ∧
      s.connections = [(2, 1)] ∧
      s.liveConnections = s.connections.countP (fun entry => (s.objects entry.2).core.state ≠ .closed) := by
  obtain ⟨s, hs, hp⟩ := Machine.exists_reach_of_exec (M := connectionIoLoop echoServer) (s := initial echoServer)
    (C := fun _ a => a.faults.cancelFd = none)
    (submitsEcho ++ postsEcho ++ handlesEcho ++ finishesEcho ++ [.postStartConnection, .startConnection false])
    (fun s => decide (s.created = 2 ∧ s.connections = [(2, 1)])) (.init rfl)
    (fun a ha _ => by rw [calm_of_mem (by decide) a ha]) (by decide +kernel)
  obtain ⟨hcreated, hconnections⟩ := of_decide_eq_true hp
  exact ⟨s, hs, hcreated, hconnections, (connection_table hs.reachable).2.1 hs⟩

/-- 受信の失敗で閉じるときに `CancelFd` が投げた接続は、表から消えた後も数えられている。 -/
theorem connection_outlives_table :
    ∃ s, (connectionIoLoop echoServer).Reachable s ∧ s.aborted = false ∧ s.connections = [] ∧ s.liveConnections = 1 := by
  obtain ⟨s, hs, hp⟩ := Machine.exists_reachable_of_exec (M := connectionIoLoop echoServer) (s := initial echoServer)
    (startsEcho ++ [.fault { cancelFd := some .internal }, .receiveFailed 0, .collectClosedConnections])
    (fun s => decide (s.aborted = false ∧ s.connections = [] ∧ s.liveConnections = 1)) (.init rfl) (by decide +kernel)
  exact ⟨s, hs, of_decide_eq_true hp⟩

end

end Xrpc.Server
