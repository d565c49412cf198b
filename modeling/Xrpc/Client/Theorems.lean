import Xrpc.Client.Lemmas.Failover
import Xrpc.Client.Lemmas.Progress
import Xrpc.Protocol.Metadata

/-!
# クライアントの定理

証明に使う補題は `Lemmas/` に置く。
-/

namespace Xrpc.Client
open Xrpc.Lib Xrpc.Protocol Function

/-- 設定の例。どの呼び出しも同じ形の要求を送り、期限を持たない。 -/
def plainConfig (transport : CallId → TransportId) : Config where
  env := ⟨⟨.little, proto3⟩, fun _ => []⟩
  transports _ := {}
  calls c := ⟨transport c, ⟨UInt64.ofNat c.rpc, text "echo", text "Say", []⟩, none⟩

/-! ## 切り替えと送信 -/

/-- `send()` が、呼び出し `c` のフレームの一部を受け付けた。 -/
def State.accepted (s : State) (c : CallId) : Prop := ∃ g b, (c, b) ∈ s.sent g

/-- `CallWithFailover` は、高々一つの試みでしか送らない。送っていないと告げた試みは何も送っておらず、送った試みは応答か、
送ったかもしれないという失敗に終わる。試みる添字は、最初の添字から巡回する順の、重なりのない先頭部分である。 -/
theorem failover_sends_at_most_once {cfg : RpcConfig} {s : FailoverState} (h : (failover cfg).Reachable s) (f : Nat) :
    (∀ o o', s.client.accepted ⟨f, o⟩ → s.client.accepted ⟨f, o'⟩ → o = o') ∧
    (∀ o failure, s.client.pc ⟨f, o⟩ = .returned (.failure failure) → failure.commitState = .notSent →
      ¬ s.client.accepted ⟨f, o⟩) ∧
    (∀ o r, s.client.accepted ⟨f, o⟩ → s.client.pc ⟨f, o⟩ = .returned r →
      (∃ response, r = .response response) ∨ ∃ failure, r = .failure failure ∧ failure.commitState = .maybeSent) ∧
    (∃ k ≤ (cfg.rpcs f).endpointCount,
      s.attempted f = (List.range k).map fun o => ((cfg.rpcs f).start + o) % (cfg.rpcs f).endpointCount) ∧
    (s.attempted f).Nodup := by
  have hattempts := reachable_attempts h f
  have hsend : ∀ o, s.client.accepted ⟨f, o⟩ → (s.client.pc ⟨f, o⟩).maySend := by
    rintro o ⟨g, b, hmem⟩
    exact reachable_maySend (reachable_client h) g _ b hmem
  -- 送ったのは、最後に始めた試みだけである
  have hlast : ∀ o, s.client.accepted ⟨f, o⟩ → o + 1 = (s.attempted f).length := by
    intro o ho
    exact hattempts.last_of_maySend (hsend o ho)
  refine ⟨?_, ?_, ?_, ⟨_, hattempts.length_le, hattempts.attempted_eq⟩, ?_⟩
  · intro o o' ho ho'
    exact Nat.succ.inj ((hlast o ho).trans (hlast o' ho').symm)
  · intro o failure hpc hnot haccepted
    have hmay := hsend o haccepted
    rw [hpc] at hmay
    simp [CallPc.maySend, CallAttemptResult.committed, CallAttemptResult.hasResponse,
      CallAttemptResult.mustStopRetryToAvoidDuplicateRequest, hnot] at hmay
  · intro o r haccepted hpc
    have hmay := hsend o haccepted
    rw [hpc] at hmay
    cases r with
    | response response => exact .inl ⟨response, rfl⟩
    | failure failure =>
        refine .inr ⟨failure, rfl, ?_⟩
        simpa [CallPc.maySend, CallAttemptResult.committed, CallAttemptResult.hasResponse,
          CallAttemptResult.mustStopRetryToAvoidDuplicateRequest] using hmay
  · rw [hattempts.attempted_eq]
    refine List.Nodup.map_on ?_ List.nodup_range
    intro o ho o' ho' heq
    exact index_injective (cfg.rpcs f) ((List.mem_range.mp ho).trans_le hattempts.length_le)
      ((List.mem_range.mp ho').trans_le hattempts.length_le) heq

/-- 二つの輸送路の設定の例。最初の添字は一である。 -/
def pairConfig : RpcConfig where
  env := ⟨⟨.little, proto3⟩, fun _ => []⟩
  transports _ := {}
  rpcs f := ⟨⟨UInt64.ofNat f, text "echo", text "Say", []⟩, none, .ok [7, 8], 1⟩

theorem failover_sends_at_most_once_pair :
    ∃ s, (failover pairConfig).Reachable s ∧ s.attempted 0 = [1, 0] ∧ s.client.accepted ⟨0, 1⟩ ∧
      ¬ s.client.accepted ⟨0, 0⟩ := by
  have hrun := Machine.exists_reachable_of_exec (M := failover pairConfig) (s := .initial)
    [.resolve 0, .call (.start ⟨0, 0⟩), .call (.socketFailed ⟨0, 0⟩ ⟨.unavailable, []⟩),
      .finish 0 0 (makeCallFailure ⟨.unavailable, []⟩ .notSent), .call (.start ⟨0, 1⟩), .call (.openSocket ⟨0, 1⟩ 3),
      .call (.connectOk ⟨0, 1⟩ 3 0), .call (.assignReader ⟨0, 1⟩ 0), .call (.register ⟨0, 1⟩),
      .call (.lockWrite ⟨0, 1⟩), .call (.connectedFd ⟨0, 1⟩ 3 0), .call (.setSendTimeout ⟨0, 1⟩ 3 0),
      .call (.sendPart ⟨0, 1⟩ 3 0 0 1 0)]
    (fun s => s.attempted 0 = [1, 0] ∧ s.client.sent 0 = [(⟨0, 1⟩, 88)]) (.init rfl) (by decide)
  obtain ⟨s, hs, hp⟩ := hrun
  obtain ⟨hattempted, hsent⟩ := of_decide_eq_true hp
  have haccepted : s.client.accepted ⟨0, 1⟩ := ⟨0, 88, by rw [hsent]; exact List.mem_singleton.mpr rfl⟩
  refine ⟨s, hs, hattempted, haccepted, fun hzero => ?_⟩
  exact absurd ((failover_sends_at_most_once hs 0).1 0 1 hzero haccepted) (by decide)

/-! ## 応答の対応付け -/

/-- 結果を書いた受信スレッドと、そのフレームの番号。 -/
def State.source (s : State) (c : CallId) : ConnId × Nat :=
  match s.result c with
  | some ⟨_, .reader g, some i⟩ => (g, i)
  | _ => (0, 0)

/-- 番号の異なる呼び出しの結果は、返れば変わらない。待っている呼び出しには、表から取り出した者か、書かれた結果か、まだ表を
片付けていない受信スレッドがある。返った応答は、同じ番号の付いた、ほかの呼び出しには返らない受信フレームである。記述子の番号の
使い回しのない実行では、どの状態からも、どの呼び出しも返りうる。 -/
theorem response_matching {cfg : Config} {s : State}
    (hids : ∀ c c', cfg.transport c = cfg.transport c' → cfg.requestId c = cfg.requestId c' → c = c')
    (h : (client cfg).Reachable s) :
    (∀ c r, s.pc c = .returned r → ∀ s', (client cfg).Steps (fun _ _ => True) s s' → s'.pc c = .returned r) ∧
    (∀ c, s.pc c = .wait ∨ s.pc c = .waitTaken →
      (∃ a completion, (c, completion) ∈ s.hands a) ∨ s.result c ≠ none ∨
        (cfg.requestId c, c) ∈ s.pendingCalls (cfg.transport c) ∧
          ∃ g, s.obtained c = some g ∧ (s.readerPc g).settled = false) ∧
    (∀ c, s.resultSets c ≤ 1) ∧
    (∃ source : CallId → ConnId × Nat,
      (∀ c r, s.pc c = .returned (.response r) →
        (s.decoded (source c).1)[(source c).2]? = some r ∧ r.requestId = cfg.requestId c) ∧
      ∀ c c' r r', s.pc c = .returned (.response r) → s.pc c' = .returned (.response r') → source c = source c' → c = c') ∧
    (∀ t, (s.pendingCalls t).length ≤ (cfg.transports t).maxInflightPerEndpoint) ∧
    (∀ c r, s.pc c = .returned r → cfg.requestId c ∉ s.ids (cfg.transport c)) ∧
    ((client cfg).Reach FreshDescriptor s →
      ∀ c, ∃ s' r, (client cfg).Steps FreshDescriptor s s' ∧ s'.pc c = .returned r) := by
  have hwf := reachable_pending_wf h
  have hsourced := reachable_sourced h
  have hL : cfg.layout.Distinct := hids
  refine ⟨?_, fun c => waiting_attended hL h, ?_, ?_, hwf.size_le, ?_, ?_⟩
  · intro c r hpc s' hsteps
    exact hsteps.preserves (I := fun s => s.pc c = .returned r) h (fun t a _ ht ha _ => pc_returned ha ht) hpc
  · intro c
    rw [show s.resultSets c = _ from hwf.sets_eq c]
    split
    · exact Nat.zero_le 1
    · exact Nat.le_refl 1
  · -- 応答の出どころは、結果を書いた受信スレッドと、そのフレームの番号である
    let source : CallId → ConnId × Nat := s.source
    have hsource : ∀ c r, s.pc c = .returned (.response r) → ∃ completion,
        s.result c = some completion ∧ completion.agent = .reader (source c).1 ∧
          completion.frame = some (source c).2 ∧ (s.decoded (source c).1)[(source c).2]? = some r ∧
          r.requestId = cfg.requestId c := by
      intro c r hpc
      obtain ⟨completion, hres, hr⟩ := returned_response h hpc
      obtain ⟨g, i, hagent, hframe, hget, hid⟩ := hsourced.response c completion (.inr hres) r hr
      have heq : source c = (g, i) := by
        obtain ⟨result, agent, frame⟩ := completion
        obtain rfl : agent = .reader g := hagent
        obtain rfl : frame = some i := hframe
        simp only [source, State.source, hres]
      rw [heq]
      exact ⟨completion, hres, hagent, hframe, hget, hid⟩
    refine ⟨source, fun c r hpc => ?_, fun c c' r r' hpc hpc' heq => ?_⟩
    · obtain ⟨_, _, _, _, hget, hid⟩ := hsource c r hpc
      exact ⟨hget, hid⟩
    · obtain ⟨completion, hres, hagent, hframe, _⟩ := hsource c r hpc
      obtain ⟨completion', hres', hagent', hframe', _⟩ := hsource c' r' hpc'
      refine hsourced.unique c c' completion completion' (.inr hres) (.inr hres') ?_ ?_ ?_
      · rw [hagent, hagent', heq]
      · rw [hframe, hframe', heq]
      · rw [hframe]; rintro ⟨⟩
  · intro c r hpc
    refine hwf.key_not_mem hL ?_
    rw [show s.pending.stage c = .finished from congrArg CallPc.stage hpc]
    rintro ⟨⟩
  · intro hfresh c
    obtain ⟨s', hsteps, r, hr⟩ := call_returns hL hfresh c
    exact ⟨s', r, hsteps, hr⟩

/-- 四つの呼び出しが一つの輸送路を使い、ほかの呼び出しは別々の輸送路を使う設定の例。 -/
abbrev crowdConfig : Config :=
  plainConfig fun c => if c.attempt = 0 ∧ c.rpc < 4 then 0 else Nat.pair c.rpc c.attempt + 1

theorem crowdConfig_distinct {c c' : CallId} (htransport : crowdConfig.transport c = crowdConfig.transport c')
    (hid : crowdConfig.requestId c = crowdConfig.requestId c') : c = c' := by
  obtain ⟨rpc, attempt⟩ := c
  obtain ⟨rpc', attempt'⟩ := c'
  simp only [crowdConfig, plainConfig, Config.transport, Config.requestId] at htransport hid
  split_ifs at htransport with h h' h'
  · have hrpc := congrArg UInt64.toNat hid
    rw [UInt64.toNat_ofNat_of_lt' (by simp only [UInt64.size]; omega),
      UInt64.toNat_ofNat_of_lt' (by simp only [UInt64.size]; omega)] at hrpc
    rw [hrpc, h.1, h'.1]
  · obtain ⟨rfl, rfl⟩ := Nat.pair_eq_pair.mp (Nat.succ.inj htransport)
    rfl

/-- 番号だけの応答のフレーム。 -/
def emptyResponse (id : UInt64) : Bytes :=
  (FrameCodec.encodeResponse crowdConfig.env.platform ⟨{}⟩ ⟨id, {}, []⟩).toOption.getD []

/-- 呼び出し `c` が、世代 `g` の接続に登録してから書き終えるまで。 -/
def writes (c : CallId) (fd : Fd) (g : ConnId) : List Action :=
  [.register c, .lockWrite c, .connectedFd c fd g, .setSendTimeout c fd g, .sendLast c fd g 0 g]

/-- 受信スレッド `g` が復号した応答を、呼び出し `c` が受け取るまで。 -/
def receives (c : CallId) (g : ConnId) (index : Nat) (id : UInt64) : List Action :=
  [.complete g 24 ⟨id, {}, []⟩ c, .publish (.reader g) c ⟨.response ⟨id, {}, []⟩, .reader g, some index⟩, .completed g,
    .resultReady c ⟨.response ⟨id, {}, []⟩, .reader g, some index⟩]

/-- 一つの輸送路の二つの呼び出しは、逆の順に届いた応答を、それぞれの番号で受け取る。 -/
theorem response_matching_echo :
    ∃ s, (client crowdConfig).Reach FreshDescriptor s ∧ s.pc ⟨0, 0⟩ = .returned (.response ⟨0, {}, []⟩) ∧
      s.pc ⟨1, 0⟩ = .returned (.response ⟨1, {}, []⟩) ∧ s.decoded 0 = [⟨1, {}, []⟩, ⟨0, {}, []⟩] ∧
      (∃ source : CallId → ConnId × Nat, source ⟨0, 0⟩ ≠ source ⟨1, 0⟩ ∧
        (s.decoded (source ⟨0, 0⟩).1)[(source ⟨0, 0⟩).2]? = some ⟨0, {}, []⟩ ∧
        (s.decoded (source ⟨1, 0⟩).1)[(source ⟨1, 0⟩).2]? = some ⟨1, {}, []⟩) ∧
      (∀ c : CallId, c = ⟨0, 0⟩ ∨ c = ⟨1, 0⟩ → crowdConfig.requestId c ∉ s.ids (crowdConfig.transport c)) ∧
      ∃ s' r, (client crowdConfig).Steps FreshDescriptor s s' ∧ s'.pc ⟨2, 0⟩ = .returned r := by
  have hfresh : FreshDescriptor ((client crowdConfig).next .initial (.start ⟨0, 0⟩)) (.openSocket ⟨0, 0⟩ 3) := by
    refine ⟨fun c => ?_, nofun⟩
    show (update (fun _ => CallPc.idle) (⟨0, 0⟩ : CallId) .ensureConnected c).heldFd ≠ some 3
    rw [update_apply]
    split <;> exact nofun
  have hopen := (Machine.Reach.init (M := client crowdConfig) (C := FreshDescriptor) (s := .initial) rfl)
    |>.step (a := Action.start ⟨0, 0⟩) (by decide) trivial
    |>.step (a := Action.openSocket ⟨0, 0⟩ 3) (by decide) hfresh
  have hrun := Machine.exists_reach_of_exec
    ([.connectOk ⟨0, 0⟩ 3 0, .assignReader ⟨0, 0⟩ 0, .start ⟨1, 0⟩, .connected ⟨1, 0⟩] ++ writes ⟨0, 0⟩ 3 0 ++
      writes ⟨1, 0⟩ 3 0 ++ [.decodeMore 0, .recv 0 (emptyResponse 1 ++ emptyResponse 0) 0] ++
      receives ⟨1, 0⟩ 0 0 1 ++ receives ⟨0, 0⟩ 0 1 0)
    (fun s => s.pc ⟨0, 0⟩ = .returned (.response ⟨0, {}, []⟩) ∧ s.pc ⟨1, 0⟩ = .returned (.response ⟨1, {}, []⟩) ∧
      s.decoded 0 = [⟨1, {}, []⟩, ⟨0, {}, []⟩]) hopen ?_ (by decide)
  · obtain ⟨s, hs, hp⟩ := hrun
    obtain ⟨hzero, hone, hdecoded⟩ := of_decide_eq_true hp
    obtain ⟨-, -, -, ⟨source, hsource, hunique⟩, -, hleft, hreturns⟩ :=
      response_matching (fun _ _ => crowdConfig_distinct) hs.reachable
    refine ⟨s, hs, hzero, hone, hdecoded, ⟨source, fun heq => ?_, (hsource _ _ hzero).1, (hsource _ _ hone).1⟩, ?_,
      hreturns hs ⟨2, 0⟩⟩
    · exact absurd (hunique _ _ _ _ hzero hone heq) (by decide)
    · rintro c (rfl | rfl)
      · exact hleft _ _ hzero
      · exact hleft _ _ hone
  · simp [writes, receives, FreshDescriptor]

/-- 前の世代の受信スレッドが、同じ番号を得た次の世代のソケットを閉じると、`state_mutex_` を握って合流を待つ呼び出しと、
`state_mutex_` を待つ受信スレッドとが、互いを待ち続ける。 -/
theorem call_waits_forever :
    ∃ s, (client crowdConfig).Reachable s ∧ s.pc ⟨2, 0⟩ = .assigning 3 ∧
      ∀ s', (client crowdConfig).Steps (fun _ _ => True) s s' → s'.pc ⟨2, 0⟩ = .assigning 3 := by
  have hrun := Machine.exists_reachable_of_exec (M := client crowdConfig) (s := .initial)
    [.start ⟨0, 0⟩, .openSocket ⟨0, 0⟩ 3, .connectOk ⟨0, 0⟩ 3 0, .assignReader ⟨0, 0⟩ 0, .register ⟨0, 0⟩,
      .lockWrite ⟨0, 0⟩, .connectedFd ⟨0, 0⟩ 3 0, .setSendTimeout ⟨0, 0⟩ 3 0,
      -- 最初の世代が切れ、受信スレッドが閉じる前に、書き込みに失敗した呼び出しが閉じる
      .decodeMore 0, .readerFails 0 .peerClosed, .sendFails ⟨0, 0⟩ 3 0 0 .peerClosed,
      .abandonWrite ⟨0, 0⟩ (peerClosedStatus (text "send")), .closeOpen (.caller ⟨0, 0⟩) 0 3 0,
      -- 二番目の世代は自分で閉じて終わり、三番目の呼び出しがその受信スレッドを引き取って合流する
      .start ⟨1, 0⟩, .openSocket ⟨1, 0⟩ 3, .connectOk ⟨1, 0⟩ 3 1, .assignReader ⟨1, 0⟩ 1, .decodeMore 1,
      .readerFails 1 .peerClosed, .closeFromReader 1 (peerClosedStatus (text "recv")) 1,
      .failAll 1 (peerClosedStatus (text "recv")), .readerDone 1, .start ⟨2, 0⟩, .takeReader ⟨2, 0⟩ 1, .joined ⟨2, 0⟩ 1,
      -- 四番目の呼び出しの接続を、最初の世代の受信スレッドが番号を取り違えて閉じる
      .start ⟨3, 0⟩, .openSocket ⟨3, 0⟩ 3, .connectOk ⟨3, 0⟩ 3 2, .assignReader ⟨3, 0⟩ 2,
      .closeFromReader 0 (peerClosedStatus (text "recv")) 2, .decodeMore 2, .readerFails 2 .peerClosed,
      .openSocket ⟨2, 0⟩ 3, .connectOk ⟨2, 0⟩ 3 3]
    (fun s => s.pc ⟨2, 0⟩ = .assigning 3 ∧ s.readerThread 0 = some 2 ∧
      s.readerPc 2 = .closing (peerClosedStatus (text "recv")) ∧ s.connTransport 2 = 0) (.init rfl) (by decide)
  obtain ⟨s, hs, hp⟩ := hrun
  obtain ⟨hpc, hthread, hclosing, hhome⟩ := of_decide_eq_true hp
  have hdeadlocked : Deadlocked crowdConfig ⟨2, 0⟩ 3 2 s := ⟨hpc, hthread, ⟨_, hclosing⟩, hhome⟩
  exact ⟨s, hs, hpc, fun s' hsteps => (hdeadlocked.steps hs hsteps).assigning⟩

/-! ## 記述子の番号と接続 -/

/-- 呼び出し `c` のフレームの、先頭から `n` バイト。 -/
def Config.sentPrefix (cfg : Config) (c : CallId) (n : Nat) : List (CallId × UInt8) :=
  ((cfg.requestFrame c).take n).map fun b => (c, b)

def Config.sentFrame (cfg : Config) (c : CallId) : List (CallId × UInt8) := (cfg.requestFrame c).map fun b => (c, b)

/-- 写し持たれている番号が新しいソケットに渡らない実行では、`send`、`recv`、受信スレッドの `close` は、番号を得た接続にだけ
働く。どの接続に送ったものも、完全なフレームの並びに、高々一つのフレームの途中までを付けたものである。途中までのものは、続きを
書いている最中であるか、その後には何も送られない。 -/
theorem descriptors_act_on_own_connection {cfg : Config} {s : State} (h : (client cfg).Reach FreshDescriptor s) :
    (∀ e ∈ s.log, e.actual = e.obtained) ∧
    ∀ g, ∃ frames : List CallId, s.sent g = frames.flatMap cfg.sentFrame ∨
      ∃ c n, 0 < n ∧ n < (cfg.requestFrame c).length ∧ s.sent g = frames.flatMap cfg.sentFrame ++ cfg.sentPrefix c n ∧
        ((∃ fd, s.pc c = .retry fd g n ∨ s.pc c = .send fd g n) ∨
          ∀ s', (client cfg).Steps FreshDescriptor s s' → s'.sent g = s.sent g) := by
  have hsound := reach_sound h
  refine ⟨?_, fun g => ?_⟩
  · intro e he
    exact hsound.copies.log_own _ (List.mem_map_of_mem he)
  · obtain ⟨frames, ⟨heq, _⟩ | ⟨c, n, hpos, hlt, hhome, hborn, heq, hpending⟩⟩ := hsound.framed g
    · exact ⟨frames, .inl heq⟩
    · refine ⟨frames, .inr ⟨c, n, hpos, hlt, heq, ?_⟩⟩
      by_cases hholding : ∃ fd, s.sockets.writer c = .holding fd g n
      · obtain ⟨fd, hfd⟩ := hholding
        exact .inl ⟨fd, pc_of_holding hfd hpos⟩
      · have hquiet : SharedSocket.Quiet cfg.sockets c g s.sockets :=
          ⟨hhome, hborn, fun hfds => (hpending hfds).resolve_left hholding⟩
        exact .inr fun s' hsteps => hquiet.steps (reach_sockets h) (steps_sockets h hsteps)

/-- 輸送路ごとに別の呼び出しがある設定の例。 -/
abbrev separateConfig : Config := plainConfig fun c => c.rpc

theorem descriptors_act_on_own_connection_partial :
    ∃ s, (client separateConfig).Reach FreshDescriptor s ∧ s.sent 0 = separateConfig.sentPrefix ⟨0, 0⟩ 1 ∧
      ∀ e ∈ s.log, e.actual = e.obtained := by
  -- 最初のソケットを作るときには、どの番号も写し持たれていない
  have hfresh : FreshDescriptor ((client separateConfig).next .initial (.start ⟨0, 0⟩)) (.openSocket ⟨0, 0⟩ 3) := by
    refine ⟨fun c => ?_, nofun⟩
    show (update (fun _ => CallPc.idle) (⟨0, 0⟩ : CallId) .ensureConnected c).heldFd ≠ some 3
    rw [update_apply]
    split <;> exact nofun
  have h := (Machine.Reach.init (M := client separateConfig) (C := FreshDescriptor) (s := .initial) rfl)
    |>.step (a := Action.start ⟨0, 0⟩) (by decide) trivial
    |>.step (a := Action.openSocket ⟨0, 0⟩ 3) (by decide) hfresh
    |>.step (a := Action.connectOk ⟨0, 0⟩ 3 0) (by decide) trivial
    |>.step (a := Action.assignReader ⟨0, 0⟩ 0) (by decide) trivial
    |>.step (a := Action.register ⟨0, 0⟩) (by decide) trivial
    |>.step (a := Action.lockWrite ⟨0, 0⟩) (by decide) trivial
    |>.step (a := Action.connectedFd ⟨0, 0⟩ 3 0) (by decide) trivial
    |>.step (a := Action.setSendTimeout ⟨0, 0⟩ 3 0) (by decide) trivial
    |>.step (a := Action.sendPart ⟨0, 0⟩ 3 0 0 1 0) (by decide) trivial
  exact ⟨_, h, by decide, (descriptors_act_on_own_connection h).1⟩

/-- 写し取った番号を閉じた後、別の輸送路のソケットがその番号を得ると、フレームはそのソケットに送られる。 -/
theorem reused_descriptor_sends_elsewhere :
    ∃ s, (client separateConfig).Reachable s ∧ s.connTransport 0 = 0 ∧ s.connTransport 1 = 1 ∧
      ⟨.send, 0, 1⟩ ∈ s.log ∧ s.sent 1 = separateConfig.sentPrefix ⟨0, 0⟩ 1 := by
  have hrun := Machine.exists_reachable_of_exec (M := client separateConfig) (s := .initial)
    [.start ⟨0, 0⟩, .openSocket ⟨0, 0⟩ 3, .connectOk ⟨0, 0⟩ 3 0, .assignReader ⟨0, 0⟩ 0, .register ⟨0, 0⟩,
      .lockWrite ⟨0, 0⟩, .connectedFd ⟨0, 0⟩ 3 0, .setSendTimeout ⟨0, 0⟩ 3 0, .decodeMore 0, .readerFails 0 .peerClosed,
      .closeFromReader 0 (peerClosedStatus (text "recv")) 0, .start ⟨1, 0⟩, .openSocket ⟨1, 0⟩ 3, .connectOk ⟨1, 0⟩ 3 1,
      .sendPart ⟨0, 0⟩ 3 0 0 1 1]
    (fun s => s.connTransport 0 = 0 ∧ s.connTransport 1 = 1 ∧ ⟨.send, 0, 1⟩ ∈ s.log ∧
      s.sent 1 = separateConfig.sentPrefix ⟨0, 0⟩ 1) (.init rfl) (by decide)
  obtain ⟨s, hs, hp⟩ := hrun
  exact ⟨s, hs, of_decide_eq_true hp⟩

/-! ## 接続の失敗が及ぶ範囲 -/

/-- 世代が整然と交代する実行では、接続 `g` に書き終えた呼び出しの失敗は、`g` の受信スレッドか、`g` を閉じた `Close` か、自分の
期限による。 -/
theorem connection_failure_fails_own_calls {cfg : Config} {s : State} (h : (client cfg).Reach (Orderly cfg) s) {c : CallId}
    {g : ConnId} (hw : s.wrote c = some g) :
    (∀ completion f, s.result c = some completion → completion.result = .failure f →
      completion.agent = .reader g ∨ ∃ i, completion.agent = .closer i ∧ s.closed i = some g) ∧
    ∀ f, s.pc c = .returned (.failure f) →
      (∃ completion, s.result c = some completion ∧ completion.result = .failure f) ∨
        f = ⟨deadlineExceededStatus, .maybeSent⟩ ∧ cfg.expired s.now c := by
  have hobtained : s.obtained c = some g := reach_wrote (h.mono fun _ _ horderly => horderly.1) hw
  refine ⟨fun completion f hres hf => ?_, fun f hpc => reachable_failed h.reachable hw hpc⟩
  exact reach_blamed h c completion f g (.inr hres) hf hobtained

/-- すべての呼び出しが一つの輸送路を使う設定の例。 -/
abbrev sharedConfig : Config := plainConfig fun _ => 0

theorem connection_failure_fails_own_calls_peerClosed :
    ∃ s, (client sharedConfig).Reach (Orderly sharedConfig) s ∧ s.wrote ⟨0, 0⟩ = some 0 ∧
      ∃ completion f, s.result ⟨0, 0⟩ = some completion ∧ completion.result = .failure f ∧
        (completion.agent = .reader 0 ∨ ∃ i, completion.agent = .closer i ∧ s.closed i = some 0) := by
  have hfresh : FreshDescriptor ((client sharedConfig).next .initial (.start ⟨0, 0⟩)) (.openSocket ⟨0, 0⟩ 3) := by
    refine ⟨fun c => ?_, nofun⟩
    show (update (fun _ => CallPc.idle) (⟨0, 0⟩ : CallId) .ensureConnected c).heldFd ≠ some 3
    rw [update_apply]
    split <;> exact nofun
  have h := (Machine.Reach.init (M := client sharedConfig) (C := Orderly sharedConfig) (s := .initial) rfl)
    |>.step (a := Action.start ⟨0, 0⟩) (by decide) ⟨trivial, trivial⟩
    |>.step (a := Action.openSocket ⟨0, 0⟩ 3) (by decide) ⟨hfresh, trivial⟩
    |>.step (a := Action.connectOk ⟨0, 0⟩ 3 0) (by decide) ⟨trivial, fun _ _ => rfl, nofun⟩
    |>.step (a := Action.assignReader ⟨0, 0⟩ 0) (by decide) ⟨trivial, trivial⟩
    |>.step (a := Action.register ⟨0, 0⟩) (by decide) ⟨trivial, trivial⟩
    |>.step (a := Action.lockWrite ⟨0, 0⟩) (by decide) ⟨trivial, trivial⟩
    |>.step (a := Action.connectedFd ⟨0, 0⟩ 3 0) (by decide) ⟨trivial, by decide +kernel⟩
    |>.step (a := Action.setSendTimeout ⟨0, 0⟩ 3 0) (by decide) ⟨trivial, trivial⟩
    |>.step (a := Action.sendLast ⟨0, 0⟩ 3 0 0 0) (by decide) ⟨trivial, trivial⟩
    |>.step (a := Action.decodeMore 0) (by decide) ⟨trivial, trivial⟩
    |>.step (a := Action.readerFails 0 .peerClosed) (by decide) ⟨trivial, trivial⟩
    |>.step (a := Action.closeFromReader 0 (peerClosedStatus (text "recv")) 0) (by decide) ⟨trivial, trivial⟩
    |>.step (a := Action.failAll 0 (peerClosedStatus (text "recv"))) (by decide) ⟨trivial, trivial⟩
    |>.step (a := Action.publish (.reader 0) ⟨0, 0⟩
        ⟨makeCallFailure (peerClosedStatus (text "recv")) .maybeSent, .reader 0, none⟩) (by decide) ⟨trivial, trivial⟩
  refine ⟨_, h, by decide, _, _, rfl, rfl, ?_⟩
  exact (connection_failure_fails_own_calls h (c := ⟨0, 0⟩) (g := 0) (by decide)).1 _ _ rfl rfl

/-- 前の世代の受信スレッドは、ソケットを閉じた後、次の世代に書き終えた呼び出しを失敗させることがある。記述子の番号は
使い回されていない。 -/
theorem earlier_reader_fails_later_call :
    ∃ s, (client sharedConfig).Reachable s ∧ s.wrote ⟨2, 0⟩ = some 1 ∧
      s.pc ⟨2, 0⟩ = .returned (makeCallFailure (peerClosedStatus (text "recv")) .maybeSent) ∧
      s.result ⟨2, 0⟩ = some ⟨makeCallFailure (peerClosedStatus (text "recv")) .maybeSent, .reader 0, none⟩ := by
  have hrun := Machine.exists_reachable_of_exec (M := client sharedConfig) (s := .initial)
    [.start ⟨0, 0⟩, .openSocket ⟨0, 0⟩ 3, .connectOk ⟨0, 0⟩ 3 0, .assignReader ⟨0, 0⟩ 0, .decodeMore 0,
      .readerFails 0 .peerClosed, .closeFromReader 0 (peerClosedStatus (text "recv")) 0,
      -- 二番目の呼び出しは、前の受信スレッドを引き取って合流を待つ
      .start ⟨1, 0⟩, .takeReader ⟨1, 0⟩ 0,
      -- 三番目の呼び出しは、待たずに接続して書き終える
      .start ⟨2, 0⟩, .openSocket ⟨2, 0⟩ 4, .connectOk ⟨2, 0⟩ 4 1, .assignReader ⟨2, 0⟩ 1, .register ⟨2, 0⟩,
      .lockWrite ⟨2, 0⟩, .connectedFd ⟨2, 0⟩ 4 1, .setSendTimeout ⟨2, 0⟩ 4 1, .sendLast ⟨2, 0⟩ 4 1 0 1,
      .failAll 0 (peerClosedStatus (text "recv")),
      .publish (.reader 0) ⟨2, 0⟩ ⟨makeCallFailure (peerClosedStatus (text "recv")) .maybeSent, .reader 0, none⟩,
      .resultReady ⟨2, 0⟩ ⟨makeCallFailure (peerClosedStatus (text "recv")) .maybeSent, .reader 0, none⟩]
    (fun s => s.wrote ⟨2, 0⟩ = some 1 ∧
      s.pc ⟨2, 0⟩ = .returned (makeCallFailure (peerClosedStatus (text "recv")) .maybeSent) ∧
      s.result ⟨2, 0⟩ = some ⟨makeCallFailure (peerClosedStatus (text "recv")) .maybeSent, .reader 0, none⟩)
    (.init rfl) (by decide)
  obtain ⟨s, hs, hp⟩ := hrun
  exact ⟨s, hs, of_decide_eq_true hp⟩

end Xrpc.Client
