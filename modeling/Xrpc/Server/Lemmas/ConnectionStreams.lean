import Xrpc.Server.Lemmas.ConnectionIoLoop

/-!
# 接続が受け取ったバイトと送ったバイト

歩みの前と後で、`send` が受け取ったバイトと、復号した要求がどう変わるかを述べる。受信は `received` だけが、送信は `sendCompleted`
だけが進める。
-/

namespace Xrpc.Server
open Xrpc.Lib Xrpc.Protocol Function

/-! ## 書き込み側 -/

namespace ConnectionCore

variable {limits : BackpressureLimits} {c c' c'' : ConnectionCore} {refused : Bool}

/-- 歩みは何も送らない。書き込みの受け付けは増えるだけである。 -/
structure Still (c c' : ConnectionCore) : Prop where
  sent : c'.sent = c.sent
  accepted : c.accepted <+: c'.accepted

namespace Still

theorem refl : Still c c := ⟨rfl, List.prefix_refl _⟩

theorem trans (h : Still c c') (h' : Still c' c'') : Still c c'' :=
  ⟨h'.sent.trans h.sent, h.accepted.trans h'.accepted⟩

end Still

theorem still_close : Still c c.close := by
  by_cases hclosed : c.state = .closed
  · rw [close_of_closed hclosed]
    exact .refl
  · rw [close_eq hclosed]
    exact ⟨rfl, List.prefix_refl _⟩

theorem still_tryFinishDrain : Still c c.tryFinishDrain := by
  rw [tryFinishDrain]
  split
  next => exact .refl
  next =>
    split
    next => exact { still_close (c := { c.check c.writeQueue.isEmpty with drained := true }) with }
    next => exact .refl

theorem still_beginDrain : Still c c.beginDrain := by
  rw [beginDrain]
  split
  next => exact .refl
  next => exact { still_tryFinishDrain (c := { c with state := .draining }.call [.shutdownRead]) with }

theorem still_failSend (batch : Bytes) : Still c (c.failSend batch) :=
  { still_close (c := c.releaseWriteBytes batch.length) with }

theorem still_startSend (refused : Bool) (batch : Bytes) (offset : Nat) : Still c (c.startSend refused batch offset) := by
  rw [startSend]
  split
  next => exact ⟨rfl, List.prefix_refl _⟩
  next =>
    split
    next =>
      have h := still_failSend batch (c := { c with writeLoop := .sending batch offset }.call [.send (batch.drop offset)])
      exact { h with }
    next => exact ⟨rfl, List.prefix_refl _⟩

theorem still_finishWrites : Still c c.finishWrites := by
  have h := still_tryFinishDrain (c := c)
  rw [finishWrites]
  split <;> exact { h with }

theorem still_writeBatches (refused : Bool) (fuel : Nat) : Still c (c.writeBatches refused fuel) := by
  induction fuel generalizing c with
  | zero => exact still_finishWrites
  | succ fuel ih =>
      rw [writeBatches]
      split
      next => exact still_finishWrites
      next =>
        dsimp only
        split
        next => exact { ih (c := { c with writeQueue := (takeWriteBatch c.writeQueue).2 }.releaseWriteBytes 0) with }
        next =>
          have h := still_startSend (c := { c with writeQueue := (takeWriteBatch c.writeQueue).2 }) refused
            (takeWriteBatch c.writeQueue).1 0
          exact { h with }

theorem still_runWriteLoop (refused : Bool) : Still c (c.runWriteLoop refused) :=
  { still_writeBatches (c := { c with writeLoop := .running }) refused c.writeQueue.length with }

theorem still_startWriteLoop (refused : Bool) : Still c (c.startWriteLoop refused) := by
  rw [startWriteLoop]
  split
  next => exact ⟨rfl, List.prefix_refl _⟩
  next =>
    split
    next => exact ⟨rfl, List.prefix_refl _⟩
    next => exact still_runWriteLoop refused

theorem still_pushWrite (refused : Bool) (bytes : Bytes) : Still c (c.pushWrite refused bytes) := by
  have hpush : Still c { c with writeQueue := c.writeQueue ++ [bytes], accepted := c.accepted ++ [bytes] } :=
    ⟨rfl, List.prefix_append _ _⟩
  refine hpush.trans ?_
  rw [pushWrite, wakeWriteLoop]
  split
  next => exact .refl
  next =>
    have h := still_runWriteLoop refused
      (c := { c with writeQueue := c.writeQueue ++ [bytes], accepted := c.accepted ++ [bytes], writeQueueWaiter := false })
    exact { h with }

theorem still_tryReserveWriteBytes (limits : BackpressureLimits) (bytes : Nat) :
    Still c (c.tryReserveWriteBytes limits bytes).1 := by
  rw [tryReserveWriteBytes]
  split
  next => exact { still_close (c := c.check _) with }
  next => exact ⟨rfl, List.prefix_refl _⟩

theorem still_enqueueWrite (limits : BackpressureLimits) (refused : Bool) (bytes : Bytes) :
    Still c (c.enqueueWrite limits refused bytes).1 := by
  rw [enqueueWrite]
  split
  next => exact .refl
  next =>
    have h := still_tryReserveWriteBytes (c := c) limits bytes.length
    split
    next core hreserve => rw [hreserve] at h; exact h
    next core hreserve =>
      rw [hreserve] at h
      refine h.trans ?_
      split
      next => exact ⟨rfl, List.prefix_refl _⟩
      next => exact still_pushWrite refused bytes

theorem still_isolateBadAlloc : Still c c.isolateBadAlloc := by
  rw [isolateBadAlloc]
  split
  next => exact { still_close (c := { c with throwing := none }) with }
  next => exact .refl

theorem still_onResponsesEncoded (limits : BackpressureLimits) (refused : Bool) (bytes : Bytes) (released : Nat) :
    Still c (c.onResponsesEncoded limits refused bytes released) := by
  have hrelease : Still c (c.releaseInflightRequests released) := ⟨rfl, List.prefix_refl _⟩
  rw [onResponsesEncoded]
  split
  next => exact hrelease
  next =>
    exact (hrelease.trans (still_enqueueWrite limits refused bytes)).trans
      (still_isolateBadAlloc.trans still_tryFinishDrain)

/-- 送信の完了は、手元の束の続きだけを送ったことにする。 -/
theorem sent_sendCompleted (refused : Bool) (result : Option Nat) :
    ((c.sendCompleted refused result).sent = c.sent ∨
      c.state ≠ .closed ∧ ∃ n ∈ result, (c.sendCompleted refused result).sent = c.sent ++ c.writeLoop.unsent.take n) ∧
      (c.sendCompleted refused result).accepted = c.accepted := by
  have hframe : Frame c (c.sendCompleted refused result) := frame_sendCompleted refused result
  refine ⟨?_, hframe.accepted⟩
  rw [sendCompleted]
  split
  next batch offset hloop =>
    split
    next => exact .inl rfl
    next hopen =>
      cases result with
      | none => exact .inl (still_failSend batch).sent
      | some n =>
          refine .inr ⟨hopen, n, rfl, ?_⟩
          rw [hloop]
          dsimp only
          split
          next => exact (still_startSend refused batch (offset + n)).sent
          next => exact (still_runWriteLoop refused).sent
  next => exact .inl rfl

end ConnectionCore

/-! ## 接続 -/

namespace ServerConnection
open ConnectionCore

variable {cfg : ServerConnectionConfig} {c c' c'' : ServerConnection}

/-- 歩みは何も送らず、何も復号しない。 -/
structure Quiet (c c' : ServerConnection) : Prop where
  still : c.core.Still c'.core
  decoded : c'.decoded = c.decoded
  frameStream : c'.frameStream = c.frameStream

namespace Quiet

theorem refl : Quiet c c := ⟨.refl, rfl, rfl⟩

theorem trans (h : Quiet c c') (h' : Quiet c' c'') : Quiet c c'' :=
  ⟨h.still.trans h'.still, h'.decoded.trans h.decoded, h'.frameStream.trans h.frameStream⟩

theorem of_still {core : ConnectionCore} (h : c.core.Still core) : Quiet c { c with core := core } := ⟨h, rfl, rfl⟩

end Quiet

theorem quiet_finishRead : Quiet c c.finishRead := ⟨{ still_tryFinishDrain (c := c.core) with }, rfl, rfl⟩

theorem quiet_continueRead (refused : Bool) : Quiet c (c.continueRead refused) := by
  rw [continueRead]
  split
  next =>
    dsimp only
    split
    next => exact ⟨⟨rfl, List.prefix_refl _⟩, rfl, rfl⟩
    next =>
      split
      next =>
        have h : Quiet c { c with core := (c.core.call [.recvProvided]).close } :=
          .of_still { still_close (c := c.core.call [.recvProvided]) with }
        exact h.trans quiet_finishRead
      next => exact ⟨⟨rfl, List.prefix_refl _⟩, rfl, rfl⟩
  next => exact quiet_finishRead

theorem quiet_rejectForBackpressure (cfg : ServerConnectionConfig) (refused : Bool) (message : Bytes) (request : Request) :
    Quiet c (c.rejectForBackpressure cfg refused message request).1 := by
  rw [rejectForBackpressure]
  dsimp only
  split
  next => exact ⟨still_close, rfl, rfl⟩
  next frame _ =>
    have h := still_enqueueWrite (c := c.core) cfg.limits refused frame
    generalize c.core.enqueueWrite cfg.limits refused frame = enqueued at *
    obtain ⟨core, took⟩ := enqueued
    cases took <;> exact ⟨h, rfl, rfl⟩

theorem quiet_rejectAll (cfg : ServerConnectionConfig) (refused : Bool) (message : Bytes) (requests : List Request) :
    Quiet c (c.rejectAll cfg refused message requests).1 := by
  induction requests generalizing c with
  | nil => exact .refl
  | cons request rest ih =>
      have h := quiet_rejectForBackpressure (c := c) cfg refused message request
      rw [rejectAll]
      generalize c.rejectForBackpressure cfg refused message request = outcome at *
      obtain ⟨c', took⟩ := outcome
      cases took with
      | true => exact h.trans ih
      | false => exact h

theorem quiet_resumeRead (refused : Bool) (outcome : ServerConnection × Bool) :
    Quiet outcome.1 (resumeRead refused outcome) := by
  obtain ⟨c, took⟩ := outcome
  cases took with
  | true => exact quiet_continueRead refused
  | false => exact quiet_finishRead

theorem quiet_start (recvRefused : Bool) : Quiet c (c.start recvRefused) :=
  (Quiet.of_still (still_startWriteLoop false)).trans (quiet_continueRead recvRefused)

/-- 復号した要求を記録した後は、何も復号しない。 -/
theorem quiet_handleFeedResult (cfg : ServerConnectionConfig) (sendRefused recvRefused : Bool) (feed : FrameStreamFeedResult) :
    Quiet { c with decoded := c.decoded ++ feed.requests.toList } (c.handleFeedResult cfg sendRefused recvRefused feed) := by
  rw [handleFeedResult]
  dsimp only
  split
  next =>
    have hclose : Quiet { c with decoded := c.decoded ++ feed.requests.toList }
        { c with decoded := c.decoded ++ feed.requests.toList, core := c.core.close } := ⟨still_close, rfl, rfl⟩
    exact hclose.trans quiet_finishRead
  next =>
    split
    next => exact quiet_continueRead recvRefused
    next =>
      have hcheck : Quiet { c with decoded := c.decoded ++ feed.requests.toList }
          { c with
            decoded := c.decoded ++ feed.requests.toList
            core := c.core.check (c.core.inflightRequests ≤ cfg.limits.maxInflight) } :=
        ⟨⟨rfl, List.prefix_refl _⟩, rfl, rfl⟩
      split
      next => exact hcheck.trans ((quiet_rejectAll _ _ _ _).trans (quiet_resumeRead _ _))
      next => exact hcheck.trans ⟨.refl, rfl, rfl⟩

theorem quiet_receivedEof : Quiet c c.receivedEof := by
  rw [receivedEof]
  split
  next => exact quiet_finishRead
  next =>
    have hdrain : Quiet c { c with core := { c.core with state := .draining } } := ⟨⟨rfl, List.prefix_refl _⟩, rfl, rfl⟩
    exact hdrain.trans quiet_finishRead

theorem quiet_receiveFailed : Quiet c c.receiveFailed := by
  rw [receiveFailed]
  split
  next => exact quiet_finishRead
  next => exact (Quiet.of_still still_close).trans quiet_finishRead

theorem quiet_submitFull (cfg : ServerConnectionConfig) (sendRefused recvRefused : Bool) (requests : List Request) :
    Quiet c (c.submitFull cfg sendRefused recvRefused requests) := by
  refine .trans ?_ ((quiet_rejectAll _ _ _ _).trans (quiet_resumeRead _ _))
  exact ⟨.refl, rfl, rfl⟩

theorem quiet_submitClosed : Quiet c c.submitClosed := by
  have h : Quiet c { c with submissions := c.submissions + 1, core := c.core.beginDrain } := ⟨still_beginDrain, rfl, rfl⟩
  exact h.trans quiet_finishRead

theorem quiet_submitThrew : Quiet c c.submitThrew := by
  have h : Quiet c { c with submissions := c.submissions + 1, core := { c.core with throwing := some .badAlloc } } :=
    ⟨⟨rfl, List.prefix_refl _⟩, rfl, rfl⟩
  exact h.trans quiet_finishRead

theorem quiet_countAdmitted (recvRefused : Bool) (requestCount : Nat) :
    Quiet c (c.countAdmitted recvRefused requestCount) := by
  have hcount : Quiet c { c with
      core := { c.core with inflightRequests := c.core.inflightRequests + requestCount } } :=
    ⟨⟨rfl, List.prefix_refl _⟩, rfl, rfl⟩
  exact hcount.trans (quiet_continueRead recvRefused)

theorem quiet_handleResult (cfg : ServerConnectionConfig) (refused : Bool) (result : WorkerResult) :
    Quiet c (c.handleResult cfg refused result) := by
  rw [handleResult]
  split
  next => exact ⟨{ still_close (c := c.core.releaseInflightRequests result.releasedRequests) with }, rfl, rfl⟩
  next =>
    dsimp only
    split <;> exact ⟨still_onResponsesEncoded _ _ _ _, rfl, rfl⟩

theorem still_received (sendRefused recvRefused : Bool) (bytes : Bytes) :
    c.core.Still (c.received cfg sendRefused recvRefused bytes).core := by
  rw [received]
  split
  next => exact quiet_finishRead.still
  next =>
    split
    next => exact ⟨rfl, List.prefix_refl _⟩
    next feed stream _ =>
      have h := quiet_handleFeedResult (c := { c with frameStream := stream }) cfg sendRefused recvRefused feed
      exact { h.still with }

/-- 復号の順の記録 `decoded` と復号器は、届いたバイト `input` の先頭部分 `used` を、一度に復号したときのものである。受信を
続けている間は、届いたものをすべて復号器に渡している。 -/
structure Fed (cfg : ServerConnectionConfig) (input used : Bytes) (c : ServerConnection) : Prop where
  arrived : used <+: input
  decoded : c.decoded = ((requestDecoder cfg.platform cfg.protocolLimits).parse used).1
  active : c.core.state = .active → used = input ∧ ∃ receiver,
    Receiver.Agrees (requestDecoder cfg.platform cfg.protocolLimits) receiver used ∧
      c.frameStream.Refines cfg.protocolLimits receiver

theorem active_of_rank_le {c c' : ConnectionCore} (h : c.state.rank ≤ c'.state.rank) (hactive : c'.state = .active) :
    c.state = .active := by
  rw [hactive] at h
  cases hstate : c.state with
  | active => rfl
  | draining => rw [hstate] at h; cases h
  | closed => rw [hstate] at h; cases h

namespace Fed

variable {input used : Bytes}

theorem quiet (h : Fed cfg input used c) (hquiet : Quiet c c') (hforward : c.core.state.rank ≤ c'.core.state.rank) :
    Fed cfg input used c' := by
  refine ⟨h.arrived, hquiet.decoded.trans h.decoded, fun hactive => ?_⟩
  rw [hquiet.frameStream]
  exact h.active (active_of_rank_le hforward hactive)

/-- 受信の完了は、届いたバイトを復号器に渡すか、受信を終えている。 -/
theorem received (h : Fed cfg input used c) (sendRefused recvRefused : Bool) (bytes : Bytes) :
    ∃ used', Fed cfg (input ++ bytes) used' (c.received cfg sendRefused recvRefused bytes) := by
  rw [ServerConnection.received]
  split
  next hinactive =>
    refine ⟨used, h.arrived.trans (List.prefix_append _ _), h.decoded, fun hactive => ?_⟩
    exact absurd (active_of_rank_le (later_finishRead (c := c)).forward hactive) hinactive
  next hactive =>
    obtain ⟨rfl, receiver, hagrees, hrefines⟩ := h.active (not_not.mp hactive)
    obtain ⟨feed, stream, hfeed, hrequests, -, hrefines'⟩ :=
      RpcFrameStream.feedBytes_refines cfg.platform cfg.policy hrefines bytes
    obtain ⟨hagrees', hparse⟩ := Receiver.feed_agrees hagrees bytes
    rw [hfeed]
    have hquiet := quiet_handleFeedResult (c := { c with frameStream := stream }) cfg sendRefused recvRefused feed
    refine ⟨used ++ bytes, List.prefix_refl _, ?_, fun _ => ⟨rfl, _, hagrees', ?_⟩⟩
    · rw [hquiet.decoded, hparse, ← hrequests, ← h.decoded]
    · rw [hquiet.frameStream]
      exact hrefines'

end Fed

end ServerConnection

/-! ## 入出力の繰り返し -/

namespace ConnectionIoLoop
open ServerConnection

variable {cfg : ServerConnectionConfig} {s s' : ConnectionIoLoop} {n m : Nat}

/-- 実体 `n` に届くバイト。 -/
def Act.arrives (n : Nat) : Act → Bytes
  | .received m _ _ bytes => if m = n then bytes else []
  | _ => []

/-- 動作 `a` の前と後の、同じ実体。復号するのは受信の完了だけ、送るのは送信の完了だけである。 -/
def Stream (cfg : ServerConnectionConfig) (a : Act) (n : Nat) (c c' : ServerConnection) : Prop :=
  (Quiet c c' ∧ a.arrives n = []) ∨
    (∃ sendRefused recvRefused bytes d, a = .received n sendRefused recvRefused bytes ∧ Quiet c d ∧
      d.core.state = c.core.state ∧ c' = d.received cfg sendRefused recvRefused bytes) ∨
    ∃ refused bytes, a = .sendCompleted n refused bytes ∧ c'.decoded = c.decoded ∧ c'.frameStream = c.frameStream ∧
      c'.core.accepted = c.core.accepted ∧ (c'.core.sent = c.core.sent ∨
        c.core.state ≠ .closed ∧ c'.core.sent = c.core.sent ++ c.core.writeLoop.unsent.take bytes)

theorem quiet_lend (s : ConnectionIoLoop) (n : Nat) : Quiet (s.objects n) (s.lend n) :=
  ⟨⟨rfl, List.prefix_refl _⟩, rfl, rfl⟩

theorem quiet_runOn {f : ServerConnection → ServerConnection} (h : Quiet (s.lend n) (f (s.lend n))) (m : Nat) :
    Quiet (s.objects m) ((s.runOn n f).objects m) := by
  show Quiet (s.objects m) (update s.objects n (f (s.lend n)) m)
  rw [update_apply]
  split
  next hm => subst hm; exact (quiet_lend s m).trans h
  next => exact .refl

theorem quiet_modify {f : ServerConnection → ServerConnection} (h : Quiet (s.objects n) (f (s.objects n))) (m : Nat) :
    Quiet (s.objects m) ((s.modify n f).objects m) := by
  show Quiet (s.objects m) (update s.objects n (f (s.objects n)) m)
  rw [update_apply]
  split
  next hm => subst hm; exact h
  next => exact .refl

theorem quiet_foldl {w : ConnectionIoLoop → UInt64 × Nat → ConnectionIoLoop}
    (h : ∀ s entry, Quiet (s.objects n) ((w s entry).objects n)) (entries : List (UInt64 × Nat)) :
    Quiet (s.objects n) ((entries.foldl w s).objects n) := by
  induction entries generalizing s with
  | nil => exact .refl
  | cons entry rest ih => exact (h s entry).trans ih

theorem quiet_handleWorkerResult (refused : Bool) (result : WorkerResult) :
    Quiet (s.objects n) ((s.handleWorkerResult cfg refused result).objects n) := by
  rw [handleWorkerResult]
  split
  next => exact .refl
  next => exact quiet_runOn (quiet_handleResult cfg refused result) n

/-- 送るのでも受け取るのでもない動作は、どの実体も変えずにおくか、静かに歩ませる。 -/
theorem stream_next (cfg : ServerConnectionConfig) (hn : n < s.created) (a : Act) :
    Stream cfg a n (s.objects n) ((next cfg s a).objects n) := by
  cases a with
  | start | postStartConnection | beginDrain | stopImmediately | requestStop | collectClosedConnections | fault =>
      exact .inl ⟨.refl, rfl⟩
  | startConnection recvRefused =>
      let t : ConnectionIoLoop := { s with pendingStarts := s.pendingStarts - 1 }.collectClosedConnections
      have hobject : (t.startConnectionOnContext cfg recvRefused).objects n = s.objects n :=
        objects_startConnectionOnContext (s := t) hn recvRefused
      exact .inl ⟨show Quiet _ ((t.startConnectionOnContext cfg recvRefused).objects n) from hobject ▸ .refl, rfl⟩
  | beginDrainOnContext =>
      exact .inl ⟨quiet_foldl (s := { s with drainPosted := false })
        (fun s entry => quiet_runOn (.of_still ConnectionCore.still_beginDrain) n) _, rfl⟩
  | closeConnectionsOnContext =>
      refine .inl ⟨quiet_foldl (s := { s with closePosted := false }) (fun s entry => ?_) _, rfl⟩
      split
      next => exact .refl
      next => exact quiet_runOn (.of_still ConnectionCore.still_close) n
  | received m sendRefused recvRefused bytes =>
      by_cases hm : n = m
      · subst hm
        refine .inr (.inl ⟨sendRefused, recvRefused, bytes, s.lend n, rfl, quiet_lend s n, rfl, ?_⟩)
        exact update_self _ _ _
      · have hobject : (next cfg s (.received m sendRefused recvRefused bytes)).objects n = s.objects n := update_of_ne hm _ _
        exact .inl ⟨hobject ▸ .refl, if_neg (Ne.symm hm)⟩
  | receivedEof m => exact .inl ⟨quiet_runOn quiet_receivedEof n, rfl⟩
  | receiveFailed m => exact .inl ⟨quiet_runOn quiet_receiveFailed n, rfl⟩
  | submitAccepted m requests => exact .inl ⟨quiet_runOn ⟨⟨rfl, List.prefix_refl _⟩, rfl, rfl⟩ n, rfl⟩
  | countAdmitted m recvRefused requestCount =>
      exact .inl ⟨quiet_runOn (quiet_countAdmitted recvRefused requestCount) n, rfl⟩
  | submitFull m sendRefused recvRefused requests =>
      exact .inl ⟨quiet_runOn (quiet_submitFull cfg sendRefused recvRefused requests) n, rfl⟩
  | submitClosed m requests => exact .inl ⟨quiet_runOn quiet_submitClosed n, rfl⟩
  | submitThrew m requests => exact .inl ⟨quiet_runOn quiet_submitThrew n, rfl⟩
  | sendCompleted m refused bytes =>
      by_cases hm : n = m
      · subst hm
        obtain ⟨hsent, haccepted⟩ :=
          ConnectionCore.sent_sendCompleted (c := (s.lend n).core) refused (some bytes)
        have hobject : (next cfg s (.sendCompleted n refused bytes)).objects n =
            { s.lend n with core := (s.lend n).core.sendCompleted refused (some bytes) } := update_self _ _ _
        refine .inr (.inr ⟨refused, bytes, rfl, ?_⟩)
        rw [hobject]
        refine ⟨rfl, rfl, haccepted, hsent.imp_right fun ⟨hopen, k, hk, heq⟩ => ⟨hopen, ?_⟩⟩
        obtain rfl := Option.some.inj hk
        exact heq
      · have hobject : (next cfg s (.sendCompleted m refused bytes)).objects n = s.objects n := update_of_ne hm _ _
        exact .inl ⟨hobject ▸ .refl, rfl⟩
  | sendFailed m =>
      refine .inl ⟨quiet_runOn (f := fun c => { c with core := c.core.sendCompleted false none }) ?_ n, rfl⟩
      obtain ⟨hsent | ⟨_, k, hk, _⟩, haccepted⟩ := ConnectionCore.sent_sendCompleted (c := (s.lend m).core) false none
      · exact ⟨⟨hsent, haccepted ▸ List.prefix_refl _⟩, rfl, rfl⟩
      · cases hk
  | handleWorkerResult m refused result =>
      refine .inl ⟨?_, rfl⟩
      rw [next]
      split
      next => exact (quiet_modify ⟨.refl, rfl, rfl⟩ n).trans (quiet_handleWorkerResult refused result)
      next => exact quiet_modify ⟨.refl, rfl, rfl⟩ n
  | execute m job invoke => exact .inl ⟨quiet_modify ⟨.refl, rfl, rfl⟩ n, rfl⟩
  | post m batch result => exact .inl ⟨quiet_modify ⟨.refl, rfl, rfl⟩ n, rfl⟩

/-! ### 新しい実体 -/

/-- 作ったばかりの実体は、何も送らず、何も復号していない。 -/
theorem created_startConnectionOnContext (recvRefused : Bool) :
    (s.startConnectionOnContext cfg recvRefused).created = s.created ∨
      (s.startConnectionOnContext cfg recvRefused).created = s.created + 1 ∧
        ∃ id, Quiet (create cfg id) ((s.startConnectionOnContext cfg recvRefused).objects s.created) := by
  rw [startConnectionOnContext]
  repeat' split
  · exact .inl rfl
  · exact .inl rfl
  · exact .inl rfl
  · refine .inr ⟨rfl, s.nextConnectionId, ?_⟩
    have hlend : Quiet (create cfg s.nextConnectionId) { create cfg s.nextConnectionId with
        core :=
          { ownerPendingWriteBytes := s.pendingWriteBytes
            ownerLiveConnections := s.liveConnections + 1
            faults := s.faults } } :=
      ⟨⟨rfl, List.prefix_refl _⟩, rfl, rfl⟩
    simp only [runOn, lend, update_self, update_idem]
    exact hlend.trans (quiet_start recvRefused)

/-- 実体が増えるのは、接続の開始だけである。 -/
theorem created_cases (cfg : ServerConnectionConfig) (a : Act) :
    (next cfg s a).created = s.created ∨
      (∃ recvRefused, a = .startConnection recvRefused) ∧ (next cfg s a).created = s.created + 1 ∧
        ∃ id, Quiet (create cfg id) ((next cfg s a).objects s.created) := by
  cases a with
  | startConnection recvRefused =>
      exact (created_startConnectionOnContext recvRefused).imp_right fun h => ⟨⟨recvRefused, rfl⟩, h⟩
  | beginDrainOnContext => 
      exact .inl (foldl_keeps (s := { s with drainPosted := false }) created
        (w := fun s entry => s.runOn entry.2 fun c => { c with core := c.core.beginDrain }) (fun _ _ => rfl) _)
  | closeConnectionsOnContext => exact .inl (foldl_keeps created (fun _ _ => by split <;> rfl) _)
  | handleWorkerResult m refused result =>
      refine .inl ?_
      rw [next]
      split
      next =>
        rw [handleWorkerResult]
        split <;> rfl
      next => rfl
  | _ => exact .inl rfl

theorem fed_create (cfg : ServerConnectionConfig) (id : UInt64) : Fed cfg [] [] (create cfg id) := by
  have hnil : (requestDecoder cfg.platform cfg.protocolLimits).parse [] = ([], []) :=
    StreamDecoder.parse_stop (by simp [(requestDecoder cfg.platform cfg.protocolLimits).nil_more])
  exact ⟨List.prefix_refl _, by rw [hnil]; rfl, fun _ => ⟨rfl, _, Receiver.fresh_agrees, RpcFrameStream.fresh_refines⟩⟩

/-- 届いたバイトと復号の記録の対応は、どの動作でも保たれる。 -/
theorem fed_next (h : LoopInv cfg s) {a : Act} (henabled : s.enabled a) (hn : n < s.created) {input : Bytes}
    (hfed : ∃ used, Fed cfg input used (s.objects n)) :
    ∃ used, Fed cfg (input ++ a.arrives n) used ((next cfg s a).objects n) := by
  obtain ⟨used, hfed⟩ := hfed
  have hforward := ((h.advance_next henabled).progress n hn).forward
  rcases stream_next cfg hn a with
    ⟨hquiet, hnil⟩ | ⟨sendRefused, recvRefused, bytes, d, rfl, hquiet, hstate, hobject⟩ |
      ⟨refused, bytes, rfl, hdecoded, hstream, -⟩
  · rw [hnil, List.append_nil]
    exact ⟨used, hfed.quiet hquiet hforward⟩
  · rw [hobject, show (Act.received n sendRefused recvRefused bytes).arrives n = bytes from if_pos rfl]
    exact (hfed.quiet hquiet (by rw [hstate])).received sendRefused recvRefused bytes
  · rw [show (Act.sendCompleted n refused bytes).arrives n = [] from rfl, List.append_nil]
    refine ⟨used, hfed.arrived, hdecoded.trans hfed.decoded, fun hactive => ?_⟩
    rw [hstream]
    exact hfed.active (active_of_rank_le hforward hactive)

/-! ### 送ったもの -/

theorem prefix_flatten {l l' : List Bytes} (h : l <+: l') : l.flatten <+: l'.flatten := by
  obtain ⟨t, rfl⟩ := h
  rw [List.flatten_append]
  exact List.prefix_append _ _

/-- 送ったものは、受け付けた書き込みをつないだものの先頭部分である。閉じた後も変わらない。 -/
theorem sends_next (h : LoopInv cfg s) {a : Act} (henabled : s.enabled a) (hn : n < s.created)
    (hsent : (s.objects n).core.sent <+: (s.objects n).core.accepted.flatten) :
    (s.objects n).core.sent <+: ((next cfg s a).objects n).core.sent ∧
      ((next cfg s a).objects n).core.sent <+: ((next cfg s a).objects n).core.accepted.flatten := by
  have hstill : (s.objects n).core.Still ((next cfg s a).objects n).core →
      (s.objects n).core.sent <+: ((next cfg s a).objects n).core.sent ∧
        ((next cfg s a).objects n).core.sent <+: ((next cfg s a).objects n).core.accepted.flatten := by
    intro hstill
    rw [hstill.sent]
    exact ⟨List.prefix_refl _, hsent.trans (prefix_flatten hstill.accepted)⟩
  rcases stream_next cfg hn a with
    ⟨hquiet, -⟩ | ⟨sendRefused, recvRefused, bytes, d, rfl, hquiet, -, hobject⟩ |
      ⟨refused, bytes, rfl, -, -, haccepted, hsame | ⟨hopen, hmore⟩⟩
  · exact hstill hquiet.still
  · refine hstill (hobject ▸ hquiet.still.trans ?_)
    exact still_received sendRefused recvRefused bytes
  · exact hstill ⟨hsame, haccepted ▸ List.prefix_refl _⟩
  · -- 送り残しの先頭を送った
    obtain ⟨_, _, hobject⟩ := h.objects n hn
    have hwire := hobject.write.wire hopen
    refine ⟨hmore ▸ List.prefix_append _ _, ?_⟩
    rw [hmore, haccepted, ← hwire, List.append_assoc, List.append_assoc]
    refine (List.prefix_append_right_inj _).mpr ?_
    exact (List.take_prefix _ _).trans (List.prefix_append _ _)

theorem reachable_sends (h : (connectionIoLoop cfg).Reachable s) :
    ∀ n < s.created, (s.objects n).core.sent <+: (s.objects n).core.accepted.flatten := by
  refine h.invariant (I := fun s => ∀ n < s.created, (s.objects n).core.sent <+: (s.objects n).core.accepted.flatten) ?_ ?_
  · rintro s rfl n hn
    exact absurd hn (Nat.not_lt_zero n)
  · intro s a hreach ih henabled _ n hn
    by_cases hold : n < s.created
    · exact (sends_next (reachable_loopInv hreach) henabled.2 hold (ih n hold)).2
    · rcases created_cases cfg a with hsame | ⟨-, hnew, id, hquiet⟩
      · exact absurd (hsame ▸ hn : n < s.created) hold
      · obtain rfl : n = s.created := by
          have : n < s.created + 1 := hnew ▸ hn
          omega
        exact hquiet.still.sent.symm ▸ List.nil_prefix

end ConnectionIoLoop

end Xrpc.Server
