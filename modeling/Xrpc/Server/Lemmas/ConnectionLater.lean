import Xrpc.Server.Lemmas.ServerConnection

/-!
# 接続の歩みの前と後
-/

namespace Xrpc.Server

namespace ConnectionCore

variable {limits : BackpressureLimits} {c : ConnectionCore}

theorem frame_wakeWriteLoop (refused : Bool) (hopen : c.state ≠ .closed) : Frame c (c.wakeWriteLoop refused) := by
  rw [wakeWriteLoop]
  split
  next => exact .refl
  next =>
    have h := frame_writeBatches refused c.writeQueue.length
      (c := { c with writeQueueWaiter := false, writeLoop := .running })
    exact .of_open hopen { h.toCarry with } h.accepted h.forward

theorem pushWrite_forward (refused : Bool) (bytes : Lib.Bytes) (hopen : c.state ≠ .closed) :
    Carry c (c.pushWrite refused bytes) ∧ c.state.rank ≤ (c.pushWrite refused bytes).state.rank :=
  have h := frame_wakeWriteLoop refused
    (c := { c with writeQueue := c.writeQueue ++ [bytes], accepted := c.accepted ++ [bytes] }) hopen
  ⟨{ h.toCarry with }, h.forward⟩

theorem enqueueWrite_forward (limits : BackpressureLimits) (refused : Bool) (bytes : Lib.Bytes) :
    Carry c (c.enqueueWrite limits refused bytes).1 ∧
      c.state.rank ≤ (c.enqueueWrite limits refused bytes).1.state.rank := by
  rw [enqueueWrite]
  split
  next => exact ⟨.of_eq rfl, Nat.le_refl _⟩
  next hopen =>
    by_cases hfits : bytes.length ≤ limits.maxWriteQueueBytes - c.pendingWriteBytes
    · rw [tryReserveWriteBytes_of_le hfits]
      dsimp only
      split
      next hthrow =>
        refine ⟨⟨rfl, rfl, Nat.le_add_right _ _, fun hspare => ?_, fun _ => rfl⟩, Nat.le_refl _⟩
        simp [Faults.spareBytes, show c.faults.enqueueWrite = _ from hthrow] at hspare
      next =>
        have h := pushWrite_forward refused bytes (c := { c with
          assertsHold := c.assertsHold && (c.pendingWriteBytes ≤ limits.maxWriteQueueBytes) &&
            (c.ownerPendingWriteBytes ≥ c.pendingWriteBytes)
          pendingWriteBytes := c.pendingWriteBytes + bytes.length
          ownerPendingWriteBytes := c.ownerPendingWriteBytes - c.pendingWriteBytes +
            (c.pendingWriteBytes + bytes.length) }) hopen
        exact ⟨{ h.1 with }, h.2⟩
    · rw [tryReserveWriteBytes_of_lt (Nat.not_le.mp hfits)]
      have h := frame_close (c := c.check (c.pendingWriteBytes ≤ limits.maxWriteQueueBytes))
      exact ⟨{ h.toCarry with }, h.forward⟩

theorem onResponsesEncoded_of_closed (limits : BackpressureLimits) (hclosed : c.state = .closed) (refused : Bool)
    (bytes : Lib.Bytes) (released : Nat) :
    c.onResponsesEncoded limits refused bytes released = c.releaseInflightRequests released := by
  rw [onResponsesEncoded]
  exact if_pos hclosed

theorem onResponsesEncoded_forward (limits : BackpressureLimits) (refused : Bool) (bytes : Lib.Bytes)
    (released : Nat) : c.state.rank ≤ (c.onResponsesEncoded limits refused bytes released).state.rank := by
  rw [onResponsesEncoded]
  split
  next => exact Nat.le_refl _
  next =>
    exact (enqueueWrite_forward (c := c.releaseInflightRequests released) limits refused bytes).2.trans
      (frame_isolateBadAlloc.trans frame_tryFinishDrain).forward

end ConnectionCore

namespace ServerConnection
open ConnectionCore

variable {cfg : ServerConnectionConfig} {c c' c'' : ServerConnection}

/-- 歩みは状態を先へしか移さない。閉じた後は、外へ何も呼び出さず、書き込みを受け付けず、二つの繰り返しは返るだけである。 -/
structure Progress (c c' : ServerConnection) : Prop where
  forward : c.core.state.rank ≤ c'.core.state.rank
  silent : c.core.state = .closed →
    c'.core.effects = c.core.effects ∧ c'.core.accepted = c.core.accepted ∧ c'.core.drained = c.core.drained ∧
      (c'.core.writeLoop = c.core.writeLoop ∨ c'.core.writeLoop = .returned) ∧
      (c'.readLoop = c.readLoop ∨ c'.readLoop = .returned)

namespace Progress

theorem refl : Progress c c := ⟨Nat.le_refl _, fun _ => ⟨rfl, rfl, rfl, .inl rfl, .inl rfl⟩⟩

theorem closed (h : Progress c c') (hclosed : c.core.state = .closed) : c'.core.state = .closed :=
  closed_of_rank_le (hclosed ▸ h.forward)

theorem trans (h : Progress c c') (h' : Progress c' c'') : Progress c c'' where
  forward := h.forward.trans h'.forward
  silent hclosed := by
    obtain ⟨heffects, haccepted, hdrained, hwrite, hread⟩ := h.silent hclosed
    obtain ⟨heffects', haccepted', hdrained', hwrite', hread'⟩ := h'.silent (h.closed hclosed)
    refine ⟨heffects'.trans heffects, haccepted'.trans haccepted, hdrained'.trans hdrained, ?_, ?_⟩
    · rcases hwrite' with hwrite' | hwrite'
      · exact hwrite' ▸ hwrite
      · exact .inr hwrite'
    · rcases hread' with hread' | hread'
      · exact hread' ▸ hread
      · exact .inr hread'

end Progress

/-- 歩みは、接続の番号と、捨てた結果を変えない。 -/
structure Later (c c' : ServerConnection) : Prop extends Progress c c' where
  connectionId : c'.connectionId = c.connectionId
  discarded : c'.discarded = c.discarded

namespace Later

theorem trans (h : Later c c') (h' : Later c' c'') : Later c c'' :=
  ⟨h.toProgress.trans h'.toProgress, h'.connectionId.trans h.connectionId, h'.discarded.trans h.discarded⟩

/-- 書き込み側の歩み。 -/
theorem of_frame {core : ConnectionCore} (h : c.core.Frame core) : Later c { c with core := core } :=
  ⟨⟨h.forward, fun hclosed =>
    have hsilent := h.silent hclosed
    ⟨hsilent.1, h.accepted, hsilent.2.1, hsilent.2.2, .inl rfl⟩⟩, rfl, rfl⟩

theorem of_open (hopen : c.core.state ≠ .closed) (hid : c'.connectionId = c.connectionId)
    (hdiscarded : c'.discarded = c.discarded) (hforward : c.core.state.rank ≤ c'.core.state.rank) : Later c c' :=
  ⟨⟨hforward, fun hclosed => absurd hclosed hopen⟩, hid, hdiscarded⟩

end Later

theorem later_finishRead : Later c c.finishRead :=
  (Later.of_frame frame_tryFinishDrain).trans
    ⟨⟨Nat.le_refl _, fun _ => ⟨rfl, rfl, rfl, .inl rfl, .inr rfl⟩⟩, rfl, rfl⟩

theorem later_close : Later c { c with core := c.core.close } := .of_frame frame_close

theorem later_continueRead (refused : Bool) : Later c (c.continueRead refused) := by
  rw [continueRead]
  split
  next hactive =>
    have hopen : c.core.state ≠ .closed := by rw [hactive]; rintro ⟨⟩
    dsimp only
    split
    next => exact .of_open hopen rfl rfl (Nat.le_refl _)
    next =>
      split
      next =>
        have h := later_close (c := { c with core := c.core.call [.recvProvided] })
          |>.trans later_finishRead
        exact .of_open hopen h.connectionId h.discarded h.forward
      next => exact .of_open hopen rfl rfl (Nat.le_refl _)
  next => exact later_finishRead

theorem later_rejectForBackpressure (cfg : ServerConnectionConfig) (refused : Bool) (message : Lib.Bytes)
    (request : Request) :
    (c.rejectForBackpressure cfg refused message request).1.connectionId = c.connectionId ∧
      (c.rejectForBackpressure cfg refused message request).1.discarded = c.discarded ∧
      c.core.state.rank ≤ (c.rejectForBackpressure cfg refused message request).1.core.state.rank := by
  rw [rejectForBackpressure]
  dsimp only
  split
  next => exact ⟨rfl, rfl, frame_close.forward⟩
  next frame _ =>
    have h := enqueueWrite_forward (c := c.core) cfg.limits refused frame
    generalize c.core.enqueueWrite cfg.limits refused frame = enqueued at *
    obtain ⟨core, took⟩ := enqueued
    cases took <;> exact ⟨rfl, rfl, h.2⟩

theorem later_rejectAll (cfg : ServerConnectionConfig) (refused : Bool) (message : Lib.Bytes)
    (requests : List Request) :
    (c.rejectAll cfg refused message requests).1.connectionId = c.connectionId ∧
      (c.rejectAll cfg refused message requests).1.discarded = c.discarded ∧
      c.core.state.rank ≤ (c.rejectAll cfg refused message requests).1.core.state.rank := by
  induction requests generalizing c with
  | nil => exact ⟨rfl, rfl, Nat.le_refl _⟩
  | cons request rest ih =>
      have h := later_rejectForBackpressure (c := c) cfg refused message request
      rw [rejectAll]
      generalize c.rejectForBackpressure cfg refused message request = outcome at *
      obtain ⟨c', took⟩ := outcome
      cases took with
      | true =>
          obtain ⟨hid, hdiscarded, hforward⟩ := ih (c := c')
          exact ⟨hid.trans h.1, hdiscarded.trans h.2.1, h.2.2.trans hforward⟩
      | false => exact h

theorem later_resumeRead (refused : Bool) (outcome : ServerConnection × Bool) :
    Later outcome.1 (resumeRead refused outcome) := by
  obtain ⟨c, took⟩ := outcome
  cases took with
  | true => exact later_continueRead refused
  | false => exact later_finishRead

/-- 断り終えてから読み取りに戻る。 -/
theorem later_rejectAll_resumeRead (hopen : c.core.state ≠ .closed) {c' : ServerConnection}
    (hid : c'.connectionId = c.connectionId) (hdiscarded : c'.discarded = c.discarded)
    (hforward : c.core.state.rank ≤ c'.core.state.rank) (sendRefused recvRefused : Bool) (message : Lib.Bytes)
    (requests : List Request) :
    Later c (resumeRead recvRefused (c'.rejectAll cfg sendRefused message requests)) := by
  have hreject := later_rejectAll (c := c') cfg sendRefused message requests
  have hresume := later_resumeRead recvRefused (c'.rejectAll cfg sendRefused message requests)
  exact .of_open hopen (hresume.connectionId.trans (hreject.1.trans hid))
    (hresume.discarded.trans (hreject.2.1.trans hdiscarded)) (hforward.trans (hreject.2.2.trans hresume.forward))

theorem later_handleFeedResult (cfg : ServerConnectionConfig) (hactive : c.core.state = .active) (sendRefused recvRefused : Bool)
    (feed : Protocol.FrameStreamFeedResult) : Later c (c.handleFeedResult cfg sendRefused recvRefused feed) := by
  have hopen : c.core.state ≠ .closed := by rw [hactive]; nofun
  rw [handleFeedResult]
  dsimp only
  split
  next =>
    have h := (later_close (c := { c with decoded := c.decoded ++ feed.requests.toList })).trans later_finishRead
    exact .of_open hopen h.connectionId h.discarded h.forward
  next =>
    split
    next =>
      have h := later_continueRead (c := { c with decoded := c.decoded ++ feed.requests.toList }) recvRefused
      exact .of_open hopen h.connectionId h.discarded h.forward
    next =>
      split
      next =>
        refine later_rejectAll_resumeRead hopen ?_ ?_ ?_ _ _ _ _
        · rfl
        · rfl
        · exact Nat.le_refl _
      next => exact .of_open hopen rfl rfl (Nat.le_refl _)

theorem later_received (sendRefused recvRefused : Bool) (bytes : Lib.Bytes) :
    Later c (c.received cfg sendRefused recvRefused bytes) := by
  rw [received]
  split
  next => exact later_finishRead
  next hactive =>
    have hactive : c.core.state = .active := by simpa using hactive
    have hopen : c.core.state ≠ .closed := by rw [hactive]; rintro ⟨⟩
    split
    next => exact .of_open hopen rfl rfl (Nat.le_refl _)
    next feed stream _ =>
      have h := later_handleFeedResult cfg (c := { c with frameStream := stream }) hactive sendRefused recvRefused feed
      exact .of_open hopen h.connectionId h.discarded h.forward

theorem later_receivedEof : Later c c.receivedEof := by
  rw [receivedEof]
  split
  next => exact later_finishRead
  next hactive =>
    have hactive : c.core.state = .active := by simpa using hactive
    have h := later_finishRead (c := { c with core := { c.core with state := .draining } })
    exact .of_open (by rw [hactive]; rintro ⟨⟩) h.connectionId h.discarded (by rw [hactive]; exact Nat.zero_le _)

theorem later_receiveFailed : Later c c.receiveFailed := by
  rw [receiveFailed]
  split
  next => exact later_finishRead
  next => exact later_close.trans later_finishRead

theorem later_countAdmitted (recvRefused : Bool) (requestCount : Nat) (hopen : c.core.state ≠ .closed) :
    Later c (c.countAdmitted recvRefused requestCount) := by
  have h := later_continueRead (c := { c with
    core := { c.core with inflightRequests := c.core.inflightRequests + requestCount } }) recvRefused
  exact .of_open hopen h.connectionId h.discarded h.forward

theorem later_submitFull (sendRefused recvRefused : Bool) (requests : List Request) (hopen : c.core.state ≠ .closed) :
    Later c (c.submitFull cfg sendRefused recvRefused requests) := by
  rw [submitFull]
  refine later_rejectAll_resumeRead hopen ?_ ?_ ?_ _ _ _ _
  exacts [rfl, rfl, Nat.le_refl _]

theorem later_submitClosed : Later c c.submitClosed := by
  have h := (Later.of_frame (c := { c with submissions := c.submissions + 1 }) frame_beginDrain).trans later_finishRead
  exact { h with }

theorem later_submitThrew (hopen : c.core.state ≠ .closed) : Later c c.submitThrew := by
  have h := later_finishRead (c := { c with
    submissions := c.submissions + 1
    core := { c.core with throwing := some .badAlloc } })
  exact .of_open hopen h.connectionId h.discarded h.forward

theorem later_handleResult (cfg : ServerConnectionConfig) (refused : Bool) (result : WorkerResult) :
    Later c (c.handleResult cfg refused result) := by
  rw [handleResult]
  split
  next =>
    refine ⟨⟨(frame_close (c := c.core.releaseInflightRequests _)).forward, fun hclosed => ?_⟩, rfl, rfl⟩
    obtain ⟨heffects, hdrained, hloop⟩ :=
      (frame_close (c := c.core.releaseInflightRequests result.releasedRequests)).silent hclosed
    exact ⟨heffects, close_accepted.trans rfl, hdrained, hloop, .inl rfl⟩
  next =>
    have hforward := onResponsesEncoded_forward (c := c.core) cfg.limits refused result.responseBytes
      result.releasedRequests
    have hsilent (hclosed : c.core.state = .closed) := onResponsesEncoded_of_closed cfg.limits hclosed
      refused result.responseBytes result.releasedRequests
    dsimp only
    split
    · refine ⟨⟨hforward, fun hclosed => ?_⟩, rfl, rfl⟩
      rw [hsilent hclosed]
      exact ⟨rfl, rfl, rfl, .inl rfl, .inl rfl⟩
    · refine ⟨⟨hforward, fun hclosed => ?_⟩, rfl, rfl⟩
      rw [hsilent hclosed]
      exact ⟨rfl, rfl, rfl, .inl rfl, .inl rfl⟩

/-! ## 閉じた後の待ちの終わり -/

theorem readLoop_received_of_closed (hclosed : c.core.state = .closed) (sendRefused recvRefused : Bool)
    (bytes : Lib.Bytes) : (c.received cfg sendRefused recvRefused bytes).readLoop = .returned := by
  rw [received, if_pos (by rw [hclosed]; rintro ⟨⟩)]
  rfl

theorem readLoop_receivedEof : c.receivedEof.readLoop = .returned := by
  rw [receivedEof]
  split <;> rfl

theorem readLoop_receiveFailed : c.receiveFailed.readLoop = .returned := by
  rw [receiveFailed]
  split <;> rfl

theorem writeLoop_sendCompleted_of_closed (core : ConnectionCore) (hclosed : core.state = .closed)
    (hunsent : 0 < core.writeLoop.unsent.length) (refused : Bool) (result : Option Nat) :
    (core.sendCompleted refused result).writeLoop = .returned := by
  cases hloop : core.writeLoop with
  | sending batch offset => simp only [sendCompleted, hloop, if_pos hclosed]
  | _ =>
      rw [hloop] at hunsent
      exact absurd hunsent (by decide)

/-! ## 仕事に触れない歩み -/

/-- 歩みは、処理中の数と、受け付けた束と、渡す前の結果を変えない。 -/
structure Kept (c c' : ServerConnection) : Prop extends Carry c.core c'.core where
  jobs : c'.jobs = c.jobs
  posting : c'.posting = c.posting

namespace Kept

theorem refl : Kept c c := ⟨.of_eq rfl, rfl, rfl⟩

theorem trans (h : Kept c c') (h' : Kept c' c'') : Kept c c'' :=
  ⟨h.toCarry.trans h'.toCarry, h'.jobs.trans h.jobs, h'.posting.trans h.posting⟩

end Kept

theorem kept_finishRead : Kept c c.finishRead :=
  ⟨frame_tryFinishDrain.toCarry.trans (.of_eq rfl), rfl, rfl⟩

theorem kept_continueRead (refused : Bool) : Kept c (c.continueRead refused) := by
  have hcall : c.core.Carry (c.core.call [.recvProvided]) := .of_eq rfl
  rw [continueRead]
  split
  next =>
    dsimp only
    split
    next => exact ⟨hcall, rfl, rfl⟩
    next =>
      split
      next =>
        have h : Kept c { c with core := (c.core.call [.recvProvided]).close } := ⟨hcall.trans carry_close, rfl, rfl⟩
        exact h.trans kept_finishRead
      next => exact ⟨hcall, rfl, rfl⟩
  next => exact kept_finishRead

theorem kept_start (recvRefused : Bool) : Kept c (c.start recvRefused) := by
  have h := kept_continueRead recvRefused (c := { c with core := c.core.startWriteLoop false })
  exact ⟨(frame_startWriteLoop false).toCarry.trans h.toCarry, h.jobs, h.posting⟩

theorem kept_rejectForBackpressure (cfg : ServerConnectionConfig) (refused : Bool) (message : Lib.Bytes)
    (request : Request) : Kept c (c.rejectForBackpressure cfg refused message request).1 := by
  rw [rejectForBackpressure]
  dsimp only
  split
  next => exact ⟨carry_close, rfl, rfl⟩
  next frame _ =>
    have h := (enqueueWrite_forward (c := c.core) cfg.limits refused frame).1
    generalize c.core.enqueueWrite cfg.limits refused frame = enqueued at *
    obtain ⟨core, took⟩ := enqueued
    cases took <;> exact ⟨h, rfl, rfl⟩

theorem kept_rejectAll (cfg : ServerConnectionConfig) (refused : Bool) (message : Lib.Bytes)
    (requests : List Request) : Kept c (c.rejectAll cfg refused message requests).1 := by
  induction requests generalizing c with
  | nil => exact .refl
  | cons request rest ih =>
      have h := kept_rejectForBackpressure (c := c) cfg refused message request
      rw [rejectAll]
      generalize c.rejectForBackpressure cfg refused message request = outcome at *
      obtain ⟨c', took⟩ := outcome
      cases took with
      | true => exact h.trans ih
      | false => exact h

theorem kept_resumeRead (refused : Bool) (outcome : ServerConnection × Bool) :
    Kept outcome.1 (resumeRead refused outcome) := by
  obtain ⟨c, took⟩ := outcome
  cases took with
  | true => exact kept_continueRead refused
  | false => exact kept_finishRead

/-- 受信は、束を断っても提出に進んでも、数を変えない。 -/
theorem kept_received (cfg : ServerConnectionConfig) (sendRefused recvRefused : Bool) (bytes : Lib.Bytes) :
    Kept c (c.received cfg sendRefused recvRefused bytes) := by
  rw [received]
  split
  next => exact kept_finishRead
  next =>
    split
    next => exact ⟨.of_eq rfl, rfl, rfl⟩
    next feed stream _ =>
      rw [handleFeedResult]
      dsimp only
      split
      next =>
        have h := kept_finishRead (c := { c with
          frameStream := stream, decoded := c.decoded ++ feed.requests.toList, core := c.core.close })
        exact ⟨carry_close.trans h.toCarry, h.jobs, h.posting⟩
      next =>
        split
        next =>
          have h := kept_continueRead recvRefused
            (c := { c with frameStream := stream, decoded := c.decoded ++ feed.requests.toList })
          exact { h with }
        next =>
          split
          next =>
            refine .trans ?_ ((kept_rejectAll _ _ _ _).trans (kept_resumeRead _ _))
            exact ⟨.of_eq rfl, rfl, rfl⟩
          next => exact ⟨.of_eq rfl, rfl, rfl⟩

theorem kept_receivedEof : Kept c c.receivedEof := by
  rw [receivedEof]
  split
  next => exact kept_finishRead
  next => exact { kept_finishRead (c := { c with core := { c.core with state := .draining } }) with }

theorem kept_receiveFailed : Kept c c.receiveFailed := by
  rw [receiveFailed]
  split
  next => exact kept_finishRead
  next =>
    have h : Kept c { c with core := c.core.close } := ⟨carry_close, rfl, rfl⟩
    exact h.trans kept_finishRead

theorem kept_submitFull (cfg : ServerConnectionConfig) (sendRefused recvRefused : Bool) (requests : List Request) :
    Kept c (c.submitFull cfg sendRefused recvRefused requests) := by
  refine .trans ?_ ((kept_rejectAll _ _ _ _).trans (kept_resumeRead _ _))
  exact ⟨.of_eq rfl, rfl, rfl⟩

theorem kept_submitClosed : Kept c c.submitClosed := by
  have h := kept_finishRead (c := { c with submissions := c.submissions + 1, core := c.core.beginDrain })
  exact ⟨frame_beginDrain.toCarry.trans h.toCarry, h.jobs, h.posting⟩

theorem kept_submitThrew : Kept c c.submitThrew :=
  { kept_finishRead (c := { c with
      submissions := c.submissions + 1
      core := { c.core with throwing := some .badAlloc } }) with }

theorem handleResult_jobs (cfg : ServerConnectionConfig) (refused : Bool) (result : WorkerResult) :
    (c.handleResult cfg refused result).jobs = c.jobs ∧
      (c.handleResult cfg refused result).posting = c.posting := by
  rw [handleResult]
  split
  next => exact ⟨rfl, rfl⟩
  next =>
    dsimp only
    split <;> exact ⟨rfl, rfl⟩

end ServerConnection

end Xrpc.Server
