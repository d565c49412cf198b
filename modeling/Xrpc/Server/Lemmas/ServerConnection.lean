import Xrpc.Server.Lemmas.Requests

/-!
# 接続の不変条件
-/

namespace Xrpc.Server
open Xrpc.Lib Xrpc.Protocol

/-- 行き先の決まらない要求。 -/
def ReadLoop.pending : ReadLoop → List Request
  | .submitting requests => requests
  | _ => []

/-- 受け付けられて、まだ数えていない要求の数。 -/
def ReadLoop.uncounted : ReadLoop → Nat
  | .counting requestCount => requestCount
  | _ => 0

namespace ServerConnection
open ConnectionCore

variable {cfg : ServerConnectionConfig} {others liveOthers : Nat} {c : ServerConnection} {pending : List Request}

/-! ## 歩みの途中 -/

/-- 入出力の糸の歩みの途中で成り立つこと。 -/
structure Midway (cfg : ServerConnectionConfig) (others liveOthers : Nat) (pending : List Request)
    (c : ServerConnection) : Prop where
  write : WriteInv cfg.limits others liveOthers c.core
  resting : c.core.Resting
  stream : ∃ receiver, c.frameStream.Refines cfg.protocolLimits receiver
  requests : Requests cfg pending 0 c

/-- 歩みの間に成り立つこと。提出の途中の束は、空でなく、枠に収まる。 -/
structure ConnectionInv (cfg : ServerConnectionConfig) (others liveOthers : Nat) (c : ServerConnection) : Prop where
  write : WriteInv cfg.limits others liveOthers c.core
  resting : c.core.Resting
  stream : ∃ receiver, c.frameStream.Refines cfg.protocolLimits receiver
  requests : Requests cfg c.readLoop.pending c.readLoop.uncounted c
  started : c.readLoop ≠ .unstarted
  busy : c.readLoop.busy = true → c.core.state = .active
  fits : ∀ requests, c.readLoop = .submitting requests →
    requests ≠ [] ∧ c.core.inflightRequests + requests.length ≤ cfg.limits.maxInflight

theorem ConnectionInv.busy_of_closed (h : ConnectionInv cfg others liveOthers c) (hclosed : c.core.state = .closed) :
    c.readLoop.busy = false := by
  by_contra hne
  exact absurd (hclosed.symm.trans (h.busy (Bool.eq_true_of_not_eq_false hne))) nofun

theorem ConnectionInv.midway (h : ConnectionInv cfg others liveOthers c) (hidle : c.readLoop.busy = false) :
    Midway cfg others liveOthers [] c := by
  refine ⟨h.write, h.resting, h.stream, ?_⟩
  have hrequests := h.requests
  cases hloop : c.readLoop with
  | submitting requests => rw [hloop] at hidle; cases hidle
  | counting requestCount => rw [hloop] at hidle; cases hidle
  | _ => rw [hloop] at hrequests; exact hrequests

namespace Midway

theorem setCore (h : Midway cfg others liveOthers pending c) {core : ConnectionCore} (hframe : c.core.Frame core)
    (hwrite : WriteInv cfg.limits others liveOthers core) (hresting : core.Resting) :
    Midway cfg others liveOthers pending { c with core := core } :=
  ⟨hwrite, hresting, h.stream, h.requests.setCore hframe⟩

theorem close (h : Midway cfg others liveOthers pending c) :
    Midway cfg others liveOthers pending { c with core := c.core.close } :=
  h.setCore frame_close h.write.close (resting_close h.resting h.write.waiter)

theorem beginDrain (h : Midway cfg others liveOthers pending c) :
    Midway cfg others liveOthers pending { c with core := c.core.beginDrain } :=
  h.setCore frame_beginDrain h.write.beginDrain (resting_beginDrain h.resting h.write.waiter)

theorem drop (h : Midway cfg others liveOthers pending c) : Midway cfg others liveOthers [] c :=
  { h with requests := h.requests.drop }

/-- 読み取りの位置が落ち着く。 -/
theorem rest (h : Midway cfg others liveOthers [] c) {readLoop : ReadLoop}
    (hloop : readLoop = .receiving ∨ readLoop = .returned) :
    ConnectionInv cfg others liveOthers { c with readLoop := readLoop } := by
  refine ⟨h.write, h.resting, h.stream, ?_, ?_, ?_, ?_⟩
  · rcases hloop with rfl | rfl <;> exact h.requests.setReadLoop _
  · rcases hloop with rfl | rfl <;> nofun
  · rcases hloop with rfl | rfl <;> nofun
  · rcases hloop with rfl | rfl <;> nofun

theorem finishRead (h : Midway cfg others liveOthers pending c) : ConnectionInv cfg others liveOthers c.finishRead := by
  have hfinish := h.drop.setCore frame_tryFinishDrain h.write.tryFinishDrain
    (resting_tryFinishDrain h.resting h.write.waiter)
  have hcaught : Midway cfg others liveOthers [] { c with core := { c.core.tryFinishDrain with throwing := none } } :=
    ⟨{ hfinish.write with }, hfinish.resting, hfinish.stream, { hfinish.requests with }⟩
  exact hcaught.rest (.inr rfl)

theorem continueRead (h : Midway cfg others liveOthers [] c) (refused : Bool) :
    ConnectionInv cfg others liveOthers (c.continueRead refused) := by
  rw [ServerConnection.continueRead]
  split
  next hactive =>
    have hopen : c.core.state ≠ .closed := by rw [hactive]; nofun
    have hcall : Midway cfg others liveOthers [] { c with core := c.core.call [.recvProvided] } :=
      h.setCore (.of_open hopen (.of_eq rfl) rfl (Nat.le_refl _))
        (h.write.call rfl hopen) h.resting
    dsimp only
    split
    next => exact hcall.rest (.inr rfl)
    next =>
      split
      next => exact hcall.close.finishRead
      next => exact hcall.rest (.inl rfl)
  next => exact h.finishRead

/-! ## 背圧による拒否 -/

theorem rejectForBackpressure {request : Request} {rest : List Request}
    (h : Midway cfg others liveOthers (request :: rest) c) (hdrained : c.core.drained = false) (refused : Bool)
    (message : Bytes) :
    Midway cfg others liveOthers rest (c.rejectForBackpressure cfg refused message request).1 ∧
      (c.rejectForBackpressure cfg refused message request).1.core.drained = false := by
  rw [ServerConnection.rejectForBackpressure]
  dsimp only
  split
  next =>
    have hclosed := h.close
    refine ⟨⟨hclosed.write, hclosed.resting, hclosed.stream, ?_⟩, close_drained.trans hdrained⟩
    have := h.requests.rejectOne c.core.close [] [request] close_inflightRequests (List.Perm.refl _) nofun (by simp)
      fun _ => .inl ⟨close_state, close_drained.trans hdrained⟩
    rwa [List.append_nil] at this
  next frame hencode =>
    have hframe := encodeResponse_ne_nil hencode
    obtain ⟨hwrite, hresting⟩ := h.write.enqueueWrite refused h.resting hframe
    obtain ⟨hcarry, hkeep, hforward, hcases⟩ := h.write.enqueueWrite_cases refused hframe
    generalize c.core.enqueueWrite cfg.limits refused frame = enqueued at *
    obtain ⟨core, took⟩ := enqueued
    rcases hcases with ⟨rfl, _, haccepted⟩ | ⟨rfl, haccepted, hend⟩
    · refine ⟨⟨hwrite, hresting, h.stream, ?_⟩, hkeep.trans hdrained⟩
      have := h.requests.rejectOne core [⟨request, rejection request message, frame⟩] [] hcarry.inflight (List.Perm.refl _)
        (fun response hmem => by
          rw [List.mem_singleton.mp hmem]
          exact ⟨⟨message, rfl⟩, hencode⟩)
        (by simp [show core.accepted = _ from haccepted])
        fun hne => by
          rcases h.requests.abandoned (by simpa using hne) with ⟨hclosed, _⟩ | hstranded
          · exact .inl ⟨closed_of_rank_le (hclosed ▸ hforward), hkeep.trans hdrained⟩
          · exact .inr (hstranded.trans_le hcarry.stranded)
      rwa [List.append_nil] at this
    · refine ⟨⟨hwrite, hresting, h.stream, ?_⟩, hkeep.trans hdrained⟩
      have := h.requests.rejectOne core [] [request] hcarry.inflight (List.Perm.refl _) nofun
        (by simp [show core.accepted = _ from haccepted])
        fun _ => hend.imp (fun hclosed => ⟨hclosed, hkeep.trans hdrained⟩) fun hthrew => hthrew.2.2.2
      rwa [List.append_nil] at this

theorem rejectAll {requests : List Request} (h : Midway cfg others liveOthers requests c)
    (hdrained : c.core.drained = false) (refused : Bool) (message : Bytes) :
    Midway cfg others liveOthers [] (c.rejectAll cfg refused message requests).1 := by
  induction requests generalizing c with
  | nil => exact h
  | cons request rest ih =>
      obtain ⟨hmid, hkeep⟩ := h.rejectForBackpressure hdrained refused message
      rw [ServerConnection.rejectAll]
      generalize c.rejectForBackpressure cfg refused message request = outcome at *
      obtain ⟨c', took⟩ := outcome
      cases took with
      | true => exact ih hmid hkeep
      | false => exact hmid.drop

theorem resumeRead {outcome : ServerConnection × Bool} (h : Midway cfg others liveOthers [] outcome.1) (refused : Bool) :
    ConnectionInv cfg others liveOthers (resumeRead refused outcome) := by
  obtain ⟨c, took⟩ := outcome
  cases took with
  | true => exact h.continueRead refused
  | false => exact h.finishRead

end Midway

/-! ## 受信 -/

theorem length_toList_eq_size (batch : RequestEnvelopeBatch) : batch.toList.length = batch.size := by
  cases hfirst : batch.firstRequest <;>
    simp [RequestEnvelopeBatch.toList, RequestEnvelopeBatch.size, hfirst, Nat.add_comm]

/-- 新しい番号は、復号した要求の数から始まる。 -/
theorem Requests.number (h : Requests cfg [] 0 c) (envelopes : List RequestEnvelope) :
    Requests cfg (c.number envelopes) 0 { c with decoded := c.decoded ++ envelopes } := by
  have hindex : (c.number envelopes).map Request.index = List.range' c.decoded.length envelopes.length := by
    rw [ServerConnection.number, List.map_map, ← List.zipIdx_map_snd]
    rfl
  have hold : ∀ request ∈ c.admitted ++ c.rejected, c.decoded[request.index]? = some request.envelope := by
    intro request hmem
    exact h.decoded request (by simpa using hmem)
  have hlt : ∀ request ∈ c.admitted ++ c.rejected, request.index < c.decoded.length := fun request hmem =>
    (List.getElem?_eq_some_iff.mp (hold request hmem)).1
  refine { h with distinct := ?_, decoded := ?_ }
  · have hdistinct := h.distinct
    rw [List.append_nil] at hdistinct
    rw [List.map_append, hindex, List.nodup_append]
    refine ⟨hdistinct, List.nodup_range', fun i hi j hj hij => ?_⟩
    obtain ⟨request, hmem, rfl⟩ := List.mem_map.mp hi
    have := hlt request hmem
    have := (List.mem_range'_1.mp hj).1
    omega
  · intro request hmem
    rcases List.mem_append.mp hmem with hmem | hmem
    · rw [List.getElem?_append_left (hlt request hmem)]
      exact hold request hmem
    · obtain ⟨⟨envelope, index⟩, hzip, rfl⟩ := List.mem_map.mp hmem
      obtain ⟨hge, hget⟩ := List.mk_mem_zipIdx_iff_le_and_getElem?_sub.mp hzip
      rw [List.getElem?_append_right hge]
      exact hget

theorem Midway.handleFeedResult (h : Midway cfg others liveOthers [] c) (hactive : c.core.state = .active)
    (sendRefused recvRefused : Bool) (feed : FrameStreamFeedResult) :
    ConnectionInv cfg others liveOthers (c.handleFeedResult cfg sendRefused recvRefused feed) := by
  have hopen : c.core.state ≠ .closed := by rw [hactive]; nofun
  have hnumber : Midway cfg others liveOthers (c.number feed.requests.toList)
      { c with decoded := c.decoded ++ feed.requests.toList } :=
    ⟨h.write, h.resting, h.stream, h.requests.number _⟩
  rw [ServerConnection.handleFeedResult]
  dsimp only
  split
  next => exact hnumber.drop.close.finishRead
  next =>
    split
    next => exact hnumber.drop.continueRead recvRefused
    next hsome =>
      have hmax := h.requests.le_max
      have hcheck : Midway cfg others liveOthers (c.number feed.requests.toList)
          { c with
            decoded := c.decoded ++ feed.requests.toList
            core := c.core.check (c.core.inflightRequests ≤ cfg.limits.maxInflight) } :=
        ⟨h.write.check (decide_eq_true hmax), h.resting, h.stream, hnumber.requests.check _⟩
      split
      next => exact (hcheck.rejectAll (h.write.not_drained hopen) sendRefused _).resumeRead recvRefused
      next hfits =>
        refine ⟨hcheck.write, hcheck.resting, hcheck.stream, hcheck.requests.setReadLoop _, nofun, fun _ => hactive, ?_⟩
        rintro requests ⟨⟩
        have hlength : (c.number feed.requests.toList).length = feed.requests.size := by
          rw [ServerConnection.number, List.length_map, List.length_zipIdx, length_toList_eq_size]
        refine ⟨List.ne_nil_of_length_pos (by omega), ?_⟩
        show c.core.inflightRequests + _ ≤ _
        have hnot : ¬ feed.requests.size > cfg.limits.maxInflight - c.core.inflightRequests := hfits
        omega

namespace ConnectionInv

theorem received (h : ConnectionInv cfg others liveOthers c) (hidle : c.readLoop.busy = false)
    (sendRefused recvRefused : Bool) (bytes : Bytes) :
    ConnectionInv cfg others liveOthers (c.received cfg sendRefused recvRefused bytes) := by
  have hmid := h.midway hidle
  rw [ServerConnection.received]
  split
  next => exact hmid.finishRead
  next hactive =>
    obtain ⟨receiver, hrefines⟩ := h.stream
    obtain ⟨feed, stream, hfeed, _, _, hrefines'⟩ := RpcFrameStream.feedBytes_refines cfg.platform cfg.policy hrefines bytes
    rw [hfeed]
    exact Midway.handleFeedResult (c := { c with frameStream := stream })
      ⟨hmid.write, hmid.resting, ⟨_, hrefines'⟩, { hmid.requests with }⟩ (by simpa using hactive) _ _ feed

theorem receivedEof (h : ConnectionInv cfg others liveOthers c) (hidle : c.readLoop.busy = false) :
    ConnectionInv cfg others liveOthers c.receivedEof := by
  have hmid := h.midway hidle
  rw [ServerConnection.receivedEof]
  split
  next => exact hmid.finishRead
  next hactive =>
    have hactive : c.core.state = .active := by simpa using hactive
    have hframe : c.core.Frame { c.core with state := .draining } :=
      .of_open (by rw [hactive]; nofun) (.of_eq rfl) rfl
        (by rw [hactive]; exact Nat.zero_le _)
    refine (hmid.setCore hframe (hmid.write.setDraining hactive) ?_).finishRead
    rcases hmid.resting with hloop | hloop | ⟨hloop, _⟩
    · exact .inl hloop
    · exact .inr (.inl hloop)
    · exact .inr (.inr ⟨hloop, nofun⟩)

theorem receiveFailed (h : ConnectionInv cfg others liveOthers c) (hidle : c.readLoop.busy = false) :
    ConnectionInv cfg others liveOthers c.receiveFailed := by
  have hmid := h.midway hidle
  rw [ServerConnection.receiveFailed]
  split
  next => exact hmid.finishRead
  next => exact hmid.close.finishRead

/-! ## 束の提出 -/

theorem submitting (h : ConnectionInv cfg others liveOthers c) {requests : List Request}
    (hloop : c.readLoop = .submitting requests) : Midway cfg others liveOthers requests c := by
  have hrequests := h.requests
  rw [hloop] at hrequests
  exact ⟨h.write, h.resting, h.stream, hrequests⟩

theorem submitAccepted (h : ConnectionInv cfg others liveOthers c) {requests : List Request}
    (hloop : c.readLoop = .submitting requests) :
    ConnectionInv cfg others liveOthers (c.submitAccepted requests) := by
  obtain ⟨hne, hfits⟩ := h.fits requests hloop
  exact ⟨h.write.check (decide_eq_true (List.length_pos_of_ne_nil hne)), h.resting, h.stream,
    (h.submitting hloop).requests.submitAccepted hne hfits, nofun, fun _ => h.busy (by rw [hloop]; rfl), nofun⟩

theorem countAdmitted (h : ConnectionInv cfg others liveOthers c) {requestCount : Nat}
    (hloop : c.readLoop = .counting requestCount) (recvRefused : Bool) :
    ConnectionInv cfg others liveOthers (c.countAdmitted recvRefused requestCount) := by
  have hactive : c.core.state = .active := h.busy (by rw [hloop]; rfl)
  have hrequests := h.requests
  rw [hloop] at hrequests
  refine Midway.continueRead (c := { c with
    core := { c.core with inflightRequests := c.core.inflightRequests + requestCount } })
    ⟨?_, h.resting, h.stream, hrequests.countAdmitted⟩ recvRefused
  exact { h.write with drained := fun hdrained => absurd (h.write.drained hdrained).1 (by rw [hactive]; nofun) }

theorem submitFull (h : ConnectionInv cfg others liveOthers c) {requests : List Request}
    (hloop : c.readLoop = .submitting requests) (sendRefused recvRefused : Bool) :
    ConnectionInv cfg others liveOthers (c.submitFull cfg sendRefused recvRefused requests) := by
  have hmid := h.submitting hloop
  have hactive : c.core.state = .active := h.busy (by rw [hloop]; rfl)
  have hstart : Midway cfg others liveOthers requests { c with submissions := c.submissions + 1 } :=
    ⟨hmid.write, hmid.resting, hmid.stream, { hmid.requests with }⟩
  exact (hstart.rejectAll (h.write.not_drained (by rw [hactive]; nofun)) sendRefused _).resumeRead recvRefused

theorem submitClosed (h : ConnectionInv cfg others liveOthers c) {requests : List Request}
    (hloop : c.readLoop = .submitting requests) : ConnectionInv cfg others liveOthers c.submitClosed := by
  have hmid := h.submitting hloop
  have hstart : Midway cfg others liveOthers requests { c with submissions := c.submissions + 1 } :=
    ⟨hmid.write, hmid.resting, hmid.stream, { hmid.requests with }⟩
  exact hstart.beginDrain.finishRead

theorem submitThrew (h : ConnectionInv cfg others liveOthers c) {requests : List Request}
    (hloop : c.readLoop = .submitting requests) : ConnectionInv cfg others liveOthers c.submitThrew := by
  have hmid := h.submitting hloop
  have hthrew : Midway cfg others liveOthers requests
      { c with submissions := c.submissions + 1, core := { c.core with throwing := some .badAlloc } } :=
    ⟨{ hmid.write with }, hmid.resting, hmid.stream, { hmid.requests with }⟩
  exact hthrew.finishRead

/-! ## 送信の完了、作業の糸、結果の受け取り -/

/-- 書き込み側の歩み。 -/
theorem setCore (h : ConnectionInv cfg others liveOthers c) (hidle : c.readLoop.busy = false) {core : ConnectionCore}
    (hframe : c.core.Frame core) (hwrite : WriteInv cfg.limits others liveOthers core) (hresting : core.Resting) :
    ConnectionInv cfg others liveOthers { c with core := core } where
  write := hwrite
  resting := hresting
  stream := h.stream
  requests := h.requests.setCore hframe
  started := h.started
  busy hbusy := by rw [show c.readLoop.busy = false from hidle] at hbusy; cases hbusy
  fits requests hloop := by rw [show c.readLoop = _ from hloop] at hidle; cases hidle

theorem sendCompleted (h : ConnectionInv cfg others liveOthers c) (hidle : c.readLoop.busy = false) (refused : Bool)
    (result : Option Nat) : ConnectionInv cfg others liveOthers { c with core := c.core.sendCompleted refused result } :=
  have hwrite := h.write.sendCompleted refused h.resting result
  h.setCore hidle (frame_sendCompleted refused result) hwrite.1 hwrite.2

theorem beginDrain (h : ConnectionInv cfg others liveOthers c) (hidle : c.readLoop.busy = false) :
    ConnectionInv cfg others liveOthers { c with core := c.core.beginDrain } :=
  h.setCore hidle frame_beginDrain h.write.beginDrain (resting_beginDrain h.resting h.write.waiter)

theorem close (h : ConnectionInv cfg others liveOthers c) (hidle : c.readLoop.busy = false) :
    ConnectionInv cfg others liveOthers { c with core := c.core.close } :=
  h.setCore hidle frame_close h.write.close (resting_close h.resting h.write.waiter)

theorem execute (h : ConnectionInv cfg others liveOthers c) {job : Job} (hmem : job ∈ c.jobs)
    (invoke : Request → Invocation) : ConnectionInv cfg others liveOthers (c.execute cfg job invoke) :=
  { h with requests := h.requests.execute hmem invoke }

theorem post (h : ConnectionInv cfg others liveOthers c) {batch : Nat} {result : WorkerResult}
    (hfind : c.posting.find? (fun entry => entry.1 = batch) = some (batch, result)) :
    ConnectionInv cfg others liveOthers (c.post batch result) :=
  { h with requests := h.requests.post hfind }

theorem discardResult (h : ConnectionInv cfg others liveOthers c) {result : WorkerResult} (hmem : result ∈ c.results) :
    ConnectionInv cfg others liveOthers (c.discardResult result) :=
  { h with requests := h.requests.discardResult hmem }

/-- 届いた結果の枠は、数えた枠の中にある。 -/
theorem released_le (h : ConnectionInv cfg others liveOthers c) (hidle : c.readLoop.busy = false) {result : WorkerResult}
    (hmem : result ∈ c.results) :
    0 < result.releasedRequests ∧ result.releasedRequests ≤ c.core.inflightRequests := by
  have hrequests := (h.midway hidle).requests
  have hvalid := hrequests.results result hmem
  have hlength := (outstanding_takeResult hmem).length_eq
  have hinflight := hrequests.inflight
  rw [List.length_append] at hlength
  rw [hvalid.released]
  exact ⟨List.length_pos_of_ne_nil hvalid.nonempty, by omega⟩

/-- `TryFinishDrain` が閉じた接続には、扱われていない要求がない。 -/
theorem outstanding_of_drained (h : ConnectionInv cfg others liveOthers c) (hdrained : c.core.drained = true) :
    c.outstanding = [] := by
  obtain ⟨hclosed, hzero, _⟩ := h.write.drained hdrained
  have hinflight := (h.midway (h.busy_of_closed hclosed)).requests.inflight
  exact List.eq_nil_of_length_eq_zero (by omega)

theorem work_of_drained (h : ConnectionInv cfg others liveOthers c) (hdrained : c.core.drained = true) :
    c.jobs = [] ∧ c.posting = [] ∧ c.results = [] ∧ c.discarded = [] := by
  have hnil := h.outstanding_of_drained hdrained
  rw [outstanding, List.flatMap_append, List.append_eq_nil_iff, List.append_eq_nil_iff, List.append_eq_nil_iff] at hnil
  obtain ⟨⟨hjobs, hposting⟩, hresults, hdiscarded⟩ := hnil
  simp only [List.flatMap_eq_nil_iff] at hjobs hposting hresults hdiscarded
  have hrequests := h.requests
  refine ⟨?_, ?_, ?_, ?_⟩ <;> refine List.eq_nil_iff_forall_not_mem.mpr fun entry hmem => ?_
  · exact hrequests.jobs entry hmem (hjobs entry hmem)
  · exact (hrequests.posting entry hmem).nonempty (hposting entry hmem)
  · exact (hrequests.results entry hmem).nonempty (hresults entry hmem)
  · exact hrequests.discarded entry hmem (hdiscarded entry hmem)

theorem responseBytes_ne_nil {result : WorkerResult} {connectionId : UInt64} (hvalid : result.Valid cfg connectionId)
    (hencoded : result.encodeFailed = false) : result.responseBytes ≠ [] := by
  have hresponses := hvalid.responses hencoded
  cases hlist : result.responses with
  | nil =>
      rw [hlist] at hresponses
      exact absurd hresponses.symm hvalid.nonempty
  | cons response rest =>
      have hframe := encodeResponse_ne_nil (hvalid.dispatched response (by rw [hlist]; exact List.mem_cons_self)).2
      rw [WorkerResult.responseBytes, hlist, List.map_cons, List.flatten_cons]
      exact fun hnil => hframe (List.append_eq_nil_iff.mp hnil).1

theorem handleResult (h : ConnectionInv cfg others liveOthers c) (hidle : c.readLoop.busy = false) {result : WorkerResult}
    (hmem : result ∈ c.results) (refused : Bool) :
    ConnectionInv cfg others liveOthers ((c.takeResult result).handleResult cfg refused result) := by
  obtain ⟨hpos, hle⟩ := h.released_le hidle hmem
  have hvalid := h.requests.results result hmem
  have hdrained : c.core.drained = false := by
    by_contra hne
    have := (h.write.drained (by simpa using hne)).2.1
    omega
  have hbusy : ∀ {P : Prop}, c.readLoop.busy = true → P := fun hb => by rw [hidle] at hb; cases hb
  have hfits : ∀ {P : Prop} {requests}, c.readLoop = .submitting requests → P := fun hloop =>
    hbusy (by rw [hloop]; rfl)
  rw [ServerConnection.handleResult]
  split
  next =>
    obtain ⟨hwrite, hresting⟩ := h.write.onResponseEncodeFailure h.resting hle
    have haccepted : (c.core.onResponseEncodeFailure result.releasedRequests).accepted = c.core.accepted :=
      close_accepted.trans rfl
    refine ⟨hwrite, hresting, h.stream, ?_, h.started, hbusy, fun _ => hfits⟩
    have := h.requests.take hmem (c.core.onResponseEncodeFailure result.releasedRequests) [] result.requests
      (close_inflightRequests.trans rfl) hle (List.Perm.refl _) nofun
      (by rw [haccepted]; simp)
      fun _ => .inl ⟨close_state, close_drained.trans hdrained⟩
    rwa [List.append_nil] at this
  next hencoded =>
    have hencoded : result.encodeFailed = false := by simpa using hencoded
    have hbytes := responseBytes_ne_nil hvalid hencoded
    obtain ⟨hwrite, hresting⟩ := h.write.onResponsesEncoded refused h.resting hbytes hle
    obtain ⟨hcarry, _, hcases⟩ := h.write.onResponsesEncoded_cases refused hbytes hle
    rcases hcases with ⟨htook, hopen, haccepted⟩ | ⟨htook, hclosed, hkeep, haccepted⟩
    · rw [show c.core = (c.takeResult result).core from rfl] at htook
      dsimp only
      rw [if_pos htook]
      refine ⟨hwrite, hresting, h.stream, ?_, h.started, hbusy, fun _ => hfits⟩
      have := h.requests.take hmem _ result.responses [] hcarry.inflight hle
        (by rw [List.append_nil, hvalid.responses hencoded]) hvalid.dispatched
        (by rw [haccepted, List.flatten_append]; simp [WorkerResult.responseBytes])
        fun hne => .inr (((h.requests.abandoned (by simpa using hne)).resolve_left fun hclosed =>
          hopen hclosed.1).trans_le hcarry.stranded)
      rwa [List.append_nil] at this
    · rw [show c.core = (c.takeResult result).core from rfl] at htook
      dsimp only
      rw [if_neg (by rw [htook]; nofun)]
      refine ⟨hwrite, hresting, h.stream, ?_, h.started, hbusy, fun _ => hfits⟩
      have := h.requests.take hmem _ [] result.requests hcarry.inflight hle (List.Perm.refl _) nofun
        (by rw [haccepted]; simp) fun _ => .inl ⟨hclosed, hkeep.trans hdrained⟩
      rwa [List.append_nil] at this

end ConnectionInv

/-! ## 作ること -/

theorem Requests.create (cfg : ServerConnectionConfig) (connectionId : UInt64) :
    Requests cfg [] 0 (create cfg connectionId) where
  distinct := List.nodup_nil
  decoded := nofun
  settled := List.Perm.refl _
  owned := nofun
  inflight := rfl
  le_max := Nat.zero_le _
  jobs := nofun
  posting := nofun
  results := nofun
  discarded := nofun
  enqueued := nofun
  accepted := rfl
  abandoned := fun hne => absurd rfl hne

/-- 作ってすぐに動き出した接続。 -/
theorem ConnectionInv.start (cfg : ServerConnectionConfig) (others liveOthers : Nat) (faults : Faults)
    (connectionId : UInt64) (recvRefused : Bool) :
    ConnectionInv cfg others liveOthers
      ({ create cfg connectionId with
          core := { ownerPendingWriteBytes := others, ownerLiveConnections := liveOthers + 1, faults := faults } }.start
        recvRefused) := by
  obtain ⟨hwrite, hresting⟩ := (WriteInv.initial cfg.limits others liveOthers faults).startWriteLoop false rfl nofun
  exact Midway.continueRead (c := { create cfg connectionId with core := startWriteLoop false _ })
    ⟨hwrite, hresting, ⟨_, RpcFrameStream.fresh_refines⟩, { Requests.create cfg connectionId with }⟩ recvRefused

end ServerConnection

end Xrpc.Server
