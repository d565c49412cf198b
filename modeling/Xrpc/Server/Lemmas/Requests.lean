import Xrpc.Protocol.Lemmas.Stream
import Xrpc.Server.Lemmas.WriteFrame
import Xrpc.Server.ServerConnection

/-!
# 要求の行き先
-/

namespace Xrpc.Server
open Xrpc.Lib Xrpc.Protocol

variable {cfg : ServerConnectionConfig}

/-! ## 作業の糸での処理 -/

theorem encodeResponse_ne_nil {p : Platform} {codec : FrameCodec} {response : ResponseEnvelope} {frame : Bytes}
    (h : codec.encodeResponse p response = .ok frame) : frame ≠ [] := by
  rw [FrameCodec.encodeResponse, buildResponseFrame, buildFrame_eq] at h
  split at h
  · obtain rfl := Except.ok.inj h
    intro hnil
    have := congrArg List.length hnil
    simp [FrameHeader.wire] at this
  · cases h

/-- 応答の要求と残りをつなぐと、束になる。 -/
theorem executeRequests_split (cfg : ServerConnectionConfig) (invoke : Request → Invocation) (requests : List Request) :
    (executeRequests cfg invoke requests).1.map Response.request ++ (executeRequests cfg invoke requests).2 =
      requests := by
  induction requests with
  | nil => rfl
  | cons request rest ih =>
      rw [executeRequests]
      split
      · rfl
      · simpa using ih

theorem executeRequests_dispatched (cfg : ServerConnectionConfig) (invoke : Request → Invocation) (requests : List Request) :
    ∀ response ∈ (executeRequests cfg invoke requests).1, response.Dispatched cfg := by
  induction requests with
  | nil => nofun
  | cons request rest ih =>
      rw [executeRequests]
      split
      next => nofun
      next frame hencode =>
        intro response hmem
        rcases List.mem_cons.mp hmem with rfl | hmem
        · exact ⟨⟨invoke request, rfl⟩, hencode⟩
        · exact ih response hmem

/-- 作業の糸が作る結果。枠を戻す数は要求の数であり、失敗でない結果は、そのすべての要求への応答を持つ。 -/
structure WorkerResult.Valid (cfg : ServerConnectionConfig) (connectionId : UInt64) (result : WorkerResult) : Prop where
  connectionId : result.connectionId = connectionId
  released : result.releasedRequests = result.requests.length
  nonempty : result.requests ≠ []
  responses : result.encodeFailed = false → result.responses.map Response.request = result.requests
  dispatched : ∀ response ∈ result.responses, response.Dispatched cfg

/-- 結果が枠を戻す要求をつなぐと、束になる。 -/
theorem executeRequestBatchOnWorker_requests (cfg : ServerConnectionConfig) (connectionId : UInt64)
    (invoke : Request → Invocation) (requests : List Request) :
    (executeRequestBatchOnWorker cfg connectionId invoke requests).flatMap WorkerResult.requests = requests := by
  have hsplit := executeRequests_split cfg invoke requests
  rw [executeRequestBatchOnWorker]
  generalize executeRequests cfg invoke requests = executed at hsplit ⊢
  obtain ⟨responses, remainder⟩ := executed
  have hlen := congrArg List.length hsplit
  rw [List.length_append, List.length_map] at hlen
  dsimp only at hsplit hlen ⊢
  rw [List.flatMap_append]
  conv_rhs => rw [← hsplit]
  congr 1
  · split
    next => exact List.append_nil _
    next hzero => rw [List.eq_nil_of_length_eq_zero (Nat.le_zero.mp (Nat.not_lt.mp hzero))]; rfl
  · split
    next => exact List.append_nil _
    next hfull => exact (List.eq_nil_of_length_eq_zero (by omega)).symm

theorem executeRequestBatchOnWorker_valid (cfg : ServerConnectionConfig) (connectionId : UInt64)
    (invoke : Request → Invocation) (requests : List Request) :
    ∀ result ∈ executeRequestBatchOnWorker cfg connectionId invoke requests, result.Valid cfg connectionId := by
  have hsplit := executeRequests_split cfg invoke requests
  have hdispatched := executeRequests_dispatched cfg invoke requests
  rw [executeRequestBatchOnWorker]
  generalize executeRequests cfg invoke requests = executed at hsplit hdispatched ⊢
  obtain ⟨responses, remainder⟩ := executed
  have hlen := congrArg List.length hsplit
  rw [List.length_append, List.length_map] at hlen
  dsimp only at hdispatched hlen ⊢
  intro result hmem
  rcases List.mem_append.mp hmem with hmem | hmem
  · split at hmem
    next hpos =>
      obtain rfl := List.mem_singleton.mp hmem
      exact {
        connectionId := rfl
        released := (List.length_map _).symm
        nonempty := fun hnil => absurd hpos (by rw [List.map_eq_nil_iff.mp hnil]; decide)
        responses := fun _ => rfl
        dispatched := hdispatched }
    next => cases hmem
  · split at hmem
    next hless =>
      obtain rfl := List.mem_singleton.mp hmem
      have hremainder : remainder.length = requests.length - responses.length := by omega
      exact {
        connectionId := rfl
        released := hremainder.symm
        nonempty := List.ne_nil_of_length_pos (show 0 < remainder.length by omega)
        responses := nofun
        dispatched := nofun }
    next => cases hmem

/-- 応答の積まれない要求がある接続の形。`TryFinishDrain` によらずに閉じたか、数えたバイトが例外で取り残されている。 -/
def ConnectionCore.Forsaking (core : ConnectionCore) : Prop :=
  core.state = .closed ∧ core.drained = false ∨ 0 < core.strandedBytes

theorem ConnectionCore.Forsaking.frame {core core' : ConnectionCore} (h : core.Forsaking) (hframe : core.Frame core') :
    core'.Forsaking := by
  rcases h with ⟨hclosed, hdrained⟩ | hstranded
  · exact .inl ⟨hframe.closed hclosed, (hframe.silent hclosed).2.1.trans hdrained⟩
  · exact .inr (hstranded.trans_le hframe.stranded)

namespace ServerConnection

variable {c : ServerConnection} {pending : List Request} {uncounted : Nat}

/-! ## 不変条件 -/

/-- 復号した要求の行き先。`pending` は行き先が決まる前の要求、`uncounted` は受け付けられてまだ数えていない要求の数である。 -/
structure Requests (cfg : ServerConnectionConfig) (pending : List Request) (uncounted : Nat) (c : ServerConnection) :
    Prop where
  distinct : ((c.admitted ++ c.rejected ++ pending).map Request.index).Nodup
  decoded : ∀ request ∈ c.admitted ++ c.rejected ++ pending, c.decoded[request.index]? = some request.envelope
  settled : (c.admitted ++ c.rejected).Perm (c.outstanding ++ c.enqueued.map Response.request ++ c.abandoned)
  owned : ∀ request ∈ c.outstanding, request ∈ c.admitted
  inflight : c.core.inflightRequests + uncounted = c.outstanding.length
  le_max : c.core.inflightRequests + uncounted ≤ cfg.limits.maxInflight
  jobs : ∀ job ∈ c.jobs, job.requests ≠ []
  posting : ∀ entry ∈ c.posting, entry.2.Valid cfg c.connectionId
  results : ∀ result ∈ c.results, result.Valid cfg c.connectionId
  discarded : ∀ result ∈ c.discarded, result.requests ≠ []
  enqueued : ∀ response ∈ c.enqueued,
    response.Dispatched cfg ∧ response.request ∈ c.admitted ∨ response.Refused cfg ∧ response.request ∈ c.rejected
  accepted : c.core.accepted.flatten = (c.enqueued.map Response.frame).flatten
  abandoned : c.abandoned ≠ [] → c.core.Forsaking

namespace Requests

/-- 要求の行き先に触れない歩み。 -/
theorem setCore (h : Requests cfg pending uncounted c) {core : ConnectionCore} (hframe : c.core.Frame core) :
    Requests cfg pending uncounted { c with core := core } :=
  { h with
    inflight := by
      show core.inflightRequests + uncounted = _
      rw [hframe.inflight]
      exact h.inflight
    le_max := by
      show core.inflightRequests + uncounted ≤ _
      rw [hframe.inflight]
      exact h.le_max
    accepted := hframe.accepted ▸ h.accepted
    abandoned := fun hne => (h.abandoned hne).frame hframe }

theorem setReadLoop (h : Requests cfg pending uncounted c) (readLoop : ReadLoop) :
    Requests cfg pending uncounted { c with readLoop := readLoop } := { h with }

theorem check (h : Requests cfg pending uncounted c) (condition : Bool) :
    Requests cfg pending uncounted { c with core := c.core.check condition } := { h with }

/-- 行き先の決まらない要求を忘れる。 -/
theorem drop (h : Requests cfg pending uncounted c) : Requests cfg [] uncounted c :=
  { h with
    distinct := by
      have := h.distinct
      rw [List.map_append] at this
      rw [List.append_nil]
      exact (List.nodup_append.mp this).1
    decoded := fun request hmem => h.decoded request (List.mem_append_left _ (by simpa using hmem)) }

end Requests

/-! ### 束と結果の移り変わり -/

theorem outstanding_takeResult {result : WorkerResult} (hmem : result ∈ c.results) :
    c.outstanding.Perm (result.requests ++ (c.takeResult result).outstanding) := by
  have hperm := (List.perm_cons_erase hmem).flatMap_right WorkerResult.requests
  rw [List.flatMap_cons] at hperm
  refine List.perm_iff_count.mpr fun request => ?_
  have hcount := hperm.count_eq request
  simp only [outstanding, takeResult, List.flatMap_append, List.count_append] at hcount ⊢
  omega

theorem outstanding_execute (cfg : ServerConnectionConfig) {job : Job} (invoke : Request → Invocation)
    (hmem : job ∈ c.jobs) :
    (c.execute cfg job invoke).outstanding.Perm c.outstanding := by
  have hperm := (List.perm_cons_erase hmem).flatMap_right Job.requests
  have hrequests := executeRequestBatchOnWorker_requests cfg c.connectionId invoke job.requests
  rw [List.flatMap_cons] at hperm
  refine List.perm_iff_count.mpr fun request => ?_
  have hcount := hperm.count_eq request
  simp only [outstanding, execute, List.flatMap_append, List.flatMap_map, List.count_append, hrequests] at hcount ⊢
  omega

theorem outstanding_post {batch : Nat} {result : WorkerResult}
    (hfind : c.posting.find? (fun entry => entry.1 = batch) = some (batch, result)) :
    (c.post batch result).outstanding.Perm c.outstanding := by
  obtain ⟨entry, before, after, hbefore, hp, hsplit, herase⟩ :=
    List.exists_of_eraseP (p := fun entry => decide (entry.1 = batch)) (List.mem_of_find?_eq_some hfind) (by simp)
  have hentry : entry = (batch, result) := by
    rw [hsplit, List.find?_append, List.find?_eq_none.mpr hbefore] at hfind
    simpa [hp] using hfind
  subst hentry
  refine List.perm_iff_count.mpr fun request => ?_
  simp only [outstanding, post, herase, List.flatMap_append, List.flatMap_cons, List.flatMap_nil, List.append_nil,
    List.count_append]
  rw [hsplit]
  simp only [List.flatMap_append, List.flatMap_cons, List.count_append]
  omega

theorem outstanding_discardResult {result : WorkerResult} (hmem : result ∈ c.results) :
    (c.discardResult result).outstanding.Perm c.outstanding := by
  have hperm := (List.perm_cons_erase hmem).flatMap_right WorkerResult.requests
  rw [List.flatMap_cons] at hperm
  refine List.perm_iff_count.mpr fun request => ?_
  have hcount := hperm.count_eq request
  simp only [outstanding, discardResult, takeResult, List.flatMap_append, List.flatMap_singleton,
    List.count_append] at hcount ⊢
  omega

namespace Requests

theorem discardResult (h : Requests cfg pending uncounted c) {result : WorkerResult} (hmem : result ∈ c.results) :
    Requests cfg pending uncounted (c.discardResult result) := by
  have hperm := outstanding_discardResult hmem
  exact { h with
    settled := h.settled.trans (((hperm.append_right _).append_right _).symm)
    owned := fun request hrequest => h.owned request (hperm.mem_iff.mp hrequest)
    inflight := h.inflight.trans hperm.length_eq.symm
    discarded := fun other hother => by
      rcases List.mem_append.mp hother with hother | hother
      · exact h.discarded other hother
      · rw [List.mem_singleton.mp hother]
        exact (h.results result hmem).nonempty
    results := fun other hother => h.results other (List.mem_of_mem_erase hother) }

theorem execute (h : Requests cfg pending uncounted c) {job : Job} (hmem : job ∈ c.jobs) (invoke : Request → Invocation) :
    Requests cfg pending uncounted (c.execute cfg job invoke) := by
  have hperm := outstanding_execute cfg invoke hmem
  exact { h with
    jobs := fun other hother => h.jobs other (List.mem_of_mem_erase hother)
    settled := h.settled.trans (((hperm.append_right _).append_right _).symm)
    owned := fun request hrequest => h.owned request (hperm.mem_iff.mp hrequest)
    inflight := h.inflight.trans hperm.length_eq.symm
    posting := fun entry hentry => by
      rcases List.mem_append.mp hentry with hentry | hentry
      · exact h.posting entry hentry
      · obtain ⟨result, hresult, rfl⟩ := List.mem_map.mp hentry
        exact executeRequestBatchOnWorker_valid _ _ _ _ result hresult }

theorem post (h : Requests cfg pending uncounted c) {batch : Nat} {result : WorkerResult}
    (hfind : c.posting.find? (fun entry => entry.1 = batch) = some (batch, result)) :
    Requests cfg pending uncounted (c.post batch result) := by
  have hperm := outstanding_post hfind
  exact { h with
    settled := h.settled.trans (((hperm.append_right _).append_right _).symm)
    owned := fun request hrequest => h.owned request (hperm.mem_iff.mp hrequest)
    inflight := h.inflight.trans hperm.length_eq.symm
    posting := fun entry hentry => h.posting entry (List.mem_of_mem_eraseP hentry)
    results := fun other hother => by
      rcases List.mem_append.mp hother with hother | hother
      · exact h.results other hother
      · rw [List.mem_singleton.mp hother]
        exact h.posting _ (List.mem_of_find?_eq_some hfind) }

/-- 結果が待ちから除かれ、枠が戻る。要求は、応答が積まれるか、見捨てられる。 -/
theorem take (h : Requests cfg pending uncounted c) {result : WorkerResult} (hmem : result ∈ c.results)
    (core : ConnectionCore) (responses : List Response) (lost : List Request)
    (hinflight : core.inflightRequests = c.core.inflightRequests - result.releasedRequests)
    (hle : result.releasedRequests ≤ c.core.inflightRequests)
    (hsplit : result.requests.Perm (responses.map Response.request ++ lost))
    (hdispatched : ∀ response ∈ responses, response.Dispatched cfg)
    (haccepted : core.accepted.flatten = c.core.accepted.flatten ++ (responses.map Response.frame).flatten)
    (habandoned : c.abandoned ++ lost ≠ [] → core.Forsaking) :
    Requests cfg pending uncounted
      { c with
        results := c.results.erase result
        core := core
        enqueued := c.enqueued ++ responses
        abandoned := c.abandoned ++ lost } := by
  have hperm := outstanding_takeResult hmem
  have hlength := hperm.length_eq
  have hreleased := (h.results result hmem).released
  have hold := h.inflight
  have hmax := h.le_max
  rw [List.length_append] at hlength
  exact { h with
    settled := by
      refine h.settled.trans (List.perm_iff_count.mpr fun request => ?_)
      have hcount := hperm.count_eq request
      have hcount' := hsplit.count_eq request
      simp only [List.count_append, List.map_append] at hcount hcount' ⊢
      show _ = (c.takeResult result).outstanding.count request + _ + _
      omega
    owned := fun request hrequest => h.owned request (hperm.mem_iff.mpr (List.mem_append_right _ hrequest))
    inflight := by
      show core.inflightRequests + uncounted = (c.takeResult result).outstanding.length
      omega
    le_max := by
      show core.inflightRequests + uncounted ≤ _
      omega
    results := fun other hother => h.results other (List.mem_of_mem_erase hother)
    enqueued := fun response hresponse => by
      rcases List.mem_append.mp hresponse with hresponse | hresponse
      · exact h.enqueued response hresponse
      · refine .inl ⟨hdispatched response hresponse, h.owned _ (hperm.mem_iff.mpr (List.mem_append_left _ ?_))⟩
        exact hsplit.mem_iff.mpr (List.mem_append_left _ (List.mem_map_of_mem hresponse))
    accepted := by
      show core.accepted.flatten = _
      rw [haccepted, h.accepted, List.map_append, List.flatten_append]
    abandoned := habandoned }

theorem submitAccepted {requests : List Request} (h : Requests cfg requests 0 c) (hne : requests ≠ [])
    (hmax : c.core.inflightRequests + requests.length ≤ cfg.limits.maxInflight) :
    Requests cfg [] requests.length (c.submitAccepted requests) := by
  have hold := h.inflight
  have hperm : (c.admitted ++ c.rejected ++ requests).Perm (c.admitted ++ requests ++ c.rejected ++ []) := by
    refine List.perm_iff_count.mpr fun request => ?_
    simp only [List.count_append, List.count_nil]
    omega
  have houtstanding : (c.submitAccepted requests).outstanding.Perm (requests ++ c.outstanding) := by
    refine List.perm_iff_count.mpr fun request => ?_
    simp only [outstanding, ServerConnection.submitAccepted, List.flatMap_append, List.flatMap_singleton,
      List.count_append]
    omega
  exact { h with
    distinct := (hperm.map _).nodup_iff.mp h.distinct
    decoded := fun request hmem => h.decoded request (hperm.mem_iff.mpr hmem)
    settled := by
      refine List.perm_iff_count.mpr fun request => ?_
      have hcount := h.settled.count_eq request
      have hcount' := houtstanding.count_eq request
      simp only [List.count_append] at hcount hcount' ⊢
      show (c.admitted ++ requests).count request + c.rejected.count request =
        (c.submitAccepted requests).outstanding.count request + (c.enqueued.map Response.request).count request +
          c.abandoned.count request
      rw [hcount', List.count_append]
      omega
    owned := fun request hmem => by
      rcases List.mem_append.mp (houtstanding.mem_iff.mp hmem) with hmem | hmem
      · exact List.mem_append_right _ hmem
      · exact List.mem_append_left _ (h.owned request hmem)
    inflight := by
      rw [houtstanding.length_eq, List.length_append, ← hold]
      exact Nat.add_comm _ _
    le_max := hmax
    jobs := fun job hmem => by
      rcases List.mem_append.mp hmem with hmem | hmem
      · exact h.jobs job hmem
      · rw [List.mem_singleton.mp hmem]
        exact hne
    enqueued := fun response hmem => (h.enqueued response hmem).imp_left fun ⟨hd, ha⟩ => ⟨hd, List.mem_append_left _ ha⟩ }

theorem countAdmitted {requestCount : Nat} (h : Requests cfg pending requestCount c) :
    Requests cfg pending 0
      { c with core := { c.core with inflightRequests := c.core.inflightRequests + requestCount } } :=
  { h with inflight := h.inflight, le_max := h.le_max }

/-- 先頭の要求を断る。 -/
theorem rejectOne {request : Request} {rest : List Request} (h : Requests cfg (request :: rest) 0 c)
    (core : ConnectionCore) (responses : List Response) (lost : List Request)
    (hinflight : core.inflightRequests = c.core.inflightRequests) (hsplit : [request].Perm (responses.map Response.request ++ lost))
    (hrefused : ∀ response ∈ responses, response.Refused cfg)
    (haccepted : core.accepted.flatten = c.core.accepted.flatten ++ (responses.map Response.frame).flatten)
    (habandoned : c.abandoned ++ lost ≠ [] → core.Forsaking) :
    Requests cfg rest 0
      { c with
        core := core
        rejected := c.rejected ++ [request]
        enqueued := c.enqueued ++ responses
        abandoned := c.abandoned ++ lost } := by
  have hlist : c.admitted ++ c.rejected ++ request :: rest = c.admitted ++ (c.rejected ++ [request]) ++ rest := by simp
  have hinflight' := hinflight ▸ h.inflight
  exact { h with
    distinct := hlist ▸ h.distinct
    decoded := hlist ▸ h.decoded
    settled := by
      refine List.perm_iff_count.mpr fun other => ?_
      have hcount := h.settled.count_eq other
      have hcount' := hsplit.count_eq other
      simp only [List.count_append, List.map_append] at hcount hcount' ⊢
      show _ = c.outstanding.count other + _ + _
      omega
    inflight := hinflight'
    le_max := hinflight ▸ h.le_max
    enqueued := fun response hresponse => by
      rcases List.mem_append.mp hresponse with hresponse | hresponse
      · exact (h.enqueued response hresponse).imp_right fun ⟨hr, hmem⟩ => ⟨hr, List.mem_append_left _ hmem⟩
      · refine .inr ⟨hrefused response hresponse, List.mem_append_right _ ?_⟩
        exact hsplit.mem_iff.mpr (List.mem_append_left _ (List.mem_map_of_mem hresponse))
    accepted := by
      show core.accepted.flatten = _
      rw [haccepted, h.accepted, List.map_append, List.flatten_append]
    abandoned := habandoned }

/-! ## 結果の覆っていない要求 -/

theorem nodup_settled (h : Requests cfg pending uncounted c) :
    (c.outstanding ++ c.enqueued.map Response.request ++ c.abandoned).Nodup := by
  refine h.settled.nodup_iff.mp (List.Nodup.of_map Request.index ?_)
  have hdistinct := h.distinct
  rw [List.map_append] at hdistinct
  exact (List.nodup_append.mp hdistinct).1

theorem outstanding_eq (hdiscarded : c.discarded = []) :
    c.outstanding = c.uncovered ++ c.results.flatMap WorkerResult.requests := by
  rw [outstanding, uncovered, hdiscarded, List.append_nil]

/-- 結果の覆っていない要求は、受け付けられて、どの結果にもなく、応答も積まれず、捨てられてもいない要求である。 -/
theorem mem_uncovered_iff (h : Requests cfg pending uncounted c) (hdiscarded : c.discarded = []) (request : Request) :
    request ∈ c.uncovered ↔
      request ∈ c.admitted ∧ request ∉ c.results.flatMap WorkerResult.requests ∧
        request ∉ c.enqueued.map Response.request ∧ request ∉ c.abandoned := by
  have hnodup := h.nodup_settled
  have hmem : request ∈ c.admitted → request ∈ c.outstanding ++ c.enqueued.map Response.request ++ c.abandoned :=
    fun hadmitted => h.settled.mem_iff.mp (List.mem_append_left _ hadmitted)
  have howned := h.owned request
  rw [outstanding_eq hdiscarded] at hnodup hmem howned
  simp only [List.nodup_append', List.mem_append, List.disjoint_append_left] at hnodup hmem howned
  obtain ⟨⟨⟨_, _, hresults⟩, _, henqueued, _⟩, _, ⟨habandoned, _⟩, _⟩ := hnodup
  constructor
  · intro huncovered
    exact ⟨howned (.inl huncovered), hresults huncovered, henqueued huncovered, habandoned huncovered⟩
  · rintro ⟨hadmitted, hnot, hnot', hnot''⟩
    rcases hmem hadmitted with ((huncovered | hmem) | hmem) | hmem
    · exact huncovered
    · exact absurd hmem hnot
    · exact absurd hmem hnot'
    · exact absurd hmem hnot''

/-- 処理中の数は、結果の覆っていない要求の数と、待っている結果が戻す数の和である。 -/
theorem inflight_eq (h : Requests cfg pending 0 c) (hdiscarded : c.discarded = []) :
    c.core.inflightRequests = c.uncovered.length + (c.results.map WorkerResult.releasedRequests).sum := by
  have hreleased : c.results.map WorkerResult.releasedRequests = c.results.map (List.length ∘ WorkerResult.requests) :=
    List.map_congr_left fun result hmem => (h.results result hmem).released
  have hinflight := h.inflight
  rw [outstanding_eq hdiscarded, List.length_append, List.length_flatMap] at hinflight
  rw [hreleased]
  exact hinflight

end Requests

end ServerConnection

end Xrpc.Server
