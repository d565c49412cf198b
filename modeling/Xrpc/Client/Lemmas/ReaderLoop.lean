import Xrpc.Client.ReaderLoop
import Xrpc.Protocol.Lemmas.Stream

/-!
# `ReaderLoop` が抽象の受信側を実現すること
-/

namespace Xrpc.Client
open Xrpc.Lib Xrpc.Protocol

variable {p : Platform} {limits : ProtocolLimits}

/-- クライアントが使う復号器。応答だけを認める。 -/
def responseDecoder (p : Platform) (limits : ProtocolLimits) : StreamDecoder UInt8 ResponseEnvelope :=
  frameDecoder p limits (·.response)

/-- 復号に関わる失敗。`recv` の結果による失敗ではない。 -/
def ReaderFailure.ofDecode : ReaderFailure → Bool
  | .undecodable | .notResponse => true
  | .peerClosed | .error _ => false

/-- 復号に関わる失敗だけが `DataLoss` で閉じる。 -/
theorem ReaderFailure.status_code_dataLoss (env : Env) (failure : ReaderFailure) :
    (failure.status env).code = .dataLoss ↔ failure.ofDecode = true := by
  cases failure with
  | undecodable | notResponse | peerClosed => simp [status, ofDecode, peerClosedStatus]
  | error errno =>
      simp only [status, ofDecode, ioStatus, Bool.false_eq_true, iff_false]
      split <;> simp [timeoutStatus]

/-! ## 内側のループ -/

theorem decodeAvailableResponses_more {buffer : Bytes} (h : (responseDecoder p limits).decode buffer = .more) :
    decodeAvailableResponses p limits buffer = ⟨[], buffer, none⟩ := by
  rw [decodeAvailableResponses]
  simp only [decodeStep_more.mp h, ↓reduceIte]

theorem decodeAvailableResponses_frame {buffer : Bytes} {n : Nat} {response : ResponseEnvelope}
    (h : (responseDecoder p limits).decode buffer = .frame n response) :
    decodeAvailableResponses p limits buffer =
      { decodeAvailableResponses p limits (buffer.drop n) with
        completed := response :: (decodeAvailableResponses p limits (buffer.drop n)).completed } := by
  obtain ⟨hok, rfl, hresponse⟩ := decodeStep_frame.mp h
  rw [decodeAvailableResponses]
  simp only [hok, hresponse, reduceCtorEq, ↓reduceIte, ↓reduceDIte]

theorem decodeAvailableResponses_fail {buffer : Bytes} (h : (responseDecoder p limits).decode buffer = .fail) :
    ∃ failure, decodeAvailableResponses p limits buffer = ⟨[], buffer, some failure⟩ ∧ failure.ofDecode = true := by
  have hmore := decodeStep_fail h
  rw [decodeAvailableResponses]
  simp only [hmore, ↓reduceIte]
  split
  next hok =>
    cases hresponse : (FrameCodec.decode p ⟨limits⟩ buffer).response with
    | none => exact ⟨.notResponse, rfl, rfl⟩
    | some response =>
        have hframe : (responseDecoder p limits).decode buffer = .frame _ response :=
          decodeStep_frame.mpr ⟨hok, rfl, hresponse⟩
        rw [h] at hframe
        cases hframe
  next => exact ⟨.undecodable, rfl, rfl⟩

/-- 内側のループは、取り出せるだけの応答を取り出し、残りを復号できないときに限り失敗する。 -/
theorem decodeAvailableResponses_spec (p : Platform) (limits : ProtocolLimits) (buffer : Bytes) :
    (decodeAvailableResponses p limits buffer).completed = ((responseDecoder p limits).parse buffer).1 ∧
      (decodeAvailableResponses p limits buffer).buffer = ((responseDecoder p limits).parse buffer).2 ∧
      ((responseDecoder p limits).decode ((responseDecoder p limits).parse buffer).2 = .more ∧
          (decodeAvailableResponses p limits buffer).failure = none ∨
        (responseDecoder p limits).decode ((responseDecoder p limits).parse buffer).2 = .fail ∧
          ∃ failure, (decodeAvailableResponses p limits buffer).failure = some failure ∧ failure.ofDecode = true) := by
  -- 残りの長さについての帰納法。
  induction hlen : buffer.length using Nat.strong_induction_on generalizing buffer with
  | _ k ih =>
      cases hdec : (responseDecoder p limits).decode buffer with
      | more =>
          rw [decodeAvailableResponses_more hdec, StreamDecoder.parse_stop (by simp [hdec])]
          exact ⟨rfl, rfl, Or.inl ⟨hdec, rfl⟩⟩
      | frame n response =>
          have hpos := (responseDecoder p limits).frame_pos hdec
          have hle := (responseDecoder p limits).frame_le hdec
          have hshort : (buffer.drop n).length < k := by rw [List.length_drop]; omega
          obtain ⟨hcompleted, hbuffer, hfailure⟩ := ih _ hshort (buffer.drop n) rfl
          rw [decodeAvailableResponses_frame hdec, StreamDecoder.parse_frame hdec]
          exact ⟨congrArg _ hcompleted, hbuffer, hfailure⟩
      | fail =>
          obtain ⟨failure, hrun, hof⟩ := decodeAvailableResponses_fail hdec
          rw [hrun, StreamDecoder.parse_stop (by simp [hdec])]
          exact ⟨rfl, rfl, Or.inr ⟨hdec, failure, rfl, hof⟩⟩

/-! ## 外側のループ -/

/-- `s` を受け取り終えた進み。残りの入力が足りないだけなら、受信の終わり方だけで失敗が決まる。 -/
structure ReaderRun.Received (p : Platform) (limits : ProtocolLimits) (run : ReaderRun) (s : Bytes)
    (ending : Option ReaderFailure) : Prop where
  completed_eq : run.completed = ((responseDecoder p limits).parse s).1
  of_more : (responseDecoder p limits).decode ((responseDecoder p limits).parse s).2 = .more →
    run.failure = ending ∧ run.buffer = ((responseDecoder p limits).parse s).2
  of_fail : (responseDecoder p limits).decode ((responseDecoder p limits).parse s).2 = .fail →
    ∃ failure, run.failure = some failure ∧ failure.ofDecode = true

theorem received_of_more {buffer : Bytes} (h : (responseDecoder p limits).decode buffer = .more)
    (ending : Option ReaderFailure) : ReaderRun.Received p limits ⟨[], buffer, ending⟩ buffer ending := by
  have hparse := StreamDecoder.parse_stop (d := responseDecoder p limits) (b := buffer) (by simp [h])
  refine ⟨by rw [hparse], fun _ => ⟨rfl, by rw [hparse]⟩, fun hfail => ?_⟩
  rw [hparse, h] at hfail
  cases hfail

/-- 内側のループの後に `x` を受け取る。復号に失敗していれば、`x` は受け取らない。 -/
theorem received_andThen {buffer x : Bytes} {next : Bytes → ReaderRun} {ending : Option ReaderFailure}
    (hnext : ∀ rest, (responseDecoder p limits).decode rest = .more →
      (next rest).Received p limits (rest ++ x) ending) :
    ((decodeAvailableResponses p limits buffer).andThen next).Received p limits (buffer ++ x) ending := by
  obtain ⟨hcompleted, hbuffer, ⟨hmore, hnone⟩ | ⟨hfail, failure, hsome, hof⟩⟩ :=
    decodeAvailableResponses_spec p limits buffer
  · have hrest := hnext _ hmore
    have happ := StreamDecoder.parse_append (d := responseDecoder p limits) buffer x
    simp only [ReaderRun.andThen, hnone, Option.isSome_none, Bool.false_eq_true, ↓reduceIte, hbuffer, hcompleted]
    refine ⟨?_, fun h => ?_, fun h => ?_⟩
    · rw [happ, hrest.completed_eq]
    · rw [happ] at h ⊢
      exact hrest.of_more h
    · rw [happ] at h
      exact hrest.of_fail h
  · have happ := StreamDecoder.parse_fail_append x hfail
    have hfail' := (responseDecoder p limits).fail_append x hfail
    simp only [ReaderRun.andThen, hsome, Option.isSome_some, ↓reduceIte]
    refine ⟨by rw [happ, hcompleted], fun h => ?_, fun _ => ⟨failure, hsome, hof⟩⟩
    rw [happ, hfail'] at h
    cases h

theorem receiveResponses_received {buffer : Bytes} (h : (responseDecoder p limits).decode buffer = .more)
    (recvs : List RecvResult) :
    (receiveResponses p limits buffer recvs).Received p limits (buffer ++ receivedBytes recvs) (receiveEnd recvs) := by
  induction recvs generalizing buffer with
  | nil => simpa [receiveResponses, receivedBytes, receiveEnd] using received_of_more h none
  | cons result recvs ih =>
      cases result with
      | received bytes =>
          simp only [receiveResponses, receivedBytes, receiveEnd]
          split_ifs with hempty
          · simpa using received_of_more h (some .peerClosed)
          · rw [← List.append_assoc]
            exact received_andThen fun rest hrest => ih hrest
      | failed errno =>
          simp only [receiveResponses, receivedBytes, receiveEnd]
          split_ifs with hinterrupted
          · exact ih h
          · simpa using received_of_more h (some (.error errno))

theorem readerLoop_received (p : Platform) (limits : ProtocolLimits) (recvs : List RecvResult) :
    (readerLoop p limits recvs).Received p limits (receivedBytes recvs) (receiveEnd recvs) := by
  rw [← List.nil_append (receivedBytes recvs)]
  exact received_andThen fun rest hrest => receiveResponses_received hrest recvs

/-- 受信の終わり方は、復号に関わる失敗ではない。 -/
theorem receiveEnd_ofDecode {recvs : List RecvResult} {failure : ReaderFailure} (h : receiveEnd recvs = some failure) :
    failure.ofDecode = false := by
  induction recvs with
  | nil => cases h
  | cons result recvs ih =>
      cases result with
      | received bytes =>
          simp only [receiveEnd] at h
          split_ifs at h
          · cases h; rfl
          · exact ih h
      | failed errno =>
          simp only [receiveEnd] at h
          split_ifs at h
          · exact ih h
          · cases h; rfl

/-- 空でない断片の列は、閉じられることなく、つないだものとして受け取る。 -/
theorem readerLoop_chunks (p : Platform) (limits : ProtocolLimits) {chunks : List Bytes} (h : [] ∉ chunks) :
    (readerLoop p limits (chunks.map .received)).Received p limits chunks.flatten none := by
  have hreceived : receivedBytes (chunks.map .received) = chunks.flatten ∧
      receiveEnd (chunks.map .received) = none := by
    induction chunks with
    | nil => exact ⟨rfl, rfl⟩
    | cons chunk chunks ih =>
        obtain ⟨hne, hrest⟩ := not_or.mp (List.mem_cons.not.mp h)
        obtain ⟨hbytes, hend⟩ := ih hrest
        simp only [List.map_cons, receivedBytes, receiveEnd, if_neg (Ne.symm hne), List.flatten_cons, hbytes, hend,
          and_self]
  have hrun := readerLoop_received p limits (chunks.map .received)
  rwa [hreceived.1, hreceived.2] at hrun

theorem exists_chunks (s : Bytes) : ∃ chunks : List Bytes, [] ∉ chunks ∧ chunks.flatten = s := by
  by_cases hs : s = []
  · exact ⟨[], List.not_mem_nil, hs.symm⟩
  · exact ⟨[s], by simpa using Ne.symm hs, by simp⟩

/-- 区切って受け取った入力の残りは、足りないか、復号できない。 -/
theorem ReaderRun.Received.failure_eq_none {run : ReaderRun} {s : Bytes} (h : run.Received p limits s none) :
    run.failure = none ↔ (responseDecoder p limits).decode ((responseDecoder p limits).parse s).2 = .more := by
  cases hdec : (responseDecoder p limits).decode ((responseDecoder p limits).parse s).2 with
  | more => exact iff_of_true (h.of_more hdec).1 rfl
  | frame n m => exact absurd hdec (StreamDecoder.parse_rest_stop s n m)
  | fail =>
      obtain ⟨failure, hsome, -⟩ := h.of_fail hdec
      simp [hsome]

/-- 区切りの位置は、復号器の区切りの位置である。 -/
theorem readerLoopCutsAt_iff {s : Bytes} {k : Nat} :
    ReaderLoopCutsAt p limits s k ↔ (responseDecoder p limits).CutsAt s k := by
  refine and_congr_right fun _ => ⟨fun h => ?_, fun hnil chunks hne hflat => ?_⟩
  · obtain ⟨chunks, hne, hflat⟩ := exists_chunks (s.take k)
    have hrun := readerLoop_chunks p limits hne
    rw [hflat] at hrun
    obtain ⟨hfailure, hbuffer⟩ := h chunks hne hflat
    exact (hrun.of_more (hrun.failure_eq_none.mp hfailure)).2.symm.trans hbuffer
  · have hrun := readerLoop_chunks p limits hne
    rw [hflat] at hrun
    obtain ⟨hfailure, hbuffer⟩ := hrun.of_more (by rw [hnil]; exact (responseDecoder p limits).nil_more)
    exact ⟨hfailure, hbuffer.trans hnil⟩

/-! ## 完全な応答のフレームの並び -/

/-- 完全なフレームの並びであり、どのフレームも `FrameCodec.decode` が応答として受け入れる。 -/
inductive ResponseFrames (p : Platform) (limits : ProtocolLimits) : Bytes → List ResponseEnvelope → Prop where
  | nil : ResponseFrames p limits [] []
  | cons {frame rest response responses} :
      (FrameCodec.decode p ⟨limits⟩ frame).error = .ok →
      (FrameCodec.decode p ⟨limits⟩ frame).consumed = frame.length →
      (FrameCodec.decode p ⟨limits⟩ frame).response = some response →
      ResponseFrames p limits rest responses → ResponseFrames p limits (frame ++ rest) (response :: responses)

theorem responseFrames_iff {b : Bytes} {responses : List ResponseEnvelope} :
    ResponseFrames p limits b responses ↔ (responseDecoder p limits).Frames b responses := by
  constructor
  · intro h
    induction h with
    | nil => exact .nil
    | cons hok hconsumed hresponse _ ih => exact .cons (decodeStep_frame.mpr ⟨hok, hconsumed, hresponse⟩) ih
  · intro h
    induction h with
    | nil => exact .nil
    | cons hframe _ ih =>
        obtain ⟨hok, hconsumed, hresponse⟩ := decodeStep_frame.mp hframe
        exact .cons hok hconsumed hresponse ih

/-! ## サーバーの区切りとの一致 -/

/-- 閉じない限り、種別のバイトだけが違う入力の先頭から、要求と応答は同じ長さで取り出される。 -/
theorem decode_size_congr (p : Platform) (limits : ProtocolLimits) {b b' : Bytes} (hlen : b.length = b'.length)
    (h : ∀ i < FrameHeader.SIZE, i ≠ 5 → b[i]? = b'[i]?) (hopen : (requestDecoder p limits).decode b ≠ .fail)
    (hopen' : (responseDecoder p limits).decode b' ≠ .fail) :
    ((requestDecoder p limits).decode b).size? = ((responseDecoder p limits).decode b').size? := by
  obtain ⟨herror, hconsumed⟩ := readFrame_congr p limits hlen h
  cases hdec : (requestDecoder p limits).decode b with
  | fail => exact absurd hdec hopen
  | more =>
      have hmore : (responseDecoder p limits).decode b' = .more :=
        decodeStep_more.mpr (decode_needMoreData.mpr (herror ▸ decode_needMoreData.mp (decodeStep_more.mp hdec)))
      rw [hmore]
      rfl
  | frame n request =>
      cases hdec' : (responseDecoder p limits).decode b' with
      | fail => exact absurd hdec' hopen'
      | more =>
          have hmore : (requestDecoder p limits).decode b = .more :=
            decodeStep_more.mpr (decode_needMoreData.mpr (herror ▸ decode_needMoreData.mp (decodeStep_more.mp hdec')))
          rw [hdec] at hmore
          cases hmore
      | frame n' response =>
          obtain ⟨hok, rfl, -⟩ := decodeStep_frame.mp hdec
          obtain ⟨hok', rfl, -⟩ := decodeStep_frame.mp hdec'
          exact congrArg some ((decode_consumed hok).trans (hconsumed.trans (decode_consumed hok').symm))

end Xrpc.Client
