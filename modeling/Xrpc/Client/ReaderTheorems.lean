import Xrpc.Client.Lemmas.ReaderLoop
import Xrpc.Client.RpcClient
import Xrpc.Protocol.Theorems

/-!
# 応答の受信についての定理
-/

namespace Xrpc.Client
open Xrpc.Lib Xrpc.Protocol

/-! ## 流れの区切り -/

/-- `ReaderLoop` は、どのように区切って受け取っても、応答として受け入れられるフレームの並びである最も長い接頭辞の応答を順に
`CompletePending` に渡し、残りの復号が入力不足以外の結果になるときに限り `DataLoss` で閉じる。種別のバイトのほかが一致し、
どちらも閉じない流れでは、`RpcFrameStream` と同じ位置で区切る。 -/
theorem readerLoop_cuts (env : Env) (limits : ProtocolLimits) :
    (∀ recvs, ∃ accepted rest,
      receivedBytes recvs = accepted ++ rest ∧
      ResponseFrames env.platform limits accepted (readerLoop env.platform limits recvs).completed ∧
      (∀ accepted' responses', ResponseFrames env.platform limits accepted' responses' →
        accepted' <+: receivedBytes recvs → accepted'.length ≤ accepted.length) ∧
      ((∃ failure, (readerLoop env.platform limits recvs).failure = some failure ∧
          (failure.status env).code = .dataLoss) ↔
        (FrameCodec.decode env.platform ⟨limits⟩ rest).error ≠ .needMoreData)) ∧
    (∀ policy (s s' : Bytes), s.length = s'.length →
      (∀ i, s[i]? ≠ s'[i]? → ∃ k, RpcFrameStream.CutsAt env.platform policy limits s k ∧ i = k + 5) →
      (∀ chunks : List Bytes, chunks.flatten = s → ∃ results stream,
        (RpcFrameStream.fresh policy limits).feedAll env.platform policy chunks = some (results, stream) ∧
          stream.closed = false) →
      (∀ chunks : List Bytes, [] ∉ chunks → chunks.flatten = s' →
        (readerLoop env.platform limits (chunks.map .received)).failure = none) →
      ∀ k, RpcFrameStream.CutsAt env.platform policy limits s k ↔ ReaderLoopCutsAt env.platform limits s' k) := by
  constructor
  · intro recvs
    have hrun := readerLoop_received env.platform limits recvs
    obtain ⟨accepted, hsplit, hframes⟩ :=
      StreamDecoder.parse_frames (d := responseDecoder env.platform limits) (receivedBytes recvs)
    refine ⟨accepted, _, hsplit, hrun.completed_eq ▸ responseFrames_iff.mpr hframes, ?_, ?_⟩
    · rintro accepted' responses' hframes' ⟨rest, hrest⟩
      exact (responseFrames_iff.mp hframes').length_le hrest.symm hsplit
    · cases hdec : (responseDecoder env.platform limits).decode
          ((responseDecoder env.platform limits).parse (receivedBytes recvs)).2 with
      | frame n m => exact absurd hdec (StreamDecoder.parse_rest_stop _ n m)
      | more =>
          refine iff_of_false ?_ (not_not.mpr (decodeStep_more.mp hdec))
          rintro ⟨failure, hsome, hcode⟩
          rw [(hrun.of_more hdec).1] at hsome
          have hof := (failure.status_code_dataLoss env).mp hcode
          rw [receiveEnd_ofDecode hsome] at hof
          cases hof
      | fail =>
          obtain ⟨failure, hsome, hof⟩ := hrun.of_fail hdec
          exact iff_of_true ⟨failure, hsome, (failure.status_code_dataLoss env).mpr hof⟩ (decodeStep_fail hdec)
  · intro policy s s' hlen hdiff hserver hclient k
    simp only [RpcFrameStream.cutsAt_iff] at hdiff ⊢
    rw [readerLoopCutsAt_iff]
    refine StreamDecoder.cutsAt_congr (h := FrameHeader.SIZE) (t := 5) (by decide) requestDecoder_size_le
      (fun _ _ => decode_size_congr env.platform limits) hlen hdiff ?_ ?_ k
    · obtain ⟨results, stream, hrun, hopen⟩ := hserver [s] (by simp)
      simpa using RpcFrameStream.more_of_open hrun hopen
    · obtain ⟨chunks, hne, hflat⟩ := exists_chunks s'
      have hrun := readerLoop_chunks env.platform limits hne
      rw [hflat] at hrun
      exact hrun.failure_eq_none.mp (hclient chunks hne hflat)

/-! ## 溜めるバイトの上限 -/

/-- どのような断片の列でも、開いている `RpcFrameStream` に残るバイトは一つのフレームの上限に満たない。上限を超える長さを
宣言したフレームは、先頭部の 24 バイトが届いた呼び出しまでに閉じる。`ReaderLoop` が `recv` を待つときのバッファも同じである。 -/
theorem buffered_input_bounded (p : Platform) (limits : ProtocolLimits) :
    (∀ (policy : CapacityPolicy) (chunks : List Bytes), ∃ results stream,
      (RpcFrameStream.fresh policy limits).feedAll p policy chunks = some (results, stream) ∧
      (stream.closed = false →
        stream.buffer.readableBytes.length < 24 + limits.maxMetadataSize + limits.maxPayloadSize) ∧
      ∀ accepted requests rest header, chunks.flatten = accepted ++ rest → RequestFrames p limits accepted requests →
        FrameHeader.decode p.endian (rest.take 24) = some header →
        limits.maxMetadataSize < header.metadataSize.toNat ∨ limits.maxPayloadSize < header.payloadSize.toNat →
        stream.closed = true) ∧
    ∀ recvs, (readerLoop p limits recvs).failure = none →
      (readerLoop p limits recvs).buffer.length < 24 + limits.maxMetadataSize + limits.maxPayloadSize := by
  refine ⟨fun policy chunks => ?_, fun recvs hwaiting => ?_⟩
  · obtain ⟨results, stream, hrun, hclosed, hbuffer⟩ := RpcFrameStream.feedAll_flatten p policy limits chunks
    refine ⟨results, stream, hrun, fun hopen => ?_, fun accepted requests rest header hsplit hframes hheader hover => ?_⟩
    · rw [hbuffer hopen]
      exact frameDecoder_more_length (RpcFrameStream.more_of_open hrun hopen)
    · have hfail : (requestDecoder p limits).decode rest = .fail := frameDecoder_fail_of_oversize hheader hover
      rw [hclosed, hsplit, (requestFrames_iff.mp hframes).parse_append, StreamDecoder.parse_stop (by simp [hfail]), hfail]
      rfl
  · have hrun := readerLoop_received p limits recvs
    cases hdec : (responseDecoder p limits).decode ((responseDecoder p limits).parse (receivedBytes recvs)).2 with
    | more =>
        rw [(hrun.of_more hdec).2]
        exact frameDecoder_more_length hdec
    | frame n m => exact absurd hdec (StreamDecoder.parse_rest_stop _ n m)
    | fail =>
        obtain ⟨failure, hsome, -⟩ := hrun.of_fail hdec
        rw [hwaiting] at hsome
        cases hsome

/-- 本体の長さとして 2^32 - 1 を宣言した先頭部の、二十四バイト目が届く。 -/
theorem buffered_input_bounded_oversized :
    ∃ results stream,
      (RpcFrameStream.fresh tightCapacity {}).feedAll ⟨.little, proto3⟩ tightCapacity
          [FrameHeader.wire ⟨FrameHeader.MAGIC, FrameHeader.VERSION, .request, 0, 0, 0xFFFFFFFF, 1⟩] =
        some (results, stream) ∧ stream.closed = true := by
  obtain ⟨results, stream, hrun, -, hclose⟩ := (buffered_input_bounded ⟨.little, proto3⟩ {}).1 tightCapacity
    [FrameHeader.wire ⟨FrameHeader.MAGIC, FrameHeader.VERSION, .request, 0, 0, 0xFFFFFFFF, 1⟩]
  exact ⟨results, stream, hrun, hclose [] [] _ ⟨FrameHeader.MAGIC, FrameHeader.VERSION, .request, 0, 0, 0xFFFFFFFF, 1⟩
    (by simp; rfl) .nil (by decide) (by decide)⟩

/-! ## 線上の状態の符号 -/

/-- 線上の符号が列挙子の値と一致するときに限りその状態になるのは、`fitsStatusCode` の成り立つ符号に限る。そのとき、OK になるのは
0 だけであり、列挙子の値でない符号は `DataLoss` になり、`Call` が本体を返す応答の符号は 0 である。 -/
theorem decoded_status_code (p : Platform) (limits : ProtocolLimits) (b : Bytes) (response : ResponseEnvelope)
    (metadata : ResponseMetadata) (hresponse : (FrameCodec.decode p ⟨limits⟩ b).response = some response)
    (hmetadata : p.protobuf.parseResponse (readFrame p b limits).metadataBytes = some metadata) :
    ((∀ k : StatusCode, k ≠ .dataLoss →
        (response.status.code = k ↔ metadata.errorCode = Int32.ofNat k.value.toNat)) ↔
      fitsStatusCode metadata.errorCode) ∧
    (fitsStatusCode metadata.errorCode →
      (response.status.code = .ok ↔ metadata.errorCode = 0) ∧
      ((∀ k : StatusCode, metadata.errorCode ≠ Int32.ofNat k.value.toNat) → response.status.code = .dataLoss) ∧
      ∀ now defaultTimeout options payload,
        call now defaultTimeout options (fun _ => .response response) = .ok payload → metadata.errorCode = 0) := by
  have hstatus : response.status = decodeStatus metadata.errorCode metadata.errorText := by
    obtain ⟨metadata', hparse, rfl⟩ := decode_response hresponse
    rw [hmetadata] at hparse
    cases hparse
    rfl
  have hiff := decodeStatus_code_iff metadata.errorCode metadata.errorText
  rw [← hstatus] at hiff
  refine ⟨hiff, fun hfit => ?_⟩
  have hcode := hiff.mpr hfit
  have hok : response.status.code = .ok ↔ metadata.errorCode = 0 := hcode .ok (by decide)
  refine ⟨hok, fun hnone => ?_, fun now defaultTimeout options payload hcall => hok.mp ?_⟩
  · by_contra hne
    exact hnone _ ((hcode response.status.code hne).mp rfl)
  · by_contra hne
    simp only [call, Status.isOk, hne, decide_false, Bool.not_false, ↓reduceIte] at hcall
    split at hcall <;> cases hcall

/-- 状態の符号が `errorCode` の応答のフレーム。 -/
def statusFrame (errorCode : Int32) : Bytes :=
  let metadataBytes := (proto3.serializeResponse ⟨errorCode, text "down"⟩).getD []
  (frameHeader .response 1 metadataBytes [7]).wire ++ metadataBytes ++ [7]

/-- `Internal` の応答は、`Internal` として戻る。 -/
theorem decoded_status_code_internal :
    fitsStatusCode 10 ∧
      (FrameCodec.decode ⟨.little, proto3⟩ ⟨{}⟩ (statusFrame 10)).response = some ⟨1, ⟨.internal, text "down"⟩, [7]⟩ ∧
      ∀ k : StatusCode, k ≠ .dataLoss → (.internal = k ↔ (10 : Int32) = Int32.ofNat k.value.toNat) := by
  have hfit : fitsStatusCode 10 := Or.inl (by decide)
  refine ⟨hfit, by decide, ?_⟩
  exact (decoded_status_code ⟨.little, proto3⟩ {} (statusFrame 10) ⟨1, ⟨.internal, text "down"⟩, [7]⟩
    ⟨10, text "down"⟩ (by decide) (by decide)).1.mpr hfit

/-- 符号が 256 の応答は OK になり、`Call` は本体を返す。 -/
theorem wrapped_status_code_becomes_ok :
    proto3.parseResponse (readFrame ⟨.little, proto3⟩ (statusFrame 256) {}).metadataBytes = some ⟨256, text "down"⟩ ∧
      (FrameCodec.decode ⟨.little, proto3⟩ ⟨{}⟩ (statusFrame 256)).error = .ok ∧
      (FrameCodec.decode ⟨.little, proto3⟩ ⟨{}⟩ (statusFrame 256)).response = some ⟨1, {}, [7]⟩ ∧
      call 0 0 {} (fun _ => .response ⟨1, {}, [7]⟩) = .ok [7] := by
  refine ⟨by decide, by decide, by decide, rfl⟩

end Xrpc.Client
