import Xrpc.Protocol.Lemmas.Stream

/-!
# 線上の形式についての定理
-/

namespace Xrpc.Protocol
open Xrpc.Lib

/-! ## 受信の区切りによらないこと -/

/-- 入力をどのように断片に区切って渡しても、`RpcFrameStream` は必ず止まり、要求として受け入れられるフレームの並びである
最も長い接頭辞の要求を、ちょうど順に取り出す。閉じるのは、残りの復号が入力不足以外の結果になるときに限る。
閉じた後の断片からは、何も取り出さない。 -/
theorem feedAll_independent_of_segmentation (p : Platform) (policy : CapacityPolicy) (limits : ProtocolLimits)
    (chunks : List Bytes) :
    ∃ results stream accepted rest requests,
      (RpcFrameStream.fresh policy limits).feedAll p policy chunks = some (results, stream) ∧
      chunks.flatten = accepted ++ rest ∧ RequestFrames p limits accepted requests ∧
      (∀ accepted' requests', RequestFrames p limits accepted' requests' → accepted' <+: chunks.flatten →
        accepted'.length ≤ accepted.length) ∧
      (results.map (·.requests.toList)).flatten = requests ∧
      (stream.closed = true ↔ (FrameCodec.decode p ⟨limits⟩ rest).error ≠ .needMoreData) ∧
      results.Pairwise (fun earlier later => earlier.closed = true → later.requests.toList = []) := by
  obtain ⟨results, stream, hrun, hlists, hrefines, hquiet⟩ :=
    RpcFrameStream.feedAll_refines p policy RpcFrameStream.fresh_refines chunks
  obtain ⟨hmsgs, hclosed⟩ := Receiver.feedAll_fresh (d := requestDecoder p limits) chunks
  obtain ⟨accepted, hsplit, hframes⟩ := StreamDecoder.parse_frames (d := requestDecoder p limits) chunks.flatten
  refine ⟨results, stream, accepted, _, _, hrun, hsplit, requestFrames_iff.mpr hframes, ?_, ?_, ?_, hquiet⟩
  · rintro accepted' requests' hframes' ⟨rest, hrest⟩
    exact (requestFrames_iff.mp hframes').length_le hrest.symm hsplit
  · rw [hlists, hmsgs]
  · have hstop := StreamDecoder.parse_rest_stop (d := requestDecoder p limits) chunks.flatten
    rw [hrefines.closed_eq, hclosed]
    generalize ((requestDecoder p limits).parse chunks.flatten).2 = rest at hstop ⊢
    cases hstep : (requestDecoder p limits).decode rest with
    | more => simp [DecodeStep.isFail, decodeStep_more.mp hstep]
    | frame n m => exact absurd hstep (hstop n m)
    | fail => simpa [DecodeStep.isFail] using decodeStep_fail hstep

/-! ## 溜めるバイトの待ち行列 -/

/-- `ByteBuffer` は、容量の決め方によらず、バイトの待ち行列として振る舞う。読める列は、足したバイトから消費した分を除いたもので
ある。位置は中身の長さを超えず、読めるものがなければ 0 であり、`Compact` の `assert` は失敗しない。 -/
theorem byteBuffer_refines_byte_queue (policy : CapacityPolicy) (calls : List (CapacityPolicy × ByteBuffer.Op))
    (hwithin : ByteQueue.Within (calls.map Prod.snd)) :
    ∃ b, (ByteBuffer.fresh policy).run calls = some (ByteQueue.views [] (calls.map Prod.snd), b) ∧
      b.readableBytes = (ByteQueue.appended (calls.map Prod.snd)).drop (ByteQueue.consumed (calls.map Prod.snd)) ∧
      b.readOffset ≤ b.buffer.data.length ∧ (b.readableBytes = [] → b.readOffset = 0) := by
  have hempty : (ByteBuffer.fresh policy).readableBytes = ByteQueue.content [] := ByteBuffer.readableBytes_eq _
  obtain ⟨b, hrun, hwf, hbytes⟩ := ByteBuffer.run_spec ByteBuffer.fresh_wf hempty hwithin
  refine ⟨b, hrun, hbytes, hwf.readOffset_le, fun hnil => ?_⟩
  have hsize := congrArg List.length hnil
  rw [ByteBuffer.length_readableBytes, ByteBuffer.readableSize, List.length_nil] at hsize
  rcases hwf with hlt | hzero
  · omega
  · exact hzero

/-- 空きを残さない容量の決め方。 -/
def tightCapacity : CapacityPolicy := ⟨0, fun _ data => data.length, fun _ _ => le_rfl⟩

/-- 一部を消費した後、空きに収まらない断片を足す。 -/
def compactingCalls : List (CapacityPolicy × ByteBuffer.Op) :=
  [(tightCapacity, .append [1, 2]), (tightCapacity, .consume 1), (tightCapacity, .append [3]),
    (tightCapacity, .readableBytes)]

theorem byteBuffer_refines_byte_queue_compacting :
    ∃ b, (ByteBuffer.fresh tightCapacity).run compactingCalls = some ([[2, 3]], b) ∧ b.readableBytes = [2, 3] := by
  have hwithin : ByteQueue.Within (compactingCalls.map Prod.snd) := by
    intro done n rest heq
    rcases done with _ | ⟨op, _ | ⟨_, _ | ⟨_, _ | ⟨_, done⟩⟩⟩⟩ <;> simp [compactingCalls] at heq
    obtain ⟨rfl, rfl, -⟩ := heq
    decide
  obtain ⟨b, hrun, hbytes, -⟩ := byteBuffer_refines_byte_queue tightCapacity compactingCalls hwithin
  exact ⟨b, hrun, hbytes⟩

/-! ## 先頭部の配置と往復 -/

/-- `EncodeTo` は、どちらのバイト順のホストでも、ちょうど 24 バイトを書き、各欄を決まった位置に上位のバイトから並べる。
印の正しい先頭部は、どのホストで書いてどのホストで読んでも元に戻り、印の正しい 24 バイトは、読んで書くと元に戻る。 -/
theorem header_layout_round_trip (e e' : Endian) :
    (∀ h : FrameHeader, ∃ frame : Bytes, frame.length = 24 ∧
      (∀ buffer, h.encodeTo e buffer = frame ++ buffer.drop 24) ∧
      (frame.drop 0).take 4 = beBytes 4 h.magic.toNat ∧
      (frame.drop 4).take 1 = beBytes 1 h.version.toNat ∧
      (frame.drop 5).take 1 = beBytes 1 h.messageType.toNat ∧
      (frame.drop 6).take 2 = beBytes 2 h.flags.toNat ∧
      (frame.drop 8).take 4 = beBytes 4 h.metadataSize.toNat ∧
      (frame.drop 12).take 4 = beBytes 4 h.payloadSize.toNat ∧
      (frame.drop 16).take 8 = beBytes 8 h.requestId.toNat ∧
      (h.magic = FrameHeader.MAGIC → ∀ x, FrameHeader.decode e' (frame ++ x) = some h)) ∧
    ∀ s : Bytes, s.length = 24 → s.take 4 = beBytes 4 FrameHeader.MAGIC.toNat →
      ∃ h, FrameHeader.decode e' s = some h ∧ ∀ buffer, h.encodeTo e buffer = s ++ buffer.drop 24 := by
  refine ⟨fun h => ⟨h.wire, h.length_wire, h.encodeTo_eq e, ?_⟩, fun s hlen hmagic => ?_⟩
  · have hbyte : ∀ b : UInt8, beBytes 1 b.toNat = [b] := fun b => by
      rw [beBytes, leBytes, leBytes, List.reverse_singleton, Nat.mod_eq_of_lt b.toNat_lt, UInt8.ofNat_toNat]
    -- 最後の欄の後ろにも空の列を置くと、どの欄も「読み飛ばして先頭を取る」形になる。
    have hwire : h.wire = beBytes 4 h.magic.toNat ++ ([h.version] ++ ([h.messageType] ++ (beBytes 2 h.flags.toNat ++
        (beBytes 4 h.metadataSize.toNat ++ (beBytes 4 h.payloadSize.toNat ++ (beBytes 8 h.requestId.toNat ++ [])))))) := by
      simp only [FrameHeader.wire, List.append_assoc, List.append_nil]
    refine ⟨?_, ?_, ?_, ?_, ?_, ?_, ?_, fun hm => FrameHeader.decode_wire e' h hm⟩
    all_goals
      rw [hwire]
      simp (disch := simp) only [FrameHeader.slice_skip, FrameHeader.slice_head, length_beBytes,
        List.length_singleton, Nat.reduceSub, hbyte]
  · obtain ⟨h, hdecode⟩ := FrameHeader.decode_isSome (e := e') hlen.ge hmagic
    have hwire : h.wire = s := (FrameHeader.wire_of_decode hdecode).trans (List.take_of_length_le hlen.le)
    exact ⟨h, hdecode, fun buffer => (h.encodeTo_eq e buffer).trans (by rw [hwire]; rfl)⟩

theorem header_layout_round_trip_mixed :
    (∃ frame : Bytes, frame.length = 24 ∧ ∀ x,
      FrameHeader.decode .big (frame ++ x) = some ⟨FrameHeader.MAGIC, 1, 2, 0x0102, 3, 0xFFFFFFFF, 0x8102030405060708⟩) ∧
    ∃ h, FrameHeader.decode .big ([0x58, 0x52, 0x50, 0x43] ++ List.replicate 20 0xFF) = some h ∧
      ∀ buffer, h.encodeTo .little buffer = [0x58, 0x52, 0x50, 0x43] ++ List.replicate 20 0xFF ++ buffer.drop 24 := by
  obtain ⟨hencode, hdecode⟩ := header_layout_round_trip .little .big
  obtain ⟨frame, hlen, -, -, -, -, -, -, -, -, hback⟩ :=
    hencode ⟨FrameHeader.MAGIC, 1, 2, 0x0102, 3, 0xFFFFFFFF, 0x8102030405060708⟩
  exact ⟨⟨frame, hlen, hback rfl⟩, hdecode _ rfl (by decide)⟩

/-! ## 復号の安定性 -/

/-- 結論の出た復号は後続の入力で変わらず、入力の足りない復号はどの接頭辞でも足りない。消費する長さは 0 かフレームの全体であり、
フレームの終わりが定まった結果では正である。中身がちょうど一つあるのは、成功したときに限る。 -/
theorem decode_stable (p : Platform) (limits : ProtocolLimits) (b x : Bytes) :
    ((FrameCodec.decode p ⟨limits⟩ b).error ≠ .needMoreData →
      FrameCodec.decode p ⟨limits⟩ (b ++ x) = FrameCodec.decode p ⟨limits⟩ b) ∧
    ((FrameCodec.decode p ⟨limits⟩ b).error = .needMoreData →
      ∀ b', b' <+: b → (FrameCodec.decode p ⟨limits⟩ b').error = .needMoreData) ∧
    ((FrameCodec.decode p ⟨limits⟩ b).consumed = 0 ∨
      ∃ header, FrameHeader.decode p.endian (b.take FrameHeader.SIZE) = some header ∧
        (FrameCodec.decode p ⟨limits⟩ b).consumed = 24 + header.metadataSize.toNat + header.payloadSize.toNat ∧
        (FrameCodec.decode p ⟨limits⟩ b).consumed ≤ b.length) ∧
    ((FrameCodec.decode p ⟨limits⟩ b).error ∈ [.ok, .decodeError, .invalidMessageType] →
      24 ≤ (FrameCodec.decode p ⟨limits⟩ b).consumed) ∧
    ((FrameCodec.decode p ⟨limits⟩ b).error = .ok ↔
      Xor ((FrameCodec.decode p ⟨limits⟩ b).request.isSome = true)
        ((FrameCodec.decode p ⟨limits⟩ b).response.isSome = true)) ∧
    ((FrameCodec.decode p ⟨limits⟩ b).error ≠ .ok →
      (FrameCodec.decode p ⟨limits⟩ b).request = none ∧ (FrameCodec.decode p ⟨limits⟩ b).response = none) := by
  refine ⟨decode_append x, ?_, ?_⟩
  · rintro hmore b' ⟨y, rfl⟩
    by_contra hne
    rw [decode_append y hne] at hmore
    exact hne hmore
  · by_cases hread : (readFrame p b (FrameCodec.mk limits).limits).error = .ok
    · obtain ⟨header, hat⟩ := frameAt_of_readFrame hread
      obtain ⟨hconsumed, henvelope⟩ := hat.decode_cases
      have hle := hat.total_le
      simp only [FrameHeader.SIZE] at hconsumed hle
      refine ⟨Or.inr ⟨header, hat.header_eq, hconsumed, hconsumed ▸ hle⟩, fun _ => by omega, ?_⟩
      rcases henvelope with ⟨hok, ⟨r, hreq, hresp⟩ | ⟨r, hreq, hresp⟩⟩ | ⟨herr | herr, hreq, hresp⟩
      · simp [hok, hreq, hresp]
      · simp [hok, hreq, hresp]
      · simp [herr, hreq, hresp]
      · simp [herr, hreq, hresp]
    · rw [decode_of_readFrame_ne_ok hread]
      refine ⟨Or.inl rfl, fun hmem => ?_, by simpa using hread, fun _ => ⟨rfl, rfl⟩⟩
      have hreason := (readFrame_of_ne_ok hread).1
      simp only [List.mem_cons, List.not_mem_nil, or_false] at hmem hreason
      rcases hreason with h | h | h | h <;> simp [h] at hmem

/-! ## 符号化と復号の往復 -/

/-- 符号化に成功したフレームを同じ上限で復号できるのは、要求では、二つの名前がどちらも UTF-8 で `maxFieldSize` バイトに収まるときに
限る。応答では、文言が UTF-8 で `maxFieldSize` バイトに収まるか、メタデータが `int` に収まらず直列化されなかったときに限る。 -/
theorem decode_accepts_iff (p : Platform) (hpb : p.protobuf.Lawful) (limits : ProtocolLimits) :
    (∀ (request : RequestEnvelope) (frame : Bytes), FrameCodec.encodeRequest p ⟨limits⟩ request = .ok frame →
      ((FrameCodec.decode p ⟨limits⟩ frame).error = .ok ↔
        (validUtf8 request.serviceName ∧ request.serviceName.length ≤ maxFieldSize) ∧
          validUtf8 request.methodName ∧ request.methodName.length ≤ maxFieldSize)) ∧
    (∀ (response : ResponseEnvelope) (frame : Bytes), FrameCodec.encodeResponse p ⟨limits⟩ response = .ok frame →
      ((FrameCodec.decode p ⟨limits⟩ frame).error = .ok ↔
        validUtf8 response.status.message ∧ response.status.message.length ≤ maxFieldSize ∨
          intMax < response.metadata.byteSize)) := by
  have hreadable : ∀ b : Bytes, readableString b = true ↔ validUtf8 b = true ∧ b.length ≤ maxFieldSize := by
    intro b
    rw [readableString, Bool.and_eq_true, decide_eq_true_eq, and_comm]
  constructor
  · intro request frame h
    have hdecode := decode_encodeRequest_of_lawful hpb [] h
    rw [List.append_nil] at hdecode
    rw [hdecode, ← hreadable, ← hreadable]
    simp only [RequestMetadata.readable, Bool.and_eq_true]
    split_ifs with hread <;> simp [hread]
  · intro response frame h
    have hdecode := decode_encodeResponse_of_lawful hpb [] h
    rw [List.append_nil] at hdecode
    rw [hdecode, ← hreadable]
    simp only [ResponseMetadata.readable, ResponseEnvelope.metadata, or_comm]
    split_ifs with hread <;> simp [hread]

theorem decode_accepts_iff_internal :
    ∃ frame, FrameCodec.encodeResponse ⟨.little, proto3⟩ ⟨{}⟩ ⟨1, ⟨.internal, text "a"⟩, []⟩ = .ok frame ∧
      (FrameCodec.decode ⟨.little, proto3⟩ ⟨{}⟩ frame).error = .ok :=
  ⟨_, rfl, ((decode_accepts_iff ⟨.little, proto3⟩ proto3_lawful {}).2 ⟨1, ⟨.internal, text "a"⟩, []⟩ _ rfl).mpr
    (.inl (by decide))⟩

/-- 文言が UTF-8 でない応答は、符号化には成功し、できたフレームは復号で退けられる。 -/
theorem encodeResponse_undecodable :
    ∃ frame, FrameCodec.encodeResponse ⟨.little, proto3⟩ ⟨{}⟩ ⟨1, ⟨.internal, [0xFF]⟩, []⟩ = .ok frame ∧
      (FrameCodec.decode ⟨.little, proto3⟩ ⟨{}⟩ frame).error = .decodeError :=
  ⟨_, rfl, by decide⟩

end Xrpc.Protocol
