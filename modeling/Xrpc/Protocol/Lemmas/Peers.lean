import Xrpc.Protocol.Lemmas.Stream

/-!
# 相手が符号化したフレームの復号

符号化する側と復号する側では、長さの上限もホストのバイト順も違いうる。直列化の実装は同じであるとする。
-/

namespace Xrpc.Protocol
open Xrpc.Lib

variable {p p' : Platform} {limits limits' : ProtocolLimits} {frame : Bytes}

/-- 組み立てたフレームは、相手の上限に収まれば相手が組み立てるものと同じであり、収まらなければ相手は復号できない。 -/
theorem buildFrame_peer {messageType : MessageType} {requestId : UInt64} {metadataBytes payload : Bytes}
    (h : buildFrame p (frameHeader messageType requestId metadataBytes payload) metadataBytes payload limits = .ok frame)
    (p' : Platform) (limits' : ProtocolLimits) {μ : Type} (select : FrameDecodeResult → Option μ) (x : Bytes) :
    buildFrame p' (frameHeader messageType requestId metadataBytes payload) metadataBytes payload limits' = .ok frame ∨
      (frameDecoder p' limits' select).decode (frame ++ x) = .fail := by
  set header := frameHeader messageType requestId metadataBytes payload with hheader
  rw [buildFrame_eq] at h ⊢
  split at h
  next hsize =>
    obtain ⟨⟨hm32, -⟩, hp32, -⟩ := (validateEncodedFrameSize_isOk _ _ _).mp hsize
    cases h
    by_cases hpeer : (validateEncodedFrameSize metadataBytes.length payload.length limits').isOk
    · exact .inl (if_pos hpeer)
    · right
      have hmsize : header.metadataSize.toNat = metadataBytes.length := by
        simp only [hheader, frameHeader, UInt32.toNat_ofNat']
        exact Nat.mod_eq_of_lt (by simp only [uint32Max] at hm32; omega)
      have hpsize : header.payloadSize.toNat = payload.length := by
        simp only [hheader, frameHeader, UInt32.toNat_ofNat']
        exact Nat.mod_eq_of_lt (by simp only [uint32Max] at hp32; omega)
      have hdecode : FrameHeader.decode p'.endian
          ((header.wire ++ metadataBytes ++ payload ++ x).take FrameHeader.SIZE) = some header := by
        have := FrameHeader.decode_wire (e := p'.endian) (h := header) rfl []
        simpa [List.append_assoc] using this
      refine frameDecoder_fail_of_oversize hdecode ?_
      rw [validateEncodedFrameSize_isOk] at hpeer
      omega
  next => cases h

/-- 要求のフレームは、相手でも同じ要求になるか、復号できない。 -/
theorem requestDecoder_peer (hpb : p.protobuf.Lawful) (hsame : p'.protobuf = p.protobuf) {request : RequestEnvelope}
    (h : FrameCodec.encodeRequest p ⟨limits⟩ request = .ok frame) (limits' : ProtocolLimits) (x : Bytes) :
    (requestDecoder p' limits').decode (frame ++ x) = .frame frame.length request ∨
      (requestDecoder p' limits').decode (frame ++ x) = .fail := by
  obtain ⟨m, hser⟩ := serializeRequest_of_encodeRequest h
  have hser' : p'.protobuf.serializeRequest ⟨request.serviceName, request.methodName⟩ = some m := hsame ▸ hser
  rcases buildFrame_peer (encodeRequest_eq ⟨limits⟩ hser ▸ h) p' limits' (·.request) x with hbuilt | hfail
  · have hencode : FrameCodec.encodeRequest p' ⟨limits'⟩ request = .ok frame := (encodeRequest_eq ⟨limits'⟩ hser').trans hbuilt
    have hdecode := decode_encodeRequest_of_lawful (hsame ▸ hpb) x hencode
    split at hdecode
    next => exact .inl (decodeStep_request.mpr hdecode)
    next =>
      right
      simp [requestDecoder, frameDecoder, decodeStep, hdecode]
  · exact .inr hfail

/-- 応答のフレームは、相手でも `received` の応答になるか、復号できない。 -/
theorem responseDecoder_peer (hpb : p.protobuf.Lawful) (hsame : p'.protobuf = p.protobuf) {response : ResponseEnvelope}
    (h : FrameCodec.encodeResponse p ⟨limits⟩ response = .ok frame) (limits' : ProtocolLimits) (x : Bytes) :
    (frameDecoder p' limits' (·.response)).decode (frame ++ x) = .frame frame.length response.received ∨
      (frameDecoder p' limits' (·.response)).decode (frame ++ x) = .fail := by
  have hmetadata : encodeResponseMetadata p' response = encodeResponseMetadata p response := by
    simp only [encodeResponseMetadata, hsame]
  rw [encodeResponse_eq] at h
  rcases buildFrame_peer h p' limits' (·.response) x with hbuilt | hfail
  · have hencode : FrameCodec.encodeResponse p' ⟨limits'⟩ response = .ok frame := by
      rw [encodeResponse_eq, hmetadata]
      exact hbuilt
    have hdecode := decode_encodeResponse_of_lawful (hsame ▸ hpb) x hencode
    split at hdecode
    next =>
      refine .inl (decodeStep_frame.mpr ?_)
      rw [hdecode]
      exact ⟨rfl, rfl, rfl⟩
    next =>
      right
      simp [frameDecoder, decodeStep, hdecode]
  · exact .inr hfail

end Xrpc.Protocol
