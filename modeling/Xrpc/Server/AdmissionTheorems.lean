import Xrpc.Server.ConnectionTheorems
import Xrpc.Server.Lemmas.Admission
import Xrpc.Server.Theorems

/-!
# 要求の受け付けの定理
-/

namespace Xrpc.Server
open Xrpc.Lib Xrpc.Protocol WorkerPool

/-! ## 本体の長さ -/

/-- 受け付けた要求の本体の長さは、`int` の上限までのときに限り、そのまま `ParseFromArray` に渡る。本体の上限を `int` の上限までに
設定すれば、どの要求でもそうなる。 -/
theorem payload_length_reaches_protobuf (p : Platform) {maxPayloadSize : Nat} {limits : ProtocolLimits}
    (hlimits : makeProtocolLimits maxPayloadSize = .ok limits) {b : Bytes} {request : RequestEnvelope}
    (hdecode : (FrameCodec.decode p ⟨limits⟩ b).request = some request) :
    ((parseLength request.payload).toInt = request.payload.length ↔ request.payload.length ≤ intMax) ∧
      (maxPayloadSize ≤ intMax → (parseLength request.payload).toInt = request.payload.length) := by
  obtain ⟨⟨-, hfits⟩, rfl⟩ := makeProtocolLimits_eq_ok.mp hlimits
  have hle : request.payload.length ≤ maxPayloadSize := decode_request_payload_le hdecode
  have hiff := parseLength_toInt (hle.trans hfits)
  exact ⟨hiff, fun hint => hiff.mpr (hle.trans hint)⟩

theorem payload_length_reaches_protobuf_one :
    ∃ limits b request, makeProtocolLimits 1 = .ok limits ∧
      (FrameCodec.decode ⟨.little, proto3⟩ ⟨limits⟩ b).request = some request ∧
      request.payload = [7] ∧ (parseLength request.payload).toInt = request.payload.length := by
  have hlimits : makeProtocolLimits 1 = .ok { maxPayloadSize := 1 } := rfl
  have hdecode : (FrameCodec.decode ⟨.little, proto3⟩ ⟨{ maxPayloadSize := 1 }⟩
      ((frameHeader .request 1 [] [7]).wire ++ [7])).request = some ⟨1, [], [], [7]⟩ := by decide
  exact ⟨_, _, _, hlimits, hdecode, rfl, (payload_length_reaches_protobuf _ hlimits hdecode).2 (by decide)⟩

/-- 本体の上限を 2^31 にすると、2^31 バイトの本体を持つ要求は受け付けられ、`ParseFromArray` には負の長さが渡る。 -/
theorem payload_length_becomes_negative :
    ∃ limits b request, makeProtocolLimits (2 ^ 31) = .ok limits ∧
      (FrameCodec.decode ⟨.little, proto3⟩ ⟨limits⟩ b).error = .ok ∧
      (FrameCodec.decode ⟨.little, proto3⟩ ⟨limits⟩ b).request = some request ∧
      request.payload.length = 2 ^ 31 ∧ (parseLength request.payload).toInt = -2 ^ 31 := by
  -- 本体は長さだけを使い、中身は展開しない。
  obtain ⟨payload, hlength⟩ : ∃ payload : Bytes, payload.length = 2 ^ 31 := ⟨List.replicate (2 ^ 31) 0, List.length_replicate⟩
  have hser : proto3.serializeRequest ⟨[], []⟩ = some [] := rfl
  cases hencode : FrameCodec.encodeRequest ⟨.little, proto3⟩ ⟨{ maxPayloadSize := 2 ^ 31 }⟩ ⟨1, [], [], payload⟩ with
  | error status =>
      rw [encodeRequest_eq _ hser] at hencode
      have hover := (buildFrame_error _).mp ⟨status, hencode⟩
      simp [exceedsLimit, hlength, uint32Max] at hover
  | ok frame =>
      have hdecode := decode_encodeRequest [] hser hencode
      refine ⟨_, frame ++ [], ⟨1, [], [], payload⟩, rfl, by rw [hdecode]; rfl, by rw [hdecode]; rfl, hlength, ?_⟩
      rw [parseLength, hlength]
      rfl

/-! ## 読み取った要求のまとまり -/

variable {ι ω κ : Type} [DecidableEq ι] [DecidableEq ω] [DecidableEq κ] {poolConfig : Config ι ω} {i : ι}
  {acts : List (Act ι ω κ)} {pool : State ι ω κ} {cfg : ServerConnectionConfig} {c : ServerConnection}
  {feed : FrameStreamFeedResult} {answer : SubmitAnswer}

end Xrpc.Server
