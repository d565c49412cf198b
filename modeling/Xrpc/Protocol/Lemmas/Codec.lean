import Xrpc.Protocol.Lemmas.Header
import Xrpc.Protocol.Metadata

/-!
# フレームの復号の安定性と、符号化したフレームの配置
-/

namespace Xrpc.Protocol
open Xrpc.Lib

variable {p : Platform} {limits : ProtocolLimits}

/-! ## `readFrame` -/

/-- 結論の出た読み取りは、後ろに入力を足しても変わらない。 -/
theorem readFrame_append {b : Bytes} (x : Bytes) (h : (readFrame p b limits).error ≠ .needMoreData) :
    readFrame p (b ++ x) limits = readFrame p b limits := by
  have hlen : FrameHeader.SIZE ≤ b.length := by
    by_contra hlt
    exact h (by simp [readFrame, Nat.lt_of_not_le hlt])
  have htake : (b ++ x).take FrameHeader.SIZE = b.take FrameHeader.SIZE := List.take_append_of_le_length hlen
  have hlen' : ¬ (b ++ x).length < FrameHeader.SIZE := by rw [List.length_append]; omega
  simp only [readFrame, hlen', Nat.not_lt.mpr hlen, ↓reduceIte, htake] at h ⊢
  cases hd : FrameHeader.decode p.endian (b.take FrameHeader.SIZE) with
  | none => rfl
  | some header =>
      simp only [hd] at h ⊢
      split_ifs at h ⊢ with hversion hlarge hfull hshort hshort
      · rfl
      · rfl
      · rfl
      · rw [List.length_append] at hfull; omega
      · exact absurd rfl h
      · rw [List.drop_append_of_le_length (by omega), List.take_append_of_le_length (by simp; omega),
          List.drop_append_of_le_length (by omega), List.take_append_of_le_length (by simp; omega)]

/-- 完全で上限に収まる、版の合うフレームが `b` の先頭にあり、その先頭部が `header` である。 -/
structure FrameAt (p : Platform) (limits : ProtocolLimits) (b : Bytes) (header : FrameHeader) : Prop where
  header_eq : FrameHeader.decode p.endian (b.take FrameHeader.SIZE) = some header
  version_eq : header.version = FrameHeader.VERSION
  metadata_le : header.metadataSize.toNat ≤ limits.maxMetadataSize
  payload_le : header.payloadSize.toNat ≤ limits.maxPayloadSize
  total_le : FrameHeader.SIZE + header.metadataSize.toNat + header.payloadSize.toNat ≤ b.length

/-- 二つの 32 ビットの長さの和は、64 ビットの上限を超えない。 -/
theorem frameSize_le (m n : Nat) : frameSize m n ≤ sizeMax := by
  have := Nat.mod_lt (FrameHeader.SIZE + m + n) (show 0 < 2 ^ 64 by decide)
  simp only [frameSize, sizeMax]
  omega

theorem FrameAt.readFrame_eq {b : Bytes} {header : FrameHeader} (h : FrameAt p limits b header) :
    readFrame p b limits = {
      error := .ok
      consumed := FrameHeader.SIZE + header.metadataSize.toNat + header.payloadSize.toNat
      header := header
      metadataBytes := (b.drop FrameHeader.SIZE).take header.metadataSize.toNat
      payload := (b.drop (FrameHeader.SIZE + header.metadataSize.toNat)).take header.payloadSize.toNat } := by
  have hlen : ¬ b.length < FrameHeader.SIZE := by have := h.total_le; omega
  have hsize := frameSize_le header.metadataSize.toNat header.payloadSize.toNat
  simp only [readFrame, hlen, ↓reduceIte, h.header_eq, h.version_eq, ne_eq, not_true_eq_false,
    Nat.not_lt.mpr h.metadata_le, Nat.not_lt.mpr h.payload_le, Nat.not_lt.mpr hsize, Nat.not_lt.mpr h.total_le,
    decide_false, Bool.or_self, Bool.false_eq_true]

theorem frameAt_of_readFrame {b : Bytes} (h : (readFrame p b limits).error = .ok) :
    ∃ header, FrameAt p limits b header := by
  simp only [readFrame] at h
  split_ifs at h with hlen
  cases hd : FrameHeader.decode p.endian (b.take FrameHeader.SIZE) with
  | none => simp [hd] at h
  | some header =>
      simp only [hd] at h
      split_ifs at h with hversion hlarge hshort
      simp only [Bool.or_eq_true, decide_eq_true_eq, not_or] at hlarge
      exact ⟨header, hd, not_not.mp hversion, by omega, by omega, by omega⟩

/-- 先頭のフレームは、その長さだけの入力でも同じフレームである。 -/
theorem FrameAt.take {b : Bytes} {header : FrameHeader} (h : FrameAt p limits b header) :
    FrameAt p limits (b.take (FrameHeader.SIZE + header.metadataSize.toNat + header.payloadSize.toNat)) header where
  header_eq := by
    rw [List.take_take, Nat.min_eq_left (by omega)]
    exact h.header_eq
  version_eq := h.version_eq
  metadata_le := h.metadata_le
  payload_le := h.payload_le
  total_le := by rw [List.length_take, Nat.min_eq_left h.total_le]

/-- 種別のバイトのほかが一致する先頭部は、種別のほかが一致する。 -/
theorem FrameHeader.decode_congr {e : Endian} {b b' : Bytes} (hlen : b.length = b'.length)
    (h : ∀ i, i ≠ 5 → b[i]? = b'[i]?) :
    (decode e b = none ∧ decode e b' = none) ∨
      ∃ header header', decode e b = some header ∧ decode e b' = some header' ∧
        header' = { header with messageType := header'.messageType } := by
  have hload : ∀ off n, (off + n ≤ 5 ∨ 5 < off) → load e b off n = load e b' off n := by
    intro off n hoff
    have hsame : (b.drop off).take n = (b'.drop off).take n := by
      apply List.ext_getElem?
      intro i
      rw [List.getElem?_take, List.getElem?_take]
      split_ifs with hi
      · rw [List.getElem?_drop, List.getElem?_drop]
        exact h _ (by omega)
      · rfl
    rw [load, hsame, load]
  simp only [decode, ← hlen, ← hload 0 4 (by omega), ← hload 4 1 (by omega), ← hload 6 2 (by omega),
    ← hload 8 4 (by omega), ← hload 12 4 (by omega), ← hload 16 8 (by omega)]
  split_ifs with hshort hmagic
  · exact Or.inl ⟨rfl, rfl⟩
  · exact Or.inl ⟨rfl, rfl⟩
  · exact Or.inr ⟨_, _, rfl, rfl, rfl⟩

/-- フレームの長さは、入力の長さと、種別のほかの先頭部だけで決まる。 -/
theorem readFrame_congr (p : Platform) (limits : ProtocolLimits) {b b' : Bytes} (hlen : b.length = b'.length)
    (h : ∀ i < FrameHeader.SIZE, i ≠ 5 → b[i]? = b'[i]?) :
    (readFrame p b limits).error = (readFrame p b' limits).error ∧
      (readFrame p b limits).consumed = (readFrame p b' limits).consumed := by
  have htake : ∀ i, i ≠ 5 → (b.take FrameHeader.SIZE)[i]? = (b'.take FrameHeader.SIZE)[i]? := by
    intro i hi
    rw [List.getElem?_take, List.getElem?_take]
    split_ifs with hlt
    · exact h i hlt hi
    · rfl
  have hlen' : (b.take FrameHeader.SIZE).length = (b'.take FrameHeader.SIZE).length := by
    rw [List.length_take, List.length_take, hlen]
  simp only [readFrame, ← hlen]
  rcases FrameHeader.decode_congr (e := p.endian) hlen' htake with ⟨hnone, hnone'⟩ | ⟨header, header', hd, hd', heq⟩
  · rw [hnone, hnone']
    split_ifs <;> exact ⟨rfl, rfl⟩
  · rw [hd, hd', heq]
    dsimp only
    split_ifs <;> exact ⟨rfl, rfl⟩

/-- 入力が足りないのは、上限に収まる一つのフレームの途中に限る。 -/
theorem length_lt_of_needMoreData {b : Bytes} (h : (readFrame p b limits).error = .needMoreData) :
    b.length < FrameHeader.SIZE + limits.maxMetadataSize + limits.maxPayloadSize := by
  simp only [readFrame] at h
  split_ifs at h with hlen
  · omega
  · cases hd : FrameHeader.decode p.endian (b.take FrameHeader.SIZE) with
    | none => simp [hd] at h
    | some header =>
        simp only [hd] at h
        split_ifs at h with hversion hlarge hshort
        simp only [gt_iff_lt, Bool.or_eq_true, decide_eq_true_eq, not_or, not_lt] at hlarge
        omega

/-- 宣言した長さが上限を超えるフレームは、先頭部が届いた時点で退けられる。 -/
theorem readFrame_of_oversize {b : Bytes} {header : FrameHeader}
    (hheader : FrameHeader.decode p.endian (b.take FrameHeader.SIZE) = some header)
    (hover : limits.maxMetadataSize < header.metadataSize.toNat ∨ limits.maxPayloadSize < header.payloadSize.toNat) :
    (readFrame p b limits).error = .unsupportedVersion ∨ (readFrame p b limits).error = .frameTooLarge := by
  have hlen : ¬ b.length < FrameHeader.SIZE := by
    intro hshort
    simp [FrameHeader.decode, Nat.min_eq_right hshort.le, hshort] at hheader
  simp only [readFrame, hlen, ↓reduceIte, hheader]
  split_ifs with hversion hlarge hshort
  · exact Or.inl rfl
  · exact Or.inr rfl
  all_goals
    simp only [gt_iff_lt, Bool.or_eq_true, decide_eq_true_eq, not_or, not_lt] at hlarge
    omega

/-! ## `FrameCodec.decode` -/

variable {codec : FrameCodec}

/-- 入力が足りないという結果は、読み取りの段階だけから生じる。 -/
theorem decode_needMoreData {b : Bytes} :
    (codec.decode p b).error = .needMoreData ↔ (readFrame p b codec.limits).error = .needMoreData := by
  constructor
  · intro h
    simp only [FrameCodec.decode] at h
    split_ifs at h with herr hreq hresp
    · exact h
    · split at h <;> simp at h
    · split at h <;> simp at h
  · intro h
    simp [FrameCodec.decode, h]

/-- 結論の出た復号は、後ろに入力を足しても変わらない。 -/
theorem decode_append {b : Bytes} (x : Bytes) (h : (codec.decode p b).error ≠ .needMoreData) :
    codec.decode p (b ++ x) = codec.decode p b := by
  simp only [FrameCodec.decode, readFrame_append x (fun hr => h (decode_needMoreData.mpr hr))]

/-- フレームを読めない理由は四つであり、どれも何も消費しない。 -/
theorem readFrame_of_ne_ok {b : Bytes} (h : (readFrame p b limits).error ≠ .ok) :
    (readFrame p b limits).error ∈
        [ProtocolError.needMoreData, .invalidMagic, .unsupportedVersion, .frameTooLarge] ∧
      (readFrame p b limits).consumed = 0 := by
  simp only [readFrame] at h ⊢
  split_ifs at h ⊢ with hlen
  · simp
  · cases hd : FrameHeader.decode p.endian (b.take FrameHeader.SIZE) with
    | none => simp
    | some header =>
        simp only [hd] at h ⊢
        split_ifs at h ⊢ with hversion hlarge hshort
        · simp
        · simp
        · simp
        · exact absurd rfl h

/-- フレームを読めなかった復号は、その理由だけを返す。 -/
theorem decode_of_readFrame_ne_ok {b : Bytes} (h : (readFrame p b codec.limits).error ≠ .ok) :
    codec.decode p b = { error := (readFrame p b codec.limits).error } := by
  simp only [FrameCodec.decode, ne_eq, h, not_false_eq_true, ↓reduceIte, (readFrame_of_ne_ok h).2]

/-- 先頭にフレームがあれば、復号の成否にかかわらず、消費する長さはその全体である。 -/
theorem FrameAt.decode_cases {b : Bytes} {header : FrameHeader} (h : FrameAt p codec.limits b header) :
    (codec.decode p b).consumed = FrameHeader.SIZE + header.metadataSize.toNat + header.payloadSize.toNat ∧
      ((codec.decode p b).error = .ok ∧
          ((∃ r, (codec.decode p b).request = some r ∧ (codec.decode p b).response = none) ∨
            (∃ r, (codec.decode p b).request = none ∧ (codec.decode p b).response = some r)) ∨
        ((codec.decode p b).error = .decodeError ∨ (codec.decode p b).error = .invalidMessageType) ∧
          (codec.decode p b).request = none ∧ (codec.decode p b).response = none) := by
  simp only [FrameCodec.decode, h.readFrame_eq, ne_eq, not_true_eq_false, ↓reduceIte]
  split_ifs with hreq hresp
  · split
    · exact ⟨rfl, Or.inr ⟨Or.inl rfl, rfl, rfl⟩⟩
    · exact ⟨rfl, Or.inl ⟨rfl, Or.inl ⟨_, rfl, rfl⟩⟩⟩
  · split
    · exact ⟨rfl, Or.inr ⟨Or.inl rfl, rfl, rfl⟩⟩
    · exact ⟨rfl, Or.inl ⟨rfl, Or.inr ⟨_, rfl, rfl⟩⟩⟩
  · exact ⟨rfl, Or.inr ⟨Or.inr rfl, rfl, rfl⟩⟩

/-- 復号に成功したときの形。フレームが先頭にあり、消費する長さはその全体で、中身はちょうど一つである。 -/
theorem decode_ok {b : Bytes} (h : (codec.decode p b).error = .ok) :
    ∃ header, FrameAt p codec.limits b header ∧
      (codec.decode p b).consumed = FrameHeader.SIZE + header.metadataSize.toNat + header.payloadSize.toNat ∧
      ((∃ r, (codec.decode p b).request = some r ∧ (codec.decode p b).response = none) ∨
        (∃ r, (codec.decode p b).request = none ∧ (codec.decode p b).response = some r)) := by
  have hread : (readFrame p b codec.limits).error = .ok := by
    by_contra hne
    rw [decode_of_readFrame_ne_ok hne] at h
    exact hne h
  obtain ⟨header, hat⟩ := frameAt_of_readFrame hread
  obtain ⟨hconsumed, ⟨-, henvelope⟩ | ⟨herr | herr, -⟩⟩ := hat.decode_cases
  · exact ⟨header, hat, hconsumed, henvelope⟩
  · rw [h] at herr; cases herr
  · rw [h] at herr; cases herr

theorem decode_consumed {b : Bytes} (h : (codec.decode p b).error = .ok) :
    (codec.decode p b).consumed = (readFrame p b codec.limits).consumed := by
  obtain ⟨header, hat, hconsumed, -⟩ := decode_ok h
  rw [hconsumed, hat.readFrame_eq]

/-- 復号した応答の中身は、フレームの先頭部、メタデータ、本体で決まる。 -/
theorem decode_response {b : Bytes} {response : ResponseEnvelope} (h : (codec.decode p b).response = some response) :
    ∃ metadata, p.protobuf.parseResponse (readFrame p b codec.limits).metadataBytes = some metadata ∧
      response = ⟨(readFrame p b codec.limits).header.requestId, decodeStatus metadata.errorCode metadata.errorText,
        (readFrame p b codec.limits).payload⟩ := by
  simp only [FrameCodec.decode] at h
  split_ifs at h with herr hreq hresp
  · split at h <;> cases h
  · simp only [decodeResponseEnvelope] at h
    split_ifs at h
    cases hparse : p.protobuf.parseResponse (readFrame p b codec.limits).metadataBytes with
    | none => simp [hparse] at h
    | some metadata => exact ⟨metadata, rfl, by simpa [hparse] using h.symm⟩

/-- 復号した要求の本体は、上限を超えない。 -/
theorem decode_request_payload_le {b : Bytes} {request : RequestEnvelope}
    (h : (codec.decode p b).request = some request) : request.payload.length ≤ codec.limits.maxPayloadSize := by
  simp only [FrameCodec.decode] at h
  split_ifs at h with herr hreq hresp
  · obtain ⟨header, hat⟩ := frameAt_of_readFrame (not_not.mp herr)
    have hpayload : request.payload = (readFrame p b codec.limits).payload := by
      simp only [decodeRequestEnvelope] at h
      split_ifs at h
      cases hparse : p.protobuf.parseRequest (readFrame p b codec.limits).metadataBytes with
      | none => simp [hparse] at h
      | some metadata =>
          simp only [hparse, Option.some.injEq] at h
          rw [← h]
    rw [hpayload, hat.readFrame_eq]
    exact (List.length_take_le _ _).trans hat.payload_le
  · split at h <;> cases h

theorem FrameAt.decode_take {b : Bytes} {header : FrameHeader} (h : FrameAt p codec.limits b header) :
    codec.decode p (b.take (FrameHeader.SIZE + header.metadataSize.toNat + header.payloadSize.toNat)) =
      codec.decode p b := by
  set n := FrameHeader.SIZE + header.metadataSize.toNat + header.payloadSize.toNat
  have hne : (codec.decode p (b.take n)).error ≠ .needMoreData := by
    intro hmore
    rw [decode_needMoreData, h.take.readFrame_eq] at hmore
    simp at hmore
  have := decode_append (b.drop n) hne
  rwa [List.take_append_drop, eq_comm] at this

/-! ## `buildFrame` -/

theorem buildFrame_eq (header : FrameHeader) (metadataBytes payload : Bytes) :
    buildFrame p header metadataBytes payload limits =
      if (validateEncodedFrameSize metadataBytes.length payload.length limits).isOk then
        .ok (header.wire ++ metadataBytes ++ payload)
      else .error (validateEncodedFrameSize metadataBytes.length payload.length limits) := by
  have hskip : ∀ (buf src : Bytes) (off : Nat), (if src.isEmpty then buf else writeAt buf off src) = writeAt buf off src := by
    intro buf src off
    cases src <;> simp [writeAt]
  simp only [buildFrame, hskip, FrameHeader.encodeTo_eq]
  rw [writeAt_append (by simp), writeAt_append (by simp)]
  cases (validateEncodedFrameSize metadataBytes.length payload.length limits).isOk with
  | false => rfl
  | true => simp; omega

/-- 符号化に失敗するのは、メタデータか本体が上限を超えるときに限る。 -/
theorem validateEncodedFrameSize_isOk (limits : ProtocolLimits) (m n : Nat) :
    (validateEncodedFrameSize m n limits).isOk = true ↔
      (m ≤ uint32Max ∧ m ≤ limits.maxMetadataSize) ∧ (n ≤ uint32Max ∧ n ≤ limits.maxPayloadSize) := by
  have hsize := Nat.not_lt.mpr (frameSize_le m n)
  simp only [validateEncodedFrameSize, gt_iff_lt, hsize, ↓reduceIte, Bool.or_eq_true, decide_eq_true_eq]
  split_ifs <;> simp [Status.isOk] <;> omega

/-- 符号化で組み立てるフレームの先頭部。 -/
def frameHeader (messageType : MessageType) (requestId : UInt64) (metadataBytes payload : Bytes) : FrameHeader where
  magic := FrameHeader.MAGIC
  version := FrameHeader.VERSION
  messageType := messageType
  flags := 0
  metadataSize := UInt32.ofNat metadataBytes.length
  payloadSize := UInt32.ofNat payload.length
  requestId := requestId

section Built

variable {messageType : MessageType} {requestId : UInt64} {metadataBytes payload : Bytes}

/-- 長さが上限を超えているか。 -/
def exceedsLimit (size limit : Nat) : Prop := uint32Max < size ∨ limit < size

theorem buildFrame_error (header : FrameHeader) :
    (∃ status, buildFrame p header metadataBytes payload limits = .error status) ↔
      exceedsLimit metadataBytes.length limits.maxMetadataSize ∨ exceedsLimit payload.length limits.maxPayloadSize := by
  have hok := validateEncodedFrameSize_isOk limits metadataBytes.length payload.length
  rw [buildFrame_eq]
  simp only [exceedsLimit]
  split
  next h =>
    rw [hok] at h
    simp only [reduceCtorEq, exists_false, false_iff]
    omega
  next h =>
    rw [hok] at h
    simp only [Except.error.injEq, exists_eq', true_iff]
    omega

/-- 組み立てたフレームは、後ろに何が続いても、元のメタデータと本体として読める。 -/
theorem buildFrame_readFrame {frame : Bytes} (x : Bytes)
    (h : buildFrame p (frameHeader messageType requestId metadataBytes payload) metadataBytes payload limits = .ok frame) :
    readFrame p (frame ++ x) limits = {
      error := .ok
      consumed := frame.length
      header := frameHeader messageType requestId metadataBytes payload
      metadataBytes := metadataBytes
      payload := payload } := by
  set header := frameHeader messageType requestId metadataBytes payload with hheader
  rw [buildFrame_eq] at h
  split at h
  next hsize =>
    obtain ⟨⟨hm32, hm⟩, hp32, hp⟩ := (validateEncodedFrameSize_isOk _ _ _).mp hsize
    have hmsize : header.metadataSize.toNat = metadataBytes.length := by
      simp only [hheader, frameHeader, UInt32.toNat_ofNat']
      exact Nat.mod_eq_of_lt (by simp only [uint32Max] at hm32; omega)
    have hpsize : header.payloadSize.toNat = payload.length := by
      simp only [hheader, frameHeader, UInt32.toNat_ofNat']
      exact Nat.mod_eq_of_lt (by simp only [uint32Max] at hp32; omega)
    cases h
    have hat : FrameAt p limits (header.wire ++ metadataBytes ++ payload ++ x) header := by
      refine ⟨?_, rfl, by omega, by omega, by simp [hmsize, hpsize]; omega⟩
      have := FrameHeader.decode_wire (e := p.endian) (h := header) rfl []
      simpa [List.append_assoc] using this
    rw [hat.readFrame_eq, hmsize, hpsize]
    simp [List.append_assoc, Nat.add_assoc, ← List.drop_drop]
  next => simp at h

end Built

/-! ## 状態の符号の往復 -/

theorem decodeStatus_value (code : StatusCode) (message : Bytes) :
    decodeStatus (Int32.ofNat code.value.toNat) message = if code = .ok then {} else ⟨code, message⟩ := by
  cases code <;> rfl

/-- 場合分けの一段。選ばれた状態の符号が `k` なら、値は `k` の値である。 -/
theorem value_of_code_ite {c : Prop} [Decidable c] {s t : Status} {k : StatusCode} {value : UInt8}
    (hs : c → s.code = k → value = k.value) (ht : t.code = k → value = k.value) :
    (if c then s else t).code = k → value = k.value := by
  split
  next hc => exact hs hc
  next => exact ht

/-- 変換の後の値だけが、状態の符号を決める。 -/
theorem decodeStatus_code {code : Int32} {message : Bytes} {k : StatusCode} (hk : k ≠ .dataLoss) :
    (decodeStatus code message).code = k ↔ code.toUInt32.toUInt8 = k.value := by
  unfold decodeStatus
  generalize code.toUInt32.toUInt8 = value
  constructor
  · -- 列挙子ごとの十段を順に外す。最後は `DataLoss` になる。
    iterate 10 refine value_of_code_ite (fun hc h => h ▸ hc) ?_
    exact fun h => absurd h.symm hk
  · rintro rfl
    cases k with
    | dataLoss => exact absurd rfl hk
    | _ => rfl

/-- 符号が一バイトに収まるか、下位の一バイトが `DataLoss` 以外の列挙子の値でない。 -/
def fitsStatusCode (code : Int32) : Prop :=
  code.toUInt32.toNat < 256 ∨ ∀ k : StatusCode, k ≠ .dataLoss → code.toUInt32.toUInt8 ≠ k.value

/-- 線上の符号が列挙子の値と一致するときに限りその状態になるのは、`fitsStatusCode` の成り立つ符号に限る。 -/
theorem decodeStatus_code_iff (code : Int32) (message : Bytes) :
    (∀ k : StatusCode, k ≠ .dataLoss →
      ((decodeStatus code message).code = k ↔ code = Int32.ofNat k.value.toNat)) ↔ fitsStatusCode code := by
  have hvalue : ∀ k : StatusCode, (Int32.ofNat k.value.toNat).toUInt32.toUInt8 = k.value ∧
      (Int32.ofNat k.value.toNat).toUInt32.toNat < 256 := by
    intro k
    cases k <;> decide
  constructor
  · intro h
    by_contra hfit
    simp only [fitsStatusCode, not_or, not_forall, not_not] at hfit
    obtain ⟨hlarge, k, hk, hlow⟩ := hfit
    have hcode := (h k hk).mp ((decodeStatus_code hk).mpr hlow)
    exact hlarge (hcode ▸ (hvalue k).2)
  · intro hfit k hk
    rw [decodeStatus_code hk]
    refine ⟨fun hlow => ?_, fun hcode => hcode ▸ (hvalue k).1⟩
    rcases hfit with hsmall | hnone
    · have hnat : k.value.toNat = code.toUInt32.toNat := by
        rw [← hlow, UInt32.toNat_toUInt8, Nat.mod_eq_of_lt hsmall]
      rw [hnat]
      exact (congrArg Int32.ofUInt32 UInt32.ofNat_toNat).symm
    · exact absurd hlow (hnone k hk)

/-! ## 符号化したフレームの復号 -/

section Encoded

variable {request : RequestEnvelope} {response : ResponseEnvelope} {metadataBytes : Bytes}

theorem encodeRequest_eq (codec : FrameCodec)
    (h : p.protobuf.serializeRequest ⟨request.serviceName, request.methodName⟩ = some metadataBytes) :
    codec.encodeRequest p request =
      buildFrame p (frameHeader .request request.requestId metadataBytes request.payload) metadataBytes request.payload
        codec.limits := by
  simp only [FrameCodec.encodeRequest, buildRequestFrame, h, frameHeader]

/-- 文言のない OK を省くことは、既定のメッセージを直列化することと同じである。直列化に失敗すれば、空のままになる。 -/
theorem encodeResponseMetadata_eq (hpb : p.protobuf.Lawful) :
    encodeResponseMetadata p response = (p.protobuf.serializeResponse response.metadata).getD [] := by
  rw [encodeResponseMetadata]
  split_ifs with hdefault
  · have hempty : response.metadata = ⟨0, []⟩ := by
      simp only [ResponseEnvelope.metadata, hdefault]
      rfl
    rw [hempty, hpb.serializeResponse_default, Option.getD_some]
  · rfl

theorem encodeResponse_eq (codec : FrameCodec) :
    codec.encodeResponse p response =
      buildFrame p (frameHeader .response response.requestId (encodeResponseMetadata p response) response.payload)
        (encodeResponseMetadata p response) response.payload codec.limits := rfl

/-- 要求の符号化が成功したなら、メタデータの直列化も成功している。 -/
theorem serializeRequest_of_encodeRequest {codec : FrameCodec} {frame : Bytes}
    (h : codec.encodeRequest p request = .ok frame) :
    ∃ metadataBytes, p.protobuf.serializeRequest ⟨request.serviceName, request.methodName⟩ = some metadataBytes := by
  cases hser : p.protobuf.serializeRequest ⟨request.serviceName, request.methodName⟩ with
  | none => simp [FrameCodec.encodeRequest, buildRequestFrame, hser] at h
  | some metadataBytes => exact ⟨metadataBytes, rfl⟩

theorem decode_encodeRequest {frame : Bytes} (x : Bytes)
    (hser : p.protobuf.serializeRequest ⟨request.serviceName, request.methodName⟩ = some metadataBytes)
    (h : codec.encodeRequest p request = .ok frame) :
    codec.decode p (frame ++ x) =
      if fitsProtobufParseArray metadataBytes then
        match p.protobuf.parseRequest metadataBytes with
        | none => { error := .decodeError, consumed := frame.length }
        | some m => { error := .ok, consumed := frame.length,
                      request := some ⟨request.requestId, m.serviceName, m.methodName, request.payload⟩ }
      else { error := .decodeError, consumed := frame.length } := by
  rw [encodeRequest_eq _ hser] at h
  simp only [FrameCodec.decode, buildFrame_readFrame x h, decodeRequestEnvelope, frameHeader]
  by_cases hfit : fitsProtobufParseArray metadataBytes <;> cases p.protobuf.parseRequest metadataBytes <;> simp [hfit]

theorem decode_encodeResponse {frame : Bytes} (x : Bytes) (h : codec.encodeResponse p response = .ok frame) :
    codec.decode p (frame ++ x) =
      if fitsProtobufParseArray (encodeResponseMetadata p response) then
        match p.protobuf.parseResponse (encodeResponseMetadata p response) with
        | none => { error := .decodeError, consumed := frame.length }
        | some m => { error := .ok, consumed := frame.length,
                      response := some ⟨response.requestId, decodeStatus m.errorCode m.errorText, response.payload⟩ }
      else { error := .decodeError, consumed := frame.length } := by
  rw [encodeResponse_eq] at h
  generalize encodeResponseMetadata p response = metadataBytes at h ⊢
  simp only [FrameCodec.decode, buildFrame_readFrame x h, decodeResponseEnvelope, frameHeader]
  by_cases hfit : fitsProtobufParseArray metadataBytes <;> cases p.protobuf.parseResponse metadataBytes <;>
    simp [hfit, MessageType.request, MessageType.response]

/-! ### 直列化が仮定を満たすとき -/

/-- 直列化に成功したメタデータは、`ParseFromArray` に渡せる長さである。 -/
theorem fitsProtobufParseArray_serializeRequest (hpb : p.protobuf.Lawful) {m : RequestMetadata}
    (h : p.protobuf.serializeRequest m = some metadataBytes) : fitsProtobufParseArray metadataBytes = true := by
  have hsize := (hpb.serializeRequest_isSome m).mp (Option.isSome_of_eq_some h)
  rw [← hpb.length_serializeRequest m _ h] at hsize
  exact decide_eq_true hsize

theorem fitsProtobufParseArray_encodeResponseMetadata (hpb : p.protobuf.Lawful) :
    fitsProtobufParseArray (encodeResponseMetadata p response) = true := by
  rw [encodeResponseMetadata_eq hpb]
  cases hser : p.protobuf.serializeResponse response.metadata with
  | none => rfl
  | some metadataBytes =>
      have hsize := (hpb.serializeResponse_isSome response.metadata).mp (Option.isSome_of_eq_some hser)
      rw [← hpb.length_serializeResponse _ _ hser] at hsize
      exact decide_eq_true hsize

/-- 要求のフレームは、名前がどちらも読めるときに限り、元の要求として読める。 -/
theorem decode_encodeRequest_of_lawful (hpb : p.protobuf.Lawful) {frame : Bytes} (x : Bytes)
    (h : codec.encodeRequest p request = .ok frame) :
    codec.decode p (frame ++ x) =
      if RequestMetadata.readable ⟨request.serviceName, request.methodName⟩ then
        { error := .ok, consumed := frame.length, request := some request }
      else { error := .decodeError, consumed := frame.length } := by
  obtain ⟨m, hser⟩ := serializeRequest_of_encodeRequest h
  rw [decode_encodeRequest x hser h, if_pos (fitsProtobufParseArray_serializeRequest hpb hser),
    hpb.parseRequest_serialize _ m hser]
  cases RequestMetadata.readable ⟨request.serviceName, request.methodName⟩ <;> rfl

/-- 届いた応答。OK は文言を失い、文言が長すぎて直列化できなかった状態は OK になる。 -/
def ResponseEnvelope.received (response : ResponseEnvelope) : ResponseEnvelope :=
  { response with
    status := if response.status.code = .ok ∨ intMax < response.metadata.byteSize then {} else response.status }

/-- 応答のフレームが読めないのは、直列化できた文言が読めないときに限る。 -/
theorem decode_encodeResponse_of_lawful (hpb : p.protobuf.Lawful) {frame : Bytes} (x : Bytes)
    (h : codec.encodeResponse p response = .ok frame) :
    codec.decode p (frame ++ x) =
      if intMax < response.metadata.byteSize ∨ response.metadata.readable then
        { error := .ok, consumed := frame.length, response := some response.received }
      else { error := .decodeError, consumed := frame.length } := by
  rw [decode_encodeResponse x h, if_pos (fitsProtobufParseArray_encodeResponseMetadata hpb), encodeResponseMetadata_eq hpb,
    ResponseEnvelope.received]
  have hsome := hpb.serializeResponse_isSome response.metadata
  cases hser : p.protobuf.serializeResponse response.metadata with
  | none =>
      have hlarge : intMax < response.metadata.byteSize := by simpa [hser] using hsome
      simp only [Option.getD_none, hpb.parseResponse_nil, hlarge, true_or, or_true, ↓reduceIte]
      rfl
  | some m =>
      have hsmall : ¬ intMax < response.metadata.byteSize := by simpa [hser] using hsome
      rw [Option.getD_some, hpb.parseResponse_serialize _ m hser]
      simp only [hsmall, false_or, or_false]
      cases response.metadata.readable with
      | false => rfl
      | true =>
          simp only [↓reduceIte, ResponseEnvelope.metadata]
          rw [decodeStatus_value]

end Encoded

end Xrpc.Protocol
