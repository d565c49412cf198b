import Xrpc.Protocol.Envelope
import Xrpc.Protocol.FrameHeader

/-!
# フレームの符号化と復号

`src/protocol/frame_codec.cpp` を写す。`std::size_t` は 64 ビットである。
-/

namespace Xrpc.Protocol
open Xrpc.Lib

structure ProtocolLimits where
  maxMetadataSize : Nat := 64 * 1024
  maxPayloadSize : Nat := 4 * 1024 * 1024
  deriving DecidableEq

inductive ProtocolError where
  | ok
  | needMoreData
  | invalidMagic
  | unsupportedVersion
  | invalidMessageType
  | frameTooLarge
  | decodeError
  | encodeError
  deriving DecidableEq, Repr

/-- 復号の結果。`consumed` は、フレームの終わりが定まったときの長さで、それ以外では 0 である。 -/
structure FrameDecodeResult where
  error : ProtocolError
  consumed : Nat := 0
  request : Option RequestEnvelope := none
  response : Option ResponseEnvelope := none
  deriving DecidableEq

structure FrameView where
  error : ProtocolError
  consumed : Nat := 0
  header : FrameHeader := ⟨FrameHeader.MAGIC, FrameHeader.VERSION, .request, 0, 0, 0, 0⟩
  metadataBytes : Bytes := []
  payload : Bytes := []

def uint32Max : Nat := 2 ^ 32 - 1
def sizeMax : Nat := 2 ^ 64 - 1
def intMax : Nat := 2 ^ 31 - 1

def fitsProtobufParseArray (bytes : Bytes) : Bool := bytes.length ≤ intMax

/-- 64 ビットの和なので、あふれた分は捨てる。 -/
def frameSize (metadataSize payloadSize : Nat) : Nat := (FrameHeader.SIZE + metadataSize + payloadSize) % 2 ^ 64

def makeProtocolLimits (maxPayloadSize : Nat) : Except Status ProtocolLimits :=
  if maxPayloadSize = 0 then
    .error ⟨.invalidArgument, text "protocol max_payload_size must be greater than 0"⟩
  else if maxPayloadSize > uint32Max then
    .error ⟨.invalidArgument, text "protocol max_payload_size must fit in uint32"⟩
  else .ok { maxPayloadSize := maxPayloadSize }

theorem makeProtocolLimits_eq_ok {size : Nat} {limits : ProtocolLimits} :
    makeProtocolLimits size = .ok limits ↔ (0 < size ∧ size ≤ uint32Max) ∧ limits = { maxPayloadSize := size } := by
  unfold makeProtocolLimits
  split
  next h => simp [h]
  next h =>
    split
    next hgt => simp [Nat.not_le.mpr hgt]
    next hle => simp [Nat.pos_of_ne_zero h, Nat.not_lt.mp hle, eq_comm]

/-! ## 符号化 -/

def validateEncodedFrameSize (metadataSize payloadSize : Nat) (limits : ProtocolLimits) : Status :=
  if metadataSize > uint32Max || metadataSize > limits.maxMetadataSize then
    ⟨.resourceExhausted, text "protocol metadata exceeds configured limit"⟩
  else if payloadSize > uint32Max || payloadSize > limits.maxPayloadSize then
    ⟨.resourceExhausted, text "protocol payload exceeds configured limit"⟩
  else if frameSize metadataSize payloadSize > sizeMax then
    ⟨.resourceExhausted, text "protocol frame exceeds the addressable size"⟩
  else {}

/-- 全体を一度に確保し、各部を最終的な位置へ直接書く。 -/
def buildFrame (p : Platform) (header : FrameHeader) (metadataBytes payload : Bytes) (limits : ProtocolLimits) :
    Except Status Bytes :=
  let sizeStatus := validateEncodedFrameSize metadataBytes.length payload.length limits
  if !sizeStatus.isOk then .error sizeStatus
  else
    let totalSize := FrameHeader.SIZE + metadataBytes.length + payload.length
    let result := List.replicate totalSize 0
    let result := header.encodeTo p.endian result
    let write := FrameHeader.SIZE
    let result := if metadataBytes.isEmpty then result else writeAt result write metadataBytes
    let write := write + metadataBytes.length
    let result := if payload.isEmpty then result else writeAt result write payload
    .ok result

def buildRequestFrame (p : Platform) (request : RequestEnvelope) (limits : ProtocolLimits) : Except Status Bytes :=
  match p.protobuf.serializeRequest ⟨request.serviceName, request.methodName⟩ with
  | none => .error ⟨.internal, text "failed to encode request metadata"⟩
  | some metadataBytes =>
      let header : FrameHeader := {
        magic := FrameHeader.MAGIC
        version := FrameHeader.VERSION
        messageType := .request
        flags := 0
        metadataSize := UInt32.ofNat metadataBytes.length
        payloadSize := UInt32.ofNat request.payload.length
        requestId := request.requestId }
      buildFrame p header metadataBytes request.payload limits

def ResponseEnvelope.metadata (response : ResponseEnvelope) : ResponseMetadata :=
  ⟨Int32.ofNat response.status.code.value.toNat, response.status.message⟩

/-- 既定のメッセージは、文言のない OK を表すので省く。直列化の成否は確かめず、失敗すれば空のままである。 -/
def encodeResponseMetadata (p : Platform) (response : ResponseEnvelope) : Bytes :=
  if response.status.code = .ok ∧ response.status.message = [] then []
  else (p.protobuf.serializeResponse response.metadata).getD []

def buildResponseFrame (p : Platform) (response : ResponseEnvelope) (limits : ProtocolLimits) : Except Status Bytes :=
  let metadataBytes := encodeResponseMetadata p response
  let header : FrameHeader := {
    magic := FrameHeader.MAGIC
    version := FrameHeader.VERSION
    messageType := .response
    flags := 0
    metadataSize := UInt32.ofNat metadataBytes.length
    payloadSize := UInt32.ofNat response.payload.length
    requestId := response.requestId }
  buildFrame p header metadataBytes response.payload limits

/-! ## 復号 -/

def decodeRequestEnvelope (p : Platform) (header : FrameHeader) (metadataBytes payload : Bytes) :
    Option RequestEnvelope :=
  if !fitsProtobufParseArray metadataBytes then none
  else
    match p.protobuf.parseRequest metadataBytes with
    | none => none
    | some metadata => some ⟨header.requestId, metadata.serviceName, metadata.methodName, payload⟩

/-- 符号の値を `uint8_t` の列挙に変換してから場合分けする。列挙子でない値は外へ出さない。 -/
def decodeStatus (code : Int32) (message : Bytes) : Status :=
  let value := code.toUInt32.toUInt8
  if value = StatusCode.ok.value then {}
  else if value = StatusCode.invalidArgument.value then ⟨.invalidArgument, message⟩
  else if value = StatusCode.deadlineExceeded.value then ⟨.deadlineExceeded, message⟩
  else if value = StatusCode.notFound.value then ⟨.notFound, message⟩
  else if value = StatusCode.resourceExhausted.value then ⟨.resourceExhausted, message⟩
  else if value = StatusCode.failedPrecondition.value then ⟨.failedPrecondition, message⟩
  else if value = StatusCode.unimplemented.value then ⟨.unimplemented, message⟩
  else if value = StatusCode.internal.value then ⟨.internal, message⟩
  else if value = StatusCode.unavailable.value then ⟨.unavailable, message⟩
  else if value = StatusCode.dataLoss.value then ⟨.dataLoss, message⟩
  else ⟨.dataLoss, text "response contains an invalid RPC status code"⟩

def decodeResponseEnvelope (p : Platform) (header : FrameHeader) (metadataBytes payload : Bytes) :
    Option ResponseEnvelope :=
  if !fitsProtobufParseArray metadataBytes then none
  else
    match p.protobuf.parseResponse metadataBytes with
    | none => none
    | some metadata => some ⟨header.requestId, decodeStatus metadata.errorCode metadata.errorText, payload⟩

/-- 完全で上限に収まるフレームがあるときだけ、メタデータと本体の範囲を返す。 -/
def readFrame (p : Platform) (buf : Bytes) (limits : ProtocolLimits) : FrameView :=
  if buf.length < FrameHeader.SIZE then { error := .needMoreData }
  else
    match FrameHeader.decode p.endian (buf.take FrameHeader.SIZE) with
    | none => { error := .invalidMagic }
    | some header =>
        if header.version ≠ FrameHeader.VERSION then { error := .unsupportedVersion }
        else if header.metadataSize.toNat > limits.maxMetadataSize || header.payloadSize.toNat > limits.maxPayloadSize ||
            frameSize header.metadataSize.toNat header.payloadSize.toNat > sizeMax then
          { error := .frameTooLarge }
        else
          let total := FrameHeader.SIZE + header.metadataSize.toNat + header.payloadSize.toNat
          if buf.length < total then { error := .needMoreData }
          else {
            error := .ok
            consumed := total
            header := header
            metadataBytes := (buf.drop FrameHeader.SIZE).take header.metadataSize.toNat
            payload := (buf.drop (FrameHeader.SIZE + header.metadataSize.toNat)).take header.payloadSize.toNat }

structure FrameCodec where
  limits : ProtocolLimits

namespace FrameCodec

def encodeRequest (p : Platform) (codec : FrameCodec) (request : RequestEnvelope) : Except Status Bytes :=
  buildRequestFrame p request codec.limits

def encodeResponse (p : Platform) (codec : FrameCodec) (response : ResponseEnvelope) : Except Status Bytes :=
  buildResponseFrame p response codec.limits

def decode (p : Platform) (codec : FrameCodec) (buf : Bytes) : FrameDecodeResult :=
  let frame := readFrame p buf codec.limits
  if frame.error ≠ .ok then { error := frame.error, consumed := frame.consumed }
  else if frame.header.messageType = MessageType.request then
    match decodeRequestEnvelope p frame.header frame.metadataBytes frame.payload with
    | none => { error := .decodeError, consumed := frame.consumed }
    | some request => { error := .ok, consumed := frame.consumed, request := some request }
  else if frame.header.messageType = MessageType.response then
    match decodeResponseEnvelope p frame.header frame.metadataBytes frame.payload with
    | none => { error := .decodeError, consumed := frame.consumed }
    | some response => { error := .ok, consumed := frame.consumed, response := some response }
  else { error := .invalidMessageType, consumed := frame.consumed }

end FrameCodec

end Xrpc.Protocol
