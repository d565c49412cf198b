import Xrpc.Lib.Bytes

/-!
# 状態、要求と応答、フレームのメタデータ

`include/xrpc/status.h`、`src/include/protocol/rpc_envelope.h`、`src/protocol/xrpc/frame_metadata.proto` を写す。
文字列は `std::string` なので、任意のバイト列である。
-/

namespace Xrpc.Protocol
open Xrpc.Lib

/-- ASCII の文字列定数のバイト列。 -/
def text (s : String) : Bytes := s.toList.map fun c => UInt8.ofNat c.toNat

/-! ## 状態 -/

inductive StatusCode where
  | ok
  | invalidArgument
  | deadlineExceeded
  | notFound
  | resourceExhausted
  | failedPrecondition
  | unimplemented
  | internal
  | unavailable
  | dataLoss
  deriving DecidableEq, Repr

/-- 列挙子の値。空いている番号は、この仕様の外の状態に当たる。 -/
def StatusCode.value : StatusCode → UInt8
  | .ok => 0
  | .invalidArgument => 2
  | .deadlineExceeded => 3
  | .notFound => 4
  | .resourceExhausted => 7
  | .failedPrecondition => 8
  | .unimplemented => 9
  | .internal => 10
  | .unavailable => 11
  | .dataLoss => 12

structure Status where
  code : StatusCode := .ok
  message : Bytes := []
  deriving DecidableEq

def Status.isOk (s : Status) : Bool := s.code = .ok

/-! ## 要求と応答 -/

structure RequestEnvelope where
  requestId : UInt64
  serviceName : Bytes
  methodName : Bytes
  payload : Bytes
  deriving DecidableEq

structure ResponseEnvelope where
  requestId : UInt64
  status : Status
  payload : Bytes
  deriving DecidableEq

/-! ## メタデータ -/

structure RequestMetadata where
  serviceName : Bytes
  methodName : Bytes
  deriving DecidableEq

structure ResponseMetadata where
  errorCode : Int32
  errorText : Bytes
  deriving DecidableEq

/-- 継続バイト。 -/
def isContinuation (b : UInt8) : Bool := 0x80 ≤ b && b ≤ 0xBF

/-- 構造として正しい UTF-8 であるか。冗長な表現、サロゲート、U+10FFFF を超える値は認めない。 -/
def validUtf8 : Bytes → Bool
  | [] => true
  | b0 :: rest =>
      if b0 ≤ 0x7F then validUtf8 rest
      else if 0xC2 ≤ b0 && b0 ≤ 0xDF then
        match rest with
        | b1 :: rest => isContinuation b1 && validUtf8 rest
        | _ => false
      else if 0xE0 ≤ b0 && b0 ≤ 0xEF then
        match rest with
        | b1 :: b2 :: rest =>
            (if b0 = 0xE0 then 0xA0 ≤ b1 && b1 ≤ 0xBF
             else if b0 = 0xED then 0x80 ≤ b1 && b1 ≤ 0x9F
             else isContinuation b1) && isContinuation b2 && validUtf8 rest
        | _ => false
      else if 0xF0 ≤ b0 && b0 ≤ 0xF4 then
        match rest with
        | b1 :: b2 :: b3 :: rest =>
            (if b0 = 0xF0 then 0x90 ≤ b1 && b1 ≤ 0xBF
             else if b0 = 0xF4 then 0x80 ≤ b1 && b1 ≤ 0x8F
             else isContinuation b1) && isContinuation b2 && isContinuation b3 && validUtf8 rest
        | _ => false
      else false

/-- 二つのメタデータについて Protobuf の生成コードと実行時ライブラリが与える関数。
`SerializeToString` が偽を返すことを `none` で表す。 -/
structure Protobuf where
  serializeRequest : RequestMetadata → Option Bytes
  parseRequest : Bytes → Option RequestMetadata
  serializeResponse : ResponseMetadata → Option Bytes
  parseResponse : Bytes → Option ResponseMetadata

/-- 実行環境。ホストのバイト順と Protobuf の実装で決まる。 -/
structure Platform where
  endian : Endian
  protobuf : Protobuf

end Xrpc.Protocol
