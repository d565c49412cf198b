import Xrpc.Lib.Bytes

/-!
# フレームの固定長の先頭部

`src/protocol/frame_header.cpp` の `FrameHeader` を写す。整数はネットワークのバイト順で並ぶ。
-/

namespace Xrpc.Protocol
open Xrpc.Lib

/-- 送り手の種別。`enum class` の基底型は `uint8_t` であり、読み出した値は列挙子に限らない。 -/
abbrev MessageType := UInt8

def MessageType.request : MessageType := 1
def MessageType.response : MessageType := 2

structure FrameHeader where
  magic : UInt32
  version : UInt8
  messageType : MessageType
  flags : UInt16
  metadataSize : UInt32
  payloadSize : UInt32
  requestId : UInt64
  deriving DecidableEq

namespace FrameHeader

/-- ASCII の "XRPC"。 -/
def MAGIC : UInt32 := 0x58525043
def VERSION : UInt8 := 1
def SIZE : Nat := 24

end FrameHeader

/-! ## ホストとネットワークのバイト順の変換 -/

/-- ホストのバイト順が下位からのとき、バイトの並びを逆にする。 -/
def htonl : Endian → UInt32 → UInt32
  | .little, x => UInt32.ofNat (ofBeBytes (leBytes 4 x.toNat))
  | .big, x => x

def htons : Endian → UInt16 → UInt16
  | .little, x => UInt16.ofNat (ofBeBytes (leBytes 2 x.toNat))
  | .big, x => x

def ntohl (e : Endian) (x : UInt32) : UInt32 := htonl e x

def ntohs (e : Endian) (x : UInt16) : UInt16 := htons e x

/-- 64 ビットの変換は二つの 32 ビットの半分から作る。 -/
def hostToNetwork64 : Endian → UInt64 → UInt64
  | .big, x => x
  | .little, x =>
      ((htonl .little (x &&& 0xFFFFFFFF).toUInt32).toUInt64 <<< 32) |||
        (htonl .little (x >>> 32).toUInt32).toUInt64

def networkToHost64 (e : Endian) (x : UInt64) : UInt64 := hostToNetwork64 e x

/-! ## 符号化と復号 -/

namespace FrameHeader

/-- 呼び出し側のバッファの先頭の `SIZE` バイトへ書き込む。 -/
def encodeTo (e : Endian) (header : FrameHeader) (buffer : Bytes) : Bytes :=
  let networkMagic := htonl e header.magic
  let networkMetadataSize := htonl e header.metadataSize
  let networkPayloadSize := htonl e header.payloadSize
  let networkRequestId := hostToNetwork64 e header.requestId
  let buffer := writeAt buffer 0 (nativeBytes e 4 networkMagic.toNat)
  let buffer := writeAt buffer 4 [header.version]
  let buffer := writeAt buffer 5 [header.messageType]
  let networkFlags := htons e header.flags
  let buffer := writeAt buffer 6 (nativeBytes e 2 networkFlags.toNat)
  let buffer := writeAt buffer 8 (nativeBytes e 4 networkMetadataSize.toNat)
  let buffer := writeAt buffer 12 (nativeBytes e 4 networkPayloadSize.toNat)
  writeAt buffer 16 (nativeBytes e 8 networkRequestId.toNat)

/-- `buf` の位置 `off` から `n` バイトをホストの整数として読む（`memcpy`）。 -/
def load (e : Endian) (buf : Bytes) (off n : Nat) : Nat := ofNativeBytes e ((buf.drop off).take n)

/-- 版と種別は確かめない。短すぎるか、印が違うときは値を返さない。 -/
def decode (e : Endian) (buf : Bytes) : Option FrameHeader :=
  if buf.length < SIZE then none
  else
    let magic := ntohl e (UInt32.ofNat (load e buf 0 4))
    if magic ≠ MAGIC then none
    else some {
      magic := magic
      version := UInt8.ofNat (load e buf 4 1)
      messageType := UInt8.ofNat (load e buf 5 1)
      flags := ntohs e (UInt16.ofNat (load e buf 6 2))
      metadataSize := ntohl e (UInt32.ofNat (load e buf 8 4))
      payloadSize := ntohl e (UInt32.ofNat (load e buf 12 4))
      requestId := networkToHost64 e (UInt64.ofNat (load e buf 16 8)) }

end FrameHeader

end Xrpc.Protocol
