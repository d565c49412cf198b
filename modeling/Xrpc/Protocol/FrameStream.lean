import Xrpc.Protocol.Lemmas.Codec

/-!
# 受信したバイトの流れからの要求の取り出し

`src/server/rpc_frame_stream.cpp` を写す。`Abort` と `assert` の失敗は `none` で表す。
-/

namespace Xrpc.Protocol
open Xrpc.Lib

/-! ## `std::string` の容量 -/

structure StdString where
  data : Bytes
  capacity : Nat
  size_le : data.length ≤ capacity

/-- 容量の決め方。操作の前の文字列と、操作の後の中身から、操作の後の容量を決める。 -/
structure CapacityPolicy where
  initial : Nat
  next : StdString → Bytes → Nat
  next_le : ∀ s data, data.length ≤ next s data

namespace StdString

variable (policy : CapacityPolicy)

def empty : StdString := ⟨[], policy.initial, Nat.zero_le _⟩

def assign (s : StdString) (data : Bytes) : StdString := ⟨data, policy.next s data, policy.next_le s data⟩

def append (s : StdString) (bytes : Bytes) : StdString := s.assign policy (s.data ++ bytes)

def erasePrefix (s : StdString) (n : Nat) : StdString := s.assign policy (s.data.drop n)

def clear (s : StdString) : StdString := s.assign policy []

end StdString

/-! ## `RpcFrameStream::ByteBuffer` -/

structure ByteBuffer where
  buffer : StdString
  readOffset : Nat

namespace ByteBuffer

variable (policy : CapacityPolicy)

def fresh : ByteBuffer := ⟨StdString.empty policy, 0⟩

def readableSize (b : ByteBuffer) : Nat := b.buffer.data.length - b.readOffset

def isEmpty (b : ByteBuffer) : Bool := b.readableSize = 0

def readableBytes (b : ByteBuffer) : Bytes :=
  if b.readableSize = 0 then [] else (b.buffer.data.drop b.readOffset).take b.readableSize

/-- 消費した接頭辞を取り除く。零でない位置は、読める部分の中を指すはずである。 -/
def compact (b : ByteBuffer) : Option ByteBuffer :=
  if b.readOffset = 0 then some b
  else if b.readOffset < b.buffer.data.length then some ⟨b.buffer.erasePrefix policy b.readOffset, 0⟩
  else none

/-- 末尾の空きに収まらないときだけ詰める。 -/
def append (b : ByteBuffer) (bytes : Bytes) : Option ByteBuffer :=
  if bytes.isEmpty then some b
  else if bytes.length > b.buffer.capacity - b.buffer.data.length then
    (b.compact policy).map fun b => ⟨b.buffer.append policy bytes, b.readOffset⟩
  else some ⟨b.buffer.append policy bytes, b.readOffset⟩

def consume (b : ByteBuffer) (n : Nat) : Option ByteBuffer :=
  if n > b.readableSize then none
  else if b.readOffset + n = b.buffer.data.length then some ⟨b.buffer.clear policy, 0⟩
  else some ⟨b.buffer, b.readOffset + n⟩

variable {policy}

theorem consume_readableSize {b b' : ByteBuffer} {n : Nat} (h : b.consume policy n = some b') :
    n ≤ b.readableSize ∧ b'.readableSize + n = b.readableSize := by
  simp only [consume] at h
  split_ifs at h with hover hend
  · obtain rfl := Option.some.inj h
    simp only [readableSize, StdString.clear, StdString.assign, List.length_nil] at hover ⊢
    omega
  · obtain rfl := Option.some.inj h
    simp only [readableSize] at hover ⊢
    omega

/-! ### 呼び出しの列 -/

inductive Op where
  | append (bytes : Bytes)
  | consume (n : Nat)
  | readableBytes

/-- 呼び出しを順に行い、`readableBytes` の返した列を集める。容量の決め方は、呼び出しごとに違ってよい。 -/
def run (b : ByteBuffer) : List (CapacityPolicy × Op) → Option (List Bytes × ByteBuffer)
  | [] => some ([], b)
  | (policy, .append bytes) :: calls => do
      let b ← b.append policy bytes
      b.run calls
  | (policy, .consume n) :: calls => do
      let b ← b.consume policy n
      b.run calls
  | (_, .readableBytes) :: calls => do
      let (views, b') ← b.run calls
      return (b.readableBytes :: views, b')

end ByteBuffer

/-! ## バイトの待ち行列としての意味 -/

namespace ByteQueue
open ByteBuffer (Op)

/-- これまでに足したバイト。 -/
def appended : List Op → Bytes
  | [] => []
  | .append bytes :: ops => bytes ++ appended ops
  | .consume _ :: ops => appended ops
  | .readableBytes :: ops => appended ops

/-- これまでに消費した数。 -/
def consumed : List Op → Nat
  | [] => 0
  | .append _ :: ops => consumed ops
  | .consume n :: ops => n + consumed ops
  | .readableBytes :: ops => consumed ops

/-- 足したバイトから、消費した分を先頭から除いたもの。 -/
def content (ops : List Op) : Bytes := (appended ops).drop (consumed ops)

/-- `done` の後の `ops` で、`readableBytes` が返すべき列。 -/
def views (done : List Op) : List Op → List Bytes
  | [] => []
  | .readableBytes :: ops => content done :: views (done ++ [.readableBytes]) ops
  | op :: ops => views (done ++ [op]) ops

/-- どの `consume` も、その時に読める数を超えない。 -/
def Within (ops : List Op) : Prop :=
  ∀ done n rest, ops = done ++ .consume n :: rest → n ≤ (content done).length

end ByteQueue

/-! ## `RequestEnvelopeBatch` -/

/-- 最初の要求だけを別に持つ。 -/
structure RequestEnvelopeBatch where
  firstRequest : Option RequestEnvelope := none
  additionalRequests : List RequestEnvelope := []
  first_wf : firstRequest = none → additionalRequests = [] := by simp

namespace RequestEnvelopeBatch

def push (batch : RequestEnvelopeBatch) (request : RequestEnvelope) : RequestEnvelopeBatch :=
  if h : batch.firstRequest.isSome then
    { firstRequest := batch.firstRequest
      additionalRequests := batch.additionalRequests ++ [request]
      first_wf := by intro hnone; simp [hnone] at h }
  else { firstRequest := some request }

def size (batch : RequestEnvelopeBatch) : Nat :=
  (if batch.firstRequest.isSome then 1 else 0) + batch.additionalRequests.length

/-- `ConsumeEach` が渡す順の並び。 -/
def toList (batch : RequestEnvelopeBatch) : List RequestEnvelope :=
  batch.firstRequest.toList ++ batch.additionalRequests

@[simp] theorem toList_empty : (({} : RequestEnvelopeBatch)).toList = [] := rfl

@[simp] theorem toList_push (batch : RequestEnvelopeBatch) (request : RequestEnvelope) :
    (batch.push request).toList = batch.toList ++ [request] := by
  cases hfirst : batch.firstRequest with
  | none => simp [push, toList, hfirst, batch.first_wf hfirst]
  | some first => simp [push, toList, hfirst]

end RequestEnvelopeBatch

/-! ## `RpcFrameStream` -/

structure FrameStreamFeedResult where
  requests : RequestEnvelopeBatch
  closed : Bool

structure RpcFrameStream where
  buffer : ByteBuffer
  protocolLimits : ProtocolLimits
  closed : Bool

/-- 復号に成功したとき、消費する長さは正で、入力の長さを超えない。 -/
theorem decode_ok_consumed {p : Platform} {codec : FrameCodec} {b : Bytes} (h : (codec.decode p b).error = .ok) :
    FrameHeader.SIZE ≤ (codec.decode p b).consumed ∧ (codec.decode p b).consumed ≤ b.length := by
  obtain ⟨header, hat, hconsumed, _⟩ := decode_ok h
  have := hat.total_le
  omega

namespace RpcFrameStream

variable (p : Platform) (policy : CapacityPolicy)

def fresh (limits : ProtocolLimits) : RpcFrameStream := ⟨ByteBuffer.fresh policy, limits, false⟩

/-- 溜めた入力から、完全な要求を取り出せるだけ取り出す。終わりの途中のフレームは、次の入力まで残す。 -/
def decodeAvailableRequests (s : RpcFrameStream) (requests : RequestEnvelopeBatch) :
    Option (RequestEnvelopeBatch × RpcFrameStream) :=
  if s.buffer.isEmpty || s.closed then some (requests, s)
  else
    let decoded := FrameCodec.decode p ⟨s.protocolLimits⟩ s.buffer.readableBytes
    if decoded.error = .needMoreData then some (requests, s)
    else
      match _hreq : decoded.error, decoded.request with
      | .ok, some request =>
          match _hconsume : s.buffer.consume policy decoded.consumed with
          | none => none
          | some buffer => decodeAvailableRequests { s with buffer := buffer } (requests.push request)
      | _, _ => some (requests, { s with closed := true })
termination_by s.buffer.readableSize
decreasing_by
  have hpos : FrameHeader.SIZE ≤ decoded.consumed := (decode_ok_consumed _hreq).1
  have hsize := ByteBuffer.consume_readableSize _hconsume
  simp only [FrameHeader.SIZE] at hpos
  omega

def feedBytes (s : RpcFrameStream) (bytes : Bytes) : Option (FrameStreamFeedResult × RpcFrameStream) :=
  if s.closed then some ({ requests := {}, closed := true }, s)
  else do
    let buffer ← s.buffer.append policy bytes
    let (requests, s) ← decodeAvailableRequests p policy { s with buffer := buffer } {}
    return ({ requests := requests, closed := s.closed }, s)

/-- 断片を順に渡す。 -/
def feedAll (s : RpcFrameStream) : List Bytes → Option (List FrameStreamFeedResult × RpcFrameStream)
  | [] => some ([], s)
  | chunk :: chunks => do
      let (result, s) ← s.feedBytes p policy chunk
      let (results, s) ← feedAll s chunks
      return (result :: results, s)

/-- どのように区切って渡しても、先頭の `k` バイトを渡したところで、すべてを要求として取り出し終えている。 -/
def CutsAt (limits : ProtocolLimits) (s : Bytes) (k : Nat) : Prop :=
  k ≤ s.length ∧ ∀ chunks : List Bytes, chunks.flatten = s.take k →
    ∃ results stream, (fresh policy limits).feedAll p policy chunks = some (results, stream) ∧
      stream.closed = false ∧ stream.buffer.readableBytes = []

end RpcFrameStream

end Xrpc.Protocol
