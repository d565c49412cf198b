import Xrpc.Lib.Wire
import Xrpc.Protocol.FrameCodec

/-!
# メタデータの直列化の形式

`frame_metadata.proto` の二つのメッセージについて、直列化した長さと、Protobuf に仮定することを述べ、proto3 の形式による直列化と
解析を与える。長さの上限は、`third_party/protobuf` の `AppendPartialToString` と `ReadSizeFallback` のものである。
-/

namespace Xrpc.Protocol
open Xrpc.Lib

/-! ## 直列化 -/

/-- 既定値の欄は書かない。 -/
def stringField (number : Nat) (h : 0 < number) (b : Bytes) : List WireField :=
  if b = [] then [] else [⟨number, .bytes b, h⟩]

/-- 負の値は、符号を 64 ビットに広げて書く。 -/
def int32Field (number : Nat) (h : 0 < number) (v : Int32) : List WireField :=
  if v = 0 then [] else [⟨number, .varint v.toInt64.toUInt64.toNat, h⟩]

def RequestMetadata.fields (m : RequestMetadata) : List WireField :=
  stringField 1 (by decide) m.serviceName ++ stringField 2 (by decide) m.methodName

def ResponseMetadata.fields (m : ResponseMetadata) : List WireField :=
  int32Field 1 (by decide) m.errorCode ++ stringField 2 (by decide) m.errorText

/-- `ByteSizeLong` -/
def RequestMetadata.byteSize (m : RequestMetadata) : Nat := (encodeFields m.fields).length

def ResponseMetadata.byteSize (m : ResponseMetadata) : Nat := (encodeFields m.fields).length

/-! ## 解析 -/

/-- `ParseContext::kSlopBytes` -/
def SLOP_BYTES : Nat := 16

/-- `ReadSizeFallback` が受け入れる欄の長さの上限。 -/
def maxFieldSize : Nat := intMax - SLOP_BYTES

/-- 文字列の欄は、長さが上限に収まり、正しい UTF-8 のときに限り読める。 -/
def readableString (b : Bytes) : Bool := b.length ≤ maxFieldSize && validUtf8 b

def RequestMetadata.readable (m : RequestMetadata) : Bool := readableString m.serviceName && readableString m.methodName

def ResponseMetadata.readable (m : ResponseMetadata) : Bool := readableString m.errorText

/-- 知らない欄は読み飛ばす。長さの上限は、知らない欄にもかかる。 -/
def skippable (f : WireField) : Bool :=
  match f.value with
  | .bytes b => b.length ≤ maxFieldSize
  | _ => true

/-- 同じ欄は後のものが勝つ。 -/
def RequestMetadata.merge (m : RequestMetadata) (f : WireField) : Option RequestMetadata :=
  match f.number, f.value with
  | 1, .bytes b => if readableString b then some { m with serviceName := b } else none
  | 2, .bytes b => if readableString b then some { m with methodName := b } else none
  | _, _ => if skippable f then some m else none

def ResponseMetadata.merge (m : ResponseMetadata) (f : WireField) : Option ResponseMetadata :=
  match f.number, f.value with
  | 1, .varint n => some { m with errorCode := (UInt64.ofNat n).toInt64.toInt32 }
  | 2, .bytes b => if readableString b then some { m with errorText := b } else none
  | _, _ => if skippable f then some m else none

/-! ## Protobuf に仮定すること -/

/-- 直列化は、長さが `int` に収まるときに限り成功し、文字列の中身を問わない。直列化したものは、文字列の欄がどれも読めるときに限り、
解析で元に戻る。すべての欄が既定値のメッセージは零バイトになり、零バイトの応答は既定値として読める。 -/
structure Protobuf.Lawful (pb : Protobuf) : Prop where
  serializeRequest_isSome : ∀ m, (pb.serializeRequest m).isSome ↔ m.byteSize ≤ intMax
  serializeResponse_isSome : ∀ m, (pb.serializeResponse m).isSome ↔ m.byteSize ≤ intMax
  length_serializeRequest : ∀ m b, pb.serializeRequest m = some b → b.length = m.byteSize
  length_serializeResponse : ∀ m b, pb.serializeResponse m = some b → b.length = m.byteSize
  parseRequest_serialize : ∀ m b, pb.serializeRequest m = some b → pb.parseRequest b = if m.readable then some m else none
  parseResponse_serialize : ∀ m b, pb.serializeResponse m = some b → pb.parseResponse b = if m.readable then some m else none
  serializeResponse_default : pb.serializeResponse ⟨0, []⟩ = some []
  parseResponse_nil : pb.parseResponse [] = some ⟨0, []⟩

def proto3 : Protobuf where
  serializeRequest m := if m.byteSize ≤ intMax then some (encodeFields m.fields) else none
  parseRequest b := (decodeFields b).bind (·.foldlM RequestMetadata.merge ⟨[], []⟩)
  serializeResponse m := if m.byteSize ≤ intMax then some (encodeFields m.fields) else none
  parseResponse b := (decodeFields b).bind (·.foldlM ResponseMetadata.merge ⟨0, []⟩)

@[simp] theorem readableString_nil : readableString [] = true := by decide

theorem RequestMetadata.foldlM_merge (m : RequestMetadata) :
    m.fields.foldlM RequestMetadata.merge ⟨[], []⟩ = if m.readable then some m else none := by
  obtain ⟨service, method⟩ := m
  by_cases hs : readableString service <;> by_cases hm : readableString method <;>
    simp only [fields, stringField, readable] <;> split_ifs <;> simp_all [merge]

theorem ResponseMetadata.foldlM_merge (m : ResponseMetadata) :
    m.fields.foldlM ResponseMetadata.merge ⟨0, []⟩ = if m.readable then some m else none := by
  obtain ⟨code, message⟩ := m
  simp only [fields, stringField, int32Field, readable]
  split_ifs <;> simp_all [merge]

/-- `proto3` は、仮定をすべて満たす。 -/
theorem proto3_lawful : proto3.Lawful where
  serializeRequest_isSome m := by simp [proto3]
  serializeResponse_isSome m := by simp [proto3]
  length_serializeRequest m b h := by
    simp only [proto3, Option.ite_none_right_eq_some, Option.some.injEq] at h
    rw [← h.2, RequestMetadata.byteSize]
  length_serializeResponse m b h := by
    simp only [proto3, Option.ite_none_right_eq_some, Option.some.injEq] at h
    rw [← h.2, ResponseMetadata.byteSize]
  parseRequest_serialize m b h := by
    simp only [proto3, Option.ite_none_right_eq_some, Option.some.injEq] at h
    rw [← h.2, ← m.foldlM_merge]
    simp only [proto3, decodeFields_encodeFields, Option.bind_some]
  parseResponse_serialize m b h := by
    simp only [proto3, Option.ite_none_right_eq_some, Option.some.injEq] at h
    rw [← h.2, ← m.foldlM_merge]
    simp only [proto3, decodeFields_encodeFields, Option.bind_some]
  serializeResponse_default := by decide
  parseResponse_nil := rfl

end Xrpc.Protocol
