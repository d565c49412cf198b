import Xrpc.Lib.Bytes

/-!
# 番号の付いた欄の並び

可変長整数と、番号と種別の付いた欄の並びの形式。長さには上限を設けない。
-/

namespace Xrpc.Lib

/-! ## 可変長整数 -/

/-- 下位から 7 ビットずつ、続きがあるバイトには最上位ビットを立てる。`k` はバイト数の上限である。 -/
def varintBytes : Nat → Nat → Bytes
  | 0, _ => []
  | k + 1, n => if n < 128 then [UInt8.ofNat n] else UInt8.ofNat (n % 128 + 128) :: varintBytes k (n / 128)

def varint (n : Nat) : Bytes := varintBytes (n + 1) n

def readVarint : Bytes → Option (Nat × Bytes)
  | [] => none
  | b :: rest =>
      if b.toNat < 128 then some (b.toNat, rest)
      else (readVarint rest).map fun (n, rest) => (b.toNat - 128 + 128 * n, rest)

theorem readVarint_varintBytes (k n : Nat) (x : Bytes) (h : n < 128 ^ (k + 1)) :
    readVarint (varintBytes (k + 1) n ++ x) = some (n, x) := by
  induction k generalizing n with
  | zero =>
      have hn : n < 128 := by simpa using h
      simp [varintBytes, readVarint, hn, Nat.mod_eq_of_lt (show n < 256 by omega)]
  | succ k ih =>
      rw [varintBytes]
      split
      next hn => simp [readVarint, hn, Nat.mod_eq_of_lt (show n < 256 by omega)]
      next hn =>
        have hq : n / 128 < 128 ^ (k + 1) := by
          rw [Nat.div_lt_iff_lt_mul (by decide), ← Nat.pow_succ]
          exact h
        have hb : (UInt8.ofNat (n % 128 + 128)).toNat = n % 128 + 128 := by
          rw [UInt8.toNat_ofNat']; omega
        rw [List.cons_append, readVarint, hb, if_neg (by omega), ih _ hq]
        simp only [Option.map_some, Option.some.injEq, Prod.mk.injEq, and_true]
        omega

theorem readVarint_varint (n : Nat) (x : Bytes) : readVarint (varint n ++ x) = some (n, x) :=
  readVarint_varintBytes n n x ((Nat.lt_pow_self (by decide)).trans (Nat.pow_lt_pow_right (by decide) (by omega)))

theorem varint_ne_nil (n : Nat) : varint n ≠ [] := by
  intro h
  have := readVarint_varint n []
  simp [h, readVarint] at this

/-! ## 欄 -/

inductive WireValue where
  | varint (n : Nat)
  | fixed64 (x : UInt64)
  | bytes (b : Bytes)
  | fixed32 (x : UInt32)

namespace WireValue

def wireType : WireValue → Nat
  | .varint _ => 0
  | .fixed64 _ => 1
  | .bytes _ => 2
  | .fixed32 _ => 5

def body : WireValue → Bytes
  | .varint n => Lib.varint n
  | .fixed64 x => leBytes 8 x.toNat
  | .bytes b => Lib.varint b.length ++ b
  | .fixed32 x => leBytes 4 x.toNat

end WireValue

/-- ちょうど `n` バイトを取る。 -/
def takeExact (n : Nat) (b : Bytes) : Option (Bytes × Bytes) :=
  if n ≤ b.length then some (b.take n, b.drop n) else none

def readValue (wireType : Nat) (b : Bytes) : Option (WireValue × Bytes) :=
  match wireType with
  | 0 => (readVarint b).map fun (n, rest) => (.varint n, rest)
  | 1 => (takeExact 8 b).map fun (w, rest) => (.fixed64 (UInt64.ofNat (ofLeBytes w)), rest)
  | 2 => (readVarint b).bind fun (n, rest) => (takeExact n rest).map fun (w, rest) => (.bytes w, rest)
  | 5 => (takeExact 4 b).map fun (w, rest) => (.fixed32 (UInt32.ofNat (ofLeBytes w)), rest)
  | _ => none

/-- 欄の番号は正である。 -/
structure WireField where
  number : Nat
  value : WireValue
  number_pos : 0 < number

namespace WireField

def encode (f : WireField) : Bytes := varint (8 * f.number + f.value.wireType) ++ f.value.body

def read (b : Bytes) : Option (WireField × Bytes) :=
  (readVarint b).bind fun (key, rest) =>
    if h : 0 < key / 8 then (readValue (key % 8) rest).map fun (v, rest) => (⟨key / 8, v, h⟩, rest) else none

end WireField

/-- 欄を、入力がなくなるまで読む。どの欄も 1 バイト以上なので、入力の長さだけ繰り返せば足りる。 -/
def readFields : Nat → Bytes → Option (List WireField)
  | _, [] => some []
  | 0, _ :: _ => none
  | k + 1, b :: bs => (WireField.read (b :: bs)).bind fun (f, rest) => (readFields k rest).map (f :: ·)

theorem takeExact_append (b x : Bytes) : takeExact b.length (b ++ x) = some (b, x) := by
  simp [takeExact]

theorem readValue_body (v : WireValue) (x : Bytes) : readValue v.wireType (v.body ++ x) = some (v, x) := by
  cases v with
  | varint n => simp [WireValue.wireType, WireValue.body, readValue, readVarint_varint]
  | fixed64 w =>
      have htake := takeExact_append (leBytes 8 w.toNat) x
      rw [length_leBytes] at htake
      simp [WireValue.wireType, WireValue.body, readValue, htake,
        ofLeBytes_leBytes (show w.toNat < 256 ^ 8 from w.toNat_lt)]
  | bytes b =>
      simp [WireValue.wireType, WireValue.body, readValue, List.append_assoc, readVarint_varint, takeExact_append]
  | fixed32 w =>
      have htake := takeExact_append (leBytes 4 w.toNat) x
      rw [length_leBytes] at htake
      simp [WireValue.wireType, WireValue.body, readValue, htake,
        ofLeBytes_leBytes (show w.toNat < 256 ^ 4 from w.toNat_lt)]

theorem WireField.read_encode (f : WireField) (x : Bytes) : read (f.encode ++ x) = some (f, x) := by
  have htype : f.value.wireType < 8 := by cases f.value <;> simp [WireValue.wireType]
  have hdiv : (8 * f.number + f.value.wireType) / 8 = f.number := by omega
  have hmod : (8 * f.number + f.value.wireType) % 8 = f.value.wireType := by omega
  have hpos := f.number_pos
  simp only [read, encode, List.append_assoc, readVarint_varint, Option.bind_some, hdiv, hmod, hpos, ↓reduceDIte,
    readValue_body, Option.map_some]

theorem WireField.encode_ne_nil (f : WireField) : f.encode ≠ [] := by
  simp [encode, varint_ne_nil]

theorem readFields_flatMap_encode (fields : List WireField) {k : Nat} (hk : fields.length ≤ k) :
    readFields k (fields.flatMap WireField.encode) = some fields := by
  induction fields generalizing k with
  | nil => cases k <;> rfl
  | cons f fields ih =>
      obtain ⟨k, rfl⟩ : ∃ k', k = k' + 1 := ⟨k - 1, by simp at hk; omega⟩
      have hread := f.read_encode (fields.flatMap WireField.encode)
      have hne : f.encode ++ fields.flatMap WireField.encode ≠ [] := by simp [f.encode_ne_nil]
      rw [List.flatMap_cons]
      obtain ⟨b, bs, hb⟩ := List.exists_cons_of_ne_nil hne
      rw [hb] at hread ⊢
      simp only [readFields, hread, Option.bind_some, ih (show fields.length ≤ k by simpa using hk), Option.map_some]

theorem length_le_flatMap_encode (fields : List WireField) :
    fields.length ≤ (fields.flatMap WireField.encode).length := by
  induction fields with
  | nil => simp
  | cons f fields ih =>
      have := List.length_pos_of_ne_nil f.encode_ne_nil
      simp only [List.flatMap_cons, List.length_cons, List.length_append]
      omega

def encodeFields (fields : List WireField) : Bytes := fields.flatMap WireField.encode

def decodeFields (b : Bytes) : Option (List WireField) := readFields b.length b

/-- 欄の並びを符号化して読むと、元の並びに戻る。 -/
theorem decodeFields_encodeFields (fields : List WireField) : decodeFields (encodeFields fields) = some fields :=
  readFields_flatMap_encode fields (length_le_flatMap_encode fields)

end Xrpc.Lib
