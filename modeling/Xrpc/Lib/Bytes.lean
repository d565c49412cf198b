import Mathlib

/-!
# バイト列と整数の表現

固定長のバイト列と自然数の対応、およびホストのバイト順での格納と読み出しを定める。
-/

namespace Xrpc.Lib

abbrev Bytes := List UInt8

/-- ホストのバイト順。 -/
inductive Endian where
  | little
  | big
  deriving DecidableEq, Repr

/-! ## 下位のバイトから並べた表現 -/

/-- `x` の下位 `n` バイトを、下位から並べたもの。 -/
def leBytes : Nat → Nat → Bytes
  | 0, _ => []
  | n + 1, x => UInt8.ofNat (x % 256) :: leBytes n (x / 256)

/-- 下位から並べたバイト列の値。 -/
def ofLeBytes : Bytes → Nat
  | [] => 0
  | b :: bs => b.toNat + 256 * ofLeBytes bs

@[simp] theorem length_leBytes (n x : Nat) : (leBytes n x).length = n := by
  induction n generalizing x with
  | zero => rfl
  | succ n ih => simp [leBytes, ih]

theorem ofLeBytes_lt (bs : Bytes) : ofLeBytes bs < 256 ^ bs.length := by
  induction bs with
  | nil => simp [ofLeBytes]
  | cons b bs ih =>
      have hb : b.toNat < 256 := b.toNat_lt
      simp only [ofLeBytes, List.length_cons, Nat.pow_succ]
      omega

theorem ofLeBytes_leBytes {n x : Nat} (h : x < 256 ^ n) : ofLeBytes (leBytes n x) = x := by
  induction n generalizing x with
  | zero => simp only [Nat.pow_zero] at h; simp only [leBytes, ofLeBytes]; omega
  | succ n ih =>
      have hdiv : x / 256 < 256 ^ n := by rw [Nat.pow_succ] at h; omega
      simp only [leBytes, ofLeBytes, ih hdiv, UInt8.toNat_ofNat']
      omega

theorem leBytes_ofLeBytes (bs : Bytes) : leBytes bs.length (ofLeBytes bs) = bs := by
  induction bs with
  | nil => rfl
  | cons b bs ih =>
      have hb : b.toNat < 256 := b.toNat_lt
      have hmod : (b.toNat + 256 * ofLeBytes bs) % 256 = b.toNat := by omega
      have hdiv : (b.toNat + 256 * ofLeBytes bs) / 256 = ofLeBytes bs := by omega
      simp only [List.length_cons, ofLeBytes, leBytes, hmod, hdiv, ih, UInt8.ofNat_toNat]

/-- 値を桁で分けると、表現は二つの表現の連結になる。 -/
theorem leBytes_add {m n a b : Nat} (hb : b < 256 ^ m) :
    leBytes (m + n) (b + 256 ^ m * a) = leBytes m b ++ leBytes n a := by
  induction m generalizing b with
  | zero =>
      have : b = 0 := by simpa using hb
      simp [this, leBytes]
  | succ m ih =>
      have hdiv : b / 256 < 256 ^ m := by rw [Nat.pow_succ] at hb; omega
      have hshift : 256 ^ (m + 1) * a = 256 * (256 ^ m * a) := by rw [Nat.pow_succ]; ring
      have hmod : (b + 256 ^ (m + 1) * a) % 256 = b % 256 := by rw [hshift]; omega
      have hquot : (b + 256 ^ (m + 1) * a) / 256 = b / 256 + 256 ^ m * a := by rw [hshift]; omega
      rw [show m + 1 + n = m + n + 1 by omega]
      simp only [leBytes, hmod, hquot, ih hdiv, List.cons_append]

/-! ## ネットワークのバイト順 -/

/-- `x` の下位 `n` バイトを、上位から並べたもの。 -/
def beBytes (n x : Nat) : Bytes := (leBytes n x).reverse

def ofBeBytes (bs : Bytes) : Nat := ofLeBytes bs.reverse

@[simp] theorem length_beBytes (n x : Nat) : (beBytes n x).length = n := by simp [beBytes]

theorem ofBeBytes_lt {n : Nat} {bs : Bytes} (h : bs.length = n) : ofBeBytes bs < 256 ^ n := by
  have := ofLeBytes_lt bs.reverse
  rwa [List.length_reverse, h] at this

theorem ofBeBytes_beBytes {n x : Nat} (h : x < 256 ^ n) : ofBeBytes (beBytes n x) = x := by
  simp [ofBeBytes, beBytes, ofLeBytes_leBytes h]

theorem beBytes_ofBeBytes {n : Nat} {bs : Bytes} (h : bs.length = n) : beBytes n (ofBeBytes bs) = bs := by
  have := leBytes_ofLeBytes bs.reverse
  rw [List.length_reverse, h] at this
  simp [beBytes, ofBeBytes, this]

/-- 上位の桁の表現が先に並ぶ。 -/
theorem beBytes_add {m n a b : Nat} (hb : b < 256 ^ m) :
    beBytes (m + n) (b + 256 ^ m * a) = beBytes n a ++ beBytes m b := by
  simp [beBytes, leBytes_add hb]

/-! ## ホストのバイト順での格納と読み出し -/

/-- ホストの `n` バイトの整数をそのままメモリへ写したときのバイト列。 -/
def nativeBytes : Endian → Nat → Nat → Bytes
  | .little, n, x => leBytes n x
  | .big, n, x => beBytes n x

/-- メモリのバイト列をホストの整数として読んだ値。 -/
def ofNativeBytes : Endian → Bytes → Nat
  | .little, bs => ofLeBytes bs
  | .big, bs => ofBeBytes bs

/-! ## バッファへの書き込み -/

/-- `buf` の位置 `off` から `src` を上書きする（`memcpy`）。 -/
def writeAt (buf : Bytes) (off : Nat) (src : Bytes) : Bytes :=
  buf.take off ++ src ++ buf.drop (off + src.length)

/-- 先頭の `xs` の直後から書くと、`xs` の後ろの同じ長さだけが置き換わる。 -/
theorem writeAt_append {xs rest src : Bytes} {off : Nat} (h : off = xs.length) :
    writeAt (xs ++ rest) off src = xs ++ src ++ rest.drop src.length := by
  subst h
  rw [writeAt, List.take_left, ← List.drop_drop, List.drop_left]

end Xrpc.Lib
