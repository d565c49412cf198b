import Xrpc.Lib.Bytes

/-!
# 数字の列

`std::from_chars` と `std::to_string` の、整数についての意味。
-/

namespace Xrpc.Lib

/-! ## 数字 -/

/-- 数字としての値。数字でも英字でもないバイトには 36 を当てる。 -/
def digitOf (b : UInt8) : Nat :=
  if 48 ≤ b ∧ b ≤ 57 then b.toNat - 48
  else if 97 ≤ b ∧ b ≤ 122 then b.toNat - 87
  else if 65 ≤ b ∧ b ≤ 90 then b.toNat - 55
  else 36

/-- 基数 `base` の数字である。 -/
def isDigit (base : Nat) (b : UInt8) : Bool := digitOf b < base

/-- 上位から並べた数字の列の値。 -/
def digitsValue (base : Nat) (digits : Bytes) : Nat := digits.foldl (fun n b => n * base + digitOf b) 0

/-- 空でない、基数 `base` の数字の列。 -/
def Numeral (base : Nat) (digits : Bytes) : Prop := digits ≠ [] ∧ ∀ b ∈ digits, isDigit base b = true

instance (base : Nat) (digits : Bytes) : Decidable (Numeral base digits) :=
  decidable_of_iff (digits ≠ [] ∧ digits.all (isDigit base) = true) (and_congr_right' List.all_eq_true)

/-! ## `std::from_chars` -/

/-- `value` は、読んだ値と、`ptr` から後の列を持つ。 -/
inductive FromChars where
  | invalidArgument
  | outOfRange
  | value (n : Int) (rest : Bytes)
  deriving DecidableEq, Repr

/-- `lo` から `hi` までの整数の型へ読む。符号は、符号付きの型の先頭の `-` だけを認める。 -/
def fromChars (base : Nat) (lo hi : Int) (text : Bytes) : FromChars :=
  let negative := decide (lo < 0) && text.head? == some 45
  let body := if negative then text.drop 1 else text
  let digits := body.takeWhile (isDigit base)
  let magnitude : Int := digitsValue base digits
  let n := if negative then -magnitude else magnitude
  if digits.isEmpty then .invalidArgument
  else if lo ≤ n ∧ n ≤ hi then .value n (body.drop digits.length)
  else .outOfRange

variable {base : Nat} {lo hi : Int} {text digits : Bytes} {n : Int}

theorem isDigit_minus (hbase : base ≤ 36) : isDigit base 45 = false := by
  have : digitOf 45 = 36 := by decide
  rw [isDigit, this]
  exact decide_eq_false (by omega)

/-- 数字の列は、そのまま読まれる。 -/
theorem fromChars_numeral (hbase : base ≤ 36) (h : Numeral base digits) (hlo : lo ≤ 0) (hhi : digitsValue base digits ≤ hi) :
    fromChars base lo hi digits = .value (digitsValue base digits) [] := by
  have hhead : (digits.head? == some 45) = false := by
    refine beq_eq_false_iff_ne.mpr fun heq => ?_
    have hminus := h.2 45 (List.mem_of_head? heq)
    rw [isDigit_minus hbase] at hminus
    cases hminus
  have hall : digits.takeWhile (isDigit base) = digits := List.takeWhile_eq_self_iff.mpr h.2
  have hdigits : digits.isEmpty = false := by simpa using h.1
  simp only [fromChars, hhead, Bool.and_false, Bool.false_eq_true, ↓reduceIte, hall, hdigits]
  rw [if_pos ⟨by omega, hhi⟩, List.drop_length]

/-- 終わりまで読めた負でない値は、数字の列の値である。 -/
theorem numeral_of_fromChars (h : fromChars base lo hi text = .value n []) (hn : 0 < n ∨ 0 ≤ lo) :
    Numeral base text ∧ n = digitsValue base text ∧ n ≤ hi := by
  cases hneg : decide (lo < 0) && text.head? == some 45 with
  | true =>
      -- 符号があれば、値は正にならない
      have hlo : lo < 0 := of_decide_eq_true (Bool.and_eq_true_iff.mp hneg).1
      simp only [fromChars, hneg, ↓reduceIte] at h
      split_ifs at h with hdigits hrange
      obtain ⟨hvalue, -⟩ := FromChars.value.inj h
      omega
  | false =>
      simp only [fromChars, hneg, Bool.false_eq_true, ↓reduceIte] at h
      split_ifs at h with hdigits hrange
      obtain ⟨hvalue, hrest⟩ := FromChars.value.inj h
      have hall : text.takeWhile (isDigit base) = text := by
        have hlength : text.length ≤ (text.takeWhile (isDigit base)).length := List.drop_eq_nil_iff.mp hrest
        have htake : text.takeWhile (isDigit base) <+: text := List.takeWhile_prefix _
        exact htake.eq_of_length_le hlength
      rw [hall] at hdigits hvalue hrange
      refine ⟨⟨by simpa using hdigits, fun b hb => ?_⟩, hvalue.symm, hvalue ▸ hrange.2⟩
      rw [← hall] at hb
      exact List.mem_takeWhile_imp hb

/-! ## `std::to_string` -/

/-- 十進の表記。 -/
def toDecimal (n : Nat) : Bytes :=
  if n = 0 then [48] else (Nat.digits 10 n).reverse.map fun d => UInt8.ofNat (48 + d)

/-- 負の数には `-` を付ける。 -/
def toSignedDecimal (n : Int) : Bytes := if n < 0 then 45 :: toDecimal n.natAbs else toDecimal n.natAbs

end Xrpc.Lib
