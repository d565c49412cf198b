import Xrpc.Naming.ConsulHttpClient

/-!
# 空白と数字
-/

namespace Xrpc.Naming
open Xrpc.Lib

variable {base : Nat} {b : UInt8} {ws digits : Bytes}

theorem isSpace_iff : isSpace b = true ↔ b.toNat = 32 ∨ 9 ≤ b.toNat ∧ b.toNat ≤ 13 := by
  simp [isSpace, UInt8.le_iff_toNat_le, ← UInt8.toNat_inj]

/-- 数字は、数字か英字である。 -/
theorem alnum_of_isDigit (hbase : base ≤ 36) (h : isDigit base b = true) :
    48 ≤ b.toNat ∧ b.toNat ≤ 57 ∨ 65 ≤ b.toNat ∧ b.toNat ≤ 90 ∨ 97 ≤ b.toNat ∧ b.toNat ≤ 122 := by
  have hlt : digitOf b < base := of_decide_eq_true h
  simp only [digitOf, UInt8.le_iff_toNat_le, UInt8.reduceToNat] at hlt
  split_ifs at hlt <;> omega

theorem isSpace_of_isDigit (hbase : base ≤ 36) (h : isDigit base b = true) : isSpace b = false := by
  have halnum := alnum_of_isDigit hbase h
  rw [← Bool.not_eq_true, isSpace_iff]
  omega

theorem blank_nil : Blank [] := fun _ hb => absurd hb List.not_mem_nil

theorem Blank.notMem (h : Blank ws) (hb : isSpace b = false) : b ∉ ws := by
  intro hmem
  rw [h b hmem] at hb
  cases hb

theorem notMem_numeral (hbase : base ≤ 36) (h : Numeral base digits) (hb : isDigit 36 b = false) : b ∉ digits := by
  intro hmem
  have hlt : digitOf b < base := of_decide_eq_true (h.2 b hmem)
  have hge : ¬ digitOf b < 36 := of_decide_eq_false hb
  omega

theorem trimmed_numeral (hbase : base ≤ 36) (h : Numeral base digits) : Trimmed isSpace digits :=
  ⟨fun _ ha => isSpace_of_isDigit hbase (h.2 _ (List.mem_of_head? ha)),
    fun _ ha => isSpace_of_isDigit hbase (h.2 _ (List.mem_of_getLast? ha))⟩

/-- 右に空白を足しても、切り落としたものは変わらない。 -/
theorem trim_append_blank (value : Bytes) (h : Blank ws) : trim (value ++ ws) = trim value := by
  obtain ⟨a, b, hsplit, ha, hb⟩ := exists_trimBy isSpace value
  have hws : ∀ x ∈ b ++ ws, isSpace x = true := by
    intro x hx
    rcases List.mem_append.mp hx with hx | hx
    · exact hb x hx
    · exact h x hx
  conv_lhs => rw [hsplit, List.append_assoc, List.append_assoc]
  exact trimBy_append ha (trimmed_trimBy isSpace value) hws

/-- 両側に空白を置いても、切り落とせば元に戻る。 -/
theorem trim_blank {leading value trailing : Bytes} (hleading : Blank leading) (hvalue : Trimmed isSpace value)
    (htrailing : Blank trailing) : trim (leading ++ (value ++ trailing)) = value :=
  trimBy_append hleading hvalue htrailing

theorem trim_trimmed {value : Bytes} (h : Trimmed isSpace value) : trim value = value := by
  have := trim_blank blank_nil h blank_nil
  rwa [List.nil_append, List.append_nil] at this

end Xrpc.Naming
