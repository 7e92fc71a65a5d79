import Mathlib
import RvLift.Operation

/-!
# Word operations on integers

What the word operations compute, said in natural numbers and integers: shifts multiply and divide
by powers of two, high products are quotients of the exact product, and the signed quotient and
remainder are those of truncating division wherever they are taken.
-/

namespace RvLift

namespace Word

/-- The shift amount of a word is its remainder by the word size. -/
theorem shiftAmount_eq (word : Word) : word.shiftAmount = word.toNat % 32 := by
  rw [shiftAmount, BitVec.toNat_setWidth]

/-- A word is the word of its unsigned value. -/
theorem ofInt_toNat (word : Word) : BitVec.ofInt 32 word.toNat = word := by
  rw [BitVec.ofInt_natCast, BitVec.ofNat_toNat, BitVec.setWidth_eq]

/-- The least signed word by its value. -/
theorem eq_minSigned_iff (word : Word) : word = minSigned ↔ word.toInt = -2 ^ 31 :=
  BitVec.toInt_inj.symm

/-- Minus one by its value. -/
theorem eq_allOnes_iff (word : Word) : word = allOnes ↔ word.toInt = -1 :=
  BitVec.toInt_inj.symm

/-- Only the word zero has the signed value zero. -/
theorem toInt_ne_zero {word : Word} (nonzero : word ≠ 0) : word.toInt ≠ 0 :=
  fun zero => nonzero (BitVec.eq_of_toInt_eq zero)

/-- Only the word zero has the unsigned value zero. -/
theorem toNat_ne_zero {word : Word} (nonzero : word ≠ 0) : word.toNat ≠ 0 :=
  fun zero => nonzero (BitVec.eq_of_toNat_eq zero)

/-- The magnitude of a signed word. -/
theorem natAbs_toInt_le (word : Word) : word.toInt.natAbs ≤ 2 ^ 31 := by
  have low := BitVec.le_toInt word
  have high := BitVec.toInt_lt (x := word)
  omega

/-- The product of a signed word and a signed or unsigned one fits in 64 bits. -/
theorem product_range {left right : Int} (leftSmall : left.natAbs ≤ 2 ^ 31)
    (rightSmall : right.natAbs ≤ 2 ^ 32 - 1) :
    -2 ^ 63 ≤ left * right ∧ left * right < 2 ^ 63 := by
  have product : (left * right).natAbs ≤ 2 ^ 31 * (2 ^ 32 - 1) := by
    rw [Int.natAbs_mul]
    exact Nat.mul_le_mul leftSmall rightSmall
  omega

/-- The product of two unsigned words fits in 64 bits. -/
theorem unsigned_product_lt (left right : Word) : left.toNat * right.toNat < 2 ^ 64 := by
  calc
    left.toNat * right.toNat ≤ left.toNat * 2 ^ 32 :=
      Nat.mul_le_mul_left _ (Nat.le_of_lt right.isLt)
    _ < 2 ^ 32 * 2 ^ 32 := Nat.mul_lt_mul_of_pos_right left.isLt (by decide)
    _ = 2 ^ 64 := by decide

end Word

namespace AluOp

/-- A left shift multiplies by a power of two. -/
theorem apply_sll (left right : Word) :
    sll.apply left right = BitVec.ofNat 32 (left.toNat * 2 ^ (right.toNat % 32)) := by
  apply BitVec.eq_of_toNat_eq
  rw [apply, BitVec.toNat_shiftLeft, BitVec.toNat_ofNat, Nat.shiftLeft_eq, Word.shiftAmount_eq]

/-- A logical right shift divides the unsigned value by a power of two. -/
theorem apply_srl (left right : Word) :
    srl.apply left right = BitVec.ofNat 32 (left.toNat / 2 ^ (right.toNat % 32)) := by
  have small : left.toNat / 2 ^ (right.toNat % 32) < 2 ^ 32 :=
    Nat.lt_of_le_of_lt (Nat.div_le_self ..) left.isLt
  apply BitVec.eq_of_toNat_eq
  rw [apply, BitVec.toNat_ushiftRight, BitVec.toNat_ofNat, Nat.shiftRight_eq_div_pow,
    Word.shiftAmount_eq, Nat.mod_eq_of_lt small]

/-- The signed value of an arithmetic right shift. -/
theorem toInt_sra (left right : Word) :
    (sra.apply left right).toInt = left.toInt / 2 ^ (right.toNat % 32) := by
  rw [apply, BitVec.toInt_sshiftRight, Int.shiftRight_eq_div_pow, Word.shiftAmount_eq]
  norm_cast

/-- An arithmetic right shift divides the signed value by a power of two, rounding down. -/
theorem apply_sra (left right : Word) :
    sra.apply left right = BitVec.ofInt 32 (left.toInt / 2 ^ (right.toNat % 32)) := by
  rw [← toInt_sra, BitVec.ofInt_toInt]

/-- The signed comparison compares signed values. -/
theorem apply_slt (left right : Word) :
    slt.apply left right = if left.toInt < right.toInt then 1 else 0 := by
  simp [apply, Word.ofBool, BitVec.slt_eq_decide]

/-- The unsigned comparison compares unsigned values. -/
theorem apply_sltu (left right : Word) :
    sltu.apply left right = if left.toNat < right.toNat then 1 else 0 := by
  simp [apply, Word.ofBool, BitVec.ult_eq_decide]

end AluOp

namespace MulDivOp

/-- The high half of a product is its quotient by the word modulus, rounding down. -/
theorem highWord_ofInt (product : Int) :
    highWord (BitVec.ofInt 64 product) = BitVec.ofInt 32 (product / 2 ^ 32) := by
  apply BitVec.eq_of_toNat_eq
  rw [highWord, BitVec.extractLsb'_toNat, BitVec.toNat_ofInt, BitVec.toNat_ofInt,
    Nat.shiftRight_eq_div_pow]
  omega

/-- Widening an unsigned word keeps its value. -/
theorem zeroExtend_eq_ofInt (word : Word) : word.zeroExtend 64 = BitVec.ofInt 64 word.toNat := by
  rw [BitVec.ofInt_natCast]
  apply BitVec.eq_of_toNat_eq
  rw [BitVec.toNat_ofNat]
  exact BitVec.toNat_setWidth ..

/-- The low product by signed values. -/
theorem apply_mul (left right : Word) :
    mul.apply left right = BitVec.ofInt 32 (left.toInt * right.toInt) := by
  rw [BitVec.ofInt_mul, BitVec.ofInt_toInt, BitVec.ofInt_toInt, apply]

/-- The high half of the signed product is its quotient by the word modulus, rounding down. -/
theorem apply_mulh (left right : Word) :
    mulh.apply left right = BitVec.ofInt 32 (left.toInt * right.toInt / 2 ^ 32) := by
  rw [← highWord_ofInt, BitVec.ofInt_mul]
  rfl

/-- The high half of the product of a signed and an unsigned value. Only the first word is read as
signed. -/
theorem apply_mulhsu (left right : Word) :
    mulhsu.apply left right = BitVec.ofInt 32 (left.toInt * right.toNat / 2 ^ 32) := by
  rw [← highWord_ofInt, BitVec.ofInt_mul, ← zeroExtend_eq_ofInt]
  rfl

/-- The high half of the unsigned product. -/
theorem apply_mulhu (left right : Word) :
    mulhu.apply left right = BitVec.ofNat 32 (left.toNat * right.toNat / 2 ^ 32) := by
  have quotient : ((left.toNat * right.toNat / 2 ^ 32 : Nat) : Int) =
      (left.toNat : Int) * right.toNat / 2 ^ 32 := by norm_cast
  rw [← BitVec.ofInt_natCast, quotient, ← highWord_ofInt, BitVec.ofInt_mul,
    ← zeroExtend_eq_ofInt, ← zeroExtend_eq_ofInt]
  rfl

/-- The one signed quotient that does not fit, by values. -/
theorem overflows_iff (left right : Word) :
    overflows left right = true ↔ left.toInt = -2 ^ 31 ∧ right.toInt = -1 := by
  rw [overflows, Bool.and_eq_true, beq_iff_eq, beq_iff_eq, Word.eq_minSigned_iff,
    Word.eq_allOnes_iff]

/-- The signed quotient truncates towards zero. -/
theorem sdiv_eq_ofInt (left right : Word) :
    left.sdiv right = BitVec.ofInt 32 (left.toInt.tdiv right.toInt) := by
  apply BitVec.eq_of_toInt_eq
  rw [BitVec.toInt_sdiv, BitVec.toInt_ofInt]

/-- A signed quotient other than the one exception fits. -/
theorem toInt_sdiv {left right : Word} (fits : ¬(left.toInt = -2 ^ 31 ∧ right.toInt = -1)) :
    (left.sdiv right).toInt = left.toInt.tdiv right.toInt := by
  have exact : left ≠ BitVec.intMin 32 ∨ right ≠ -1#32 := by
    refine Decidable.not_and_iff_not_or_not.1 fun both => fits ?_
    rw [both.1, both.2]
    exact ⟨rfl, rfl⟩
  exact BitVec.toInt_sdiv_of_ne_or_ne left right exact

/-- The signed remainder goes with the truncating quotient. -/
theorem srem_eq_ofInt (left right : Word) :
    left.srem right = BitVec.ofInt 32 (left.toInt.tmod right.toInt) := by
  rw [← BitVec.toInt_srem, BitVec.ofInt_toInt]

/-- Signed division, with what stands for the quotients that do not exist. -/
theorem apply_div (left right : Word) :
    div.apply left right =
      if right = 0 then BitVec.ofInt 32 (-1)
      else if left.toInt = -2 ^ 31 ∧ right.toInt = -1 then left
      else BitVec.ofInt 32 (left.toInt.tdiv right.toInt) := by
  simp only [apply, overflows_iff, sdiv_eq_ofInt]
  rfl

/-- Unsigned division, all ones standing for the quotient by zero. No other quotient is left out. -/
theorem apply_divu (left right : Word) :
    divu.apply left right =
      if right = 0 then BitVec.ofInt 32 (-1) else BitVec.ofNat 32 (left.toNat / right.toNat) := by
  have quotient : left.udiv right = BitVec.ofNat 32 (left.toNat / right.toNat) := by
    apply BitVec.eq_of_toNat_eq
    rw [BitVec.toNat_ofNat, Nat.mod_eq_of_lt (Nat.lt_of_le_of_lt (Nat.div_le_self ..) left.isLt)]
    exact BitVec.toNat_udiv
  simp only [apply, quotient]
  rfl

/-- Signed remainder, the dividend standing for the remainder by zero. -/
theorem apply_rem (left right : Word) :
    rem.apply left right =
      if right = 0 then left
      else if left.toInt = -2 ^ 31 ∧ right.toInt = -1 then 0
      else BitVec.ofInt 32 (left.toInt.tmod right.toInt) := by
  simp only [apply, overflows_iff, srem_eq_ofInt]

/-- Unsigned remainder, the dividend standing for the remainder by zero. -/
theorem apply_remu (left right : Word) :
    remu.apply left right =
      if right = 0 then left else BitVec.ofNat 32 (left.toNat % right.toNat) := by
  have remainder : left.umod right = BitVec.ofNat 32 (left.toNat % right.toNat) := by
    apply BitVec.eq_of_toNat_eq
    rw [BitVec.toNat_ofNat, Nat.mod_eq_of_lt (Nat.lt_of_le_of_lt (Nat.mod_le ..) left.isLt)]
    exact BitVec.toNat_umod
  simp only [apply, remainder]

end MulDivOp

namespace Cond

/-- The conditions compare signed or unsigned values. -/
theorem holds_iff (cond : Cond) (left right : Word) :
    cond.holds left right = true ↔
      match cond with
      | .eq => left.toNat = right.toNat
      | .ne => left.toNat ≠ right.toNat
      | .lt => left.toInt < right.toInt
      | .ge => left.toInt ≥ right.toInt
      | .ltu => left.toNat < right.toNat
      | .geu => left.toNat ≥ right.toNat := by
  cases cond <;> simp [holds, BitVec.slt_eq_decide, BitVec.sle_eq_decide, BitVec.ult_eq_decide,
    BitVec.ule_eq_decide, BitVec.toNat_inj]

end Cond

end RvLift
