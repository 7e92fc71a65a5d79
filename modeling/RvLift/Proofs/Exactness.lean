import Mathlib
import RvLift.Proofs.Arithmetic

/-!
# Exact products and quotients

The two halves of a product make up the product of the values, and quotient and remainder make up
the dividend, whatever the divisor. Signed quotients round towards zero.

Evaluation that refuses what the operations of the machine do not offer, a product that its 64 bits
cannot hold or a quotient that does not exist, never has to refuse: the guards of an operation keep
its primitive steps inside their domains.
-/

namespace RvLift

namespace MulDivOp

/-- The signed product of two 64-bit numbers, refused if it does not fit. -/
def signedProduct? (left right : BitVec 64) : Option (BitVec 64) :=
  if -2 ^ 63 ≤ left.toInt * right.toInt ∧ left.toInt * right.toInt < 2 ^ 63 then
    some (left * right)
  else none

/-- The unsigned product of two 64-bit numbers, refused if it does not fit. -/
def unsignedProduct? (left right : BitVec 64) : Option (BitVec 64) :=
  if left.toNat * right.toNat < 2 ^ 64 then some (left * right) else none

/-- A signed quotient or remainder, refused for the divisor zero and where the quotient does not
fit. -/
def signedDivision? (operation : Word → Word → Word) (left right : Word) : Option Word :=
  if right.toInt = 0 ∨ left.toInt = -2 ^ 31 ∧ right.toInt = -1 then none
  else some (operation left right)

/-- An unsigned quotient or remainder, refused for the divisor zero. -/
def unsignedDivision? (operation : Word → Word → Word) (left right : Word) : Option Word :=
  if right.toNat = 0 then none else some (operation left right)

/-- The result of a multiplication or division, unless one of its steps is refused. -/
def applyChecked? (op : MulDivOp) (left right : Word) : Option Word :=
  match op with
  | .mul => some (left * right)
  | .mulh => (signedProduct? (left.signExtend 64) (right.signExtend 64)).map highWord
  | .mulhsu => (signedProduct? (left.signExtend 64) (right.zeroExtend 64)).map highWord
  | .mulhu => (unsignedProduct? (left.zeroExtend 64) (right.zeroExtend 64)).map highWord
  | .div =>
    if right = 0 then some Word.allOnes
    else if overflows left right then some left
    else signedDivision? BitVec.sdiv left right
  | .divu => if right = 0 then some Word.allOnes else unsignedDivision? BitVec.udiv left right
  | .rem =>
    if right = 0 then some left
    else if overflows left right then some 0
    else signedDivision? BitVec.srem left right
  | .remu => if right = 0 then some left else unsignedDivision? BitVec.umod left right

section Products

variable (left right : Word)

/-- The product of two signed words fits in 64 bits. -/
theorem signed_product_range :
    -2 ^ 63 ≤ left.toInt * right.toInt ∧ left.toInt * right.toInt < 2 ^ 63 :=
  Word.product_range left.natAbs_toInt_le (Nat.le_trans right.natAbs_toInt_le (by decide))

/-- The product of a signed and an unsigned word fits in 64 bits. -/
theorem mixed_product_range :
    -2 ^ 63 ≤ left.toInt * right.toNat ∧ left.toInt * right.toNat < 2 ^ 63 := by
  have rightSmall : (right.toNat : Int).natAbs ≤ 2 ^ 32 - 1 := Nat.le_sub_one_of_lt right.isLt
  exact Word.product_range left.natAbs_toInt_le rightSmall

/-- The two halves of a number that fits in 64 bits make up the number. -/
theorem halves_ofInt {product : Int} (low : -2 ^ 63 ≤ product) (high : product < 2 ^ 63) :
    2 ^ 32 * (BitVec.ofInt 32 (product / 2 ^ 32)).toInt + (BitVec.ofInt 32 product).toNat =
      product := by
  have upper : (BitVec.ofInt 32 (product / 2 ^ 32)).toInt = product / 2 ^ 32 := by
    rw [BitVec.toInt_ofInt]
    exact Int.bmod_eq_of_le (by omega) (by omega)
  have lower : ((BitVec.ofInt 32 product).toNat : Int) = product % 2 ^ 32 := by
    rw [BitVec.toNat_ofInt]
    omega
  rw [upper, lower]
  omega

/-- The low half of a product does not depend on whether its second word is read as signed. -/
theorem mul_eq_ofInt_mixed : mul.apply left right = BitVec.ofInt 32 (left.toInt * right.toNat) := by
  rw [BitVec.ofInt_mul, BitVec.ofInt_toInt, Word.ofInt_toNat, apply]

/-- The two halves of the signed product make up the product of the signed values. -/
theorem mulh_exact :
    2 ^ 32 * (mulh.apply left right).toInt + (mul.apply left right).toNat =
      left.toInt * right.toInt := by
  have range := signed_product_range left right
  rw [apply_mulh, apply_mul]
  exact halves_ofInt range.1 range.2

/-- The two halves of the mixed product make up the product of the signed value of the first word
and the unsigned value of the second. -/
theorem mulhsu_exact :
    2 ^ 32 * (mulhsu.apply left right).toInt + (mul.apply left right).toNat =
      left.toInt * right.toNat := by
  have range := mixed_product_range left right
  rw [apply_mulhsu, mul_eq_ofInt_mixed]
  exact halves_ofInt range.1 range.2

/-- The two halves of the unsigned product make up the product of the unsigned values. -/
theorem mulhu_exact :
    2 ^ 32 * (mulhu.apply left right).toNat + (mul.apply left right).toNat =
      left.toNat * right.toNat := by
  have range := Word.unsigned_product_lt left right
  have lower : (mul.apply left right).toNat = left.toNat * right.toNat % 2 ^ 32 :=
    BitVec.toNat_mul ..
  rw [apply_mulhu, lower, BitVec.toNat_ofNat]
  omega

end Products

section Quotients

variable {left right : Word}

/-- Integers that make up a dividend make it up as words. -/
theorem ofInt_mul_add {quotient remainder : Int}
    (whole : quotient * right.toInt + remainder = left.toInt) :
    BitVec.ofInt 32 quotient * right + BitVec.ofInt 32 remainder = left := by
  have divisor : BitVec.ofInt 32 right.toInt = right := BitVec.ofInt_toInt
  calc
    BitVec.ofInt 32 quotient * right + BitVec.ofInt 32 remainder =
        BitVec.ofInt 32 (quotient * right.toInt + remainder) := by
      rw [BitVec.ofInt_add, BitVec.ofInt_mul, divisor]
    _ = left := by rw [whole, BitVec.ofInt_toInt]

/-- Signed quotient and remainder make up the dividend. -/
theorem div_mul_add_rem (left right : Word) :
    div.apply left right * right + rem.apply left right = left := by
  rw [apply_div, apply_rem]
  by_cases zero : right = 0
  · rw [if_pos zero, if_pos zero, zero]
    exact (congrArg (· + left) BitVec.mul_zero).trans (BitVec.zero_add left)
  · rw [if_neg zero, if_neg zero]
    by_cases overflow : left.toInt = -2 ^ 31 ∧ right.toInt = -1
    · rw [if_pos overflow, if_pos overflow]
      obtain rfl : left = Word.minSigned := left.eq_minSigned_iff.2 overflow.1
      obtain rfl : right = Word.allOnes := right.eq_allOnes_iff.2 overflow.2
      decide
    · rw [if_neg overflow, if_neg overflow]
      exact ofInt_mul_add (Int.tdiv_mul_add_tmod ..)

/-- Unsigned quotient and remainder make up the dividend. -/
theorem divu_mul_add_remu (left right : Word) :
    divu.apply left right * right + remu.apply left right = left := by
  rw [apply_divu, apply_remu]
  by_cases zero : right = 0
  · rw [if_pos zero, if_pos zero, zero]
    exact (congrArg (· + left) BitVec.mul_zero).trans (BitVec.zero_add left)
  · rw [if_neg zero, if_neg zero]
    have whole := Nat.div_add_mod' left.toNat right.toNat
    apply BitVec.eq_of_toNat_eq
    rw [BitVec.toNat_add, BitVec.toNat_mul, BitVec.toNat_ofNat, BitVec.toNat_ofNat,
      Nat.mod_mul_mod, ← Nat.add_mod, whole, Nat.mod_eq_of_lt left.isLt]

/-- The remainder is that of truncating division, the exception included. -/
theorem toInt_rem (nonzero : right ≠ 0) :
    (rem.apply left right).toInt = left.toInt.tmod right.toInt := by
  rw [apply_rem, if_neg nonzero]
  by_cases overflow : left.toInt = -2 ^ 31 ∧ right.toInt = -1
  · rw [if_pos overflow, overflow.1, overflow.2]
    decide
  · rw [if_neg overflow, ← srem_eq_ofInt, BitVec.toInt_srem]

/-- The quotient is that of truncating division, with one exception. -/
theorem toInt_div (nonzero : right ≠ 0) (fits : ¬(left.toInt = -2 ^ 31 ∧ right.toInt = -1)) :
    (div.apply left right).toInt = left.toInt.tdiv right.toInt := by
  rw [apply_div, if_neg nonzero, if_neg fits, ← sdiv_eq_ofInt]
  exact toInt_sdiv fits

/-- The unsigned quotient is that of natural numbers, without an exception. -/
theorem toNat_divu (nonzero : right ≠ 0) :
    (divu.apply left right).toNat = left.toNat / right.toNat := by
  have small := Nat.lt_of_le_of_lt (Nat.div_le_self left.toNat right.toNat) left.isLt
  rw [apply_divu, if_neg nonzero, BitVec.toNat_ofNat, Nat.mod_eq_of_lt small]

/-- The unsigned remainder is that of natural numbers, without an exception. -/
theorem toNat_remu (nonzero : right ≠ 0) :
    (remu.apply left right).toNat = left.toNat % right.toNat := by
  have small := Nat.lt_of_le_of_lt (Nat.mod_le left.toNat right.toNat) left.isLt
  rw [apply_remu, if_neg nonzero, BitVec.toNat_ofNat, Nat.mod_eq_of_lt small]

/-- A remainder of truncating division is zero or has the sign of the dividend. -/
theorem tmod_eq_zero_or_sign (dividend divisor : Int) :
    dividend.tmod divisor = 0 ∨ (dividend.tmod divisor).sign = dividend.sign := by
  rw [Int.sign_tmod]
  by_cases divides : divisor ∣ dividend
  · exact .inl (Int.tmod_eq_zero_of_dvd divides)
  · exact .inr (if_neg divides)

/-- A remainder of truncating division is smaller than the divisor. -/
theorem abs_tmod_lt (dividend : Int) {divisor : Int} (nonzero : divisor ≠ 0) :
    |dividend.tmod divisor| < |divisor| := by
  have magnitude := Int.natAbs_tmod dividend divisor
  have small : dividend.natAbs % divisor.natAbs < divisor.natAbs :=
    Nat.mod_lt _ (Int.natAbs_pos.2 nonzero)
  rw [Int.abs_eq_natAbs, Int.abs_eq_natAbs]
  omega

end Quotients

section Guards

variable {left right : Word}

/-- Behind its guards a signed division is not refused. -/
theorem signedDivision?_eq_some (operation : Word → Word → Word) (nonzero : right ≠ 0)
    (fits : ¬overflows left right = true) :
    signedDivision? operation left right = some (operation left right) := by
  have exists_quotient : ¬(right.toInt = 0 ∨ left.toInt = -2 ^ 31 ∧ right.toInt = -1) := by
    rintro (zero | overflow)
    · exact Word.toInt_ne_zero nonzero zero
    · exact fits ((overflows_iff left right).2 overflow)
  rw [signedDivision?, if_neg exists_quotient]

/-- Behind its guard an unsigned division is not refused. -/
theorem unsignedDivision?_eq_some (operation : Word → Word → Word) (nonzero : right ≠ 0) :
    unsignedDivision? operation left right = some (operation left right) := by
  rw [unsignedDivision?, if_neg (Word.toNat_ne_zero nonzero)]

/-- No step of a multiplication or division is refused. -/
theorem applyChecked?_eq_some (op : MulDivOp) (left right : Word) :
    op.applyChecked? left right = some (op.apply left right) := by
  have signed (word : Word) : (word.signExtend 64).toInt = word.toInt :=
    BitVec.toInt_signExtend_of_le (by decide)
  have unsigned (word : Word) : (word.zeroExtend 64).toNat = word.toNat :=
    BitVec.toNat_setWidth_of_le (by decide)
  have unsignedValue (word : Word) : (word.zeroExtend 64).toInt = word.toNat := by
    have small : 2 * (word.zeroExtend 64).toNat < 2 ^ 64 := by
      have bound := word.isLt
      rw [unsigned]
      omega
    rw [BitVec.toInt_eq_toNat_of_lt small, unsigned]
  cases op with
  | mul => rfl
  | mulh =>
    have range := signed_product_range left right
    rw [← signed left, ← signed right] at range
    rw [applyChecked?, signedProduct?, if_pos range, Option.map_some, apply]
  | mulhsu =>
    have range := mixed_product_range left right
    rw [← signed left, ← unsignedValue right] at range
    rw [applyChecked?, signedProduct?, if_pos range, Option.map_some, apply]
  | mulhu =>
    have range := Word.unsigned_product_lt left right
    rw [← unsigned left, ← unsigned right] at range
    rw [applyChecked?, unsignedProduct?, if_pos range, Option.map_some, apply]
  | div =>
    by_cases zero : right = 0
    · simp only [applyChecked?, apply, if_pos zero]
    · by_cases overflow : overflows left right = true
      · simp only [applyChecked?, apply, if_neg zero, if_pos overflow]
      · simp only [applyChecked?, apply, if_neg zero, if_neg overflow,
          signedDivision?_eq_some _ zero overflow]
  | divu =>
    by_cases zero : right = 0
    · simp only [applyChecked?, apply, if_pos zero]
    · simp only [applyChecked?, apply, if_neg zero, unsignedDivision?_eq_some _ zero]
  | rem =>
    by_cases zero : right = 0
    · simp only [applyChecked?, apply, if_pos zero]
    · by_cases overflow : overflows left right = true
      · simp only [applyChecked?, apply, if_neg zero, if_pos overflow]
      · simp only [applyChecked?, apply, if_neg zero, if_neg overflow,
          signedDivision?_eq_some _ zero overflow]
  | remu =>
    by_cases zero : right = 0
    · simp only [applyChecked?, apply, if_pos zero]
    · simp only [applyChecked?, apply, if_neg zero, unsignedDivision?_eq_some _ zero]

end Guards

/-- Products and quotients are exact. The high half of a product and its low half, which is the same
for all signs, make up the product of the values. Quotient and remainder make up the dividend for
every divisor. By a divisor other than zero the signed remainder is smaller than the divisor and
zero or of the dividend's sign, and the signed quotient is truncated towards zero, except that the
least word divided by minus one is the least word; the unsigned remainder is below the divisor and
goes with the quotient rounded down. A quotient by zero is all ones. No step on the way is refused:
every 64-bit product fits its type, no divisor is zero, and no signed quotient is the one that does
not fit. -/
theorem products_and_quotients_exact (left right : Word) :
    (2 ^ 32 * (mulh.apply left right).toInt + (mul.apply left right).toNat =
        left.toInt * right.toInt ∧
      2 ^ 32 * (mulhsu.apply left right).toInt + (mul.apply left right).toNat =
        left.toInt * right.toNat ∧
      2 ^ 32 * (mulhu.apply left right).toNat + (mul.apply left right).toNat =
        left.toNat * right.toNat) ∧
    (div.apply left right * right + rem.apply left right = left ∧
      divu.apply left right * right + remu.apply left right = left) ∧
    (right ≠ 0 →
      |(rem.apply left right).toInt| < |right.toInt| ∧
      ((rem.apply left right).toInt = 0 ∨ (rem.apply left right).toInt.sign = left.toInt.sign) ∧
      (div.apply left right).toInt =
        (if left = Word.minSigned ∧ right = Word.allOnes then Word.minSigned.toInt
        else left.toInt.tdiv right.toInt) ∧
      (remu.apply left right).toNat < right.toNat ∧
      (divu.apply left right).toNat = left.toNat / right.toNat) ∧
    (right = 0 →
      div.apply left right = Word.allOnes ∧ divu.apply left right = Word.allOnes) ∧
    ∀ op : MulDivOp, op.applyChecked? left right = some (op.apply left right) := by
  refine ⟨⟨mulh_exact left right, mulhsu_exact left right, mulhu_exact left right⟩,
    ⟨div_mul_add_rem left right, divu_mul_add_remu left right⟩, fun nonzero => ?_, fun zero => ?_,
    fun op => op.applyChecked?_eq_some left right⟩
  · have remainder : (rem.apply left right).toInt = left.toInt.tmod right.toInt :=
      toInt_rem nonzero
    refine ⟨?_, ?_, ?_, ?_, toNat_divu nonzero⟩
    · rw [remainder]
      exact abs_tmod_lt _ (Word.toInt_ne_zero nonzero)
    · rw [remainder]
      exact tmod_eq_zero_or_sign _ _
    · by_cases overflow : left = Word.minSigned ∧ right = Word.allOnes
      · rw [if_pos overflow, overflow.1, overflow.2]
        decide
      · rw [if_neg overflow]
        rw [Word.eq_minSigned_iff, Word.eq_allOnes_iff] at overflow
        exact toInt_div nonzero overflow
    · rw [toNat_remu nonzero]
      exact Nat.mod_lt _ (Nat.pos_of_ne_zero (Word.toNat_ne_zero nonzero))
  · rw [apply_div, apply_divu, if_pos zero, if_pos zero]
    exact ⟨rfl, rfl⟩

/-- The least word and minus one, of which the quotient does not fit, and the same dividend by
zero. -/
theorem products_and_quotients_exact_least :
    let least := Word.minSigned
    let minusOne := Word.allOnes
    (minusOne ≠ 0 ∧ (div.apply least minusOne).toInt = -2 ^ 31 ∧
      |(rem.apply least minusOne).toInt| < 1 ∧
      2 ^ 32 * (mulh.apply least minusOne).toInt + (mul.apply least minusOne).toNat = 2 ^ 31) ∧
    div.apply least 0 = Word.allOnes ∧ div.apply least 0 * 0 + rem.apply least 0 = least := by
  intro least minusOne
  have nonzero : minusOne ≠ 0 := by decide
  obtain ⟨⟨signed, -⟩, -, quotients, -⟩ := products_and_quotients_exact least minusOne
  obtain ⟨-, ⟨whole, -⟩, -, byZero, -⟩ := products_and_quotients_exact least 0
  obtain ⟨small, -, quotient, -⟩ := quotients nonzero
  refine ⟨⟨nonzero, ?_, ?_, ?_⟩, (byZero rfl).1, whole⟩
  · rw [quotient]
    decide
  · exact small
  · rw [signed]
    decide

end MulDivOp

end RvLift
