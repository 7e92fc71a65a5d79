import RvLift.Word
import RvLift.Register

/-!
# Instruction fields

The bit fields of a 32-bit instruction word: opcode, function codes, register numbers and the five
immediate formats, each put together from its pieces and extended to a word.
-/

namespace RvLift.BitField

/-- The major opcode, bits 6 to 0. -/
def opcode (word : Word) : BitVec 7 := word.extractLsb' 0 7

/-- The function code, bits 14 to 12. -/
def funct3 (word : Word) : BitVec 3 := word.extractLsb' 12 3

/-- The destination register, bits 11 to 7. -/
def rd (word : Word) : Reg := ⟨word.extractLsb' 7 5⟩

/-- The first source register, bits 19 to 15. -/
def rs1 (word : Word) : Reg := ⟨word.extractLsb' 15 5⟩

/-- The second source register, bits 24 to 20. -/
def rs2 (word : Word) : Reg := ⟨word.extractLsb' 20 5⟩

/-- Bit 25, which marks multiplication and division among the register operations. -/
def isMulDiv (word : Word) : Bool := word.getLsbD 25

/-- Bit 30, which turns addition into subtraction and a logical right shift into an arithmetic
one. -/
def isAlternate (word : Word) : Bool := word.getLsbD 30

/-- The immediate of register-immediate operations, loads and computed jumps. -/
def immI (word : Word) : Word := (word.extractLsb' 20 12).signExtend 32

/-- The immediate of stores. -/
def immS (word : Word) : Word :=
  (word.extractLsb' 25 7 ++ word.extractLsb' 7 5).signExtend 32

/-- The immediate of branches, an even number. -/
def immB (word : Word) : Word :=
  (word.extractLsb' 31 1 ++ word.extractLsb' 7 1 ++ word.extractLsb' 25 6 ++
    word.extractLsb' 8 4 ++ 0#1).signExtend 32

/-- The upper immediate, its twelve low bits zero. -/
def immU (word : Word) : Word := word.extractLsb' 12 20 ++ 0#12

/-- The immediate of relative jumps, an even number. -/
def immJ (word : Word) : Word :=
  (word.extractLsb' 31 1 ++ word.extractLsb' 12 8 ++ word.extractLsb' 20 1 ++
    word.extractLsb' 21 10 ++ 0#1).signExtend 32

end RvLift.BitField
