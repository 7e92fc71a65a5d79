import RvLift.Operation
import RvLift.Register

/-!
# Instructions

The instructions of RV32IM in structured form. Immediates and offsets are words in two's
complement, already extended and scaled: an upper immediate stands in bits 31 to 12, and a jump or
branch offset counts bytes.
-/

namespace RvLift

/-- The width of a memory access. -/
inductive Width where
  | byte | half | word
  deriving DecidableEq, Repr

/-- The number of bytes that an access touches. -/
def Width.bytes : Width → Nat
  | .byte => 1
  | .half => 2
  | .word => 4

/-- The second operand of an arithmetic instruction. -/
inductive Operand where
  | reg (source : Reg)
  | imm (value : Word)
  deriving DecidableEq, Repr

/-- An RV32IM instruction. -/
inductive Instruction where
  /-- Load an upper immediate. -/
  | lui (rd : Reg) (imm : Word)
  /-- Add an upper immediate to the address of the instruction. -/
  | auipc (rd : Reg) (imm : Word)
  /-- Jump to a relative address, leaving the return address in `rd`. -/
  | jal (rd : Reg) (offset : Word)
  /-- Jump to a computed address, leaving the return address in `rd`. -/
  | jalr (rd rs1 : Reg) (offset : Word)
  /-- Jump to a relative address if a condition holds. -/
  | branch (cond : Cond) (rs1 rs2 : Reg) (offset : Word)
  /-- Read memory, extending a narrow value by its sign or by zeros. -/
  | load (width : Width) (signed : Bool) (rd rs1 : Reg) (offset : Word)
  /-- Write the low bytes of a register to memory. -/
  | store (width : Width) (rs1 rs2 : Reg) (offset : Word)
  /-- An arithmetic or logic operation. -/
  | alu (op : AluOp) (rd rs1 : Reg) (source : Operand)
  /-- A multiplication or division. -/
  | mulDiv (op : MulDivOp) (rd rs1 rs2 : Reg)
  /-- A memory ordering hint. -/
  | fence
  deriving DecidableEq, Repr

/-- The destination register of an instruction that has one, `x0` included. -/
def Instruction.dest? : Instruction → Option Reg
  | .lui rd _ | .auipc rd _ | .jal rd _ | .jalr rd _ _ => some rd
  | .load _ _ rd _ _ | .alu _ rd _ _ | .mulDiv _ rd _ _ => some rd
  | .branch .. | .store .. | .fence => none

end RvLift
