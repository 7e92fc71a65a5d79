import RvLift.Instruction.Basic

/-!
# Assembly text

One line of assembly for an instruction. Upper immediates are written in hexadecimal without their
twelve zero bits, all other numbers in signed decimal; an immediate shift shows the five bits that
count.
-/

namespace RvLift

/-- The mnemonic of a load. -/
def Width.loadMnemonic : Width → Bool → String
  | .byte, true => "lb"
  | .half, true => "lh"
  | .word, _ => "lw"
  | .byte, false => "lbu"
  | .half, false => "lhu"

/-- The mnemonic of a store. -/
def Width.storeMnemonic : Width → String
  | .byte => "sb"
  | .half => "sh"
  | .word => "sw"

namespace Instruction

/-- A mnemonic and its operands, separated by commas. -/
def line (mnemonic : String) (operands : List String) : String :=
  mnemonic ++ " " ++ String.intercalate ", " operands

/-- The upper 20 bits of an upper immediate. -/
def upperText (imm : Word) : String := Text.hexNumeral (imm >>> 12).toNat

/-- A memory operand: an offset and the register it is added to. -/
def memoryText (offset : Word) (base : Reg) : String :=
  Text.signed offset.toInt ++ "(" ++ base.text ++ ")"

/-- The immediate operand of an arithmetic instruction. -/
def immediateText (op : AluOp) (value : Word) : String :=
  if op.isShift then Text.decimal value.shiftAmount else Text.signed value.toInt

/-- The assembly text of an instruction. -/
def text : Instruction → String
  | .lui rd imm => line "lui" [rd.text, upperText imm]
  | .auipc rd imm => line "auipc" [rd.text, upperText imm]
  | .jal rd offset => line "jal" [rd.text, Text.signed offset.toInt]
  | .jalr rd rs1 offset => line "jalr" [rd.text, memoryText offset rs1]
  | .branch cond rs1 rs2 offset =>
    line cond.mnemonic [rs1.text, rs2.text, Text.signed offset.toInt]
  | .load width signed rd rs1 offset =>
    line (width.loadMnemonic signed) [rd.text, memoryText offset rs1]
  | .store width rs1 rs2 offset => line width.storeMnemonic [rs2.text, memoryText offset rs1]
  | .alu op rd rs1 (.reg rs2) => line op.mnemonic [rd.text, rs1.text, rs2.text]
  | .alu op rd rs1 (.imm value) =>
    line op.immediateMnemonic [rd.text, rs1.text, immediateText op value]
  | .mulDiv op rd rs1 rs2 => line op.mnemonic [rd.text, rs1.text, rs2.text]
  | .fence => "fence"

end Instruction

end RvLift
