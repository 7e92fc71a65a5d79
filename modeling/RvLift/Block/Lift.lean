import RvLift.Block.Basic
import RvLift.Settings

/-!
# Lifting instructions

The block of an instruction. Sources are read into temporaries first and the result is written
last, so an instruction may overwrite a register it reads. A result for `x0` is computed and not
written. A word that encodes no instruction becomes an empty block.
-/

namespace RvLift

namespace Instruction

/-- Compute a result, and write it unless the destination is `x0`. -/
def result (rd : Reg) (value : Expr) : List Stmt :=
  .define .rval value :: if rd = Reg.zero then [] else [.write rd (.temp .rval)]

/-- The value of the second operand of an arithmetic instruction. -/
def operandValue : Operand → Expr
  | .reg source => .reg source
  | .imm value => .imm value

/-- The address that a load or store accesses, from its first source. -/
def accessAddress (offset : Word) : Expr := .alu .add (.temp .rs1) (.imm offset)

/-- The target of a computed jump, its lowest bit cleared. -/
def jumpTarget (rs1 : Reg) (offset : Word) : Expr :=
  .alu .and (.alu .add (.reg rs1) (.imm offset)) (.imm (~~~1))

/-- The statements of an instruction at address `pc`. -/
def stmts (settings : Settings) (pc : Word) : Instruction → List Stmt
  | .lui rd imm => result rd (.imm imm)
  | .auipc rd imm => result rd (.imm (pc + imm))
  | .jal rd _ => result rd (.imm (pc + 4))
  | .jalr rd rs1 offset => .define .target (jumpTarget rs1 offset) :: result rd (.imm (pc + 4))
  | .branch _ rs1 rs2 _ => [.define .rs1 (.reg rs1), .define .rs2 (.reg rs2)]
  | .load width signed rd rs1 offset =>
    .define .rs1 (.reg rs1) :: .define .addr (accessAddress offset) ::
      result rd (.load width signed (.rebase (.temp .addr) settings.base))
  | .store _ rs1 rs2 offset =>
    [.define .rs1 (.reg rs1), .define .rs2 (.reg rs2), .define .addr (accessAddress offset)]
  | .alu op rd rs1 source =>
    .define .rs1 (.reg rs1) :: .define .rs2 (operandValue source) ::
      result rd (.alu op (.temp .rs1) (.temp .rs2))
  | .mulDiv op rd rs1 rs2 =>
    .define .rs1 (.reg rs1) :: .define .rs2 (.reg rs2) ::
      result rd (.mulDiv op (.temp .rs1) (.temp .rs2))
  | .fence => []

/-- Where control goes after an instruction at address `pc`. -/
def terminator (settings : Settings) (pc : Word) : Instruction → Terminator
  | .jal _ offset => .jump ⟨pc + offset⟩
  | .jalr .. => .dispatch (.temp .target)
  | .branch cond _ _ offset => .branch cond (.temp .rs1) (.temp .rs2) ⟨pc + offset⟩
  | .store width _ _ _ =>
    .haltOrStore width (.temp .addr) (.rebase (.temp .addr) settings.base) (.temp .rs2)
  | .lui .. | .auipc .. | .load .. | .alu .. | .mulDiv .. | .fence => .fallthrough

end Instruction

namespace Block

/-- The block of an instruction that `word` encodes at address `pc`. -/
def ofInstruction (settings : Settings) (pc word : Word) (instruction : Instruction) : Block where
  label := ⟨pc⟩
  word := word
  instruction := .ok instruction
  stmts := instruction.stmts settings pc
  terminator := instruction.terminator settings pc

/-- The empty block of a word that encodes no instruction. -/
def ofError (pc word : Word) (error : DecodeError) : Block where
  label := ⟨pc⟩
  word := word
  instruction := .error error
  stmts := []
  terminator := .fallthrough

/-- The block of the word at address `pc`. -/
def ofWord (settings : Settings) (pc word : Word) : Block :=
  match Instruction.decode word pc with
  | .ok instruction => ofInstruction settings pc word instruction
  | .error error => ofError pc word error

end Block

end RvLift
