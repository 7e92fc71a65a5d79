import RvLift.Instruction.Basic

/-!
# Expressions

The word expressions that blocks are made of: constants, registers, the temporaries of the block,
word operations, and reads of guest memory at an offset from its first byte.
-/

namespace RvLift

/-- A temporary of a block. -/
inductive Temp where
  /-- The value of the first source. -/
  | rs1
  /-- The value of the second source. -/
  | rs2
  /-- The address of a memory access. -/
  | addr
  /-- The target of a computed jump. -/
  | target
  /-- The result of the instruction. -/
  | rval
  deriving DecidableEq, Repr

/-- The name of a temporary in emitted code. -/
def Temp.name : Temp → String
  | .rs1 => "rs1"
  | .rs2 => "rs2"
  | .addr => "addr"
  | .target => "target"
  | .rval => "rval"

/-- An expression with a word as its value. -/
inductive Expr where
  /-- A constant. -/
  | imm (value : Word)
  /-- The value of a register when the block is entered. -/
  | reg (source : Reg)
  /-- The value of a temporary. -/
  | temp (source : Temp)
  /-- An arithmetic or logic operation. -/
  | alu (op : AluOp) (left right : Expr)
  /-- A multiplication or division. -/
  | mulDiv (op : MulDivOp) (left right : Expr)
  /-- A memory read, a narrow value extended by its sign or by zeros. -/
  | load (width : Width) (signed : Bool) (offset : Expr)
  deriving DecidableEq, Repr

/-- The offset of an address from the start of guest memory. -/
def Expr.rebase (address : Expr) (base : Word) : Expr :=
  .alu .sub address (.imm base)

end RvLift
