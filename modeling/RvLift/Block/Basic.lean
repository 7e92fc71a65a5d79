import RvLift.Block.Expr
import RvLift.Instruction.Decode
import RvLift.JumpTable

/-!
# Blocks

A block is what one instruction word becomes: statements that define temporaries and write a
register, and one terminator that says where control goes.
-/

namespace RvLift

/-- A statement of a block. -/
inductive Stmt where
  /-- Give a temporary its value. -/
  | define (temp : Temp) (value : Expr)
  /-- Write a register. -/
  | write (rd : Reg) (value : Expr)
  deriving DecidableEq, Repr

/-- How control leaves a block. -/
inductive Terminator where
  /-- Go on with the next block. -/
  | fallthrough
  /-- Jump to a known address. -/
  | jump (target : Label)
  /-- Jump to a known address if a condition holds, else go on with the next block. -/
  | branch (cond : Cond) (left right : Expr) (target : Label)
  /-- Jump to a computed address. -/
  | dispatch (target : Expr)
  /-- End the program with `value` if `address` is the halt address; otherwise store the low bytes
  of `value` at `offset` and go on with the next block. -/
  | haltOrStore (width : Width) (address offset value : Expr)
  deriving DecidableEq, Repr

/-- The jump target that is known before the program runs. -/
def Terminator.staticTarget? : Terminator → Option Label
  | .jump target | .branch _ _ _ target => some target
  | .fallthrough | .dispatch _ | .haltOrStore .. => none

/-- The block of one instruction word. -/
structure Block where
  /-- The label, which holds the address of the word. -/
  label : Label
  /-- The instruction word. -/
  word : Word
  /-- The instruction, or why the word encodes none. -/
  instruction : Except DecodeError Instruction
  /-- The statements, in order. -/
  stmts : List Stmt
  /-- Where control goes after the statements. -/
  terminator : Terminator

namespace Block

/-- The address of the block. -/
def pc (block : Block) : Word := block.label.address

/-- The register that the first register write of the block names. -/
def writeback? (block : Block) : Option Reg :=
  block.stmts.findSome? fun
    | .write rd _ => some rd
    | .define .. => none

end Block

end RvLift
