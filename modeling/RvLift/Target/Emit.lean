import RvLift.Instruction.Text
import RvLift.Program
import RvLift.Target.Text

/-!
# Emitting programs

The source file of a program. Every compound expression comes out in parentheses. A jump to a known
address goes straight to the block there, or through the dispatch switch if there is none; the
switch has no case for such an address either, so control goes on with the next block.

Emitted code never overflows a signed operation, divides by zero or shifts by 32 or more: shift
amounts are masked, and the quotients that do not exist are chosen against first.
-/

namespace RvLift

namespace Target.Expr

/-- The unsigned constant of a word. -/
def ofWord (word : Word) : Expr := .constant (.ofWord word)

/-- An expression read as a signed word. -/
def asSigned (operand : Expr) : Expr := .cast .int32 operand

/-- An operator and its operands in parentheses. -/
def infixed (op : BinaryOp) (left right : Expr) : Expr := .paren (.binary op left right)

/-- A result converted to a word, in parentheses. -/
def toWord (operand : Expr) : Expr := .paren (.cast .uint32 operand)

/-- The five low bits of a shift amount. -/
def shiftAmount (amount : Expr) : Expr :=
  infixed .bitAnd amount (.constant ⟨0x1f, .hexadecimal, false⟩)

/-- The test for a zero divisor. -/
def isZero (operand : Expr) : Expr := .binary .equal operand (.constant ⟨0, .decimal, false⟩)

/-- The high half of a 64-bit product. -/
def highProduct (left right : Expr) : Expr :=
  toWord (infixed .shiftRight (infixed .mul left right) (.constant ⟨32, .decimal, false⟩))

/-- The test for the one signed quotient that does not fit. -/
def quotientOverflows (left right : Expr) : Expr :=
  infixed .logicalAnd (.binary .equal left.asSigned .leastInt32)
    (.binary .equal right.asSigned (.negate (.constant ⟨1, .decimal, false⟩)))

/-- The test of a branch condition. -/
def ofCond (cond : Cond) (left right : Expr) : Expr :=
  match cond with
  | .eq => .binary .equal left right
  | .ne => .binary .notEqual left right
  | .lt => .binary .less left.asSigned right.asSigned
  | .ge => .binary .greaterEqual left.asSigned right.asSigned
  | .ltu => .binary .less left right
  | .geu => .binary .greaterEqual left right

/-- An arithmetic or logic operation. -/
def ofAlu (op : AluOp) (left right : Expr) : Expr :=
  match op with
  | .add => infixed .add left right
  | .sub => infixed .sub left right
  | .sll => infixed .shiftLeft left right.shiftAmount
  | .slt => toWord (infixed .less left.asSigned right.asSigned)
  | .sltu => toWord (infixed .less left right)
  | .xor => infixed .bitXor left right
  | .srl => infixed .shiftRight left right.shiftAmount
  | .sra => toWord (infixed .shiftRight left.asSigned right.shiftAmount)
  | .or => infixed .bitOr left right
  | .and => infixed .bitAnd left right

/-- A multiplication or division. -/
def ofMulDiv (op : MulDivOp) (left right : Expr) : Expr :=
  let ones := ofWord Word.allOnes
  match op with
  | .mul => infixed .mul left right
  | .mulh => highProduct (.cast .int64 left.asSigned) (.cast .int64 right.asSigned)
  | .mulhsu => highProduct (.cast .int64 left.asSigned) (.cast .int64 right)
  | .mulhu => highProduct (.cast .uint64 left) (.cast .uint64 right)
  | .div =>
    .paren (.conditional right.isZero ones
      (.conditional (quotientOverflows left right) left
        (.cast .uint32 (infixed .div left.asSigned right.asSigned))))
  | .divu => .paren (.conditional right.isZero ones (.binary .div left right))
  | .rem =>
    .paren (.conditional right.isZero left
      (.conditional (quotientOverflows left right) (.constant ⟨0, .decimal, true⟩)
        (.cast .uint32 (infixed .mod left.asSigned right.asSigned))))
  | .remu => .paren (.conditional right.isZero left (.binary .mod left right))

/-- A memory read, a narrow signed value converted through its own type. -/
def ofLoad (width : Width) (signed : Bool) (offset : Expr) : Expr :=
  let value := .load width offset
  match width, signed with
  | .byte, true => toWord (.cast .int8 value)
  | .half, true => toWord (.cast .int16 value)
  | _, _ => toWord value

end Target.Expr

/-- The emitted form of an expression. -/
def Expr.emit : Expr → Target.Expr
  | .imm value => .ofWord value
  | .reg source => .register source
  | .temp source => .temp source
  | .alu op left right => .ofAlu op left.emit right.emit
  | .mulDiv op left right => .ofMulDiv op left.emit right.emit
  | .load width signed offset => .ofLoad width signed offset.emit

/-- The emitted form of a statement. -/
def Stmt.emit : Stmt → Target.Stmt
  | .define temp value => .declare temp value.emit
  | .write rd value => .assign rd value.emit

/-- The emitted form of a jump to a known address. -/
def JumpTable.jumpTo (table : JumpTable) (target : Label) : Target.Jump :=
  match table.lookup? target.address with
  | some label => .goto label
  | none => .dispatch (.ofWord target.address)

/-- The emitted form of a terminator. -/
def Terminator.emit (table : JumpTable) : Terminator → List Target.Stmt
  | .fallthrough => []
  | .jump target => [.jump (table.jumpTo target)]
  | .branch cond left right target =>
    [.jumpIf (.ofCond cond left.emit right.emit) (table.jumpTo target)]
  | .dispatch target => [.jump (.dispatch target.emit)]
  | .haltOrStore width address offset value =>
    [.returnIfHalt address.emit value.emit, .store width offset.emit value.emit]

/-- What the comment of a block says: why its word encodes no instruction, or the instruction if
blocks are to be annotated. -/
def Block.remark? (annotate : Bool) (block : Block) : Option String :=
  match block.instruction with
  | .error error => some error.message
  | .ok instruction => if annotate then some instruction.text else none

/-- The emitted form of a block. -/
def Block.emit (table : JumpTable) (annotate : Bool) (block : Block) : Target.Block where
  label := block.label
  word := block.word
  remark? := block.remark? annotate
  body := block.stmts.map Stmt.emit ++ block.terminator.emit table

namespace Program

/-- The source file of a program. -/
def emit (program : Program) (annotate : Bool) : Target.SourceFile where
  base := program.base
  haltAddress := program.haltAddress
  cases := program.table.entries
  blocks := program.blocks.toList.map (Block.emit program.table annotate)

/-- The source text of a program. -/
def source (program : Program) (annotate : Bool) : String := (program.emit annotate).text

end Program

end RvLift
