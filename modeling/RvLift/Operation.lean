import RvLift.Word

/-!
# Word operations

The operations that instructions compute: the arithmetic and logic operations, multiplication and
division, and the branch conditions, each with its meaning on words and its mnemonic.

Shift amounts are taken from the five low bits. Division by zero gives all ones and leaves the
dividend as the remainder; the one signed quotient that does not fit is the dividend itself, with
remainder zero. No quotient or remainder is taken outside its guards.
-/

namespace RvLift

/-- Arithmetic and logic on two words. -/
inductive AluOp where
  | add | sub | sll | slt | sltu | xor | srl | sra | or | and
  deriving DecidableEq, Repr

/-- Multiplication and division of two words. -/
inductive MulDivOp where
  | mul | mulh | mulhsu | mulhu | div | divu | rem | remu
  deriving DecidableEq, Repr

/-- The condition of a conditional branch. -/
inductive Cond where
  | eq | ne | lt | ge | ltu | geu
  deriving DecidableEq, Repr

/-- The word one for a true condition and zero for a false one. -/
def Word.ofBool (condition : Bool) : Word := if condition then 1 else 0

/-- The shift amount that a word stands for: its five low bits. -/
def Word.shiftAmount (word : Word) : Nat := (word.setWidth 5).toNat

namespace AluOp

/-- The result of an arithmetic or logic operation. -/
def apply (op : AluOp) (left right : Word) : Word :=
  match op with
  | .add => left + right
  | .sub => left - right
  | .sll => left <<< right.shiftAmount
  | .slt => Word.ofBool (left.slt right)
  | .sltu => Word.ofBool (left.ult right)
  | .xor => left ^^^ right
  | .srl => left >>> right.shiftAmount
  | .sra => left.sshiftRight right.shiftAmount
  | .or => left ||| right
  | .and => left &&& right

/-- The mnemonic of the register form. -/
def mnemonic : AluOp → String
  | .add => "add"
  | .sub => "sub"
  | .sll => "sll"
  | .slt => "slt"
  | .sltu => "sltu"
  | .xor => "xor"
  | .srl => "srl"
  | .sra => "sra"
  | .or => "or"
  | .and => "and"

/-- The mnemonic of the immediate form; the unsigned comparison keeps its `u` last. -/
def immediateMnemonic : AluOp → String
  | .sltu => "sltiu"
  | op => op.mnemonic ++ "i"

/-- Whether the second operand is a shift amount. -/
def isShift : AluOp → Bool
  | .sll | .srl | .sra => true
  | _ => false

end AluOp

namespace MulDivOp

/-- Whether a signed quotient would not fit: the least word divided by minus one. -/
def overflows (left right : Word) : Bool :=
  left == Word.minSigned && right == Word.allOnes

/-- The high half of a 64-bit product. -/
def highWord (product : BitVec 64) : Word := product.extractLsb' 32 32

/-- The result of a multiplication or division. -/
def apply (op : MulDivOp) (left right : Word) : Word :=
  match op with
  | .mul => left * right
  | .mulh => highWord (left.signExtend 64 * right.signExtend 64)
  | .mulhsu => highWord (left.signExtend 64 * right.zeroExtend 64)
  | .mulhu => highWord (left.zeroExtend 64 * right.zeroExtend 64)
  | .div =>
    if right = 0 then Word.allOnes else if overflows left right then left else left.sdiv right
  | .divu => if right = 0 then Word.allOnes else left.udiv right
  | .rem => if right = 0 then left else if overflows left right then 0 else left.srem right
  | .remu => if right = 0 then left else left.umod right

/-- The mnemonic. -/
def mnemonic : MulDivOp → String
  | .mul => "mul"
  | .mulh => "mulh"
  | .mulhsu => "mulhsu"
  | .mulhu => "mulhu"
  | .div => "div"
  | .divu => "divu"
  | .rem => "rem"
  | .remu => "remu"

end MulDivOp

namespace Cond

/-- Whether a condition holds of two words. -/
def holds (cond : Cond) (left right : Word) : Bool :=
  match cond with
  | .eq => left == right
  | .ne => left != right
  | .lt => left.slt right
  | .ge => right.sle left
  | .ltu => left.ult right
  | .geu => right.ule left

/-- The mnemonic of the branch on a condition. -/
def mnemonic : Cond → String
  | .eq => "beq"
  | .ne => "bne"
  | .lt => "blt"
  | .ge => "bge"
  | .ltu => "bltu"
  | .geu => "bgeu"

end Cond

end RvLift
