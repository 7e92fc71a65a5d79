import Mathlib
import RvLift.Proofs.Target.Reader

/-!
# The meaning of C expressions

Expressions by the rules of C for 32-bit `int`: integer promotions, the usual arithmetic
conversions, and the types of constants and of choices. A value is undefined where C leaves it so:
for a signed result that does not fit, a division by zero, a quotient that does not fit, and a shift
by a negative amount or by as many bits as the operand has. Conversions to signed types are in
two's complement, and shifting a negative value right keeps its sign.

Operands that are not evaluated may be undefined: the right of a conjunction whose left is false,
and the branch of a choice that is not taken.
-/

namespace RvLift.Target

namespace IntType

/-- The number of bits of a type. -/
def bits : IntType → Nat
  | .int8 => 8
  | .int16 => 16
  | .int32 | .uint32 => 32
  | .int64 | .uint64 => 64

/-- Whether a type is signed. -/
def signed : IntType → Bool
  | .int8 | .int16 | .int32 | .int64 => true
  | .uint32 | .uint64 => false

/-- The least value of a type. -/
def least (type : IntType) : Int := if type.signed then -2 ^ (type.bits - 1) else 0

/-- The number behind the greatest value of a type. -/
def bound (type : IntType) : Int := if type.signed then 2 ^ (type.bits - 1) else 2 ^ type.bits

/-- Whether a type has a value. -/
@[irreducible] def fits (type : IntType) (value : Int) : Bool :=
  type.least ≤ value ∧ value < type.bound

/-- The value of a type that differs from a given one by a multiple of its modulus. -/
def convert (type : IntType) (value : Int) : Int :=
  if type.signed then value.bmod (2 ^ type.bits) else value % 2 ^ type.bits

/-- The type in which operands of a type are computed with. -/
def promoted : IntType → IntType
  | .int8 | .int16 => .int32
  | type => type

/-- The place of a promoted type among those that operands are brought to. -/
def rank : IntType → Nat
  | .int8 | .int16 | .int32 => 0
  | .uint32 => 1
  | .int64 => 2
  | .uint64 => 3

/-- The type that two operands are brought to. -/
def common (left right : IntType) : IntType :=
  if left.rank < right.rank then right.promoted else left.promoted

end IntType

/-- A value of an integer type. -/
structure Value where
  /-- The type. -/
  type : IntType
  /-- The value. -/
  value : Int
  deriving DecidableEq, Repr

namespace Value

/-- The unsigned value of a word. -/
def ofWord (word : Word) : Value := ⟨.uint32, word.toNat⟩

/-- The value of a test. -/
def ofBool (condition : Bool) : Value := ⟨.int32, if condition then 1 else 0⟩

/-- A value converted to a type. -/
def convert (value : Value) (type : IntType) : Value := ⟨type, type.convert value.value⟩

end Value

/-- The result of an operation in a type, if it has one. -/
def IntType.computed? (type : IntType) (exact : Int) : Option Value :=
  if type.signed then if type.fits exact then some ⟨type, exact⟩ else none
  else some ⟨type, type.convert exact⟩

/-- The type of a constant: the first one of those for its spelling that has its value. -/
def Constant.type? (constant : Constant) : Option IntType :=
  let candidates : List IntType :=
    match constant.radix, constant.unsigned with
    | .decimal, false => [.int32, .int64]
    | .hexadecimal, false => [.int32, .uint32, .int64, .uint64]
    | _, true => [.uint32, .uint64]
  candidates.foldr (fun type later => if type.fits constant.value then some type else later) none

namespace BinaryOp

/-- Combine the bits of two values of a type. -/
def bitwise (type : IntType) (combine : BitVec type.bits → BitVec type.bits → BitVec type.bits)
    (left right : Int) : Value :=
  ⟨type, type.convert (combine (BitVec.ofInt _ left) (BitVec.ofInt _ right)).toNat⟩

/-- Shift a value of a type. -/
def shift? (type : IntType) (exact : Int → Int) (amount : Int) : Option Value :=
  if 0 ≤ amount ∧ amount < type.bits then type.computed? (exact (2 ^ amount.toNat)) else none

/-- The result of an operator on two values that have been brought to one type. Conjunctions do not
bring their operands to one type. -/
def compute? (op : BinaryOp) (type : IntType) (left right : Int) : Option Value :=
  match op with
  | .mul => type.computed? (left * right)
  | .div => if right = 0 then none else type.computed? (left.tdiv right)
  | .mod =>
    if right = 0 then none
    else if type.fits (left.tdiv right) then type.computed? (left.tmod right) else none
  | .add => type.computed? (left + right)
  | .sub => type.computed? (left - right)
  | .less => some (.ofBool (left < right))
  | .greaterEqual => some (.ofBool (left ≥ right))
  | .equal => some (.ofBool (left = right))
  | .notEqual => some (.ofBool (left ≠ right))
  | .bitAnd => some (bitwise type (· &&& ·) left right)
  | .bitXor => some (bitwise type (· ^^^ ·) left right)
  | .bitOr => some (bitwise type (· ||| ·) left right)
  | .shiftLeft | .shiftRight | .logicalAnd => none

/-- The result of an operator. A shift has the type of what is shifted, and a negative value is not
shifted left. -/
def evaluate? (op : BinaryOp) (left right : Value) : Option Value :=
  match op with
  | .shiftLeft =>
    if left.value < 0 then none
    else shift? left.type.promoted (fun power => left.value * power) right.value
  | .shiftRight => shift? left.type.promoted (fun power => left.value / power) right.value
  | op =>
    let type := left.type.common right.type
    op.compute? type (left.convert type).value (right.convert type).value

/-- The type of the result of an operator. -/
def resultType (op : BinaryOp) (left right : IntType) : IntType :=
  match op with
  | .less | .greaterEqual | .equal | .notEqual | .logicalAnd => .int32
  | .shiftLeft | .shiftRight => left.promoted
  | .mul | .div | .mod | .add | .sub | .bitAnd | .bitXor | .bitOr => left.common right

end BinaryOp

/-- What the names of an expression stand for. -/
structure Env where
  /-- The temporaries that have been declared. -/
  temp : Temp → Option Word
  /-- The elements of the register file. -/
  register : Reg → Option Word
  /-- The results of memory reads. -/
  load : Width → Word → Option Word

namespace Expr

/-- The type of an expression. -/
def type? : Expr → Option IntType
  | .constant value => value.type?
  | .leastInt32 => some .int32
  | .negate operand => operand.type?.map IntType.promoted
  | .temp _ | .register _ | .load .. => some .uint32
  | .cast type _ => some type
  | .binary op left right => do return op.resultType (← left.type?) (← right.type?)
  | .conditional _ whenTrue whenFalse => do return (← whenTrue.type?).common (← whenFalse.type?)
  | .paren inner => inner.type?

/-- The value of an expression, if it has one. -/
def eval (env : Env) : Expr → Option Value
  | .constant value => value.type?.map (⟨·, value.value⟩)
  | .leastInt32 => some ⟨.int32, -2 ^ 31⟩
  | .negate operand => do
    let value ← operand.eval env
    value.type.promoted.computed? (-value.value)
  | .temp source => (env.temp source).map .ofWord
  | .register source => (env.register source).map .ofWord
  | .load width offset => do
    let start ← offset.eval env
    return .ofWord (← env.load width (BitVec.ofInt 32 start.value))
  | .cast type operand => (operand.eval env).map (·.convert type)
  | .binary .logicalAnd left right => do
    if (← left.eval env).value = 0 then return .ofBool false
    else return .ofBool ((← right.eval env).value ≠ 0)
  | .binary op left right => do op.evaluate? (← left.eval env) (← right.eval env)
  | .conditional condition whenTrue whenFalse => do
    let test ← condition.eval env
    let type ← (Expr.conditional condition whenTrue whenFalse).type?
    let chosen ← (if test.value ≠ 0 then whenTrue.eval env else whenFalse.eval env)
    return chosen.convert type
  | .paren inner => inner.eval env

end Expr

end RvLift.Target
