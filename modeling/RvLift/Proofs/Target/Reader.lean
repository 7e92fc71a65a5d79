import Mathlib
import RvLift.Proofs.Target.Spelling

/-!
# Reading expressions

Reading an expression from its tokens by the precedences of C, one token at a time. What has been
opened and waits for an operand is kept on a stack; an operator takes as its left operand everything
behind the first thing that binds more loosely. Casts and signs bind tighter than operators, and a
conditional binds loosest and to the right. Reading stops at the first token that cannot go on.
-/

namespace RvLift

/-- The temporaries. -/
def Temp.all : List Temp := [.rs1, .rs2, .addr, .target, .rval]

/-- The temporary with a name. -/
def Temp.ofName? (name : String) : Option Temp := all.find? fun temp => temp.name == name

namespace Target

/-- The integer types. -/
def IntType.all : List IntType := [.int8, .int16, .int32, .int64, .uint32, .uint64]

/-- The integer type with a name. -/
def IntType.ofText? (name : String) : Option IntType := all.find? fun type => type.text == name

namespace BinaryOp

/-- The binary operators. -/
def all : List BinaryOp :=
  [.mul, .div, .mod, .add, .sub, .shiftLeft, .shiftRight, .less, .greaterEqual, .equal, .notEqual,
    .bitAnd, .bitXor, .bitOr, .logicalAnd]

/-- The operator with a spelling. -/
def ofText? (text : String) : Option BinaryOp := all.find? fun op => op.text == text

/-- How tightly an operator binds. -/
def level : BinaryOp → Nat
  | .mul | .div | .mod => 11
  | .add | .sub => 10
  | .shiftLeft | .shiftRight => 9
  | .less | .greaterEqual => 8
  | .equal | .notEqual => 7
  | .bitAnd => 6
  | .bitXor => 5
  | .bitOr => 4
  | .logicalAnd => 3

end BinaryOp

/-- The name that reads guest memory. -/
def loadName : Width → String
  | .byte => "MINIRV32_LOAD1"
  | .half => "MINIRV32_LOAD2"
  | .word => "MINIRV32_LOAD4"

/-- The width that a name reads. -/
def loadWidth? (name : String) : Option Width :=
  [Width.byte, .half, .word].find? fun width => loadName width == name

/-- What is open and waits for an operand. -/
inductive Frame where
  /-- An opening parenthesis. -/
  | paren
  /-- A read of guest memory. -/
  | load (width : Width)
  /-- A type in parentheses. -/
  | cast (type : IntType)
  /-- A minus sign. -/
  | negate
  /-- An operator and its left operand. -/
  | binary (op : BinaryOp) (left : Expr)
  /-- The condition of a choice. -/
  | test (condition : Expr)
  /-- The condition and the first branch of a choice. -/
  | choice (condition whenTrue : Expr)

/-- What comes next in an expression. -/
inductive Mode where
  /-- An operand. -/
  | operand
  /-- An operand or the type of a cast, behind an opening parenthesis. -/
  | opened
  /-- The closing parenthesis of a cast. -/
  | typed (type : IntType)
  /-- The opening parenthesis of a memory read. -/
  | call (width : Width)
  /-- The period behind the core. -/
  | core
  /-- The name of the register file. -/
  | field
  /-- The opening bracket behind the register file. -/
  | array
  /-- The number of a register. -/
  | index
  /-- The closing bracket behind the number of a register. -/
  | indexed (source : Reg)
  /-- An operator, or the end of the expression. -/
  | complete (operand : Expr)

/-- Where the reading of an expression stands. -/
structure Reader where
  /-- What is open, the innermost first. -/
  frames : List Frame
  /-- What comes next. -/
  mode : Mode

namespace Reader

/-- The reader at the start of an expression. -/
def start : Reader := ⟨[], .operand⟩

/-- Give an operand to everything that binds at least as tightly as `bound`. -/
def reduce (bound : Nat) : List Frame → Expr → List Frame × Expr
  | .cast type :: frames, operand => reduce bound frames (.cast type operand)
  | .negate :: frames, operand => reduce bound frames (.negate operand)
  | .binary op left :: frames, operand =>
    if bound ≤ op.level then reduce bound frames (.binary op left operand)
    else (.binary op left :: frames, operand)
  | .choice condition whenTrue :: frames, operand =>
    if bound ≤ 1 then reduce bound frames (.conditional condition whenTrue operand)
    else (.choice condition whenTrue :: frames, operand)
  | frames, operand => (frames, operand)

/-- Begin an operand. -/
def begin (frames : List Frame) : Token → Option Reader
  | .constant value => some ⟨frames, .complete (.constant value)⟩
  | .word "INT32_MIN" => some ⟨frames, .complete .leastInt32⟩
  | .word "core" => some ⟨frames, .core⟩
  | .word name =>
    match Temp.ofName? name, loadWidth? name with
    | some source, _ => some ⟨frames, .complete (.temp source)⟩
    | none, some width => some ⟨frames, .call width⟩
    | none, none => none
  | .mark "(" => some ⟨frames, .opened⟩
  | .mark "-" => some ⟨.negate :: frames, .operand⟩
  | _ => none

/-- Go on behind an opening parenthesis. -/
def enter (frames : List Frame) : Token → Option Reader
  | .word name =>
    match IntType.ofText? name with
    | some type => some ⟨frames, .typed type⟩
    | none => begin (.paren :: frames) (.word name)
  | token => begin (.paren :: frames) token

/-- Close a parenthesis. -/
def close : List Frame × Expr → Option Reader
  | (.paren :: frames, inner) => some ⟨frames, .complete (.paren inner)⟩
  | (.load width :: frames, offset) => some ⟨frames, .complete (.load width offset)⟩
  | _ => none

/-- Go on with the second branch of a choice. -/
def choose : List Frame × Expr → Option Reader
  | (.test condition :: frames, whenTrue) => some ⟨.choice condition whenTrue :: frames, .operand⟩
  | _ => none

/-- Go on with the first branch of a choice. -/
def test : List Frame × Expr → Reader
  | (frames, condition) => ⟨.test condition :: frames, .operand⟩

/-- Go on behind an operand. -/
def follow (frames : List Frame) (operand : Expr) : Token → Option Reader
  | .mark ")" => close (reduce 1 frames operand)
  | .mark ":" => choose (reduce 1 frames operand)
  | .mark "?" => some (test (reduce 2 frames operand))
  | .mark text =>
    (BinaryOp.ofText? text).map fun op =>
      let (frames, left) := reduce op.level frames operand
      ⟨.binary op left :: frames, .operand⟩
  | _ => none

/-- Take in one token. -/
def step : Reader → Token → Option Reader
  | ⟨frames, .operand⟩, token => begin frames token
  | ⟨frames, .opened⟩, token => enter frames token
  | ⟨frames, .typed type⟩, .mark ")" => some ⟨.cast type :: frames, .operand⟩
  | ⟨frames, .call width⟩, .mark "(" => some ⟨.load width :: frames, .operand⟩
  | ⟨frames, .core⟩, .mark "." => some ⟨frames, .field⟩
  | ⟨frames, .field⟩, .word "regs" => some ⟨frames, .array⟩
  | ⟨frames, .array⟩, .mark "[" => some ⟨frames, .index⟩
  | ⟨frames, .index⟩, .constant ⟨value, .decimal, false⟩ =>
    if value < 32 then some ⟨frames, .indexed (Reg.ofNat value)⟩ else none
  | ⟨frames, .indexed source⟩, .mark "]" => some ⟨frames, .complete (.register source)⟩
  | ⟨frames, .complete operand⟩, token => follow frames operand token
  | _, _ => none

/-- Take in tokens. -/
def run (reader : Reader) (tokens : List Token) : Option Reader := tokens.foldlM step reader

/-- The expression that has been read, if nothing is left open. -/
def result? : Reader → Option Expr
  | ⟨frames, .complete operand⟩ =>
    match reduce 1 frames operand with
    | ([], expr) => some expr
    | _ => none
  | _ => none

/-- Read on as far as an expression goes, and what is behind it. -/
def read : Reader → List Token → Option (Expr × List Token)
  | reader, [] => reader.result?.map (·, [])
  | reader, token :: rest =>
    match reader.step token with
    | some next => read next rest
    | none => reader.result?.map (·, token :: rest)

end Reader

/-- Read an expression from the front of a sequence of tokens. -/
def readExpr (tokens : List Token) : Option (Expr × List Token) := Reader.start.read tokens

/-- Read a text that is one expression. -/
def Expr.read? (text : String) : Option Expr := do
  let tokens ← tokens? (.between false []) text
  match ← readExpr tokens with
  | (expr, []) => some expr
  | _ => none

end Target

end RvLift
