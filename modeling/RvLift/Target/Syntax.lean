import RvLift.Block.Basic

/-!
# Syntax of emitted code

The fragment of C that lifted programs are emitted in, as written: parentheses are part of an
expression, so its text is read off the tree without regard to precedence.

A source file has one function. It holds a dispatch switch over the addresses of all blocks, and
the labelled blocks themselves in address order.
-/

namespace RvLift.Target

/-- The integer types that appear in casts. -/
inductive IntType where
  | int8 | int16 | int32 | int64 | uint32 | uint64
  deriving DecidableEq, Repr

/-- The binary operators, those that bind tightest first. -/
inductive BinaryOp where
  | mul | div | mod
  | add | sub
  | shiftLeft | shiftRight
  | less | greaterEqual
  | equal | notEqual
  | bitAnd
  | bitXor
  | bitOr
  | logicalAnd
  deriving DecidableEq, Repr

/-- The base of an integer constant. -/
inductive Radix where
  | decimal | hexadecimal
  deriving DecidableEq, Repr

/-- An integer constant, marked as unsigned or of the type that fits. -/
structure Constant where
  /-- The value. -/
  value : Nat
  /-- The base in which it is written. -/
  radix : Radix
  /-- Whether it carries the unsigned suffix. -/
  unsigned : Bool
  deriving DecidableEq, Repr

/-- An expression as written. -/
inductive Expr where
  /-- An integer constant. -/
  | constant (value : Constant)
  /-- The named constant for the least 32-bit signed integer. -/
  | leastInt32
  /-- The negative of an expression. -/
  | negate (operand : Expr)
  /-- A temporary of the block. -/
  | temp (source : Temp)
  /-- An element of the register file. -/
  | register (source : Reg)
  /-- A read of guest memory, extended by zeros. -/
  | load (width : Width) (offset : Expr)
  /-- A conversion to an integer type. -/
  | cast (type : IntType) (operand : Expr)
  /-- Two operands joined by an operator. -/
  | binary (op : BinaryOp) (left right : Expr)
  /-- A choice between two expressions. -/
  | conditional (condition whenTrue whenFalse : Expr)
  /-- An expression in parentheses. -/
  | paren (inner : Expr)
  deriving DecidableEq, Repr

/-- A transfer of control. -/
inductive Jump where
  /-- To a label. -/
  | goto (target : Label)
  /-- Through the dispatch switch. -/
  | dispatch (target : Expr)
  deriving DecidableEq, Repr

/-- A statement of a block. -/
inductive Stmt where
  /-- Declare a temporary with its value. -/
  | declare (temp : Temp) (value : Expr)
  /-- Write an element of the register file. -/
  | assign (rd : Reg) (value : Expr)
  /-- Leave the block. -/
  | jump (target : Jump)
  /-- Leave the block if a condition holds. -/
  | jumpIf (condition : Expr) (target : Jump)
  /-- Return a value if an address is the halt address. -/
  | returnIfHalt (address value : Expr)
  /-- Write guest memory. -/
  | store (width : Width) (offset value : Expr)
  deriving DecidableEq, Repr

/-- A labelled block. -/
structure Block where
  /-- The label. -/
  label : Label
  /-- The instruction word it stands for. -/
  word : Word
  /-- What its comment says after the word. -/
  remark? : Option String
  /-- The statements, in order. -/
  body : List Stmt
  deriving DecidableEq, Repr

/-- A source file. -/
structure SourceFile where
  /-- The address of the first block, for the opening comment. -/
  base : Word
  /-- The address whose stores end the program. -/
  haltAddress : Word
  /-- The cases of the dispatch switch: an address and the label it leads to. -/
  cases : List (Word × Label)
  /-- The blocks, in order. -/
  blocks : List Block
  deriving DecidableEq, Repr

end RvLift.Target
