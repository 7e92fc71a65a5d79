import Mathlib
import RvLift.Proofs.Target.Grouping

/-!
# Reading source files

What the text of a source file says to a compiler: the test for the halt address, the cases of the
dispatch switch, the labelled blocks in order, and the value that is returned behind them. The
dispatch switch is read where it is defined, and a use of it is read as a jump of its own.

Names of labels are read as the labels that have these names, so that two labels are the same only
if their names are.
-/

namespace RvLift.Target

/-- A labelled block as it is read. -/
structure LabelledBlock where
  /-- The label. -/
  label : Label
  /-- The statements, in order. -/
  body : List Stmt
  deriving DecidableEq, Repr

/-- What a source file says. -/
structure Code where
  /-- What the halt test returns for the address `addr`. -/
  haltTest : Expr
  /-- The cases of the dispatch switch, in order. -/
  cases : List (Constant × Label)
  /-- The labelled blocks, in order. -/
  blocks : List LabelledBlock
  /-- What is returned behind the last block. -/
  result : Expr
  deriving DecidableEq, Repr

/-- The name that writes guest memory. -/
def storeName : Width → String
  | .byte => "MINIRV32_STORE1"
  | .half => "MINIRV32_STORE2"
  | .word => "MINIRV32_STORE4"

/-- The width that a name writes. -/
def storeWidth? (name : String) : Option Width :=
  [Width.byte, .half, .word].find? fun width => storeName width == name

/-- The label with a name. -/
def labelOfName? (name : String) : Option Label :=
  ((Text.value? 16 (name.toList.drop 4)).map fun value => ⟨BitVec.ofNat 32 value⟩).filter
    fun label => labelText label == name

/-- Something read from the front of a sequence of tokens. -/
abbrev Reading := StateT (List Token) Option

namespace Reading

/-- Read given tokens. -/
def expect (expected : List Token) : Reading Unit :=
  fun tokens => (tokens.dropPrefix? expected).map ((), ·)

/-- Read a name that stands for something. -/
def named {α : Type} (find? : String → Option α) : Reading α
  | .word name :: rest => (find? name).map (·, rest)
  | _ => none

/-- Read a constant. -/
def constant : Reading Constant
  | .constant value :: rest => some (value, rest)
  | _ => none

/-- Read an expression and the mark behind it. -/
def exprUntil (closing : String) : Reading Expr := do
  let expr ← readExpr
  expect [.mark closing]
  return expr

/-- Read as many items as there are, each of at least one token. -/
def many {α : Type} (item : Reading α) (tokens : List Token) : Option (List α × List Token) :=
  match item tokens with
  | none => some ([], tokens)
  | some (value, rest) =>
    if rest.length < tokens.length then
      (many item rest).map fun (values, behind) => (value :: values, behind)
    else none
termination_by tokens.length

/-- Read items and the tokens behind them. -/
def manyUntil {α : Type} (item : Reading α) (closing : List Token) : Reading (List α) := do
  let values ← many item
  expect closing
  return values

/-- Read a jump to a label. -/
def goto : Reading Jump := do
  expect [.word "goto"]
  let target ← named labelOfName?
  expect [.mark ";"]
  return .goto target

/-- Read a use of the dispatch switch. -/
def dispatch : Reading Jump := do
  expect [.word "DISPATCH", .mark "("]
  let target ← exprUntil ")"
  return .dispatch target

/-- Read a transfer of control. -/
def jump : Reading Jump := goto <|> dispatch

/-- Read the declaration of a temporary. -/
def declare : Reading Stmt := do
  expect [.word "uint32_t"]
  let temp ← named Temp.ofName?
  expect [.mark "="]
  let value ← exprUntil ";"
  return .declare temp value

/-- Read an assignment to an element of the register file. -/
def assign : Reading Stmt := do
  let .register rd ← exprUntil "=" | failure
  let value ← exprUntil ";"
  return .assign rd value

/-- Read a conditional transfer of control. -/
def jumpIf : Reading Stmt := do
  expect [.word "if", .mark "("]
  let condition ← exprUntil ")"
  let target ← jump
  return .jumpIf condition target

/-- Read a conditional return. The returned value is an operand of the cast in front of it. -/
def returnIfHalt : Reading Stmt := do
  expect [.word "if", .mark "(", .word "is_halt", .mark "("]
  let address ← exprUntil ")"
  expect [.mark ")", .mark "\x7b", .word "return", .mark "(", .word "int", .mark ")"]
  let value ← exprUntil ";"
  guard (12 ≤ value.level)
  expect [.mark "\x7d"]
  return .returnIfHalt address value

/-- Read a write of guest memory. -/
def store : Reading Stmt := do
  let width ← named storeWidth?
  expect [.mark "("]
  let offset ← exprUntil ","
  let value ← exprUntil ")"
  expect [.mark ";"]
  return .store width offset value

/-- Read a statement. -/
def stmt : Reading Stmt :=
  declare <|> assign <|> Stmt.jump <$> jump <|> jumpIf <|> returnIfHalt <|> store

/-- Read a case of the dispatch switch. -/
def entry : Reading (Constant × Label) := do
  expect [.word "case"]
  let value ← constant
  expect [.mark ":", .word "goto"]
  let target ← named labelOfName?
  expect [.mark ";"]
  return (value, target)

/-- Read a labelled block. -/
def block : Reading LabelledBlock := do
  let label ← named labelOfName?
  expect [.mark ":", .mark "\x7b"]
  let body ← manyUntil stmt [.mark "\x7d"]
  return ⟨label, body⟩

end Reading

/-- The tokens in front of what the halt test returns. -/
def Code.opening : List Token :=
  [.mark "#", .word "include", .quoted "rv32core.h", .lineEnd,
    .mark "#", .word "include", .quoted "rv32macros.h", .lineEnd,
    .word "static", .word "inline", .word "bool", .word "is_halt",
    .mark "(", .word "uint32_t", .word "addr", .mark ")", .mark "\x7b", .word "return"]

/-- The tokens between the halt test and the dispatch switch. -/
def Code.entrance : List Token :=
  [.mark "\x7d", .word "int", .word "run", .mark "(", .word "RV32Core", .mark "&", .word "core",
    .mark ")", .mark "\x7b"]

/-- The tokens in front of the cases of the dispatch switch. -/
def Code.switchStart : List Token :=
  [.mark "#", .word "define", .callee "DISPATCH", .word "PC", .mark ")", .word "switch", .mark "(",
    .word "PC", .mark ")", .mark "\x7b"]

/-- The tokens behind the cases of the dispatch switch. -/
def Code.switchEnd : List Token :=
  [.word "default", .mark ":", .word "break", .mark ";", .mark "\x7d", .lineEnd]

/-- The tokens behind what is returned last. -/
def Code.ending : List Token :=
  [.mark "#", .word "undef", .word "DISPATCH", .lineEnd, .mark "\x7d"]

/-- Read a source file. -/
def Reading.code : Reading Code := do
  expect Code.opening
  let haltTest ← exprUntil ";"
  expect Code.entrance
  expect Code.switchStart
  let cases ← manyUntil entry Code.switchEnd
  let blocks ← manyUntil block [.word "return"]
  let result ← exprUntil ";"
  expect Code.ending
  return ⟨haltTest, cases, blocks, result⟩

/-- Read a text that is a source file. -/
def Code.read? (text : String) : Option Code := do
  let tokens ← tokens? (.fresh []) text
  match ← Reading.code tokens with
  | (code, []) => some code
  | _ => none

end RvLift.Target
