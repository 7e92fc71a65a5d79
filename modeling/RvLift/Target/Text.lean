import RvLift.Target.Syntax

/-!
# Text of emitted code

The lines of a source file. Every line ends in a line feed, and nested lines are indented by four
spaces a level.
-/

namespace RvLift.Target

/-- The name of an integer type. -/
def IntType.text : IntType → String
  | .int8 => "int8_t"
  | .int16 => "int16_t"
  | .int32 => "int32_t"
  | .int64 => "int64_t"
  | .uint32 => "uint32_t"
  | .uint64 => "uint64_t"

/-- The spelling of an operator. -/
def BinaryOp.text : BinaryOp → String
  | .mul => "*"
  | .div => "/"
  | .mod => "%"
  | .add => "+"
  | .sub => "-"
  | .shiftLeft => "<<"
  | .shiftRight => ">>"
  | .less => "<"
  | .greaterEqual => ">="
  | .equal => "=="
  | .notEqual => "!="
  | .bitAnd => "&"
  | .bitXor => "^"
  | .bitOr => "|"
  | .logicalAnd => "&&"

/-- The spelling of a constant. -/
def Constant.text (constant : Constant) : String :=
  let digits := match constant.radix with
    | .decimal => Text.decimal constant.value
    | .hexadecimal => Text.hexNumeral constant.value
  if constant.unsigned then digits ++ "u" else digits

/-- The unsigned hexadecimal constant of a word. -/
def Constant.ofWord (word : Word) : Constant := ⟨word.toNat, .hexadecimal, true⟩

/-- The name of an element of the register file. -/
def registerText (reg : Reg) : String := "core.regs[" ++ Text.decimal reg.index ++ "]"

/-- The text of an expression. -/
def Expr.text : Expr → String
  | .constant value => value.text
  | .leastInt32 => "INT32_MIN"
  | .negate operand => "-" ++ operand.text
  | .temp source => source.name
  | .register source => registerText source
  | .load width offset =>
    "MINIRV32_LOAD" ++ Text.decimal width.bytes ++ "(" ++ offset.text ++ ")"
  | .cast type operand => "(" ++ type.text ++ ") " ++ operand.text
  | .binary op left right => left.text ++ " " ++ op.text ++ " " ++ right.text
  | .conditional condition whenTrue whenFalse =>
    condition.text ++ " ? " ++ whenTrue.text ++ " : " ++ whenFalse.text
  | .paren inner => "(" ++ inner.text ++ ")"

/-- The name of a label in the code. -/
def labelText (label : Label) : String := "lab_" ++ label.text

/-- The text of a transfer of control. -/
def Jump.text : Jump → String
  | .goto target => "goto " ++ labelText target ++ ";"
  | .dispatch target => "DISPATCH(" ++ target.text ++ ")"

/-- A line indented by one level. -/
def indent (line : String) : String := "    " ++ line

/-- The lines of a statement, before they are indented with their block. -/
def Stmt.lines : Stmt → List String
  | .declare temp value => ["uint32_t " ++ temp.name ++ " = " ++ value.text ++ ";"]
  | .assign rd value => [registerText rd ++ " = " ++ value.text ++ ";"]
  | .jump target => [target.text]
  | .jumpIf condition target => ["if (" ++ condition.text ++ ") " ++ target.text]
  | .returnIfHalt address value =>
    ["if (is_halt(" ++ address.text ++ ")) \x7b", indent ("return (int) " ++ value.text ++ ";"),
      "\x7d"]
  | .store width offset value =>
    ["MINIRV32_STORE" ++ Text.decimal width.bytes ++ "(" ++ offset.text ++ ", " ++ value.text ++
      ");"]

namespace Block

/-- The comment line of a block: its address and word, and a remark if there is one. -/
def comment (block : Block) : String :=
  let place := "// 0x" ++ block.label.text ++ ": " ++ Text.hex8 block.word.toNat
  match block.remark? with
  | none => place
  | some remark => place ++ "  " ++ remark

/-- The lines of a block, an empty line last. -/
def lines (block : Block) : List String :=
  [labelText block.label ++ ": \x7b", indent block.comment] ++
    (block.body.flatMap Stmt.lines).map indent ++ ["\x7d", ""]

end Block

namespace SourceFile

/-- The lines before the body of the function. -/
def prologue (file : SourceFile) : List String :=
  ["// Generated by rv2c: " ++ Text.decimal file.blocks.length ++ " blocks, image base " ++
      Text.address file.base.toNat,
    "#include \"rv32core.h\"",
    "#include \"rv32macros.h\"",
    "",
    "static inline bool is_halt(uint32_t addr) \x7b",
    indent ("return addr == " ++ (Constant.ofWord file.haltAddress).text ++ ";"),
    "\x7d",
    "",
    "int run(RV32Core &core) \x7b"]

/-- The line of one case of the dispatch switch. -/
def caseLine (entry : Word × Label) : String :=
  indent ("case " ++ (Constant.ofWord entry.1).text ++ ": goto " ++ labelText entry.2 ++ "; \\")

/-- The lines that define the dispatch switch. -/
def dispatchLines (file : SourceFile) : List String :=
  ["#define DISPATCH(PC) \\", indent "switch (PC) \x7b \\"] ++ file.cases.map caseLine ++
    [indent "default: break; \\", indent "\x7d", ""]

/-- The lines after the last block. -/
def epilogue : List String := [indent "return 0;", "#undef DISPATCH", "\x7d"]

/-- The lines of a source file. -/
def lines (file : SourceFile) : List String :=
  file.prologue ++ file.dispatchLines ++ file.blocks.flatMap Block.lines ++ epilogue

/-- The text of a source file. -/
def text (file : SourceFile) : String := String.join (file.lines.map (· ++ "\n"))

end SourceFile

end RvLift.Target
