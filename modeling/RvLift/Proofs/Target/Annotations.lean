import Mathlib
import RvLift.Proofs.Target.Recovery
import RvLift.Proofs.Text.Comments
import RvLift.Region

/-!
# Annotations of source texts

A source text has a title, lines of code and one comment for each block, and only the comments of
blocks whose word encodes an instruction depend on whether blocks are annotated. No line of code has
`//` in it, however deep its expressions, and no comment goes beyond its line, so that the annotated
text and the other one are the same program.
-/

namespace RvLift

open Text

namespace Target

section Expressions

/-- An operator stands between blanks, which keep a slash apart from its operands. -/
theorem BinaryOp.bare_text (op : BinaryOp) : Bare (" " ++ op.text ++ " ") := by
  cases op with
  | div => exact ⟨rfl, by decide, by decide, by decide⟩
  | mul | mod | add | sub | shiftLeft | shiftRight | less | greaterEqual | equal | notEqual | bitAnd
  | bitXor | bitOr | logicalAnd => exact Consists.bare rfl

/-- Constants have no comment in them. -/
theorem Constant.bare_text (constant : Constant) : Bare constant.text :=
  Consists.bare (constant.consists_text (by decide) rfl rfl)

/-- Registers have no comment in them. -/
theorem bare_registerText (reg : Reg) : Bare (registerText reg) :=
  Consists.bare (consists_registerText reg rfl (by decide) rfl)

/-- Labels have no comment in them. -/
theorem bare_labelText (label : Label) : Bare (labelText label) := by
  have opening : Bare "lab_" := Consists.bare rfl
  exact opening.append (bare_padded (by decide) (by decide) 8 _)

/-- No expression has a comment in it. -/
theorem Expr.bare_text (expr : Expr) : Bare expr.text := by
  have opening : Bare "(" := Consists.bare rfl
  have closing : Bare ")" := Consists.bare rfl
  induction expr with
  | constant value => exact value.bare_text
  | leastInt32 => exact Consists.bare rfl
  | negate operand hypothesis =>
    have sign : Bare "-" := Consists.bare rfl
    exact sign.append hypothesis
  | temp source => cases source <;> exact Consists.bare rfl
  | register source => exact bare_registerText source
  | load width offset hypothesis =>
    have name : Bare ("MINIRV32_LOAD" ++ Text.decimal width.bytes) := by
      cases width <;> exact Consists.bare rfl
    exact ((name.append opening).append hypothesis).append closing
  | cast type operand hypothesis =>
    have conversion : Bare ("(" ++ type.text ++ ") ") := by cases type <;> exact Consists.bare rfl
    exact conversion.append hypothesis
  | binary op left right leftHypothesis rightHypothesis =>
    have whole := (leftHypothesis.append op.bare_text).append rightHypothesis
    simpa only [Expr.text_binary, String.append_assoc] using whole
  | conditional condition whenTrue whenFalse conditionHypothesis trueHypothesis falseHypothesis =>
    have question : Bare " ? " := Consists.bare rfl
    have colon : Bare " : " := Consists.bare rfl
    exact (((conditionHypothesis.append question).append trueHypothesis).append colon).append
      falseHypothesis
  | paren inner hypothesis => exact (opening.append hypothesis).append closing

end Expressions

section Lines

/-- Jumps have no comment in them, as their targets have none. -/
theorem Jump.bare_text (jump : Jump) : Bare jump.text := by
  cases jump with
  | goto target =>
    have opening : Bare "goto " := Consists.bare rfl
    have closing : Bare ";" := Consists.bare rfl
    exact (opening.append (bare_labelText target)).append closing
  | dispatch target =>
    have opening : Bare "DISPATCH(" := Consists.bare rfl
    have closing : Bare ")" := Consists.bare rfl
    exact (opening.append target.bare_text).append closing

/-- A line is indented by four blanks. -/
theorem toList_indent (line : String) :
    (indent line).toList = List.replicate 4 ' ' ++ line.toList := by
  simp [indent, List.replicate_succ]

/-- Indentation brings no comment. -/
theorem bare_indent {line : String} (bare : Bare line) : Bare (indent line) := by
  have blanks : Bare "    " := Consists.bare rfl
  exact blanks.append bare

/-- No line of a statement has a comment in it. -/
theorem Stmt.bare_of_mem_lines (stmt : Stmt) : ∀ line ∈ stmt.lines, Bare line := by
  have closing : Bare ";" := Consists.bare rfl
  cases stmt with
  | declare temp value =>
    have opening : Bare ("uint32_t " ++ temp.name ++ " = ") := by
      cases temp <;> exact Consists.bare rfl
    have whole := (opening.append value.bare_text).append closing
    exact List.forall_mem_singleton.2 whole
  | assign rd value =>
    have equals : Bare " = " := Consists.bare rfl
    have whole := (((bare_registerText rd).append equals).append value.bare_text).append closing
    exact List.forall_mem_singleton.2 whole
  | jump target => exact List.forall_mem_singleton.2 target.bare_text
  | jumpIf condition target =>
    have opening : Bare "if (" := Consists.bare rfl
    have closing : Bare ") " := Consists.bare rfl
    have whole := ((opening.append condition.bare_text).append closing).append target.bare_text
    exact List.forall_mem_singleton.2 whole
  | returnIfHalt address value =>
    have opening : Bare "if (is_halt(" := Consists.bare rfl
    have behind : Bare ")) \x7b" := Consists.bare rfl
    have returning : Bare "return (int) " := Consists.bare rfl
    have brace : Bare "\x7d" := Consists.bare rfl
    have test := (opening.append address.bare_text).append behind
    have result := bare_indent ((returning.append value.bare_text).append closing)
    simp only [Stmt.lines, List.forall_mem_cons]
    exact ⟨test, result, brace, List.forall_mem_nil _⟩
  | store width offset value =>
    have opening : Bare ("MINIRV32_STORE" ++ Text.decimal width.bytes ++ "(") := by
      cases width <;> exact Consists.bare rfl
    have comma : Bare ", " := Consists.bare rfl
    have ending : Bare ");" := Consists.bare rfl
    have whole := (((opening.append offset.bare_text).append comma).append value.bare_text).append
      ending
    exact List.forall_mem_singleton.2 whole

/-- No line of a body has a comment in it. -/
theorem bare_of_mem_body (body : List Stmt) :
    ∀ line ∈ (body.flatMap Stmt.lines).map indent, Bare line := by
  rw [List.forall_mem_map]
  intro line member
  obtain ⟨stmt, -, inside⟩ := List.mem_flatMap.1 member
  exact bare_indent (stmt.bare_of_mem_lines line inside)

namespace SourceFile

variable (file : SourceFile)

/-- No line before the body of the function has a comment in it, except the first. -/
theorem bare_of_mem_prologue : ∀ line ∈ file.prologue.tail, Bare line := by
  have returning : Bare "return addr == " := Consists.bare rfl
  have closing : Bare ";" := Consists.bare rfl
  have test := bare_indent
    ((returning.append (Constant.ofWord file.haltAddress).bare_text).append closing)
  simp only [prologue, List.tail_cons, List.forall_mem_cons]
  exact ⟨Consists.bare rfl, Consists.bare rfl, Consists.bare rfl, Consists.bare rfl, test,
    Consists.bare rfl, Consists.bare rfl, Consists.bare rfl, List.forall_mem_nil _⟩

/-- The lines of the dispatch switch have no comment in them. -/
theorem bare_caseLine (entry : Word × Label) : Bare (caseLine entry) := by
  have opening : Bare "case " := Consists.bare rfl
  have jumping : Bare ": goto " := Consists.bare rfl
  have closing : Bare "; \\" := Consists.bare rfl
  have value := (opening.append (Constant.ofWord entry.1).bare_text).append jumping
  exact bare_indent ((value.append (bare_labelText entry.2)).append closing)

/-- No line of the dispatch switch has a comment in it. -/
theorem bare_of_mem_dispatchLines : ∀ line ∈ file.dispatchLines, Bare line := by
  simp only [dispatchLines, List.forall_mem_append, List.forall_mem_map, List.forall_mem_cons]
  exact ⟨⟨⟨Consists.bare rfl, Consists.bare rfl, List.forall_mem_nil _⟩,
      fun entry _ => bare_caseLine entry⟩,
    Consists.bare rfl, Consists.bare rfl, Consists.bare rfl, List.forall_mem_nil _⟩

/-- No line after the last block has a comment in it. -/
theorem bare_of_mem_epilogue : ∀ line ∈ epilogue, Bare line := by
  simp only [epilogue, List.forall_mem_cons]
  exact ⟨Consists.bare rfl, Consists.bare rfl, Consists.bare rfl, List.forall_mem_nil _⟩

end SourceFile

end Lines

end Target

/-- Whether two source texts are one program: they are the same but for comments, have the same
tokens and are read as the same code. -/
structure Target.SameProgram (first second : String) : Prop where
  /-- The texts are the same without comments. -/
  bare : withoutComments first = withoutComments second
  /-- The texts have the same tokens. -/
  tokens : tokens? (.fresh []) first = tokens? (.fresh []) second
  /-- The texts are read as the same code. -/
  code : ∃ code, Code.read? first = some code ∧ Code.read? second = some code

/-- A line of the source text of a program. -/
inductive Row where
  /-- The comment at the top. -/
  | title (text : String)
  /-- A line of code, or an empty one. -/
  | code (text : String)
  /-- The comment of a block. -/
  | comment (block : Block)

namespace Row

/-- The text of a line: a block that encodes no instruction says why, and any other block names its
instruction if it is annotated. -/
def text (annotate : Bool) : Row → String
  | .title text | .code text => text
  | .comment block =>
    Target.indent ("// 0x" ++ block.label.text ++ ": " ++ hex8 block.word.toNat ++
      match block.instruction with
      | .error error => "  " ++ error.message
      | .ok instruction => if annotate then "  " ++ instruction.text else "")

/-- The line of an annotated text, from that of the text without annotations. -/
def annotated (row : Row) (line : String) : String :=
  match row with
  | .title _ | .code _ => line
  | .comment block =>
    match block.instruction with
    | .error _ => line
    | .ok instruction => line ++ "  " ++ instruction.text

/-- Whether a line is a comment. -/
def isComment : Row → Bool
  | .title _ | .comment _ => true
  | .code _ => false

/-- The block that a line comments on. -/
def block? : Row → Option Block
  | .comment block => some block
  | .title _ | .code _ => none

/-- Whether a line is what it is taken for: a title is a comment, and code has no comment in it. -/
def Proper : Row → Prop
  | .title text => Plain text ∧ ['/', '/'] <+: text.toList
  | .code text => Bare text
  | .comment _ => True

/-- Lines of code comment on no block. -/
theorem filterMap_block?_code (lines : List String) : (lines.map code).filterMap block? = [] := by
  rw [List.filterMap_eq_nil_iff, List.forall_mem_map]
  exact fun _ _ => rfl

section Texts

variable (annotate : Bool)

/-- Lines of code are their own texts, annotated or not. -/
theorem map_text_code (lines : List String) : (lines.map code).map (text annotate) = lines := by
  rw [List.map_map]
  exact List.map_id lines

/-- The comment line of a block is that of the emitted block. -/
theorem text_comment (table : JumpTable) (block : Block) :
    (comment block).text annotate = Target.indent (block.emit table annotate).comment := by
  cases decoded : block.instruction with
  | error error =>
    simp [text, Block.emit, Block.remark?, Target.Block.comment, decoded, String.append_assoc]
  | ok instruction =>
    cases annotate <;>
      simp [text, Block.emit, Block.remark?, Target.Block.comment, decoded, String.append_assoc]

end Texts

section Comments

variable (annotate : Bool)

/-- Lines of code without comments are proper. -/
theorem proper_code {lines : List String} (bare : ∀ line ∈ lines, Bare line) :
    ∀ row ∈ lines.map code, row.Proper := List.forall_mem_map.2 bare

/-- The comment of a block stays on its line. -/
theorem plain_comment (block : Block) : ∃ text, Plain text ∧ ['/', '/'] <+: text.toList ∧
    (comment block).text annotate = Target.indent text := by
  -- Any jump table will do, since the comment does not depend on it.
  let table : JumpTable := ⟨block.pc, 0⟩
  exact ⟨_, Target.Block.plain_comment (block.readable_emit table annotate).plain,
    Target.Block.slashes_comment _, text_comment annotate table block⟩

/-- A line that is not code is a comment. -/
theorem Proper.isComment_text {row : Row} (proper : row.Proper) (comment : row.isComment = true) :
    IsComment (row.text annotate) := by
  cases row with
  | title text =>
    have flush : text.toList = List.replicate 0 ' ' ++ text.toList := rfl
    exact isComment_of_plain proper.1 proper.2 flush
  | code text => cases comment
  | comment block =>
    obtain ⟨text, plain, opener, indented⟩ := plain_comment annotate block
    rw [indented]
    exact isComment_of_plain plain opener (Target.toList_indent text)

/-- The lines with `//` in them are the comments. -/
theorem Proper.slashes_iff {row : Row} (proper : row.Proper) :
    ['/', '/'] <:+: (row.text annotate).toList ↔ row.isComment = true := by
  refine ⟨fun opener => ?_, fun comment => (proper.isComment_text annotate comment).slashes⟩
  cases row with
  | title | comment => rfl
  | code text => exact absurd opener proper.slashes_apart

/-- A line keeps to itself. -/
theorem Proper.inline {row : Row} (proper : row.Proper) :
    Consists isInline (row.text annotate) := by
  cases row with
  | title text => exact proper.1.inline
  | code text => exact Bare.inline proper
  | comment block =>
    obtain ⟨text, plain, -, indented⟩ := plain_comment annotate block
    have blanks : Consists isInline "    " := rfl
    rw [indented]
    exact consists_append.2 ⟨blanks, plain.inline⟩

/-- Annotations leave what stands in front of comments as it is. -/
theorem Proper.codePart_text {row : Row} (proper : row.Proper) :
    codePart (row.text annotate).toList = codePart (row.text false).toList := by
  cases row with
  | title | code => rfl
  | comment block =>
    have blank (annotate : Bool) :
        codePart ((comment block).text annotate).toList = List.replicate 4 ' ' := by
      obtain ⟨text, -, opener, indented⟩ := plain_comment annotate block
      rw [indented, Target.toList_indent, codePart_comment 4 opener]
    rw [blank, blank]

end Comments

/-- An annotation is added at the end of a line. -/
theorem text_true (row : Row) : row.text true = row.annotated (row.text false) := by
  cases row with
  | title | code => rfl
  | comment block =>
    cases decoded : block.instruction with
    | error error => simp [text, annotated, decoded]
    | ok instruction => simp [text, annotated, decoded, Target.indent, String.append_assoc]

end Row

/-- The lines of the source text of a block. -/
def Block.rows (table : JumpTable) (block : Block) : List Row :=
  [.code (Target.labelText block.label ++ ": \x7b"), .comment block] ++
    (((block.emit table false).body.flatMap Target.Stmt.lines).map Target.indent).map .code ++
    [.code "\x7d", .code ""]

namespace Program

/-- The comment at the top of the source text of a program. -/
def title (program : Program) : String :=
  "// Generated by rv2c: " ++ decimal program.blockCount ++ " blocks, image base " ++
    address program.base.toNat

/-- The lines of the source text of a program. -/
def rows (program : Program) : List Row :=
  .title program.title :: ((program.emit false).prologue.tail.map .code ++
    (program.emit false).dispatchLines.map .code ++
    program.blocks.toList.flatMap (Block.rows program.table) ++
    Target.SourceFile.epilogue.map .code)

end Program

/-- The lines of an emitted block. -/
theorem Block.lines_emit (table : JumpTable) (annotate : Bool) (block : Block) :
    (block.emit table annotate).lines = (block.rows table).map (Row.text annotate) := by
  have body : (block.emit table annotate).body = (block.emit table false).body := rfl
  have comment := Row.text_comment annotate table block
  simp only [Block.rows, Target.Block.lines, List.map_append, List.map_cons, Row.map_text_code,
    comment, body]
  rfl

/-- The lines of a block are proper. -/
theorem Block.proper_of_mem_rows (table : JumpTable) (block : Block) :
    ∀ row ∈ block.rows table, row.Proper := by
  have heading : Bare (Target.labelText block.label ++ ": \x7b") := by
    have colon : Bare ": \x7b" := Consists.bare rfl
    exact (Target.bare_labelText block.label).append colon
  have body := Row.proper_code (Target.bare_of_mem_body (block.emit table false).body)
  have brace : Bare "\x7d" := Consists.bare rfl
  have empty : Bare "" := Consists.bare rfl
  simp only [Block.rows, List.forall_mem_append, List.forall_mem_cons]
  exact ⟨⟨⟨heading, trivial, List.forall_mem_nil _⟩, body⟩, brace, empty, List.forall_mem_nil _⟩

namespace Program

/-- The lines of an emitted program. -/
theorem lines_emit (program : Program) (annotate : Bool) :
    (program.emit annotate).lines = program.rows.map (Row.text annotate) := by
  have count : (program.emit annotate).blocks.length = program.blockCount := by
    simp [emit, blockCount]
  have prologue : (program.emit annotate).prologue =
      program.title :: (program.emit false).prologue.tail := by
    rw [Target.SourceFile.prologue, Target.SourceFile.prologue, count, List.tail_cons]
    rfl
  have dispatch : (program.emit annotate).dispatchLines = (program.emit false).dispatchLines := rfl
  have blocks : (program.emit annotate).blocks.flatMap Target.Block.lines =
      (program.blocks.toList.flatMap (Block.rows program.table)).map (Row.text annotate) := by
    simp only [emit, List.flatMap_map, List.map_flatMap, Block.lines_emit]
  rw [Target.SourceFile.lines, prologue, dispatch, blocks, rows]
  simp only [List.map_cons, List.map_append, Row.map_text_code, List.cons_append]
  rfl

/-- Every block has one comment, in order. -/
theorem filterMap_block?_rows (program : Program) :
    program.rows.filterMap Row.block? = program.blocks.toList := by
  have block (block : Block) : (block.rows program.table).filterMap Row.block? = [block] := by
    simp only [Block.rows, List.filterMap_append, Row.filterMap_block?_code]
    rfl
  have blocks : (program.blocks.toList.flatMap (Block.rows program.table)).filterMap Row.block? =
      program.blocks.toList := by
    simp [List.filterMap_flatMap, block]
  have title : (Row.title program.title).block? = none := rfl
  simp only [rows, List.filterMap_cons_none title, List.filterMap_append,
    Row.filterMap_block?_code, blocks, List.nil_append, List.append_nil]

/-- The lines of a source text are proper. -/
theorem proper_of_mem_rows (program : Program) : ∀ row ∈ program.rows, row.Proper := by
  have title : (Row.title program.title).Proper := by
    refine ⟨Target.SourceFile.plain_title _ _, ?_⟩
    unfold Program.title
    simp
  have prologue := Row.proper_code (program.emit false).bare_of_mem_prologue
  have dispatch := Row.proper_code (program.emit false).bare_of_mem_dispatchLines
  have epilogue := Row.proper_code Target.SourceFile.bare_of_mem_epilogue
  simp only [rows, List.forall_mem_cons, List.forall_mem_append, List.forall_mem_flatMap]
  exact ⟨title, ⟨⟨prologue, dispatch⟩, fun block _ => block.proper_of_mem_rows program.table⟩,
    epilogue⟩

/-- The lines of a source text, each of which ends in a line feed. -/
theorem lines_source (program : Program) (annotate : Bool) :
    lines (program.source annotate) = program.rows.map (Row.text annotate) := by
  have inline : ∀ line ∈ program.rows.map (Row.text annotate), Consists isInline line :=
    List.forall_mem_map.2 fun row member => (program.proper_of_mem_rows row member).inline annotate
  rw [source, Target.SourceFile.text, lines_emit, lines_join inline]

/-- The source texts of a program are the same but for their comments. -/
theorem withoutComments_source (program : Program) (annotate : Bool) :
    withoutComments (program.source annotate) = withoutComments (program.source false) := by
  rw [withoutComments, withoutComments, lines_source, lines_source, List.map_map, List.map_map]
  refine congrArg String.join (List.map_congr_left fun row member => ?_)
  rw [Function.comp, Function.comp, (program.proper_of_mem_rows row member).codePart_text annotate]

/-- The source texts of a program are one program, whether its blocks are annotated or not. -/
theorem sameProgram_source (program : Program) (annotate : Bool) :
    Target.SameProgram (program.source annotate) (program.source false) where
  bare := program.withoutComments_source annotate
  tokens := by rw [program.tokens?_source, program.tokens?_source]
  code := ⟨program.code, program.read?_source annotate, program.read?_source false⟩

end Program

/-- Lifting does not depend on annotations. -/
theorem Image.lift_annotate (image : Image) (settings : Settings) (annotate : Bool) :
    image.lift { settings with annotate := annotate } = image.lift settings := by
  have block (pc word : Word) : Block.ofWord { settings with annotate := annotate } pc word =
      Block.ofWord settings pc word := by
    unfold Block.ofWord
    split
    · rfl
    · rfl
  simp only [Image.lift, Image.blocks, block]

/-- The source text of a region is that of its program, with annotations. -/
theorem Region.source_eq {code : ByteArray} (base : Word) (whole : 4 ≤ code.size) :
    Region.source code base =
      .ok (((Image.mk base code).lift { base := base }).source true) := by
  have words : (Image.mk base code).wordCount ≠ 0 := by
    change code.size / 4 ≠ 0
    omega
  have lifted := (Image.mk base code).lift_annotate { base := base } true
  unfold Region.source
  rw [if_neg words, ← lifted]
  simp only [Image.compile]

/-- Annotations change the comments of a source text and nothing else. The two texts of a program
have the same lines, except that the comment of a block whose word encodes an instruction goes on
with two blanks and the instruction; every block has one comment, in order. The texts are equal
without what follows the first `//` of each line. Only the title and the comments of blocks have
`//` in them, with blanks in front, and none of them has a line feed or ends in a backslash. So the
text of a region is the same program as what is compiled from it without annotations. -/
theorem Program.annotations_only_in_comments (program : Program) :
    (∀ annotate, lines (program.source annotate) = program.rows.map (Row.text annotate) ∧
      program.source annotate =
        String.join ((lines (program.source annotate)).map (· ++ "\n"))) ∧
    program.rows.filterMap Row.block? = program.blocks.toList ∧
    (lines (program.source true)).length = (lines (program.source false)).length ∧
    lines (program.source true) =
      List.zipWith Row.annotated program.rows (lines (program.source false)) ∧
    withoutComments (program.source true) = withoutComments (program.source false) ∧
    (∀ annotate, ∀ row ∈ program.rows,
      (['/', '/'] <:+: (row.text annotate).toList ↔ row.isComment = true) ∧
      (row.isComment = true → IsComment (row.text annotate))) ∧
    ∀ (code : ByteArray) (base : Word), 4 ≤ code.size → ∃ text,
      Region.source code base = .ok text ∧
      Target.SameProgram text ((Image.mk base code).compile { base := base }).source := by
  refine ⟨fun annotate => ⟨program.lines_source annotate, ?_⟩, program.filterMap_block?_rows, ?_,
    ?_, program.withoutComments_source true, fun annotate row member => ?_,
    fun code base whole => ?_⟩
  · rw [lines_source, ← lines_emit]
    rfl
  · rw [lines_source, lines_source, List.length_map, List.length_map]
  · rw [lines_source, lines_source, List.zipWith_map_right, List.zipWith_self]
    exact List.map_congr_left fun row _ => row.text_true
  · have proper := program.proper_of_mem_rows row member
    exact ⟨proper.slashes_iff annotate, proper.isComment_text annotate⟩
  · have unit : ((Image.mk base code).compile { base := base }).source =
        ((Image.mk base code).lift { base := base }).source false := by
      simp only [Image.compile]
    rw [unit]
    exact ⟨_, Region.source_eq base whole, Program.sameProgram_source _ true⟩

/-- Quotients of quotients written by hand, and a region of a single division. -/
theorem Program.annotations_only_in_comments_divisions :
    let quotient := Expr.mulDiv .divu (.mulDiv .divu (.reg ⟨11⟩) (.reg ⟨12⟩)) (.reg ⟨12⟩)
    let block : Block := ⟨⟨0x80000000⟩, 0x02c5d533, .ok (.mulDiv .divu ⟨10⟩ ⟨11⟩ ⟨12⟩),
      [.define .rval quotient], .fallthrough⟩
    let program := Program.ofBlocks 0x80000000 0x11100000 #[block]
    let code : ByteArray := ⟨#[0x33, 0xd5, 0xc5, 0x02]⟩
    4 ≤ code.size ∧ program.rows.filterMap Row.block? = [block] ∧
      withoutComments (program.source true) = withoutComments (program.source false) ∧
      ∃ text, Region.source code 0x80000000 = .ok text ∧
        Target.SameProgram text
          ((Image.mk 0x80000000 code).compile { base := 0x80000000 }).source := by
  intro quotient block program code
  have size : 4 ≤ code.size := by decide
  obtain ⟨-, blocks, -, -, bare, -, region⟩ := Program.annotations_only_in_comments program
  exact ⟨size, blocks, bare, region code 0x80000000 size⟩

end RvLift
