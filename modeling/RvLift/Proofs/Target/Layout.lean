import Mathlib
import RvLift.Proofs.Target.Code
import RvLift.Proofs.Text.Characters

/-!
# The tokens of source files

The tokens of a source file are those of its lines, one line after the other. Indentation and
comments do not count; the lines of the dispatch switch are joined by their backslashes.
-/

namespace RvLift.Target

/-- A line that is made up of tokens. -/
def Line (line : String) (tokens : List Token) : Prop :=
  Carries .fresh (line.toList ++ ['\n']) tokens

/-- Lines each of which is made up of tokens. -/
inductive Lines : List String → List Token → Prop where
  /-- No line. -/
  | nil : Lines [] []
  /-- A line in front of others. -/
  | cons {line : String} {lines : List String} {first rest : List Token} (head : Line line first)
    (tail : Lines lines rest) : Lines (line :: lines) (first ++ rest)

/-- The characters of lines with their line feeds. -/
def linesText (lines : List String) : List Char := lines.flatMap fun line => line.toList ++ ['\n']

section Composition

variable {line : String} {lines others : List String} {tokens rest : List Token}

/-- A single line. -/
theorem Line.single (spelled : Line line tokens) : Lines [line] tokens := by
  have single := Lines.cons spelled .nil
  rwa [List.append_nil] at single

/-- Lines behind lines. -/
theorem Lines.append (spelled : Lines lines tokens) (follows : Lines others rest) :
    Lines (lines ++ others) (tokens ++ rest) := by
  induction spelled with
  | nil => exact follows
  | cons head _ hypothesis =>
    rw [List.append_assoc]
    exact .cons head hypothesis

/-- The lines of any number of items. -/
theorem Lines.flatMap {α : Type} {items : List α} {lines : α → List String}
    {tokens : α → List Token} (each : ∀ item ∈ items, Lines (lines item) (tokens item)) :
    Lines (items.flatMap lines) (items.flatMap tokens) := by
  induction items with
  | nil => exact .nil
  | cons item items hypothesis =>
    have first := each item (List.mem_cons_self ..)
    have later := hypothesis fun other member => each other (List.mem_cons_of_mem _ member)
    rw [List.flatMap_cons, List.flatMap_cons]
    exact first.append later

/-- Indentation does not count. -/
theorem Line.indent (spelled : Line line tokens) : Line (indent line) tokens := by
  intro previous
  have blanks : (Target.indent line).toList = ' ' :: ' ' :: ' ' :: ' ' :: line.toList := by
    rw [Target.indent, String.toList_append]
    rfl
  rw [blanks]
  exact spelled previous

/-- Lines may be indented alike. -/
theorem Lines.indent (spelled : Lines lines tokens) : Lines (lines.map indent) tokens := by
  induction spelled with
  | nil => exact .nil
  | cons head _ hypothesis => exact .cons head.indent hypothesis

/-- The text of lines is made up of their tokens. -/
theorem Lines.carries (spelled : Lines lines tokens) : Carries .fresh (linesText lines) tokens := by
  induction spelled with
  | nil => exact fun _ => rfl
  | cons head _ hypothesis => exact Carries.append head hypothesis

/-- Tokens that begin with a letter make up a line. -/
theorem Closes.toLine (closes : Closes false line.toList tokens)
    (begins : ∃ letter, line.toList.head? = some letter ∧ isLetter letter = true) :
    Line line tokens := by
  intro previous
  obtain ⟨letter, head, isLetter⟩ := begins
  obtain ⟨text, begins⟩ := List.head?_eq_some_iff.1 head
  have blank : letter ≠ ' ' := by rintro rfl; contradiction
  have backslash : letter ≠ '\\' := by rintro rfl; contradiction
  have feed : letter ≠ '\n' := by rintro rfl; contradiction
  have same : (Scanner.fresh previous).step letter =
      (Scanner.between false previous).step letter := by
    simp [Scanner.step, Scanner.take, Scanner.begin, Scanner.fresh, Scanner.between, blank,
      backslash, feed, isLetter]
  have scanned : (Scanner.fresh previous).scan line.toList =
      some (.between false (tokens.reverse ++ previous)) := by
    rw [← closes previous, begins, Scanner.scan_cons, Scanner.scan_cons, same]
  rw [Scanner.scan_append, scanned]
  rfl

end Composition

/-- An empty line has no tokens. -/
theorem line_empty : Line "" [] := fun _ => rfl

/-- A closing brace on a line of its own. -/
theorem line_brace : Line "\x7d" [.mark "\x7d"] := fun _ => rfl

/-- A grouped expression and the semicolon behind it. -/
theorem Expr.closes_semicolon {expr : Expr} (grouped : expr.Grouped) :
    Closes false (expr.text.toList ++ [';']) (expr.tokens ++ [Token.mark ";"]) := by
  have semicolon : Closes false [';'] [.mark ";"] := fun _ => rfl
  exact (expr.spells grouped).append_closes (by decide) semicolon

section Comments

/-- A comment goes on to the end of its line. -/
theorem Scanner.scan_comment {text : List Char} (previous : List Token)
    (plain : ∀ character ∈ text, Text.isPlain character = true) :
    Scanner.scan ⟨.comment, false, false, previous⟩ text =
      some ⟨.comment, false, false, previous⟩ := by
  induction text with
  | nil => rfl
  | cons character text hypothesis =>
    obtain ⟨⟨feed, -⟩, backslash⟩ :
        (character ≠ '\n' ∧ character ≠ '\r') ∧ character ≠ '\\' := by
      simpa [Text.isPlain] using plain character (List.mem_cons_self ..)
    have goesOn : Scanner.step ⟨.comment, false, false, previous⟩ character =
        some ⟨.comment, false, false, previous⟩ := by
      simp [step, take, feed, backslash]
    rw [scan_cons, goesOn]
    exact hypothesis fun other member => plain other (List.mem_cons_of_mem _ member)

/-- A comment is a line without tokens. -/
theorem line_comment {line : String} (plain : Text.Plain line)
    (slashes : ['/', '/'] <+: line.toList) : Line line [] := by
  intro previous
  obtain ⟨rest, text⟩ := slashes
  have opened : (Scanner.fresh previous).scan ['/', '/'] =
      some ⟨.comment, false, false, previous⟩ := rfl
  have later : ∀ character ∈ rest, Text.isPlain character = true := by
    intro character member
    have inside : character ∈ line.toList := by
      rw [← text]
      exact List.mem_append_right _ member
    exact Text.consists_iff.1 plain character inside
  rw [← text, List.append_assoc, Scanner.scan_append, opened, Option.bind_some,
    Scanner.scan_append, Scanner.scan_comment previous later]
  rfl

end Comments

/-- The tokens of a transfer of control. -/
def Jump.tokens : Jump → List Token
  | .goto target => [.word "goto", .word (labelText target), .mark ";"]
  | .dispatch target => .word "DISPATCH" :: .mark "(" :: (target.tokens ++ [.mark ")"])

/-- The tokens of a statement. -/
def Stmt.tokens : Stmt → List Token
  | .declare temp value =>
    .word "uint32_t" :: .word temp.name :: .mark "=" :: (value.tokens ++ [.mark ";"])
  | .assign rd value => (Expr.register rd).tokens ++ .mark "=" :: (value.tokens ++ [.mark ";"])
  | .jump target => target.tokens
  | .jumpIf condition target =>
    .word "if" :: .mark "(" :: (condition.tokens ++ .mark ")" :: target.tokens)
  | .returnIfHalt address value =>
    .word "if" :: .mark "(" :: .word "is_halt" :: .mark "(" :: (address.tokens ++
      .mark ")" :: .mark ")" :: .mark "\x7b" :: .word "return" :: .mark "(" :: .word "int" ::
        .mark ")" :: (value.tokens ++ [.mark ";", .mark "\x7d"]))
  | .store width offset value =>
    .word (storeName width) :: .mark "(" :: (offset.tokens ++ .mark "," :: (value.tokens ++
      [.mark ")", .mark ";"]))

/-- The tokens of a case of the dispatch switch. -/
def entryTokens (entry : Constant × Label) : List Token :=
  [.word "case", .constant entry.1, .mark ":", .word "goto", .word (labelText entry.2), .mark ";"]

/-- The tokens of a labelled block. -/
def LabelledBlock.tokens (block : LabelledBlock) : List Token :=
  .word (labelText block.label) :: .mark ":" :: .mark "\x7b" ::
    (block.body.flatMap Stmt.tokens ++ [.mark "\x7d"])

/-- The tokens of a source file. -/
def Code.tokens (code : Code) : List Token :=
  opening ++ (code.haltTest.tokens ++ .mark ";" :: (entrance ++ (switchStart ++
    (code.cases.flatMap entryTokens ++ (switchEnd ++
      (code.blocks.flatMap LabelledBlock.tokens ++ .word "return" :: (code.result.tokens ++
        .mark ";" :: ending)))))))

/-- Whether the expressions of a jump are grouped. -/
def Jump.Grouped : Jump → Prop
  | .goto _ => True
  | .dispatch target => target.Grouped

/-- Whether the expressions of a statement are grouped, with a returned value as the operand of a
cast. -/
def Stmt.Grouped : Stmt → Prop
  | .declare _ value | .assign _ value => value.Grouped
  | .jump target => target.Grouped
  | .jumpIf condition target => condition.Grouped ∧ target.Grouped
  | .returnIfHalt address value => address.Grouped ∧ value.Tight
  | .store _ offset value => offset.Grouped ∧ value.Grouped

section Statements

/-- The name of a label is one token. -/
theorem spells_label (directive : Bool) (label : Label) :
    Spells directive (labelText label).toList [.word (labelText label)] := by
  have name : (labelText label).toList = 'l' :: 'a' :: 'b' :: '_' :: label.text.toList := by
    rw [labelText, String.toList_append]
    rfl
  have digits : ∀ character ∈ label.text.toList, isLetter character = true :=
    Text.all_padded (by decide) 8 _ (by decide)
  refine spells_letters ?_ ?_ (by simp [name])
  · intro character member
    rw [name] at member
    simp only [List.mem_cons] at member
    rcases member with rfl | rfl | rfl | rfl | numeral
    · rfl
    · rfl
    · rfl
    · rfl
    · exact digits character numeral
  · have figure : ('l' : Char).isDigit = false := rfl
    have whole : String.ofList (labelText label).toList = labelText label := String.ofList_toList
    rw [Token.ofLetters?, whole, name]
    simp [figure]

/-- The text of a jump is made up of its tokens. -/
theorem Jump.closes {jump : Jump} (grouped : jump.Grouped) :
    Closes false jump.text.toList jump.tokens := by
  cases jump with
  | goto target =>
    have opening : Closes false "goto ".toList [.word "goto"] := fun _ => rfl
    have closing : Closes false [';'] [.mark ";"] := fun _ => rfl
    have whole := opening.append ((spells_label false target).append_closes (by decide) closing)
    simpa [Jump.text, Jump.tokens] using whole
  | dispatch target =>
    have opening : Closes false "DISPATCH(".toList [.word "DISPATCH", .mark "("] := fun _ => rfl
    have closing : Closes false [')'] [.mark ")"] := fun _ => rfl
    have whole := opening.append ((target.spells grouped).append_closes (by decide) closing)
    simpa [Jump.text, Jump.tokens] using whole

/-- The text of a jump begins with a letter. -/
theorem Jump.begins (jump : Jump) :
    ∃ letter, jump.text.toList.head? = some letter ∧ isLetter letter = true := by
  cases jump with
  | goto target => exact ⟨'g', by simp [Jump.text], rfl⟩
  | dispatch target => exact ⟨'D', by simp [Jump.text], rfl⟩

/-- The lines of a statement are made up of its tokens. -/
theorem Stmt.spelled {stmt : Stmt} (grouped : stmt.Grouped) : Lines stmt.lines stmt.tokens := by
  cases stmt with
  | declare temp value =>
    have opening : Closes false ("uint32_t " ++ temp.name ++ " = ").toList
        [.word "uint32_t", .word temp.name, .mark "="] := by
      intro previous
      cases temp <;> rfl
    have whole := opening.append (Expr.closes_semicolon grouped)
    refine Line.single (Closes.toLine ?_ ⟨'u', ?_, rfl⟩)
    · simpa [Stmt.tokens] using whole
    · simp
  | assign rd value =>
    have register := (Expr.register rd).spells trivial
    have equals : Closes false [' ', '=', ' '] [.mark "="] := fun _ => rfl
    have whole := (register.append_closes (by decide) equals).append
      (Expr.closes_semicolon grouped)
    rw [Expr.text_register] at whole
    refine Line.single (Closes.toLine ?_ ⟨'c', ?_, rfl⟩)
    · simpa [Stmt.tokens] using whole
    · simp [registerText]
  | jump target =>
    have spelled : Line target.text target.tokens := (Jump.closes grouped).toLine target.begins
    exact spelled.single
  | jumpIf condition target =>
    have opening : Closes false "if (".toList [.word "if", .mark "("] := fun _ => rfl
    have closing : Closes false [')', ' '] [.mark ")"] := fun _ => rfl
    have whole := opening.append
      (((condition.spells grouped.1).append_closes (by decide) closing).append
        (Jump.closes grouped.2))
    refine Line.single (Closes.toLine ?_ ⟨'i', ?_, rfl⟩)
    · simpa [Stmt.tokens] using whole
    · simp
  | returnIfHalt address value =>
    have opening : Closes false "if (is_halt(".toList
        [.word "if", .mark "(", .word "is_halt", .mark "("] := fun _ => rfl
    have closing : Closes false [')', ')', ' ', '\x7b']
        [.mark ")", .mark ")", .mark "\x7b"] := fun _ => rfl
    have returning : Closes false "return (int) ".toList
        [.word "return", .mark "(", .word "int", .mark ")"] := fun _ => rfl
    have test := opening.append ((address.spells grouped.1).append_closes (by decide) closing)
    have result := returning.append (Expr.closes_semicolon grouped.2.1)
    have first : Line ("if (is_halt(" ++ address.text ++ ")) \x7b")
        (.word "if" :: .mark "(" :: .word "is_halt" :: .mark "(" ::
          (address.tokens ++ [Token.mark ")", .mark ")", .mark "\x7b"])) := by
      refine Closes.toLine ?_ ⟨'i', ?_, rfl⟩
      · simpa using test
      · simp
    have second : Line ("return (int) " ++ value.text ++ ";")
        (.word "return" :: .mark "(" :: .word "int" :: .mark ")" ::
          (value.tokens ++ [Token.mark ";"])) := by
      refine Closes.toLine ?_ ⟨'r', ?_, rfl⟩
      · simpa using result
      · simp
    have whole : Lines (Stmt.returnIfHalt address value).lines _ :=
      .cons first (.cons second.indent line_brace.single)
    simpa [Stmt.tokens] using whole
  | store width offset value =>
    have opening : Closes false ("MINIRV32_STORE" ++ Text.decimal width.bytes ++ "(").toList
        [.word (storeName width), .mark "("] := by
      intro previous
      cases width <;> rfl
    have comma : Closes false [',', ' '] [.mark ","] := fun _ => rfl
    have closing : Closes false [')', ';'] [.mark ")", .mark ";"] := fun _ => rfl
    have whole := opening.append
      (((offset.spells grouped.1).append_closes (by decide) comma).append
        ((value.spells grouped.2).append_closes (by decide) closing))
    refine Line.single (Closes.toLine ?_ ⟨'M', ?_, rfl⟩)
    · simpa [Stmt.tokens] using whole
    · simp

end Statements

/-- What is read of a block. -/
def Block.code (block : Block) : LabelledBlock := ⟨block.label, block.body⟩

/-- What is read of a source file. -/
def SourceFile.code (file : SourceFile) : Code where
  haltTest := .binary .equal (.temp .addr) (.ofWord file.haltAddress)
  cases := file.cases.map fun entry => (.ofWord entry.1, entry.2)
  blocks := file.blocks.map Block.code
  result := .constant ⟨0, .decimal, false⟩

/-- Whether a block is grouped and its remark stays in its comment. -/
structure Block.Readable (block : Block) : Prop where
  /-- The statements are grouped. -/
  grouped : ∀ stmt ∈ block.body, stmt.Grouped
  /-- The remark stays on its line. -/
  plain : ∀ remark ∈ block.remark?, Text.Plain remark

/-- The comment of a block stays on its line. -/
theorem Block.plain_comment {block : Block} (plain : ∀ remark ∈ block.remark?, Text.Plain remark) :
    Text.Plain block.comment := by
  have place : Text.Plain ("// 0x" ++ block.label.text ++ ": " ++
      Text.hex8 block.word.toNat) := by
    have sign : Text.Plain "// 0x" := rfl
    have colon : Text.Plain ": " := rfl
    have address : Text.Plain block.label.text := Text.plain_hex8 _
    simp only [Text.plain_append]
    exact ⟨⟨⟨sign, address⟩, colon⟩, Text.plain_hex8 _⟩
  cases remark : block.remark? with
  | none =>
    rw [comment, remark]
    exact place
  | some text =>
    have blanks : Text.Plain "  " := rfl
    rw [comment, remark]
    exact Text.plain_append.2 ⟨Text.plain_append.2 ⟨place, blanks⟩, plain text remark⟩

/-- The comment of a block begins with two slashes. -/
theorem Block.slashes_comment (block : Block) : ['/', '/'] <+: block.comment.toList := by
  cases remark : block.remark? <;> simp [comment, remark]

/-- The comment of a block has no tokens. -/
theorem Block.line_comment {block : Block} (readable : block.Readable) :
    Line block.comment [] :=
  Target.line_comment (plain_comment readable.plain) block.slashes_comment

/-- The lines of a block are made up of its tokens. -/
theorem Block.spelled {block : Block} (readable : block.Readable) :
    Lines block.lines block.code.tokens := by
  have opening : Closes false [':', ' ', '\x7b'] [.mark ":", .mark "\x7b"] := fun _ => rfl
  have named := (spells_label false block.label).append_closes (by decide) opening
  have heading : Line (labelText block.label ++ ": \x7b")
      [.word (labelText block.label), .mark ":", .mark "\x7b"] := by
    refine Closes.toLine ?_ ⟨'l', ?_, rfl⟩
    · simpa using named
    · simp [labelText]
  have body : Lines ((block.body.flatMap Stmt.lines).map indent)
      (block.body.flatMap Stmt.tokens) :=
    (Lines.flatMap fun stmt member => Stmt.spelled (readable.grouped stmt member)).indent
  have comment := (Block.line_comment readable).indent
  have whole := (Lines.cons heading comment.single).append
    (body.append (Lines.cons line_brace line_empty.single))
  simpa [lines, code, LabelledBlock.tokens] using whole

namespace SourceFile

variable (file : SourceFile)

/-- The halt test is grouped. -/
theorem grouped_haltTest : file.code.haltTest.Grouped := by
  have name : (Expr.temp .addr).Tight := ⟨trivial, by simp [Expr.level]⟩
  have constant : (Expr.ofWord file.haltAddress).Tight := ⟨trivial, by simp [Expr.ofWord]⟩
  exact name.binary .equal constant

/-- The text of the halt test. -/
theorem haltTest_text :
    file.code.haltTest.text = "addr == " ++ (Constant.ofWord file.haltAddress).text := rfl

/-- The opening comment stays on its line. -/
theorem plain_title (count address : Nat) :
    Text.Plain ("// Generated by rv2c: " ++ Text.decimal count ++ " blocks, image base " ++
      Text.address address) := by
  have first : Text.Plain "// Generated by rv2c: " := rfl
  have second : Text.Plain " blocks, image base " := rfl
  simp only [Text.plain_append]
  exact ⟨⟨⟨first, Text.plain_decimal _⟩, second⟩, Text.plain_address _⟩

/-- The lines before the body of the function are made up of the tokens there. -/
theorem spelled_prologue :
    Lines file.prologue
      (Code.opening ++ (file.code.haltTest.tokens ++ .mark ";" :: Code.entrance)) := by
  have title : Line ("// Generated by rv2c: " ++ Text.decimal file.blocks.length ++
      " blocks, image base " ++ Text.address file.base.toNat) [] :=
    line_comment (plain_title _ _) (by simp)
  have core : Line "#include \"rv32core.h\""
      [.mark "#", .word "include", .quoted "rv32core.h", .lineEnd] := fun _ => rfl
  have macros : Line "#include \"rv32macros.h\""
      [.mark "#", .word "include", .quoted "rv32macros.h", .lineEnd] := fun _ => rfl
  have signature : Line "static inline bool is_halt(uint32_t addr) \x7b"
      [.word "static", .word "inline", .word "bool", .word "is_halt", .mark "(",
        .word "uint32_t", .word "addr", .mark ")", .mark "\x7b"] := fun _ => rfl
  have test : Line ("return addr == " ++ (Constant.ofWord file.haltAddress).text ++ ";")
      (.word "return" :: (file.code.haltTest.tokens ++ [Token.mark ";"])) := by
    have returning : Closes false "return ".toList [.word "return"] := fun _ => rfl
    have whole := returning.append (Expr.closes_semicolon file.grouped_haltTest)
    rw [haltTest_text] at whole
    refine Closes.toLine ?_ ⟨'r', by simp, rfl⟩
    simpa using whole
  have function : Line "int run(RV32Core &core) \x7b"
      [.word "int", .word "run", .mark "(", .word "RV32Core", .mark "&", .word "core", .mark ")",
        .mark "\x7b"] := fun _ => rfl
  have whole : Lines file.prologue _ := .cons title (.cons core (.cons macros (.cons line_empty
    (.cons signature (.cons test.indent (.cons line_brace (.cons line_empty
      function.single)))))))
  simpa [Code.opening, Code.entrance] using whole

/-- The line of a case of the dispatch switch is made up of its tokens. -/
theorem closes_caseLine (entry : Word × Label) :
    Closes true ((caseLine entry).toList ++ ['\n'])
      (entryTokens (Constant.ofWord entry.1, entry.2)) := by
  have opening : Closes true "    case ".toList [.word "case"] := fun _ => rfl
  have jumping : Closes true [':', ' ', 'g', 'o', 't', 'o', ' '] [.mark ":", .word "goto"] :=
    fun _ => rfl
  have closing : Closes true [';', ' ', '\\', '\n'] [.mark ";"] := fun _ => rfl
  have target := (spells_label true entry.2).append_closes (by decide) closing
  have value := (spells_constant true (Constant.ofWord entry.1)).append_closes
    (by decide) (jumping.append target)
  simpa [caseLine, indent, entryTokens] using opening.append value

/-- The lines that define the dispatch switch are made up of its tokens. -/
theorem carries_dispatchLines :
    Carries .fresh (linesText file.dispatchLines)
      (Code.switchStart ++ (file.code.cases.flatMap entryTokens ++ Code.switchEnd)) := by
  have opened (previous : List Token) :
      (Scanner.fresh previous).scan
        (linesText ["#define DISPATCH(PC) \\", indent "switch (PC) \x7b \\"]) =
        some (.between true (Code.switchStart.reverse ++ previous)) := rfl
  have cases : Closes true (linesText (file.cases.map caseLine))
      (file.code.cases.flatMap entryTokens) := by
    rw [linesText, List.flatMap_map, code, List.flatMap_map]
    exact Carries.flatMap fun entry _ => closes_caseLine entry
  have closed (previous : List Token) :
      (Scanner.between true previous).scan
        (linesText [indent "default: break; \\", indent "\x7d", ""]) =
        some (.fresh (Code.switchEnd.reverse ++ previous)) := rfl
  intro previous
  rw [dispatchLines, linesText, List.flatMap_append, List.flatMap_append, ← linesText, ← linesText,
    ← linesText, Scanner.scan_append, Scanner.scan_append, opened, Option.bind_some, cases,
    Option.bind_some, closed]
  simp

variable {file} in
/-- The text of a source file is made up of its tokens. -/
theorem tokens?_text (readable : ∀ block ∈ file.blocks, block.Readable) :
    tokens? (.fresh []) file.text = some file.code.tokens := by
  have blocks : Lines (file.blocks.flatMap Block.lines)
      (file.code.blocks.flatMap LabelledBlock.tokens) := by
    rw [code, List.flatMap_map]
    exact Lines.flatMap fun block member => Block.spelled (readable block member)
  have ending : Carries .fresh (linesText epilogue)
      (.word "return" :: (file.code.result.tokens ++ .mark ";" :: Code.ending)) := fun _ => rfl
  have whole := file.spelled_prologue.carries.append
    (file.carries_dispatchLines.append (blocks.carries.append ending))
  have text : file.text.toList = linesText file.prologue ++ (linesText file.dispatchLines ++
      (linesText (file.blocks.flatMap Block.lines) ++ linesText epilogue)) := by
    simp [SourceFile.text, SourceFile.lines, linesText, List.flatMap_map]
  have scanned := whole []
  rw [← text] at scanned
  rw [tokens?, scanned]
  simp [Code.tokens, Scanner.fresh, Scanner.settle]

end SourceFile

end RvLift.Target
