import Mathlib
import RvLift.Proofs.Instruction.Assembly
import RvLift.Proofs.Target.Layout

/-!
# Reading source files back

A source file whose expressions are grouped and whose comments stay on their lines is read back from
its text: what is read are its halt test, its cases and its blocks.

Each reader consumes exactly its own tokens in front of any others, so that readers can be put one
behind the other. Where there is a choice of readers, those tried first fail on the first token.
-/

namespace RvLift.Target

/-- A label is found by its name. -/
theorem labelOfName?_labelText (label : Label) : labelOfName? (labelText label) = some label := by
  have name : (labelText label).toList.drop 4 = label.text.toList := by
    rw [labelText, String.toList_append]
    rfl
  have digits : Text.value? 16 label.text.toList = some label.address.toNat :=
    Text.value?_padded (by decide) (by decide) 8 _
  rw [labelOfName?, name, digits]
  simp

/-- A statement has tokens. -/
theorem Stmt.tokens_ne_nil (statement : Stmt) : statement.tokens ≠ [] := by
  cases statement with
  | jump target => cases target <;> simp [Stmt.tokens, Jump.tokens]
  | _ => simp [Stmt.tokens, Expr.tokens]

namespace Reading

variable {α β : Type}

/-- Whether tokens are read as a value, whatever is behind them. -/
def Reads (reading : Reading α) (tokens : List Token) (value : α) : Prop :=
  ∀ rest, reading (tokens ++ rest) = some (value, rest)

section Composition

variable {first second : Reading α} {next : α → Reading β} {tokens others : List Token}
  {value : α} {result : β}

/-- One reader behind another. -/
theorem Reads.bind (reads : Reads first tokens value) (follows : Reads (next value) others result) :
    Reads (first >>= next) (tokens ++ others) result := by
  intro rest
  have consumed := reads (others ++ rest)
  rw [← List.append_assoc] at consumed
  change (first (tokens ++ others ++ rest)).bind _ = _
  rw [consumed]
  exact follows rest

/-- What is made of what has been read. -/
theorem Reads.returns (reads : Reads first tokens value) (make : α → β) :
    Reads (first >>= fun read => pure (make read)) tokens (make value) := by
  intro rest
  change (first (tokens ++ rest)).bind _ = _
  rw [reads]
  rfl

/-- The first of two readers reads. -/
theorem Reads.orElse (reads : Reads first tokens value) :
    Reads (first <|> second) tokens value := by
  intro rest
  change (first (tokens ++ rest) <|> second (tokens ++ rest)) = _
  rw [reads]
  rfl

/-- The second of two readers reads, where the first fails. -/
theorem Reads.orElse_of_none (reads : Reads second tokens value)
    (fails : ∀ rest, first (tokens ++ rest) = none) : Reads (first <|> second) tokens value := by
  intro rest
  change (first (tokens ++ rest) <|> second (tokens ++ rest)) = _
  rw [fails, reads]
  rfl

end Composition

section Parts

/-- Given tokens are read. -/
theorem reads_expect (tokens : List Token) : Reads (expect tokens) tokens () := by
  intro rest
  have dropped : (tokens ++ rest).dropPrefix? tokens = some rest := by
    induction tokens with
    | nil => rw [List.nil_append, List.dropPrefix?_nil]
    | cons token tokens hypothesis => simpa [List.dropPrefix?] using hypothesis
  rw [expect, dropped]
  rfl

/-- A name that stands for something is read. -/
theorem reads_named {find? : String → Option α} {name : String} {value : α}
    (found : find? name = some value) : Reads (named find?) [.word name] value := by
  intro rest
  change (find? name).map (·, rest) = _
  rw [found]
  rfl

/-- A constant is read. -/
theorem reads_constant (value : Constant) : Reads constant [.constant value] value :=
  fun _ => rfl

/-- A grouped expression and the mark behind it are read. -/
theorem reads_exprUntil {expr : Expr} (grouped : expr.Grouped) {closing : String}
    (ends : closing ∈ [")", ",", ";", "="]) :
    Reads (exprUntil closing) (expr.tokens ++ [Token.mark closing]) expr := by
  intro rest
  have stops : ∀ token ∈ (Token.mark closing :: rest).head?,
      token ∈ [.mark ")", .mark ",", .mark ";", .mark "="] := by
    intro token member
    obtain rfl : .mark closing = token := by simpa using member
    simpa using ends
  have parsed : readExpr (expr.tokens ++ [Token.mark closing] ++ rest) =
      some (expr, .mark closing :: rest) := by
    rw [List.append_assoc]
    exact Reader.read_tokens grouped stops
  have mark := (reads_expect [.mark closing]).returns (fun _ => expr)
  change (readExpr (expr.tokens ++ [Token.mark closing] ++ rest)).bind _ = _
  rw [parsed]
  exact mark rest

/-- Items are read as far as they go. -/
theorem many_flatMap {item : Reading α} {tokens : α → List Token} {values : List α}
    (each : ∀ value ∈ values, Reads item (tokens value) value ∧ tokens value ≠ [])
    {behind : List Token} (stops : item behind = none) :
    many item (values.flatMap tokens ++ behind) = some (values, behind) := by
  induction values with
  | nil =>
    rw [List.flatMap_nil, List.nil_append, many, stops]
  | cons value values hypothesis =>
    obtain ⟨reads, inhabited⟩ := each value (List.mem_cons_self ..)
    have later := hypothesis fun other member => each other (List.mem_cons_of_mem _ member)
    have shorter : (values.flatMap tokens ++ behind).length <
        (tokens value ++ (values.flatMap tokens ++ behind)).length := by
      have positive := List.length_pos_iff.2 inhabited
      simp only [List.length_append]
      omega
    rw [List.flatMap_cons, List.append_assoc, many, reads]
    simp only [if_pos shorter, later]
    rfl

/-- Items and the tokens behind them are read. -/
theorem reads_manyUntil {item : Reading α} {tokens : α → List Token} {values : List α}
    {closing : List Token}
    (each : ∀ value ∈ values, Reads item (tokens value) value ∧ tokens value ≠ [])
    (stops : ∀ rest, item (closing ++ rest) = none) :
    Reads (manyUntil item closing) (values.flatMap tokens ++ closing) values := by
  intro rest
  have items := many_flatMap each (stops rest)
  have mark := (reads_expect closing).returns (fun _ => values)
  rw [← List.append_assoc] at items
  change (many item (values.flatMap tokens ++ closing ++ rest)).bind _ = _
  rw [items]
  exact mark rest

end Parts

section Statements

/-- The tokens of a jump are read as the jump. -/
theorem reads_jump {target : Jump} (grouped : target.Grouped) :
    Reads jump target.tokens target := by
  cases target with
  | goto target =>
    have reads : Reads goto _ (.goto target) :=
      (reads_expect _).bind ((reads_named (labelOfName?_labelText target)).bind
        ((reads_expect _).returns fun _ => Jump.goto target))
    exact reads.orElse
  | dispatch target =>
    have reads : Reads dispatch _ (.dispatch target) :=
      (reads_expect _).bind ((reads_exprUntil grouped (by decide)).returns Jump.dispatch)
    exact reads.orElse_of_none fun _ => rfl

/-- A declaration is read, its temporary found by name. -/
theorem reads_declare (temp : Temp) {value : Expr} (grouped : value.Grouped) :
    Reads declare (Stmt.declare temp value).tokens (.declare temp value) := by
  have found : Temp.ofName? temp.name = some temp := by cases temp <;> rfl
  exact (reads_expect _).bind ((reads_named found).bind ((reads_expect _).bind
    ((reads_exprUntil grouped (by decide)).returns (Stmt.declare temp))))

/-- A register write is read, its register as an expression in front of the equals sign. -/
theorem reads_assign (rd : Reg) {value : Expr} (grouped : value.Grouped) :
    Reads assign (Stmt.assign rd value).tokens (.assign rd value) := by
  have grouping : (Expr.register rd).Grouped := trivial
  have register : Reads (exprUntil "=") _ (.register rd) := reads_exprUntil grouping (by decide)
  have reads : Reads assign _ (.assign rd value) :=
    register.bind ((reads_exprUntil grouped (by decide)).returns (Stmt.assign rd))
  simpa [Stmt.tokens] using reads

/-- A conditional jump is read, and with it the jump behind its condition. -/
theorem reads_jumpIf {condition : Expr} {target : Jump} (conditionGrouped : condition.Grouped)
    (targetGrouped : target.Grouped) :
    Reads jumpIf (Stmt.jumpIf condition target).tokens (.jumpIf condition target) := by
  have reads : Reads jumpIf _ (.jumpIf condition target) :=
    (reads_expect _).bind ((reads_exprUntil conditionGrouped (by decide)).bind
      ((reads_jump targetGrouped).returns (Stmt.jumpIf condition)))
  simpa [Stmt.tokens] using reads

/-- The test for the halt address is read. What is returned is the operand of a cast and has to be
tight. -/
theorem reads_returnIfHalt {address value : Expr} (grouped : address.Grouped)
    (tight : value.Tight) :
    Reads returnIfHalt (Stmt.returnIfHalt address value).tokens (.returnIfHalt address value) := by
  have operand : Reads (guard (12 ≤ value.level)) [] () := by
    intro rest
    rw [guard, if_pos tight.2]
    rfl
  have reads : Reads returnIfHalt _ (.returnIfHalt address value) :=
    (reads_expect _).bind ((reads_exprUntil grouped (by decide)).bind
      ((reads_expect _).bind ((reads_exprUntil tight.1 (by decide)).bind
        (operand.bind ((reads_expect _).returns fun _ => Stmt.returnIfHalt address value)))))
  simpa [Stmt.tokens] using reads

/-- A store is read, its width found by the name of the accessor. -/
theorem reads_store (width : Width) {offset value : Expr} (offsetGrouped : offset.Grouped)
    (valueGrouped : value.Grouped) :
    Reads store (Stmt.store width offset value).tokens (.store width offset value) := by
  have found : storeWidth? (storeName width) = some width := by cases width <;> rfl
  have reads : Reads store _ (.store width offset value) :=
    (reads_named found).bind ((reads_expect _).bind
      ((reads_exprUntil offsetGrouped (by decide)).bind
        ((reads_exprUntil valueGrouped (by decide)).bind
          ((reads_expect _).returns fun _ => Stmt.store width offset value))))
  simpa [Stmt.tokens] using reads

/-- The tokens of a statement are read as the statement. -/
theorem reads_stmt {statement : Stmt} (grouped : statement.Grouped) :
    Reads stmt statement.tokens statement := by
  cases statement with
  | declare temp value => exact (reads_declare temp grouped).orElse
  | assign rd value =>
    exact (reads_assign rd grouped).orElse.orElse_of_none fun _ => rfl
  | jump target =>
    have reads : Reads (Stmt.jump <$> jump) target.tokens (.jump target) :=
      (reads_jump grouped).returns Stmt.jump
    have others : Reads (assign <|> Stmt.jump <$> jump <|> jumpIf <|> returnIfHalt <|> store)
        target.tokens (.jump target) :=
      reads.orElse.orElse_of_none fun _ => by cases target <;> rfl
    exact others.orElse_of_none fun _ => by cases target <;> rfl
  | jumpIf condition target =>
    have reads := reads_jumpIf grouped.1 grouped.2
    exact ((reads.orElse.orElse_of_none fun _ => rfl).orElse_of_none fun _ => rfl).orElse_of_none
      fun _ => rfl
  | returnIfHalt address value =>
    have reads := reads_returnIfHalt grouped.1 grouped.2
    exact (((reads.orElse.orElse_of_none fun _ => rfl).orElse_of_none
      fun _ => rfl).orElse_of_none fun _ => rfl).orElse_of_none fun _ => rfl
  | store width offset value =>
    have reads := reads_store width grouped.1 grouped.2
    cases width <;>
      exact ((((reads.orElse_of_none fun _ => rfl).orElse_of_none fun _ => rfl).orElse_of_none
        fun _ => rfl).orElse_of_none fun _ => rfl).orElse_of_none fun _ => rfl

/-- The tokens of a case of the dispatch switch are read as the case. -/
theorem reads_entry (case : Constant × Label) : Reads entry (entryTokens case) case :=
  (reads_expect _).bind ((reads_constant case.1).bind ((reads_expect _).bind
    ((reads_named (labelOfName?_labelText case.2)).bind
      ((reads_expect _).returns fun _ => (case.1, case.2)))))

/-- The tokens of a block are read as the block. -/
theorem reads_block {labelled : LabelledBlock} (grouped : ∀ stmt ∈ labelled.body, stmt.Grouped) :
    Reads block labelled.tokens labelled := by
  have body : Reads (manyUntil stmt [.mark "\x7d"]) _ labelled.body :=
    reads_manyUntil (fun stmt member => ⟨reads_stmt (grouped stmt member), stmt.tokens_ne_nil⟩)
      fun _ => rfl
  exact (reads_named (labelOfName?_labelText labelled.label)).bind ((reads_expect _).bind
    (body.returns fun body => LabelledBlock.mk labelled.label body))

/-- The tokens of a source file are read as what it says. -/
theorem reads_code {file : SourceFile} (readable : ∀ block ∈ file.blocks, block.Readable) :
    Reads code file.code.tokens file.code := by
  have result : file.code.result.Grouped := trivial
  have cases : Reads (manyUntil entry Code.switchEnd) _ file.code.cases :=
    reads_manyUntil (fun case _ => ⟨reads_entry case, by simp [entryTokens]⟩) fun _ => rfl
  have blocks : Reads (manyUntil block [.word "return"])
      (file.code.blocks.flatMap LabelledBlock.tokens ++ [Token.word "return"])
      file.code.blocks := by
    refine reads_manyUntil (fun labelled member => ?_) fun _ => rfl
    obtain ⟨source, inside, rfl⟩ := List.mem_map.1 member
    exact ⟨reads_block (readable source inside).grouped, by simp [LabelledBlock.tokens]⟩
  have reads : Reads code _ file.code :=
    (reads_expect _).bind ((reads_exprUntil file.grouped_haltTest (by decide)).bind
      ((reads_expect _).bind ((reads_expect _).bind (cases.bind (blocks.bind
        ((reads_exprUntil result (by decide)).bind
          ((reads_expect _).returns fun _ => file.code)))))))
  simpa [Code.tokens] using reads

end Statements

end Reading

/-- A source file is read back from its text. -/
theorem SourceFile.read?_text {file : SourceFile}
    (readable : ∀ block ∈ file.blocks, block.Readable) :
    Code.read? file.text = some file.code := by
  have parsed : Reading.code file.code.tokens = some (file.code, []) := by
    have whole := Reading.reads_code readable []
    rwa [List.append_nil] at whole
  simp [Code.read?, tokens?_text readable, parsed]

/-- The statements that jumps are emitted as are grouped. -/
theorem grouped_jumpTo (table : JumpTable) (target : Label) : (table.jumpTo target).Grouped := by
  unfold JumpTable.jumpTo
  split <;> trivial

end RvLift.Target

namespace RvLift

/-- An emitted block can be read back. -/
theorem Block.readable_emit (table : JumpTable) (annotate : Bool) (block : Block) :
    (block.emit table annotate).Readable where
  grouped stmt member := by
    obtain statement | ending := List.mem_append.1 member
    · obtain ⟨source, -, rfl⟩ := List.mem_map.1 statement
      cases source with
      | define temp value => exact value.tight_emit.1
      | write rd value => exact value.tight_emit.1
    · cases terminator : block.terminator with
      | fallthrough => simp [terminator, Terminator.emit] at ending
      | jump target =>
        obtain rfl : stmt = .jump (table.jumpTo target) := by
          simpa [terminator, Terminator.emit] using ending
        exact Target.grouped_jumpTo table target
      | branch cond left right target =>
        obtain rfl : stmt = .jumpIf (.ofCond cond left.emit right.emit) (table.jumpTo target) := by
          simpa [terminator, Terminator.emit] using ending
        exact ⟨left.tight_emit.ofCond cond right.tight_emit, Target.grouped_jumpTo table target⟩
      | dispatch target =>
        obtain rfl : stmt = .jump (.dispatch target.emit) := by
          simpa [terminator, Terminator.emit] using ending
        exact target.tight_emit.1
      | haltOrStore width address offset value =>
        obtain rfl | rfl : stmt = .returnIfHalt address.emit value.emit ∨
            stmt = .store width offset.emit value.emit := by
          simpa [terminator, Terminator.emit] using ending
        · exact ⟨address.tight_emit.1, value.tight_emit⟩
        · exact ⟨offset.tight_emit.1, value.tight_emit.1⟩
  plain remark member := by
    have text : block.remark? annotate = some remark := member
    unfold Block.remark? at text
    cases decoded : block.instruction with
    | error error =>
      obtain rfl : error.message = remark := by simpa [decoded] using text
      exact error.plain_message
    | ok instruction =>
      obtain ⟨-, rfl⟩ : annotate = true ∧ instruction.text = remark := by
        simpa [decoded] using text
      exact instruction.plain_text

/-- What is read of the source text of a program. -/
def Program.code (program : Program) : Target.Code := (program.emit false).code

namespace Program

variable (program : Program) (annotate : Bool)

/-- The blocks of an emitted program can be read back. -/
theorem readable_emit : ∀ block ∈ (program.emit annotate).blocks, block.Readable := by
  intro block member
  obtain ⟨source, -, rfl⟩ := List.mem_map.1 member
  exact source.readable_emit program.table annotate

/-- Annotations are not read. -/
theorem code_emit : (program.emit annotate).code = program.code := by
  simp [code, emit, Target.SourceFile.code, Target.Block.code, Block.emit]

/-- The source text of a program is made up of its tokens, whether its blocks are annotated or
not. -/
theorem tokens?_source :
    Target.tokens? (.fresh []) (program.source annotate) = some program.code.tokens := by
  rw [source, Target.SourceFile.tokens?_text (program.readable_emit annotate), code_emit]

/-- The source text of a program is read back, whether its blocks are annotated or not. -/
theorem read?_source : Target.Code.read? (program.source annotate) = some program.code := by
  rw [source, Target.SourceFile.read?_text (program.readable_emit annotate), code_emit]

end Program

end RvLift
