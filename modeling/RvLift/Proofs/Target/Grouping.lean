import Mathlib
import RvLift.Proofs.Target.Reader
import RvLift.Target.Emit

/-!
# Grouping

An expression whose parentheses say what the precedences of C would not is read back from its text
as it was written. Emitted expressions are of this kind: whatever their operands are, they come out
as a constant, a name, a register or something in parentheses, and so bind tighter than anything
around them.
-/

namespace RvLift

namespace Target

namespace Expr

/-- How tightly an expression holds together. -/
def level : Expr → Nat
  | .constant _ | .leastInt32 | .temp _ | .register _ | .load .. | .paren _ => 13
  | .negate _ | .cast .. => 12
  | .binary op _ _ => op.level
  | .conditional .. => 1

/-- Constants hold together as tightly as anything. -/
@[simp] theorem level_constant (value : Constant) : (constant value).level = 13 := rfl

/-- The name of the least signed word holds together as tightly as anything. -/
@[simp] theorem level_leastInt32 : leastInt32.level = 13 := rfl

/-- Loads hold together as tightly as anything, being calls. -/
@[simp] theorem level_load (width : Width) (offset : Expr) : (load width offset).level = 13 := rfl

/-- Parentheses hold together whatever stands inside. -/
@[simp] theorem level_paren (inner : Expr) : (paren inner).level = 13 := rfl

/-- A minus sign binds as a cast does, more tightly than every binary operator. -/
@[simp] theorem level_negate (operand : Expr) : (negate operand).level = 12 := rfl

/-- A binary operator gives its own level to the expression. -/
@[simp] theorem level_binary (op : BinaryOp) (left right : Expr) :
    (binary op left right).level = op.level := rfl

/-- Whether every operand holds together more tightly than what it stands next to. A minus sign
stands in front of constants only, as two of them would run together. -/
def Grouped : Expr → Prop
  | .constant _ | .leastInt32 | .temp _ | .register _ | .negate (.constant _) => True
  | .negate _ => False
  | .load _ offset => offset.Grouped
  | .cast _ operand => operand.Grouped ∧ 12 ≤ operand.level
  | .binary op left right =>
    left.Grouped ∧ right.Grouped ∧ op.level ≤ left.level ∧ op.level < right.level
  | .conditional condition whenTrue whenFalse =>
    condition.Grouped ∧ whenTrue.Grouped ∧ whenFalse.Grouped ∧ 2 ≤ condition.level
  | .paren inner => inner.Grouped

/-- The tokens of an expression. -/
def tokens : Expr → List Token
  | .constant value => [.constant value]
  | .leastInt32 => [.word "INT32_MIN"]
  | .negate operand => .mark "-" :: operand.tokens
  | .temp source => [.word source.name]
  | .register source =>
    [.word "core", .mark ".", .word "regs", .mark "[", .constant ⟨source.index, .decimal, false⟩,
      .mark "]"]
  | .load width offset => .word (loadName width) :: .mark "(" :: offset.tokens ++ [.mark ")"]
  | .cast type operand => .mark "(" :: .word type.text :: .mark ")" :: operand.tokens
  | .binary op left right => left.tokens ++ .mark op.text :: right.tokens
  | .conditional condition whenTrue whenFalse =>
    condition.tokens ++ .mark "?" :: (whenTrue.tokens ++ .mark ":" :: whenFalse.tokens)
  | .paren inner => .mark "(" :: inner.tokens ++ [.mark ")"]

end Expr

section Text

variable (first second third : Expr)

/-- The text of a negated expression. -/
theorem Expr.text_negate : (negate first).text = "-" ++ first.text := rfl

/-- The text of a register. -/
theorem Expr.text_register (source : Reg) : (register source).text = registerText source := rfl

/-- The text of a load, a call of the accessor of its width. -/
theorem Expr.text_load (width : Width) :
    (load width first).text =
      "MINIRV32_LOAD" ++ Text.decimal width.bytes ++ "(" ++ first.text ++ ")" := rfl

/-- The text of a cast, with a blank in front of its operand. -/
theorem Expr.text_cast (type : IntType) :
    (cast type first).text = "(" ++ type.text ++ ") " ++ first.text := rfl

/-- The text of a binary operator between its operands. -/
theorem Expr.text_binary (op : BinaryOp) :
    (binary op first second).text = first.text ++ " " ++ op.text ++ " " ++ second.text := rfl

/-- The text of a conditional. -/
theorem Expr.text_conditional :
    (conditional first second third).text =
      first.text ++ " ? " ++ second.text ++ " : " ++ third.text := rfl

/-- The text of an expression in parentheses. -/
theorem Expr.text_paren : (paren first).text = "(" ++ first.text ++ ")" := rfl

end Text

section Spelling

/-- Letters are no signs. -/
theorem isSign_eq_false {character : Char} (letter : isLetter character = true) :
    isSign character = false := by
  cases sign : isSign character with
  | false => rfl
  | true =>
    simp only [isSign, List.contains_iff_mem, List.mem_cons, List.not_mem_nil, or_false] at sign
    have none : isLetter character = false := by
      rcases sign with rfl | rfl | rfl | rfl | rfl | rfl | rfl | rfl | rfl | rfl | rfl | rfl <;>
        decide
    exact absurd (letter.symm.trans none) (by decide)

/-- A minus sign in front of a letter is a token of its own. -/
theorem Spells.negate {letter : Char} {rest : List Char} {tokens : List Token}
    (isLetter : isLetter letter = true) (spells : Spells false (letter :: rest) tokens) :
    Spells false ('-' :: letter :: rest) (.mark "-" :: tokens) := by
  intro previous
  have backslash : letter ≠ '\\' := by rintro rfl; contradiction
  have feed : letter ≠ '\n' := by rintro rfl; contradiction
  have separate : Scanner.step ⟨.signs ['-'], false, false, previous⟩ letter =
      (Scanner.between false (.mark "-" :: previous)).step letter := by
    have token : Token.ofSigns? ['-'] = some (.mark "-") := rfl
    simp [Scanner.step, Scanner.take, Scanner.settle, Scanner.between, Scanner.push,
      isSign_eq_false isLetter, backslash, feed, token]
  have spelled := spells (.mark "-" :: previous)
  rw [Scanner.scan_cons, ← separate] at spelled
  rw [List.reverse_cons, List.append_assoc]
  exact spelled

/-- The spelling of an operator between its operands. -/
theorem closes_operator (op : BinaryOp) :
    Closes false (' ' :: op.text.toList ++ [' ']) [.mark op.text] := by
  intro previous
  cases op <;> rfl

/-- The spelling of a type in front of what is converted to it. -/
theorem closes_cast (type : IntType) :
    Closes false ('(' :: type.text.toList ++ [')', ' '])
      [.mark "(", .word type.text, .mark ")"] := by
  intro previous
  cases type <;> rfl

/-- The spelling of a call of an accessor, up to its opening parenthesis. -/
theorem closes_load (width : Width) :
    Closes false (("MINIRV32_LOAD" ++ Text.decimal width.bytes ++ "(").toList)
      [.word (loadName width), .mark "("] := by
  intro previous
  cases width <;> rfl

/-- The text of an expression spells its tokens. -/
theorem Expr.spells (expr : Expr) (grouped : expr.Grouped) :
    Spells false expr.text.toList expr.tokens := by
  induction expr with
  | constant value => exact spells_constant false value
  | leastInt32 => exact fun _ => rfl
  | negate operand hypothesis =>
    cases operand with
    | constant value =>
      obtain ⟨figure, rest, letters, isDigit⟩ := value.isDigit_head
      have letter : isLetter figure = true := by simp [isLetter, Char.isAlphanum, isDigit]
      have spelled := spells_constant false value
      have text : (Expr.negate (.constant value)).text.toList = '-' :: figure :: rest := by
        simp [Expr.text_negate, show (Expr.constant value).text = value.text from rfl, letters]
      rw [letters] at spelled
      rw [text]
      exact spelled.negate letter
    | _ => exact absurd grouped id
  | temp source =>
    intro previous
    cases source <;> rfl
  | register source =>
    have opening : Closes false "core.regs[".toList
        [.word "core", .mark ".", .word "regs", .mark "["] := fun _ => rfl
    have number := spells_constant false ⟨source.index, .decimal, false⟩
    have closing : Closes false [']'] [.mark "]"] := fun _ => rfl
    have whole := opening.append_spells (number.append_closes (by decide) closing).spells
    simpa [Expr.text_register, Expr.tokens, registerText, Constant.text] using whole
  | load width offset hypothesis =>
    have closing : Closes false [')'] [.mark ")"] := fun _ => rfl
    have argument := (hypothesis grouped).append_closes (by decide) closing
    have whole := (closes_load width).append_spells argument.spells
    simpa [Expr.text_load, Expr.tokens] using whole
  | cast type operand hypothesis =>
    have whole := (closes_cast type).append_spells (hypothesis grouped.1)
    simpa [Expr.text_cast, Expr.tokens] using whole
  | binary op left right leftHypothesis rightHypothesis =>
    have operator := (closes_operator op).append_spells (rightHypothesis grouped.2.1)
    have whole := (leftHypothesis grouped.1).append (by decide) operator
    simpa [Expr.text_binary, Expr.tokens] using whole
  | conditional condition whenTrue whenFalse conditionHypothesis trueHypothesis falseHypothesis =>
    have colon : Closes false [' ', ':', ' '] [.mark ":"] := fun _ => rfl
    have question : Closes false [' ', '?', ' '] [.mark "?"] := fun _ => rfl
    have branches := (trueHypothesis grouped.2.1).append (by decide)
      (colon.append_spells (falseHypothesis grouped.2.2.1))
    have whole := (conditionHypothesis grouped.1).append (by decide)
      (question.append_spells branches)
    simpa [Expr.text_conditional, Expr.tokens] using whole
  | paren inner hypothesis =>
    have opening : Closes false ['('] [.mark "("] := fun _ => rfl
    have closing : Closes false [')'] [.mark ")"] := fun _ => rfl
    have whole := opening.append_spells
      ((hypothesis grouped).append_closes (by decide) closing).spells
    simpa [Expr.text_paren, Expr.tokens] using whole

end Spelling

/-- Operators bind more tightly than a choice. -/
theorem BinaryOp.three_le_level (op : BinaryOp) : 3 ≤ op.level := by
  cases op <;> decide

/-- Operators bind more loosely than casts. -/
theorem BinaryOp.level_lt (op : BinaryOp) : op.level < 12 := by
  cases op <;> decide

/-- Nothing binds more loosely than a choice. -/
theorem Expr.one_le_level (expr : Expr) : 1 ≤ expr.level := by
  cases expr with
  | binary op left right => exact Nat.le_trans (by decide) op.three_le_level
  | _ => simp [level]

namespace Reader

/-- Reading two sequences of tokens in turn. -/
theorem run_append (reader : Reader) (first second : List Token) :
    reader.run (first ++ second) = (reader.run first).bind fun middle => middle.run second :=
  List.foldlM_append

/-- Reading the first token and then the others. -/
theorem run_cons (reader : Reader) (token : Token) (rest : List Token) :
    reader.run (token :: rest) = (reader.step token).bind fun next => next.run rest :=
  rfl

/-- Reading on behind tokens that have been taken in. -/
theorem read_append {reader after : Reader} {tokens : List Token}
    (ran : reader.run tokens = some after) (rest : List Token) :
    reader.read (tokens ++ rest) = after.read rest := by
  induction tokens generalizing reader with
  | nil =>
    cases ran
    rfl
  | cons token tokens hypothesis =>
    rw [run_cons] at ran
    obtain ⟨next, stepped, ran⟩ := Option.bind_eq_some_iff.1 ran
    rw [List.cons_append, read, stepped]
    exact hypothesis ran

/-- Whether something open binds more loosely than `bound`, so that operands are kept from it. -/
def Keeps (frames : List Frame) (bound : Nat) : Prop :=
  ∀ operand, reduce bound frames operand = (frames, operand)

/-- Reading the tokens of an expression leaves as much open as its own operators do, and closing
those gives the expression. -/
def Takes (frames : List Frame) (expr : Expr) : Prop :=
  ∃ opened last, run ⟨frames, .operand⟩ expr.tokens = some ⟨opened, .complete last⟩ ∧
    ∀ bound ≤ expr.level, reduce bound opened last = reduce bound frames expr

/-- The first token of an expression is no type. -/
theorem run_opened (frames : List Frame) (expr : Expr) :
    run ⟨frames, .opened⟩ expr.tokens = run ⟨.paren :: frames, .operand⟩ expr.tokens := by
  have first : ∃ token rest, expr.tokens = token :: rest ∧
      enter frames token = begin (.paren :: frames) token := by
    induction expr with
    | constant value => exact ⟨_, _, rfl, rfl⟩
    | leastInt32 => exact ⟨_, _, rfl, rfl⟩
    | negate operand _ => exact ⟨_, _, rfl, rfl⟩
    | temp source => cases source <;> exact ⟨_, _, rfl, rfl⟩
    | register source => exact ⟨_, _, rfl, rfl⟩
    | load width offset _ => cases width <;> exact ⟨_, _, rfl, rfl⟩
    | cast type operand _ => exact ⟨_, _, rfl, rfl⟩
    | binary op left right hypothesis _ =>
      obtain ⟨token, rest, tokens, same⟩ := hypothesis
      exact ⟨token, rest ++ .mark op.text :: right.tokens, by simp [Expr.tokens, tokens], same⟩
    | conditional condition whenTrue whenFalse hypothesis _ _ =>
      obtain ⟨token, rest, tokens, same⟩ := hypothesis
      exact ⟨token, _, by rw [Expr.tokens, tokens]; rfl, same⟩
    | paren inner _ => exact ⟨_, _, rfl, rfl⟩
  obtain ⟨token, rest, tokens, same⟩ := first
  rw [tokens, run_cons, run_cons]
  exact congrArg (·.bind fun next => next.run rest) same

/-- An operator is found by its spelling. -/
theorem follow_operator (frames : List Frame) (operand : Expr) (op : BinaryOp) :
    follow frames operand (.mark op.text) =
      some ⟨.binary op (reduce op.level frames operand).2 :: (reduce op.level frames operand).1,
        .operand⟩ := by
  cases op <;> rfl

/-- An operator keeps operands of looser operators from what it waits for. -/
theorem keeps_binary {op : BinaryOp} {left : Expr} {frames : List Frame} {bound : Nat}
    (tighter : op.level < bound) : Keeps (.binary op left :: frames) bound := by
  intro operand
  rw [reduce, if_neg (Nat.not_le.2 tighter)]

/-- The second branch of a choice takes in every operator. -/
theorem keeps_choice {condition whenTrue : Expr} {frames : List Frame} {bound : Nat}
    (tighter : 2 ≤ bound) : Keeps (.choice condition whenTrue :: frames) bound := by
  intro operand
  rw [reduce, if_neg (by omega)]

section Takes

variable {frames : List Frame}

/-- A closing parenthesis behind the tokens of an expression finds the whole expression. -/
theorem step_close {opened : List Frame} {last expr : Expr}
    (closed : ∀ bound ≤ expr.level, reduce bound opened last = reduce bound frames expr) :
    step ⟨opened, .complete last⟩ (.mark ")") = close (reduce 1 frames expr) := by
  change close (reduce 1 opened last) = _
  rw [closed 1 expr.one_le_level]

/-- A register is read whatever is open, its number between brackets. -/
theorem takes_register (source : Reg) : Takes frames (.register source) := by
  refine ⟨frames, .register source, ?_, fun _ _ => rfl⟩
  have indexed : step ⟨frames, .index⟩ (.constant ⟨source.index, .decimal, false⟩) =
      some ⟨frames, .indexed source⟩ := by
    rw [step, if_pos source.index_lt, Reg.ofNat_index]
  have prefixed : run ⟨frames, .operand⟩ [.word "core", .mark ".", .word "regs", .mark "["] =
      some ⟨frames, .index⟩ := rfl
  have whole : (Expr.register source).tokens =
      [Token.word "core", .mark ".", .word "regs", .mark "["] ++
        [Token.constant ⟨source.index, .decimal, false⟩, .mark "]"] := rfl
  rw [whole, run_append, prefixed, Option.bind_some, run_cons, indexed]
  rfl

/-- A load is read if its offset is where the parenthesis of the call is open. -/
theorem Takes.load {width : Width} {offset : Expr} (inside : Takes (.load width :: frames) offset) :
    Takes frames (.load width offset) := by
  obtain ⟨opened, last, ran, closed⟩ := inside
  refine ⟨frames, .load width offset, ?_, fun _ _ => rfl⟩
  have called : run ⟨frames, .operand⟩ [.word (loadName width), .mark "("] =
      some ⟨.load width :: frames, .operand⟩ := by
    cases width <;> rfl
  have whole : (Expr.load width offset).tokens =
      [Token.word (loadName width), .mark "("] ++ (offset.tokens ++ [Token.mark ")"]) := rfl
  rw [whole, run_append, called, Option.bind_some, run_append, ran, Option.bind_some, run_cons,
    step_close closed]
  rfl

/-- An expression in parentheses is read if the expression is where they are open, and nothing
outside of them has a bearing on it. -/
theorem Takes.paren {inner : Expr} (inside : Takes (.paren :: frames) inner) :
    Takes frames (.paren inner) := by
  obtain ⟨opened, last, ran, closed⟩ := inside
  refine ⟨frames, .paren inner, ?_, fun _ _ => rfl⟩
  have entered : step ⟨frames, .operand⟩ (.mark "(") = some ⟨frames, .opened⟩ := rfl
  rw [Expr.tokens, List.cons_append, run_cons, entered, Option.bind_some, run_append, run_opened,
    ran, Option.bind_some, run_cons, step_close closed]
  rfl

/-- A cast waits until nothing that binds as tightly is open behind it. -/
theorem Takes.cast {type : IntType} {operand : Expr} (tight : 12 ≤ operand.level)
    (behind : Takes (.cast type :: frames) operand) : Takes frames (.cast type operand) := by
  obtain ⟨opened, last, ran, closed⟩ := behind
  refine ⟨opened, last, ?_, fun bound below => closed bound (Nat.le_trans below tight)⟩
  have typed : run ⟨frames, .operand⟩ [.mark "(", .word type.text, .mark ")"] =
      some ⟨.cast type :: frames, .operand⟩ := by
    cases type <;> rfl
  have whole : (Expr.cast type operand).tokens =
      [Token.mark "(", .word type.text, .mark ")"] ++ operand.tokens := rfl
  rw [whole, run_append, typed, Option.bind_some, ran]

/-- An operator takes the operand in front of it if nothing open asks for this operand first. -/
theorem Takes.binary {op : BinaryOp} {left right : Expr} (keeps : Keeps frames op.level)
    (leftTight : op.level ≤ left.level) (rightTight : op.level < right.level)
    (first : Takes frames left) (second : Takes (.binary op left :: frames) right) :
    Takes frames (.binary op left right) := by
  obtain ⟨leftOpened, leftLast, leftRan, leftClosed⟩ := first
  obtain ⟨opened, last, ran, closed⟩ := second
  refine ⟨opened, last, ?_, fun bound below => ?_⟩
  · have operator : step ⟨leftOpened, .complete leftLast⟩ (.mark op.text) =
        some ⟨.binary op left :: frames, .operand⟩ := by
      rw [step, follow_operator, leftClosed op.level leftTight, keeps]
    rw [Expr.tokens, run_append, leftRan, Option.bind_some, run_cons, operator, Option.bind_some,
      ran]
  · have within : bound ≤ op.level := below
    rw [closed bound (Nat.le_trans within (Nat.le_of_lt rightTight)), reduce, if_pos within]

/-- A conditional is read if nothing that is open binds as its condition does. Its mark waits for
the colon, and the colon for the end of the last part. -/
theorem Takes.conditional {condition whenTrue whenFalse : Expr} (keeps : Keeps frames 2)
    (tight : 2 ≤ condition.level) (first : Takes frames condition)
    (second : Takes (.test condition :: frames) whenTrue)
    (third : Takes (.choice condition whenTrue :: frames) whenFalse) :
    Takes frames (.conditional condition whenTrue whenFalse) := by
  obtain ⟨tested, test, testRan, testClosed⟩ := first
  obtain ⟨chosen, choice, choiceRan, choiceClosed⟩ := second
  obtain ⟨opened, last, ran, closed⟩ := third
  refine ⟨opened, last, ?_, fun bound below => ?_⟩
  · have question : step ⟨tested, .complete test⟩ (.mark "?") =
        some ⟨.test condition :: frames, .operand⟩ := by
      have top := (testClosed 2 tight).trans (keeps condition)
      change some (Reader.test (reduce 2 tested test)) = _
      rw [top]
      rfl
    have colon : step ⟨chosen, .complete choice⟩ (.mark ":") =
        some ⟨.choice condition whenTrue :: frames, .operand⟩ := by
      change choose (reduce 1 chosen choice) = _
      rw [choiceClosed 1 whenTrue.one_le_level]
      rfl
    rw [Expr.tokens, run_append, testRan, Option.bind_some, run_cons, question, Option.bind_some,
      run_append, choiceRan, Option.bind_some, run_cons, colon, Option.bind_some, ran]
  · have within : bound ≤ 1 := below
    rw [closed bound (Nat.le_trans within whenFalse.one_le_level), reduce, if_pos within]

/-- A grouped expression is taken in behind anything that keeps its operators. -/
theorem takes (expr : Expr) (grouped : expr.Grouped) (frames : List Frame)
    (keeps : expr.level < 12 →
      ∀ bound, 2 ≤ bound → expr.level ≤ bound → Keeps frames bound) :
    Takes frames expr := by
  induction expr generalizing frames with
  | constant value => exact ⟨frames, .constant value, rfl, fun _ _ => rfl⟩
  | leastInt32 => exact ⟨frames, .leastInt32, rfl, fun _ _ => rfl⟩
  | negate operand hypothesis =>
    cases operand with
    | constant value => exact ⟨.negate :: frames, .constant value, rfl, fun _ _ => rfl⟩
    | _ => exact absurd grouped id
  | temp source =>
    refine ⟨frames, .temp source, ?_, fun _ _ => rfl⟩
    cases source <;> rfl
  | register source => exact takes_register source
  | load width offset hypothesis =>
    -- Parentheses keep everything outside from what is inside.
    exact (hypothesis grouped (.load width :: frames) fun _ _ _ _ _ => rfl).load
  | cast type operand hypothesis =>
    obtain ⟨operandGrouped, tight⟩ := grouped
    have behind := hypothesis operandGrouped (.cast type :: frames) fun loose =>
      absurd loose (Nat.not_lt.2 tight)
    exact behind.cast tight
  | binary op left right leftHypothesis rightHypothesis =>
    obtain ⟨leftGrouped, rightGrouped, leftTight, rightTight⟩ := grouped
    have three := op.three_le_level
    have loose : (Expr.binary op left right).level < 12 := op.level_lt
    have first := leftHypothesis leftGrouped frames
      fun _ bound two above => keeps loose bound two (Nat.le_trans leftTight above)
    have second := rightHypothesis rightGrouped (.binary op left :: frames)
      fun _ bound _ above => keeps_binary (Nat.lt_of_lt_of_le rightTight above)
    have keptHere : Keeps frames op.level := keeps loose op.level (by omega) (Nat.le_refl _)
    exact .binary keptHere leftTight rightTight first second
  | conditional condition whenTrue whenFalse conditionHypothesis trueHypothesis falseHypothesis =>
    obtain ⟨conditionGrouped, trueGrouped, falseGrouped, tight⟩ := grouped
    have loose : (Expr.conditional condition whenTrue whenFalse).level < 12 := by simp [Expr.level]
    have first := conditionHypothesis conditionGrouped frames
      fun _ bound two _ => keeps loose bound two (Nat.le_of_succ_le two)
    have second := trueHypothesis trueGrouped (.test condition :: frames) fun _ _ _ _ _ => rfl
    have third := falseHypothesis falseGrouped (.choice condition whenTrue :: frames)
      fun _ bound two _ => keeps_choice two
    have keptHere : Keeps frames 2 := keeps loose 2 (Nat.le_refl _) (by simp [Expr.level])
    exact .conditional keptHere tight first second third
  | paren inner hypothesis =>
    exact (hypothesis grouped (.paren :: frames) fun _ _ _ _ _ => rfl).paren

end Takes

/-- Reading a grouped expression gives it back, with what is behind it. -/
theorem read_tokens {expr : Expr} (grouped : expr.Grouped) {rest : List Token}
    (ends : ∀ token ∈ rest.head?, token ∈ [.mark ")", .mark ",", .mark ";", .mark "="]) :
    start.read (expr.tokens ++ rest) = some (expr, rest) := by
  obtain ⟨opened, last, ran, closed⟩ := takes expr grouped [] fun _ _ _ _ _ => rfl
  have top : reduce 1 opened last = ([], expr) := closed 1 expr.one_le_level
  have result : result? ⟨opened, .complete last⟩ = some expr := by
    simp only [result?, top]
  rw [start, read_append ran]
  cases rest with
  | nil => rw [read, result, Option.map_some]
  | cons token rest =>
    have stops : step ⟨opened, .complete last⟩ token = none := by
      obtain rfl | rfl | rfl | rfl : token = .mark ")" ∨ token = .mark "," ∨ token = .mark ";" ∨
          token = .mark "=" := by
        simpa using ends token rfl
      · change close (reduce 1 opened last) = none
        rw [top]
        rfl
      · rfl
      · rfl
      · rfl
    simp only [read, stops, result, Option.map_some]

end Reader

/-- A grouped expression is read back from its text. -/
theorem Expr.read?_text {expr : Expr} (grouped : expr.Grouped) : read? expr.text = some expr := by
  have spelled := expr.spells grouped []
  obtain ⟨scanner, scanned, settled⟩ := Option.bind_eq_some_iff.1 spelled
  have scannedTokens : tokens? (.between false []) expr.text = some expr.tokens := by
    rw [tokens?, scanned, Option.bind_eq_bind, Option.bind_some, settled]
    simp [Scanner.between]
  have parsed : readExpr expr.tokens = some (expr, []) := by
    have whole : Reader.start.read (expr.tokens ++ []) = some (expr, []) :=
      Reader.read_tokens grouped (by simp)
    rwa [List.append_nil] at whole
  simp [read?, scannedTokens, parsed]

namespace Expr

/-- Whether an expression is grouped and can be the operand of anything. -/
def Tight (expr : Expr) : Prop := expr.Grouped ∧ 12 ≤ expr.level

section Tight

variable {left right : Expr}

/-- A cast can be the operand of anything if what it converts can. -/
theorem Tight.cast (type : IntType) (tight : left.Tight) : (cast type left).Tight :=
  ⟨tight, Nat.le_refl _⟩

/-- A grouped expression in parentheses can be the operand of anything. -/
theorem Grouped.paren (grouped : left.Grouped) : (paren left).Tight := ⟨grouped, by simp⟩

/-- An operator is grouped if its operands can be the operands of anything. -/
theorem Tight.binary (op : BinaryOp) (leftTight : left.Tight) (rightTight : right.Tight) :
    (binary op left right).Grouped := by
  have loose := op.level_lt
  have leftLevel := leftTight.2
  have rightLevel := rightTight.2
  exact ⟨leftTight.1, rightTight.1, by omega, by omega⟩

/-- An operator in parentheses can be the operand of anything if its operands can. -/
theorem Tight.infixed (op : BinaryOp) (leftTight : left.Tight) (rightTight : right.Tight) :
    (infixed op left right).Tight :=
  (leftTight.binary op rightTight).paren

/-- The choice by the test for a zero divisor. The parts of a conditional need not be tight. -/
theorem Tight.chooseZero {whenTrue whenFalse : Expr} (tight : left.Tight)
    (trueGrouped : whenTrue.Grouped) (falseGrouped : whenFalse.Grouped) :
    (Expr.paren (.conditional left.isZero whenTrue whenFalse)).Tight := by
  have zero : left.isZero.Grouped := tight.binary .equal ⟨trivial, by simp⟩
  exact Grouped.paren ⟨zero, trueGrouped, falseGrouped, by simp [isZero, BinaryOp.level]⟩

/-- The choice by the test for the one signed quotient that does not fit, which stands without
parentheses. -/
theorem Tight.chooseOverflow {whenTrue whenFalse : Expr} (leftTight : left.Tight)
    (rightTight : right.Tight) (trueGrouped : whenTrue.Grouped)
    (falseGrouped : whenFalse.Grouped) :
    (Expr.conditional (quotientOverflows left right) whenTrue whenFalse).Grouped := by
  have least : (Expr.binary .equal left.asSigned .leastInt32).Grouped :=
    (leftTight.cast .int32).binary .equal ⟨trivial, by simp⟩
  have ones : (Expr.binary .equal right.asSigned
      (.negate (.constant ⟨1, .decimal, false⟩))).Grouped :=
    (rightTight.cast .int32).binary .equal ⟨trivial, by simp⟩
  have both : (Expr.binary .logicalAnd (.binary .equal left.asSigned .leastInt32)
      (.binary .equal right.asSigned (.negate (.constant ⟨1, .decimal, false⟩)))).Grouped :=
    ⟨least, ones, by simp [BinaryOp.level], by simp [BinaryOp.level]⟩
  exact ⟨both, trueGrouped, falseGrouped, by simp [quotientOverflows, Expr.infixed]⟩

/-- The five low bits of a shift amount. -/
theorem Tight.shiftAmount (tight : left.Tight) : left.shiftAmount.Tight :=
  tight.infixed .bitAnd ⟨trivial, by simp⟩

/-- The high half of a product. -/
theorem Tight.highProduct (leftTight : left.Tight) (rightTight : right.Tight) :
    (highProduct left right).Tight := by
  have amount : (constant ⟨32, .decimal, false⟩).Tight := ⟨trivial, by simp⟩
  have shifted := (leftTight.infixed .mul rightTight).infixed .shiftRight amount
  exact (shifted.cast .uint32).1.paren

/-- An arithmetic operation on two operands. -/
theorem Tight.ofAlu (op : AluOp) (leftTight : left.Tight) (rightTight : right.Tight) :
    (ofAlu op left right).Tight := by
  have leftSigned := leftTight.cast .int32
  have rightSigned := rightTight.cast .int32
  cases op with
  | add => exact leftTight.infixed .add rightTight
  | sub => exact leftTight.infixed .sub rightTight
  | sll => exact leftTight.infixed .shiftLeft rightTight.shiftAmount
  | slt => exact ((leftSigned.infixed .less rightSigned).cast .uint32).1.paren
  | sltu => exact ((leftTight.infixed .less rightTight).cast .uint32).1.paren
  | xor => exact leftTight.infixed .bitXor rightTight
  | srl => exact leftTight.infixed .shiftRight rightTight.shiftAmount
  | sra => exact ((leftSigned.infixed .shiftRight rightTight.shiftAmount).cast .uint32).1.paren
  | or => exact leftTight.infixed .bitOr rightTight
  | and => exact leftTight.infixed .bitAnd rightTight

/-- A multiplication or division of two operands, with the choices that guard a division. -/
theorem Tight.ofMulDiv (op : MulDivOp) (leftTight : left.Tight) (rightTight : right.Tight) :
    (ofMulDiv op left right).Tight := by
  have leftSigned := leftTight.cast .int32
  have rightSigned := rightTight.cast .int32
  cases op with
  | mul => exact leftTight.infixed .mul rightTight
  | mulh => exact (leftSigned.cast .int64).highProduct (rightSigned.cast .int64)
  | mulhsu => exact (leftSigned.cast .int64).highProduct (rightTight.cast .int64)
  | mulhu => exact (leftTight.cast .uint64).highProduct (rightTight.cast .uint64)
  | div =>
    have quotient := (leftSigned.infixed .div rightSigned).cast .uint32
    exact rightTight.chooseZero trivial (leftTight.chooseOverflow rightTight leftTight.1 quotient.1)
  | divu => exact rightTight.chooseZero trivial (leftTight.binary .div rightTight)
  | rem =>
    have remainder := (leftSigned.infixed .mod rightSigned).cast .uint32
    exact rightTight.chooseZero leftTight.1
      (leftTight.chooseOverflow rightTight trivial remainder.1)
  | remu => exact rightTight.chooseZero leftTight.1 (leftTight.binary .mod rightTight)

/-- A load with its conversions, of which the narrow signed one stands inside. -/
theorem Tight.ofLoad (width : Width) (signed : Bool) (tight : left.Tight) :
    (ofLoad width signed left).Tight := by
  have value : (load width left).Tight := ⟨tight.1, by simp⟩
  cases width with
  | byte =>
    cases signed with
    | true => exact ((value.cast .int8).cast .uint32).1.paren
    | false => exact (value.cast .uint32).1.paren
  | half =>
    cases signed with
    | true => exact ((value.cast .int16).cast .uint32).1.paren
    | false => exact (value.cast .uint32).1.paren
  | word => exact (value.cast .uint32).1.paren

/-- A condition on two operands. -/
theorem Tight.ofCond (cond : Cond) (leftTight : left.Tight) (rightTight : right.Tight) :
    (ofCond cond left right).Grouped := by
  have leftSigned := leftTight.cast .int32
  have rightSigned := rightTight.cast .int32
  cases cond with
  | eq => exact leftTight.binary .equal rightTight
  | ne => exact leftTight.binary .notEqual rightTight
  | lt => exact leftSigned.binary .less rightSigned
  | ge => exact leftSigned.binary .greaterEqual rightSigned
  | ltu => exact leftTight.binary .less rightTight
  | geu => exact leftTight.binary .greaterEqual rightTight

end Tight

end Expr

end Target

/-- An emitted expression can be the operand of anything. -/
theorem Expr.tight_emit (expr : Expr) : expr.emit.Tight := by
  induction expr with
  | imm value => exact ⟨trivial, by simp [emit, Target.Expr.ofWord]⟩
  | reg source => exact ⟨trivial, by simp [emit, Target.Expr.level]⟩
  | temp source => exact ⟨trivial, by simp [emit, Target.Expr.level]⟩
  | alu op left right leftHypothesis rightHypothesis =>
    exact leftHypothesis.ofAlu op rightHypothesis
  | mulDiv op left right leftHypothesis rightHypothesis =>
    exact leftHypothesis.ofMulDiv op rightHypothesis
  | load width signed offset hypothesis => exact hypothesis.ofLoad width signed

end RvLift
