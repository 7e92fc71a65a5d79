import Mathlib
import RvLift.Proofs.Target.Grouping
import RvLift.Proofs.Text.Parentheses

/-!
# Unique readability

The text of an emitted expression determines the expression, but for a mark that means nothing:
whole words that are read from memory are not extended, whether marked as signed or not. The text is
a single word or balanced and in parentheses, so that it can be cut out of what stands around it in
one way only; and the expression that a text was read as shows by its outermost operators which
operation it stands for, and has the operands of that in their places.
-/

namespace RvLift

open Text

/-- The expression with every read of a whole word marked as signed. Whole words are not extended,
so the mark means nothing there. -/
def Expr.wordsSigned : Expr → Expr
  | .imm value => .imm value
  | .reg source => .reg source
  | .temp source => .temp source
  | .alu op left right => .alu op left.wordsSigned right.wordsSigned
  | .mulDiv op left right => .mulDiv op left.wordsSigned right.wordsSigned
  | .load width signed offset => .load width (width == .word || signed) offset.wordsSigned

namespace Target

/-- The expression that an emitted one stands for. -/
def Expr.source? : Expr → Option RvLift.Expr
  | .constant value => some (.imm (BitVec.ofNat 32 value.value))
  | .register source => some (.reg source)
  | .temp source => some (.temp source)
  | .paren (.binary .add left right) => return .alu .add (← left.source?) (← right.source?)
  | .paren (.binary .sub left right) => return .alu .sub (← left.source?) (← right.source?)
  | .paren (.binary .bitXor left right) => return .alu .xor (← left.source?) (← right.source?)
  | .paren (.binary .bitOr left right) => return .alu .or (← left.source?) (← right.source?)
  | .paren (.binary .bitAnd left right) => return .alu .and (← left.source?) (← right.source?)
  | .paren (.binary .mul left right) => return .mulDiv .mul (← left.source?) (← right.source?)
  | .paren (.binary .shiftLeft left (.paren (.binary .bitAnd right _))) =>
    return .alu .sll (← left.source?) (← right.source?)
  | .paren (.binary .shiftRight left (.paren (.binary .bitAnd right _))) =>
    return .alu .srl (← left.source?) (← right.source?)
  | .paren (.cast .uint32 (.paren (.binary .less (.cast .int32 left) (.cast .int32 right)))) =>
    return .alu .slt (← left.source?) (← right.source?)
  | .paren (.cast .uint32 (.paren (.binary .less left right))) =>
    return .alu .sltu (← left.source?) (← right.source?)
  | .paren (.cast .uint32 (.paren (.binary .shiftRight (.cast .int32 left)
      (.paren (.binary .bitAnd right _))))) =>
    return .alu .sra (← left.source?) (← right.source?)
  | .paren (.cast .uint32 (.paren (.binary .shiftRight (.paren (.binary .mul
      (.cast .int64 (.cast .int32 left)) (.cast .int64 (.cast .int32 right)))) _))) =>
    return .mulDiv .mulh (← left.source?) (← right.source?)
  | .paren (.cast .uint32 (.paren (.binary .shiftRight (.paren (.binary .mul
      (.cast .int64 (.cast .int32 left)) (.cast .int64 right))) _))) =>
    return .mulDiv .mulhsu (← left.source?) (← right.source?)
  | .paren (.cast .uint32 (.paren (.binary .shiftRight (.paren (.binary .mul
      (.cast .uint64 left) (.cast .uint64 right))) _))) =>
    return .mulDiv .mulhu (← left.source?) (← right.source?)
  | .paren (.conditional _ _ (.conditional _ _ (.cast .uint32 (.paren (.binary .div
      (.cast .int32 left) (.cast .int32 right)))))) =>
    return .mulDiv .div (← left.source?) (← right.source?)
  | .paren (.conditional _ _ (.conditional _ _ (.cast .uint32 (.paren (.binary .mod
      (.cast .int32 left) (.cast .int32 right)))))) =>
    return .mulDiv .rem (← left.source?) (← right.source?)
  | .paren (.conditional _ _ (.binary .div left right)) =>
    return .mulDiv .divu (← left.source?) (← right.source?)
  | .paren (.conditional _ _ (.binary .mod left right)) =>
    return .mulDiv .remu (← left.source?) (← right.source?)
  | .paren (.cast .uint32 (.cast _ (.load width offset))) =>
    return .load width true (← offset.source?)
  | .paren (.cast .uint32 (.load width offset)) =>
    return .load width (width == .word) (← offset.source?)
  | _ => none

/-- A constant is a single word. -/
theorem Constant.solid_text (constant : Constant) : Consists isSolid constant.text :=
  constant.consists_text (by decide) rfl rfl

/-- The name of a register is a single word. -/
theorem solid_registerText (reg : Reg) : Consists isSolid (registerText reg) :=
  consists_registerText reg rfl (by decide) rfl

namespace Expr

section Sources

variable {left right : Expr} {leftSource rightSource : RvLift.Expr}

/-- Conversions stand inside of emitted expressions only. -/
theorem ne_cast_of_source? (found : left.source? = some leftSource) (type : IntType)
    (operand : Expr) : left ≠ .cast type operand := by
  rintro rfl
  simp [source?] at found

/-- Each arithmetic or logic operation has an outline of its own. Signed comparisons differ from
unsigned ones in conversions, which the operands do not begin with. -/
theorem source?_ofAlu (op : AluOp) (leftFound : left.source? = some leftSource)
    (rightFound : right.source? = some rightSource) :
    (ofAlu op left right).source? = some (.alu op leftSource rightSource) := by
  have leftBare := ne_cast_of_source? leftFound
  cases op <;>
    simp [ofAlu, infixed, toWord, asSigned, shiftAmount, source?, leftFound, rightFound, leftBare]

/-- Each multiplication or division has an outline of its own. -/
theorem source?_ofMulDiv (op : MulDivOp) (leftFound : left.source? = some leftSource)
    (rightFound : right.source? = some rightSource) :
    (ofMulDiv op left right).source? = some (.mulDiv op leftSource rightSource) := by
  have rightBare := ne_cast_of_source? rightFound
  cases op <;>
    simp [ofMulDiv, highProduct, infixed, toWord, asSigned, source?, leftFound, rightFound,
      rightBare]

/-- Each width of a memory read has an outline of its own, and so has each way to extend it; whole
words are not extended. -/
theorem source?_ofLoad (width : Width) (signed : Bool) (found : left.source? = some leftSource) :
    (ofLoad width signed left).source? =
      some (.load width (width == .word || signed) leftSource) := by
  cases width <;> cases signed <;> simp [ofLoad, toWord, source?, found]

end Sources

/-- Every parenthesis in the text of an expression is closed. -/
theorem balanced_text (expr : Expr) : Balanced expr.text := by
  induction expr with
  | constant value => exact value.solid_text.unbracketed.balanced
  | leastInt32 => exact Consists.balanced rfl
  | negate operand hypothesis =>
    have sign : Balanced "-" := Consists.balanced rfl
    exact sign.append hypothesis
  | temp source => cases source <;> exact Consists.balanced rfl
  | register source => exact (solid_registerText source).unbracketed.balanced
  | load width offset hypothesis =>
    have name : Balanced ("MINIRV32_LOAD" ++ Text.decimal width.bytes) := by
      cases width <;> exact Consists.balanced rfl
    have whole := name.append hypothesis.enclosed
    simpa only [Expr.text_load, String.append_assoc] using whole
  | cast type operand hypothesis =>
    have conversion : Balanced ("(" ++ type.text ++ ") ") := by
      cases type <;> exact fun _ => rfl
    exact conversion.append hypothesis
  | binary op left right leftHypothesis rightHypothesis =>
    have operator : Balanced (" " ++ op.text ++ " ") := by
      cases op <;> exact Consists.balanced rfl
    have whole := (leftHypothesis.append operator).append rightHypothesis
    simpa only [Expr.text_binary, String.append_assoc] using whole
  | conditional condition whenTrue whenFalse conditionHypothesis trueHypothesis falseHypothesis =>
    have question : Balanced " ? " := Consists.balanced rfl
    have colon : Balanced " : " := Consists.balanced rfl
    exact (((conditionHypothesis.append question).append trueHypothesis).append colon).append
      falseHypothesis
  | paren inner hypothesis => exact hypothesis.enclosed

end Expr

end Target

namespace Expr

/-- Emitted code stands for the expression it comes from, but for the marks of whole words. -/
theorem source?_emit (expr : Expr) : expr.emit.source? = some expr.wordsSigned := by
  induction expr with
  | imm value =>
    have whole : BitVec.ofNat 32 value.toNat = value := by
      rw [BitVec.ofNat_toNat, BitVec.setWidth_eq]
    exact congrArg (fun word => some (Expr.imm word)) whole
  | reg source | temp source => rfl
  | alu op left right leftHypothesis rightHypothesis =>
    exact Target.Expr.source?_ofAlu op leftHypothesis rightHypothesis
  | mulDiv op left right leftHypothesis rightHypothesis =>
    exact Target.Expr.source?_ofMulDiv op leftHypothesis rightHypothesis
  | load width signed offset hypothesis => exact Target.Expr.source?_ofLoad width signed hypothesis

/-- The marks of whole words do not come out in emitted code. -/
theorem emit_wordsSigned (expr : Expr) : expr.wordsSigned.emit = expr.emit := by
  induction expr with
  | imm value | reg source | temp source => rfl
  | alu op left right leftHypothesis rightHypothesis
  | mulDiv op left right leftHypothesis rightHypothesis =>
    rw [wordsSigned, emit, emit, leftHypothesis, rightHypothesis]
  | load width signed offset hypothesis =>
    rw [wordsSigned, emit, emit, hypothesis]
    cases width <;> rfl

/-- Equal texts come from expressions that differ in the marks of whole words at most. -/
theorem text_emit_eq_iff {first second : Expr} :
    first.emit.text = second.emit.text ↔ first.wordsSigned = second.wordsSigned := by
  constructor
  · intro same
    -- The text is read back as the emitted code, and that shows the expression.
    have read := Target.Expr.read?_text first.tight_emit.1
    rw [same, Target.Expr.read?_text second.tight_emit.1] at read
    have source := second.source?_emit
    rw [Option.some.inj read, source?_emit] at source
    exact Option.some.inj source
  · intro same
    rw [← first.emit_wordsSigned, same, emit_wordsSigned]

/-- The text of an emitted expression is a single word or in parentheses. -/
theorem compact_text_emit (expr : Expr) : Compact expr.emit.text := by
  cases expr with
  | imm value => exact .solid (Target.Constant.ofWord value).solid_text
  | reg source => exact .solid (Target.solid_registerText source)
  | temp source => cases source <;> exact .solid rfl
  | alu op left right => cases op <;> exact .enclosed (Target.Expr.balanced_text _)
  | mulDiv op left right => cases op <;> exact .enclosed (Target.Expr.balanced_text _)
  | load width signed offset =>
    cases width <;> cases signed <;> exact .enclosed (Target.Expr.balanced_text _)

/-- Expressions are emitted unambiguously. Equal texts come from expressions that are equal when
every read of a whole word is marked as signed, and from no others; and where the texts of two
expressions are followed by something that is empty or starts with a blank or a closing parenthesis,
the whole determines where they end. -/
theorem text_unambiguous (first second : Expr) :
    (first.emit.text = second.emit.text ↔ first.wordsSigned = second.wordsSigned) ∧
    ∀ firstRest secondRest : String, EndsOperand firstRest → EndsOperand secondRest →
      first.emit.text ++ firstRest = second.emit.text ++ secondRest →
      firstRest = secondRest ∧ first.emit.text = second.emit.text := by
  refine ⟨text_emit_eq_iff, fun firstRest secondRest firstEnds secondEnds same => ?_⟩
  have text : first.emit.text = second.emit.text :=
    first.compact_text_emit.cut second.compact_text_emit firstEnds secondEnds same
  rw [text, String.append_right_inj] at same
  exact ⟨same, text⟩

/-- Two quotients of a word that is read from memory, only one of which marks the word as signed:
they are different expressions with one text, in front of the same rest of a sum. Comparisons of the
same operands, signed and unsigned, have different texts. -/
theorem text_unambiguous_quotient :
    let quotient (signed : Bool) := Expr.mulDiv .div (.load .word signed (.reg ⟨5⟩)) (.imm 3)
    let comparison (op : AluOp) := Expr.alu op (.temp .rs1) (.alu .add (.reg ⟨7⟩) (.imm 0x12))
    let rest := " + 0x1u)"
    quotient true ≠ quotient false ∧ EndsOperand rest ∧
      (quotient true).emit.text ++ rest = (quotient false).emit.text ++ rest ∧
      (quotient true).emit.text = (quotient false).emit.text ∧
      (comparison .slt).emit.text ≠ (comparison .sltu).emit.text := by
  intro quotient comparison rest
  have marks := text_unambiguous (quotient true) (quotient false)
  have front : rest.toList.head? = some ' ' := by decide
  have ends : EndsOperand rest := by
    intro character member
    rw [front] at member
    cases member
    exact .inl rfl
  have whole : (quotient true).emit.text ++ rest = (quotient false).emit.text ++ rest := by
    rw [marks.1.2 rfl]
  have kinds := text_unambiguous (comparison .slt) (comparison .sltu)
  have apart : (comparison .slt).wordsSigned ≠ (comparison .sltu).wordsSigned := by decide
  refine ⟨by decide, ends, whole, (marks.2 rest rest ends ends whole).2, ?_⟩
  exact fun same => apart (kinds.1.1 same)

end Expr

end RvLift
