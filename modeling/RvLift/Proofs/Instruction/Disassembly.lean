import Mathlib
import RvLift.Proofs.Block.Effect
import RvLift.Proofs.Instruction.Assembly
import RvLift.Proofs.Instruction.Decoding

/-!
# What assembly texts tell

The assembly text of an instruction that has been decoded determines the instruction, except that an
immediate shift shows its amount only. The bits of the immediate that are not shown have no bearing
on what the shift does, so that words with one text have one meaning.
-/

namespace RvLift

open Text

section Operands

/-- Names tell registers apart. -/
theorem Reg.text_injective : Reg.text.Injective := by
  intro first second same
  rw [text, text, String.append_right_inj] at same
  have index : first.index = second.index := decimal_injective same
  rw [← ofNat_index first, index, ofNat_index]

namespace Instruction

/-- Signed numerals tell words apart. -/
theorem signedText_injective : (fun word : Word => signed word.toInt).Injective :=
  fun _ _ same => BitVec.eq_of_toInt_eq (signed_injective same)

/-- A memory operand determines its offset and its register. -/
theorem memoryText_inj {offset other : Word} {base register : Reg}
    (same : memoryText offset base = memoryText other register) :
    offset = other ∧ base = register := by
  have numeral (word : Word) : '(' ∉ (signed word.toInt).toList := by
    have others : Consists (· != '(') (signed word.toInt) := consists_signed (by decide) rfl _
    exact others.not_mem rfl
  have characters (offset : Word) (base : Reg) : (memoryText offset base).toList =
      (signed offset.toInt).toList ++ '(' :: (base.text ++ ")").toList := by
    simp [memoryText]
  have whole := congrArg String.toList same
  rw [characters, characters] at whole
  obtain ⟨offsets, registers⟩ := append_cons_cancel (numeral offset) (numeral other) whole
  have closed : base.text ++ ")" = register.text ++ ")" := String.toList_inj.1 registers
  exact ⟨signedText_injective (String.toList_inj.1 offsets),
    Reg.text_injective ((String.append_left_inj ")").1 closed)⟩

/-- An upper immediate is determined by its upper bits. -/
theorem upperText_inj {first second : Word} (firstLow : first.extractLsb' 0 12 = 0#12)
    (secondLow : second.extractLsb' 0 12 = 0#12) (same : upperText first = upperText second) :
    first = second := by
  have remainder (word : Word) (low : word.extractLsb' 0 12 = 0#12) : word.toNat % 2 ^ 12 = 0 := by
    have value := congrArg BitVec.toNat low
    rwa [BitVec.extractLsb'_toNat, Nat.shiftRight_zero] at value
  have quotient (word : Word) : (word >>> 12).toNat = word.toNat / 2 ^ 12 := by
    rw [BitVec.toNat_ushiftRight, Nat.shiftRight_eq_div_pow]
  have upper : (first >>> 12).toNat = (second >>> 12).toNat := hexNumeral_injective same
  have firstRemainder := remainder first firstLow
  have secondRemainder := remainder second secondLow
  rw [quotient, quotient] at upper
  apply BitVec.eq_of_toNat_eq
  omega

end Instruction

end Operands

namespace Instruction

/-- Whether two instructions shift one register into one destination in the same way and by the same
amount: their immediates agree in the five low bits. -/
def SameShift (first second : Instruction) : Prop :=
  ∃ op rd rs1 value other, (op = .sll ∨ op = .srl ∨ op = .sra) ∧
    first = .alu op rd rs1 (.imm value) ∧ second = .alu op rd rs1 (.imm other) ∧
      value.extractLsb' 0 5 = other.extractLsb' 0 5

/-- The instructions of a form. -/
def OfForm (instruction : Instruction) : Form → Prop
  | .lui => ∃ rd imm, instruction = .lui rd imm
  | .auipc => ∃ rd imm, instruction = .auipc rd imm
  | .jal => ∃ rd offset, instruction = .jal rd offset
  | .jalr => ∃ rd rs1 offset, instruction = .jalr rd rs1 offset
  | .branch cond => ∃ rs1 rs2 offset, instruction = .branch cond rs1 rs2 offset
  | .load width signed => ∃ rd rs1 offset, instruction = .load width signed rd rs1 offset
  | .store width => ∃ rs1 rs2 offset, instruction = .store width rs1 rs2 offset
  | .register op => ∃ rd rs1 rs2, instruction = .alu op rd rs1 (.reg rs2)
  | .immediate op => ∃ rd rs1 value, instruction = .alu op rd rs1 (.imm value)
  | .mulDiv op => ∃ rd rs1 rs2, instruction = .mulDiv op rd rs1 rs2
  | .fence => instruction = .fence

/-- Every instruction is one of its form. -/
theorem ofForm_form (instruction : Instruction) : instruction.OfForm instruction.form := by
  cases instruction with
  | alu op rd rs1 source => cases source <;> exact ⟨_, _, _, rfl⟩
  | lui | auipc | jal => exact ⟨_, _, rfl⟩
  | jalr | branch | load | store | mulDiv => exact ⟨_, _, _, rfl⟩
  | fence => exact rfl

/-- Loads of whole words count as signed. -/
theorem form_ne_of_valid {instruction : Instruction} (valid : instruction.Valid) :
    instruction.form ≠ .load .word false := by
  intro unsigned
  have shape := instruction.ofForm_form
  rw [unsigned] at shape
  obtain ⟨rd, rs1, offset, rfl⟩ := shape
  exact absurd (valid.2 rfl) (by decide)

/-- The operations on shift amounts. -/
theorem isShift_iff (op : AluOp) : op.isShift = true ↔ op = .sll ∨ op = .srl ∨ op = .sra := by
  cases op <;> decide

/-- Words stand for one shift amount if they agree in the five low bits. -/
theorem shiftAmount_eq_iff {value other : Word} :
    value.shiftAmount = other.shiftAmount ↔ value.extractLsb' 0 5 = other.extractLsb' 0 5 := by
  rw [← BitVec.toNat_inj, BitVec.extractLsb'_toNat, BitVec.extractLsb'_toNat, Nat.shiftRight_zero,
    Nat.shiftRight_zero, Word.shiftAmount, Word.shiftAmount, BitVec.toNat_setWidth,
    BitVec.toNat_setWidth]

/-- Immediate operands of one operation determine the immediate, or the amount of a shift. -/
theorem immediateText_inj {op : AluOp} {value other : Word}
    (same : immediateText op value = immediateText op other) :
    value = other ∨ op.isShift = true ∧ value.shiftAmount = other.shiftAmount := by
  unfold immediateText at same
  by_cases shift : op.isShift = true
  · rw [if_pos shift, if_pos shift] at same
    exact .inr ⟨shift, decimal_injective same⟩
  · rw [if_neg shift, if_neg shift] at same
    exact .inl (signedText_injective same)

/-- Representable instructions of one form with the same operands are equal or shift in the same
way. -/
theorem eq_or_sameShift {first second : Instruction} (firstValid : first.Valid)
    (secondValid : second.Valid) (form : first.form = second.form)
    (operands : first.operands = second.operands) : first = second ∨ SameShift first second := by
  have shape := second.ofForm_form
  rw [← form] at shape
  cases first with
  | lui rd imm =>
    obtain ⟨rd', imm', rfl⟩ := shape
    simp only [Instruction.operands, List.cons.injEq, and_true] at operands
    rw [Reg.text_injective operands.1, upperText_inj firstValid secondValid operands.2]
    exact .inl rfl
  | auipc rd imm =>
    obtain ⟨rd', imm', rfl⟩ := shape
    simp only [Instruction.operands, List.cons.injEq, and_true] at operands
    rw [Reg.text_injective operands.1, upperText_inj firstValid secondValid operands.2]
    exact .inl rfl
  | jal rd offset =>
    obtain ⟨rd', offset', rfl⟩ := shape
    simp only [Instruction.operands, List.cons.injEq, and_true] at operands
    rw [Reg.text_injective operands.1, signedText_injective operands.2]
    exact .inl rfl
  | jalr rd rs1 offset =>
    obtain ⟨rd', rs1', offset', rfl⟩ := shape
    simp only [Instruction.operands, List.cons.injEq, and_true] at operands
    obtain ⟨rfl, rfl⟩ := memoryText_inj operands.2
    rw [Reg.text_injective operands.1]
    exact .inl rfl
  | branch cond rs1 rs2 offset =>
    obtain ⟨rs1', rs2', offset', rfl⟩ := shape
    simp only [Instruction.operands, List.cons.injEq, and_true] at operands
    rw [Reg.text_injective operands.1, Reg.text_injective operands.2.1,
      signedText_injective operands.2.2]
    exact .inl rfl
  | load width signed rd rs1 offset =>
    obtain ⟨rd', rs1', offset', rfl⟩ := shape
    simp only [Instruction.operands, List.cons.injEq, and_true] at operands
    obtain ⟨rfl, rfl⟩ := memoryText_inj operands.2
    rw [Reg.text_injective operands.1]
    exact .inl rfl
  | store width rs1 rs2 offset =>
    obtain ⟨rs1', rs2', offset', rfl⟩ := shape
    simp only [Instruction.operands, List.cons.injEq, and_true] at operands
    obtain ⟨rfl, rfl⟩ := memoryText_inj operands.2
    rw [Reg.text_injective operands.1]
    exact .inl rfl
  | alu op rd rs1 source =>
    cases source with
    | reg rs2 =>
      obtain ⟨rd', rs1', rs2', rfl⟩ := shape
      simp only [Instruction.operands, List.cons.injEq, and_true] at operands
      rw [Reg.text_injective operands.1, Reg.text_injective operands.2.1,
        Reg.text_injective operands.2.2]
      exact .inl rfl
    | imm value =>
      obtain ⟨rd', rs1', value', rfl⟩ := shape
      simp only [Instruction.operands, List.cons.injEq, and_true] at operands
      obtain rfl := Reg.text_injective operands.1
      obtain rfl := Reg.text_injective operands.2.1
      rcases immediateText_inj operands.2.2 with rfl | ⟨shift, amount⟩
      · exact .inl rfl
      · exact .inr ⟨op, rd, rs1, value, value', (isShift_iff op).1 shift, rfl, rfl,
          shiftAmount_eq_iff.1 amount⟩
  | mulDiv op rd rs1 rs2 =>
    obtain ⟨rd', rs1', rs2', rfl⟩ := shape
    simp only [Instruction.operands, List.cons.injEq, and_true] at operands
    rw [Reg.text_injective operands.1, Reg.text_injective operands.2.1,
      Reg.text_injective operands.2.2]
    exact .inl rfl
  | fence => exact .inl shape.symm

/-- Instructions that shift in the same way have one text. -/
theorem SameShift.text_eq {first second : Instruction} (same : SameShift first second) :
    first.text = second.text := by
  obtain ⟨op, rd, rs1, value, other, shift, rfl, rfl, agree⟩ := same
  have operand : immediateText op value = immediateText op other := by
    rw [immediateText, immediateText, if_pos ((isShift_iff op).2 shift),
      if_pos ((isShift_iff op).2 shift), shiftAmount_eq_iff.2 agree]
  rw [text, text, operand]

/-- Instructions that shift in the same way have one effect. -/
theorem SameShift.effect_eq {first second : Instruction} (same : SameShift first second)
    (settings : Settings) (pc : Word) (machine : Machine) :
    first.effect settings pc machine = second.effect settings pc machine := by
  obtain ⟨op, rd, rs1, value, other, shift, rfl, rfl, agree⟩ := same
  have amount := shiftAmount_eq_iff.2 agree
  have applied (left : Word) : op.apply left value = op.apply left other := by
    rcases shift with rfl | rfl | rfl <;> simp only [AluOp.apply, amount]
  simp only [effect, operand, applied]

end Instruction

/-- Where a block stands in a program, and which address halts, does not matter for its statements:
entering the block of a word follows the effect of its instruction. -/
theorem Program.step_ofWord {settings : Settings} {pc word : Word} {instruction : Instruction}
    (decoded : Instruction.decode word pc = .ok instruction) (program : Program) (index : Nat)
    (machine : Machine) :
    program.step (Block.ofWord settings pc word) index machine =
      program.follow pc index machine
        (instruction.effect { settings with haltAddress := program.haltAddress } pc machine) := by
  have block : Block.ofWord settings pc word =
      Block.ofInstruction { settings with haltAddress := program.haltAddress } pc word
        instruction := by
    rw [Block.ofWord, decoded]
    cases instruction <;> rfl
  have effect := Instruction.effect_ofInstruction
    { settings with haltAddress := program.haltAddress } pc word machine instruction
  rw [step_eq_follow, Block.pc_ofWord, block, effect]

namespace Instruction

/-- Assembly text tells what a word means. Decoded instructions have one text exactly if they are
equal, or if they are immediate shifts by one operation, of one register into one destination, whose
immediates agree in the five bits that are shown. So words with one text do the same at any place of
any program: they leave the same registers and memory, go on with the same block, halt with the same
value, or make the same access outside memory. -/
theorem text_determines_effect {pc firstWord secondWord : Word} {first second : Instruction}
    (firstDecoded : decode firstWord pc = .ok first)
    (secondDecoded : decode secondWord pc = .ok second) :
    (first.text = second.text ↔ first = second ∨ SameShift first second) ∧
    (first.text = second.text →
      ∀ (settings : Settings) (program : Program) (index : Nat) (machine : Machine),
        program.step (Block.ofWord settings pc firstWord) index machine =
          program.step (Block.ofWord settings pc secondWord) index machine) := by
  have firstValid := (valid_agrees_of_decode firstDecoded).1
  have secondValid := (valid_agrees_of_decode secondDecoded).1
  have texts : first.text = second.text → first = second ∨ SameShift first second := by
    intro same
    obtain ⟨mnemonics, operands⟩ := parts_of_text_eq same
    have form : first.form = second.form :=
      List.inj_on_of_nodup_map Form.nodup_mnemonics (Form.mem_all (form_ne_of_valid firstValid))
        (Form.mem_all (form_ne_of_valid secondValid)) mnemonics
    exact eq_or_sameShift firstValid secondValid form operands
  refine ⟨⟨texts, ?_⟩, fun same settings program index machine => ?_⟩
  · rintro (rfl | shift)
    · rfl
    · exact shift.text_eq
  · rw [program.step_ofWord firstDecoded, program.step_ofWord secondDecoded]
    rcases texts same with rfl | shift
    · rfl
    · rw [shift.effect_eq]

/-- Two words for `slli x1, x2, 3`, one with a bit of the immediate set that is not shown: the
instructions differ, but not what they do. -/
theorem text_determines_effect_hidden_bit :
    let first := Instruction.alu .sll ⟨1⟩ ⟨2⟩ (.imm 0x003)
    let second := Instruction.alu .sll ⟨1⟩ ⟨2⟩ (.imm 0x023)
    decode 0x00311093 0 = .ok first ∧ decode 0x02311093 0 = .ok second ∧ first ≠ second ∧
      first.text = second.text ∧ ∀ settings program index machine,
        Program.step program (Block.ofWord settings 0 0x00311093) index machine =
          program.step (Block.ofWord settings 0 0x02311093) index machine := by
  intro first second
  have firstDecoded : decode 0x00311093 0 = .ok first := rfl
  have secondDecoded : decode 0x02311093 0 = .ok second := rfl
  have meaning := text_determines_effect firstDecoded secondDecoded
  have shift : SameShift first second :=
    ⟨.sll, ⟨1⟩, ⟨2⟩, 0x003, 0x023, .inl rfl, rfl, rfl, by decide⟩
  have same : first.text = second.text := meaning.1.2 (.inr shift)
  exact ⟨firstDecoded, secondDecoded, by decide, same, meaning.2 same⟩

end Instruction

end RvLift
