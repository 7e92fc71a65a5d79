import Mathlib
import RvLift.Instruction.Decode

/-!
# Encoding

The standard word of an instruction, with every bit that decoding ignores zero, and the
instructions that have one. The lemmas say what the fields of a word in each format are, and that
every word is put together from its own fields in each format.
-/

namespace RvLift

open BitField

/-- A word whose signed value lies between two integers. -/
def Word.Within (low high : Int) (word : Word) : Prop := low ≤ word.toInt ∧ word.toInt ≤ high

/-- A word whose signed value is even. -/
def Word.Even (word : Word) : Prop := word.toInt % 2 = 0

/-- The function code of a branch. -/
def Cond.funct3 : Cond → BitVec 3
  | .eq => 0b000
  | .ne => 0b001
  | .lt => 0b100
  | .ge => 0b101
  | .ltu => 0b110
  | .geu => 0b111

/-- The function code of a load. -/
def Width.loadFunct3 : Width → Bool → BitVec 3
  | .byte, true => 0b000
  | .half, true => 0b001
  | .word, _ => 0b010
  | .byte, false => 0b100
  | .half, false => 0b101

/-- The function code of a store. -/
def Width.storeFunct3 : Width → BitVec 3
  | .byte => 0b000
  | .half => 0b001
  | .word => 0b010

/-- The function code of a multiplication or division. -/
def MulDivOp.funct3 : MulDivOp → BitVec 3
  | .mul => 0b000
  | .mulh => 0b001
  | .mulhsu => 0b010
  | .mulhu => 0b011
  | .div => 0b100
  | .divu => 0b101
  | .rem => 0b110
  | .remu => 0b111

/-- The function code of an arithmetic or logic operation. -/
def AluOp.funct3 : AluOp → BitVec 3
  | .add | .sub => 0b000
  | .sll => 0b001
  | .slt => 0b010
  | .sltu => 0b011
  | .xor => 0b100
  | .srl | .sra => 0b101
  | .or => 0b110
  | .and => 0b111

/-- The upper function code of an arithmetic or logic operation on registers. -/
def AluOp.funct7 : AluOp → BitVec 7
  | .sub | .sra => 0b0100000
  | _ => 0b0000000

/-- A word with a function code: its five fields, the lowest first. -/
def layout (opcode : BitVec 7) (low : BitVec 5) (funct3 : BitVec 3) (middle : BitVec 5)
    (high : BitVec 12) : Word :=
  high ++ middle ++ funct3 ++ low ++ opcode

/-- A word without a function code: its three fields, the lowest first. -/
def upperLayout (opcode : BitVec 7) (low : BitVec 5) (high : BitVec 20) : Word :=
  high ++ low ++ opcode

/-- The format of register-register operations. -/
def formatR (opcode : Opcode) (funct7 : BitVec 7) (funct3 : BitVec 3) (rd rs1 rs2 : Reg) : Word :=
  layout opcode.bits rd.number funct3 rs1.number (funct7 ++ rs2.number)

/-- The format of register-immediate operations, loads and computed jumps. -/
def formatI (opcode : Opcode) (funct3 : BitVec 3) (rd rs1 : Reg) (imm : Word) : Word :=
  layout opcode.bits rd.number funct3 rs1.number (imm.extractLsb' 0 12)

/-- The format of stores. -/
def formatS (opcode : Opcode) (funct3 : BitVec 3) (rs1 rs2 : Reg) (imm : Word) : Word :=
  layout opcode.bits (imm.extractLsb' 0 5) funct3 rs1.number (imm.extractLsb' 5 7 ++ rs2.number)

/-- The format of branches. -/
def formatB (opcode : Opcode) (funct3 : BitVec 3) (rs1 rs2 : Reg) (imm : Word) : Word :=
  layout opcode.bits (imm.extractLsb' 1 4 ++ imm.extractLsb' 11 1) funct3 rs1.number
    (imm.extractLsb' 12 1 ++ imm.extractLsb' 5 6 ++ rs2.number)

/-- The format of upper immediates. -/
def formatU (opcode : Opcode) (rd : Reg) (imm : Word) : Word :=
  upperLayout opcode.bits rd.number (imm.extractLsb' 12 20)

/-- The format of relative jumps. -/
def formatJ (opcode : Opcode) (rd : Reg) (imm : Word) : Word :=
  upperLayout opcode.bits rd.number
    (imm.extractLsb' 20 1 ++ imm.extractLsb' 1 10 ++ imm.extractLsb' 11 1 ++
      imm.extractLsb' 12 8)

namespace Instruction

/-- The standard word of an instruction, the bits that decoding ignores zero. -/
def encode : Instruction → Word
  | .lui rd imm => formatU .lui rd imm
  | .auipc rd imm => formatU .auipc rd imm
  | .jal rd offset => formatJ .jal rd offset
  | .jalr rd rs1 offset => formatI .jalr 0 rd rs1 offset
  | .branch cond rs1 rs2 offset => formatB .branch cond.funct3 rs1 rs2 offset
  | .load width signed rd rs1 offset => formatI .load (width.loadFunct3 signed) rd rs1 offset
  | .store width rs1 rs2 offset => formatS .store width.storeFunct3 rs1 rs2 offset
  | .alu op rd rs1 (.reg rs2) => formatR .op op.funct7 op.funct3 rd rs1 rs2
  | .alu op rd rs1 (.imm value) => formatI .opImm op.funct3 rd rs1 value
  | .mulDiv op rd rs1 rs2 => formatR .op 0b0000001 op.funct3 rd rs1 rs2
  | .fence => (0 : BitVec 25) ++ Opcode.miscMem.bits

/-- Whether the operands of an instruction can be represented in a word. An immediate shift keeps
all twelve bits of its immediate, and bit 10 of them tells the two right shifts apart. -/
def Valid : Instruction → Prop
  | .lui _ imm | .auipc _ imm => imm.extractLsb' 0 12 = 0#12
  | .jal _ offset => offset.Even ∧ offset.Within (-2 ^ 20) (2 ^ 20 - 2)
  | .jalr _ _ offset | .store _ _ _ offset => offset.Within (-2048) 2047
  | .branch _ _ _ offset => offset.Even ∧ offset.Within (-4096) 4094
  | .load width signed _ _ offset =>
    offset.Within (-2048) 2047 ∧ (width = .word → signed = true)
  | .alu op _ _ (.imm value) =>
    value.Within (-2048) 2047 ∧ op ≠ .sub ∧ (op = .srl → value.getLsbD 10 = false) ∧
      (op = .sra → value.getLsbD 10 = true)
  | .alu _ _ _ (.reg _) | .mulDiv .. | .fence => True

/-- Whether decoding ignores the bit of a word at a position: the function code of computed jumps,
everything but the opcode of memory ordering hints, and of register operations the upper function
code except bit 25, and except bit 30 where it tells two operations apart. -/
def Ignores (word : Word) (position : Nat) : Prop :=
  match Opcode.ofBits? (opcode word) with
  | some .jalr => 12 ≤ position ∧ position ≤ 14
  | some .miscMem => 7 ≤ position
  | some .op =>
    25 < position ∧
      ¬(position = 30 ∧ isMulDiv word = false ∧ (funct3 word = 0b000 ∨ funct3 word = 0b101))
  | _ => False

/-- Two words agree on every bit that decoding does not ignore in the first. -/
def Agrees (word other : Word) : Prop :=
  ∀ position < 32, ¬Ignores word position → other.getLsbD position = word.getLsbD position

end Instruction

section Fields

variable (bits : BitVec 7) (low : BitVec 5) (code : BitVec 3) (middle : BitVec 5)
  (high : BitVec 12) (upper : BitVec 20)

/-- The opcode of a word with a function code. -/
@[simp] theorem opcode_layout : opcode (layout bits low code middle high) = bits := by
  unfold opcode layout
  ext position inside
  grind

/-- The destination register of a word with a function code. -/
@[simp] theorem rd_layout : rd (layout bits low code middle high) = ⟨low⟩ := by
  unfold rd layout
  congr 1
  ext position inside
  grind

/-- The function code of a word that has one. -/
@[simp] theorem funct3_layout : funct3 (layout bits low code middle high) = code := by
  unfold funct3 layout
  ext position inside
  grind

/-- The first source register of a word with a function code. -/
@[simp] theorem rs1_layout : rs1 (layout bits low code middle high) = ⟨middle⟩ := by
  unfold rs1 layout
  congr 1
  ext position inside
  grind

/-- The second source register of a word with a function code, in the low bits of its last piece. -/
@[simp] theorem rs2_layout :
    rs2 (layout bits low code middle high) = ⟨high.extractLsb' 0 5⟩ := by
  unfold rs2 layout
  congr 1
  ext position inside
  grind

/-- The immediate of register-immediate operations is the last piece of a word. -/
@[simp] theorem immI_layout :
    immI (layout bits low code middle high) = high.signExtend 32 := by
  unfold immI layout
  congr 1
  ext position inside
  grind

/-- The immediate of stores stands in two pieces, its low bits in the place of a register. -/
@[simp] theorem immS_layout :
    immS (layout bits low code middle high) = (high.extractLsb' 5 7 ++ low).signExtend 32 := by
  unfold immS layout
  congr 1
  ext position inside
  grind

/-- The immediate of branches stands in the places of that of stores, with one of its bits moved to
the place of the bit that is always zero. -/
@[simp] theorem immB_layout :
    immB (layout bits low code middle high) =
      (high.extractLsb' 11 1 ++ low.extractLsb' 0 1 ++ high.extractLsb' 5 6 ++
        low.extractLsb' 1 4 ++ 0#1).signExtend 32 := by
  unfold immB layout
  congr 1
  ext position inside
  grind

/-- Bit 25 is bit 5 of the last piece of a word. -/
@[simp] theorem isMulDiv_layout :
    isMulDiv (layout bits low code middle high) = high.getLsbD 5 := by
  unfold isMulDiv layout
  grind

/-- Bit 30 is bit 10 of the last piece of a word. -/
@[simp] theorem isAlternate_layout :
    isAlternate (layout bits low code middle high) = high.getLsbD 10 := by
  unfold isAlternate layout
  grind

/-- The opcode of a word without a function code. -/
@[simp] theorem opcode_upperLayout : opcode (upperLayout bits low upper) = bits := by
  unfold opcode upperLayout
  ext position inside
  grind

/-- The destination register of a word without a function code. -/
@[simp] theorem rd_upperLayout : rd (upperLayout bits low upper) = ⟨low⟩ := by
  unfold rd upperLayout
  congr 1
  ext position inside
  grind

/-- The upper immediate is the last piece of a word in front of twelve zero bits. -/
@[simp] theorem immU_upperLayout : immU (upperLayout bits low upper) = upper ++ 0#12 := by
  unfold immU upperLayout
  congr 1
  ext position inside
  grind

/-- The immediate of relative jumps is put together from four pieces of the upper bits of a word. -/
@[simp] theorem immJ_upperLayout :
    immJ (upperLayout bits low upper) =
      (upper.extractLsb' 19 1 ++ upper.extractLsb' 0 8 ++ upper.extractLsb' 8 1 ++
        upper.extractLsb' 9 10 ++ 0#1).signExtend 32 := by
  unfold immJ upperLayout
  congr 1
  ext position inside
  grind

end Fields

/-- Every word is put together from its own five fields. -/
theorem layout_fields (word : Word) :
    layout (opcode word) (word.extractLsb' 7 5) (funct3 word) (word.extractLsb' 15 5)
      (word.extractLsb' 20 12) = word := by
  unfold layout opcode funct3
  ext position inside
  grind

/-- Every word is put together from its own three fields. -/
theorem upperLayout_fields (word : Word) :
    upperLayout (opcode word) (word.extractLsb' 7 5) (word.extractLsb' 12 20) = word := by
  unfold upperLayout opcode
  ext position inside
  grind

/-- A word that fits a signed width is the extension of its low bits. -/
theorem Word.signExtend_low (width : Nat) {word : Word} (fits : width < 32)
    (range : word.Within (-2 ^ width) (2 ^ width - 1)) :
    (word.extractLsb' 0 (width + 1)).signExtend 32 = word := by
  obtain ⟨low, high⟩ := range
  have divides : 2 ^ (width + 1) ∣ 2 ^ 32 := Nat.pow_dvd_pow 2 fits
  have narrowed : (word.extractLsb' 0 (width + 1)).toInt = word.toInt := by
    rw [BitVec.toInt_extractLsb', Nat.shiftRight_zero, ← Int.bmod_bmod_of_dvd divides,
      ← BitVec.toInt_eq_toNat_bmod]
    apply Int.bmod_eq_of_le_mul_two
    · push_cast
      omega
    · push_cast
      omega
  apply BitVec.eq_of_toInt_eq
  rw [BitVec.toInt_signExtend_of_le fits, narrowed]

/-- An extended value lies in the range of its width. -/
theorem Word.within_signExtend {width : Nat} (value : BitVec (width + 1)) (fits : width < 32) :
    Word.Within (-2 ^ width) (2 ^ width - 1) (value.signExtend 32) := by
  have low := BitVec.le_toInt value
  have high := BitVec.toInt_lt (x := value)
  rw [Nat.add_sub_cancel] at low high
  unfold Within
  rw [BitVec.toInt_signExtend_of_le fits]
  omega

/-- A word is even exactly when its lowest bit is clear. -/
theorem Word.even_iff (word : Word) : word.Even ↔ word.getLsbD 0 = false := by
  unfold Even
  rw [BitVec.toInt_eq_toNat_cond, BitVec.getLsbD, Nat.testBit_zero]
  simp only [decide_eq_false_iff_not]
  split <;> omega

/-- Extending a value that ends in a zero bit gives an even word. -/
theorem Word.even_signExtend_append_zero {width : Nat} (value : BitVec width) :
    Word.Even ((value ++ 0#1).signExtend 32) := by
  rw [even_iff, BitVec.getLsbD_signExtend]
  simp [BitVec.getElem_append]

/-- An even word below an odd bound is below the even number before it. -/
theorem Word.Even.within {word : Word} {low high : Int} (even : word.Even)
    (odd : high % 2 = 1) (range : word.Within low high) : word.Within low (high - 1) := by
  unfold Even at even
  unfold Within at *
  omega

/-- Sign extension keeps the pieces inside the extended value. -/
theorem extractLsb'_signExtend {width start length : Nat} (value : BitVec width)
    (inside : start + length ≤ width) (fits : width ≤ 32) :
    (value.signExtend 32).extractLsb' start length = value.extractLsb' start length := by
  ext position bound
  rw [BitVec.getElem_extractLsb', BitVec.getElem_extractLsb', BitVec.getLsbD_signExtend]
  have low : start + position < width := by omega
  have wide : start + position < 32 := by omega
  simp [low, wide]

/-- A word is put together from its fields in the format of relative jumps. -/
theorem formatJ_fields {word : Word} {code : Opcode} (same : code.bits = opcode word) :
    formatJ code (rd word) (immJ word) = word := by
  have high : (immJ word).extractLsb' 20 1 ++ (immJ word).extractLsb' 1 10 ++
      (immJ word).extractLsb' 11 1 ++ (immJ word).extractLsb' 12 8 = word.extractLsb' 12 20 := by
    unfold immJ
    simp only [extractLsb'_signExtend, Nat.reduceAdd, Nat.reduceLeDiff]
    ext position inside
    grind
  unfold formatJ
  rw [high, same]
  exact upperLayout_fields word

/-- A word is put together from its fields in the format of branches. -/
theorem formatB_fields {word : Word} {code : Opcode} (same : code.bits = opcode word) :
    formatB code (funct3 word) (rs1 word) (rs2 word) (immB word) = word := by
  have low : (immB word).extractLsb' 1 4 ++ (immB word).extractLsb' 11 1 =
      word.extractLsb' 7 5 := by
    unfold immB
    simp only [extractLsb'_signExtend, Nat.reduceAdd, Nat.reduceLeDiff]
    ext position inside
    grind
  have high : (immB word).extractLsb' 12 1 ++ (immB word).extractLsb' 5 6 ++ (rs2 word).number =
      word.extractLsb' 20 12 := by
    unfold immB rs2
    simp only [extractLsb'_signExtend, Nat.reduceAdd, Nat.reduceLeDiff]
    ext position inside
    grind
  unfold formatB
  rw [low, high, same]
  exact layout_fields word

/-- A word is put together from its fields in the format of stores. -/
theorem formatS_fields {word : Word} {code : Opcode} (same : code.bits = opcode word) :
    formatS code (funct3 word) (rs1 word) (rs2 word) (immS word) = word := by
  have low : (immS word).extractLsb' 0 5 = word.extractLsb' 7 5 := by
    unfold immS
    rw [extractLsb'_signExtend _ (by decide) (by decide)]
    exact BitVec.extractLsb'_append_eq_right
  have high : (immS word).extractLsb' 5 7 ++ (rs2 word).number = word.extractLsb' 20 12 := by
    unfold immS rs2
    rw [extractLsb'_signExtend _ (by decide) (by decide)]
    ext position inside
    grind
  unfold formatS
  rw [low, high, same]
  exact layout_fields word

/-- A word is put together from its fields in the format of register-immediate operations. -/
theorem formatI_fields {word : Word} {code : Opcode} (same : code.bits = opcode word) :
    formatI code (funct3 word) (rd word) (rs1 word) (immI word) = word := by
  have high : (immI word).extractLsb' 0 12 = word.extractLsb' 20 12 := by
    unfold immI
    rw [extractLsb'_signExtend _ (by decide) (by decide)]
    ext position inside
    simp
  unfold formatI
  rw [high, same]
  exact layout_fields word

/-- A word is put together from its fields in the format of upper immediates. -/
theorem formatU_fields {word : Word} {code : Opcode} (same : code.bits = opcode word) :
    formatU code (rd word) (immU word) = word := by
  have high : (immU word).extractLsb' 12 20 = word.extractLsb' 12 20 :=
    BitVec.extractLsb'_append_eq_left
  unfold formatU
  rw [high, same]
  exact upperLayout_fields word

/-- The immediate of the store format. -/
theorem immS_formatS (opcode : Opcode) (funct3 : BitVec 3) (rs1 rs2 : Reg) {imm : Word}
    (range : imm.Within (-2048) 2047) : immS (formatS opcode funct3 rs1 rs2 imm) = imm := by
  have joined : (imm.extractLsb' 5 7 ++ rs2.number).extractLsb' 5 7 ++ imm.extractLsb' 0 5 =
      imm.extractLsb' 0 12 := by
    ext position inside
    grind
  unfold formatS
  rw [immS_layout]
  exact (congrArg (BitVec.signExtend 32) joined).trans (Word.signExtend_low 11 (by decide) range)

/-- The immediate of the branch format. -/
theorem immB_formatB (opcode : Opcode) (funct3 : BitVec 3) (rs1 rs2 : Reg) {imm : Word}
    (even : imm.Even) (range : imm.Within (-4096) 4094) :
    immB (formatB opcode funct3 rs1 rs2 imm) = imm := by
  unfold formatB
  rw [immB_layout]
  rw [Word.even_iff] at even
  let high : BitVec 12 := imm.extractLsb' 12 1 ++ imm.extractLsb' 5 6 ++ rs2.number
  let low : BitVec 5 := imm.extractLsb' 1 4 ++ imm.extractLsb' 11 1
  have joined : high.extractLsb' 11 1 ++ low.extractLsb' 0 1 ++ high.extractLsb' 5 6 ++
      low.extractLsb' 1 4 ++ 0#1 = imm.extractLsb' 0 13 := by
    ext position inside
    grind
  exact (congrArg (BitVec.signExtend 32) joined).trans
    (Word.signExtend_low 12 (by decide) ⟨range.1, by have := range.2; omega⟩)

/-- The immediate of the relative jump format. -/
theorem immJ_formatJ (opcode : Opcode) (rd : Reg) {imm : Word}
    (even : imm.Even) (range : imm.Within (-2 ^ 20) (2 ^ 20 - 2)) :
    immJ (formatJ opcode rd imm) = imm := by
  unfold formatJ
  rw [immJ_upperLayout]
  rw [Word.even_iff] at even
  let upper : BitVec 20 := imm.extractLsb' 20 1 ++ imm.extractLsb' 1 10 ++ imm.extractLsb' 11 1 ++
    imm.extractLsb' 12 8
  have joined : upper.extractLsb' 19 1 ++ upper.extractLsb' 0 8 ++ upper.extractLsb' 8 1 ++
      upper.extractLsb' 9 10 ++ 0#1 = imm.extractLsb' 0 21 := by
    ext position inside
    grind
  exact (congrArg (BitVec.signExtend 32) joined).trans
    (Word.signExtend_low 20 (by decide) ⟨range.1, by have := range.2; omega⟩)

/-- The immediate of the upper immediate format. -/
theorem immU_formatU (opcode : Opcode) (rd : Reg) {imm : Word}
    (zeros : imm.extractLsb' 0 12 = 0#12) :
    immU (formatU opcode rd imm) = imm := by
  unfold formatU
  rw [immU_upperLayout, ← zeros]
  ext position inside
  grind

end RvLift
