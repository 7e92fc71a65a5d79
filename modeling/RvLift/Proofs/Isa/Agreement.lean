import Mathlib
import RvLift.Proofs.Arithmetic
import RvLift.Proofs.Block.Changes
import RvLift.Proofs.Bytes
import RvLift.Proofs.Instruction.Decoding
import RvLift.Proofs.Isa.Interpreter

/-!
# Lifted programs implement the instruction set

Running a lifted image gives the same result and the same machine as interpreting its words. Each
field of a word is compared with the bits it is read from, each operation with its integer
arithmetic, and a step of the interpreter with entering the block of the word. Runs follow by
induction on the number of instructions left.
-/

namespace RvLift

/-- Only `x0` has number zero. -/
theorem Reg.index_eq_zero_iff (reg : Reg) : reg.index = 0 ↔ reg = Reg.zero := by
  cases reg
  simp [Reg.index, Reg.zero, ← BitVec.toNat_inj]

namespace Isa

/-- Bits cut out of a word spell the number of their place. -/
theorem toNat_extractLsb' (word : Word) (low count : Nat) :
    (word.extractLsb' low count).toNat = bits word.toNat low count := by
  rw [BitVec.extractLsb'_toNat, Nat.shiftRight_eq_div_pow, bits]

/-- The signed value of a bit vector in two's complement. -/
theorem toInt_eq_signed {count : Nat} (value : BitVec (count + 1)) :
    value.toInt = signed (count + 1) value.toNat := by
  have double : 2 ^ (count + 1) = 2 * 2 ^ count := Nat.pow_succ'
  unfold signed
  rw [BitVec.toInt_eq_toNat_cond, Nat.add_sub_cancel]
  split
  · rw [if_pos (by omega)]
  · rw [if_neg (by omega)]
    norm_cast

/-- Extending a bit vector in two's complement keeps the integer that it spells. -/
theorem signExtend_eq {count number : Nat} {value : BitVec (count + 1)}
    (spells : value.toNat = number) :
    value.signExtend 32 = BitVec.ofInt 32 (signed (count + 1) number) := by
  rw [BitVec.signExtend, toInt_eq_signed, spells]

/-- Four pieces of a word in front of a zero bit spell an even number. -/
theorem toNat_even (word : Word)
    (high highCount upper upperCount lower lowerCount low lowCount : Nat) :
    (word.extractLsb' high highCount ++ word.extractLsb' upper upperCount ++
        word.extractLsb' lower lowerCount ++ word.extractLsb' low lowCount ++ 0#1).toNat =
      2 ^ (upperCount + lowerCount + lowCount + 1) * bits word.toNat high highCount +
        2 ^ (lowerCount + lowCount + 1) * bits word.toNat upper upperCount +
        2 ^ (lowCount + 1) * bits word.toNat lower lowerCount +
        2 * bits word.toNat low lowCount := by
  have zero : (0#1).toNat = 0 := rfl
  simp only [Bytes.toNat_append, toNat_extractLsb', zero]
  ring

/-- One bit of a word. -/
theorem getLsbD_eq (word : Word) (position : Nat) :
    word.getLsbD position = decide (bits word.toNat position 1 = 1) := by
  rw [bits, Nat.pow_one, BitVec.getLsbD, Nat.testBit_eq_decide_div_mod_eq]

/-- The immediate of register-immediate operations by its bits. -/
theorem immI_eq (word : Word) : BitField.immI word = BitVec.ofInt 32 (immI word.toNat) :=
  signExtend_eq (toNat_extractLsb' word 20 12)

/-- The immediate of stores by its two pieces. -/
theorem immS_eq (word : Word) : BitField.immS word = BitVec.ofInt 32 (immS word.toNat) := by
  have pieces : (word.extractLsb' 25 7 ++ word.extractLsb' 7 5).toNat =
      2 ^ 5 * bits word.toNat 25 7 + bits word.toNat 7 5 := by
    rw [Bytes.toNat_append, toNat_extractLsb', toNat_extractLsb']
  exact signExtend_eq pieces

/-- The immediate of branches by its four pieces. -/
theorem immB_eq (word : Word) : BitField.immB word = BitVec.ofInt 32 (immB word.toNat) :=
  signExtend_eq (toNat_even word 31 1 7 1 25 6 8 4)

/-- The immediate of relative jumps by its four pieces. -/
theorem immJ_eq (word : Word) : BitField.immJ word = BitVec.ofInt 32 (immJ word.toNat) :=
  signExtend_eq (toNat_even word 31 1 12 8 20 1 21 10)

/-- The upper immediate by its bits. -/
theorem immU_eq (word : Word) : BitField.immU word = BitVec.ofNat 32 (immU word.toNat) := by
  apply BitVec.eq_of_toNat_eq
  have spells : (BitField.immU word).toNat = immU word.toNat := by
    rw [BitField.immU, Bytes.toNat_append, toNat_extractLsb']
    rfl
  have small : immU word.toNat < 2 ^ 32 := spells ▸ (BitField.immU word).isLt
  rw [spells, BitVec.toNat_ofNat, Nat.mod_eq_of_lt small]

/-- Reading a number sums its bytes by place. -/
theorem readLittle_eq (bytes : ByteArray) (start count : Nat) :
    Bytes.readLittle bytes start count = littleEndian bytes start count :=
  Bytes.readLittle_eq_sum ..

/-- Writing a number replaces its bytes. -/
theorem writeLittle_eq (bytes : ByteArray) (start count value : Nat) :
    Bytes.writeLittle bytes start count value = replaced bytes start count value := by
  apply Bytes.eq_of_byteAt
  · rw [Bytes.size_writeLittle, replaced, Bytes.size_tabulate]
  · intro position
    rw [Bytes.byteAt_writeLittle, replaced, Bytes.byteAt_tabulate]
    by_cases inside : position < bytes.size
    · by_cases written : start ≤ position ∧ position < start + count
      · rw [if_pos ⟨written.1, written.2, inside⟩, if_pos inside, if_pos written,
          UInt8.toNat_ofNat', Nat.shiftRight_eq_div_pow, Nat.pow_mul]
      · rw [if_neg (fun all => written ⟨all.1, all.2.1⟩), if_pos inside, if_neg written,
          UInt8.toNat_ofNat', Nat.mod_eq_of_lt (Bytes.byteAt_lt ..)]
    · rw [if_neg (fun all => inside all.2.2), if_neg inside]
      exact Bytes.byteAt_of_size_le (Nat.le_of_not_lt inside)

/-- The word of an image is the number that its bytes spell. -/
theorem fetch_eq (image : Image) (index : Nat) : (image.word index).toNat = fetch image index := by
  rw [Image.toNat_word_eq_readLittle, readLittle_eq, fetch]

/-- Reading a register while `x0` holds zero. -/
theorem readReg_eq {machine : Machine} (zero : machine.reg Reg.zero = 0) (source : Reg) :
    readReg machine source.index = machine.reg source := by
  unfold readReg
  by_cases hardwired : source = Reg.zero
  · rw [if_pos ((Reg.index_eq_zero_iff source).2 hardwired), hardwired, zero]
  · rw [if_neg (fun none => hardwired ((Reg.index_eq_zero_iff source).1 none)),
      Vector.getElem?_eq_getElem source.index_lt]
    rfl

/-- Writing a register, where `x0` is left alone. -/
theorem writeReg_eq (machine : Machine) (target : Reg) (value : Word) :
    writeReg machine target.index value = machine.setReg target value := by
  unfold writeReg Machine.setReg
  by_cases dropped : target = Reg.zero
  · rw [if_pos ((Reg.index_eq_zero_iff target).2 dropped), if_pos dropped]
  · rw [if_neg (fun none => dropped ((Reg.index_eq_zero_iff target).1 none)), if_neg dropped]
    congr 1
    apply Vector.ext
    intro position inside
    rw [Vector.getElem_setIfInBounds, Vector.getElem_set]

/-- The values of a function code. -/
theorem code_cases (code : BitVec 3) :
    code = 0 ∨ code = 1 ∨ code = 2 ∨ code = 3 ∨ code = 4 ∨ code = 5 ∨ code = 6 ∨ code = 7 := by
  revert code
  decide

/-- The arithmetic and logic operations by function code. -/
theorem aluResult_eq (code : BitVec 3) (subtract arithmetic : Bool) (left right : Word) :
    aluResult code.toNat subtract arithmetic left right =
      (AluOp.ofFunct3 code subtract arithmetic).apply left right := by
  obtain rfl | rfl | rfl | rfl | rfl | rfl | rfl | rfl := code_cases code
  · cases subtract with
    | false => exact BitVec.eq_of_toNat_eq (by simp [aluResult, AluOp.ofFunct3, AluOp.apply])
    | true =>
      change BitVec.ofInt 32 (left.toNat - right.toNat) = left - right
      rw [Int.sub_eq_add_neg, BitVec.ofInt_add, BitVec.ofInt_neg, Word.ofInt_toNat,
        Word.ofInt_toNat, ← BitVec.sub_eq_add_neg]
  · exact (AluOp.apply_sll left right).symm
  · exact (AluOp.apply_slt left right).symm
  · exact (AluOp.apply_sltu left right).symm
  · exact BitVec.eq_of_toNat_eq (by simp [aluResult, AluOp.ofFunct3, AluOp.apply])
  · cases arithmetic
    · exact (AluOp.apply_srl left right).symm
    · exact (AluOp.apply_sra left right).symm
  · exact BitVec.eq_of_toNat_eq (by simp [aluResult, AluOp.ofFunct3, AluOp.apply])
  · exact BitVec.eq_of_toNat_eq (by simp [aluResult, AluOp.ofFunct3, AluOp.apply])

/-- The multiplications and divisions by function code. -/
theorem mulDivResult_eq (code : BitVec 3) (left right : Word) :
    mulDivResult code.toNat left right = (MulDivOp.ofFunct3 code).apply left right := by
  have zero_iff : right.toNat = 0 ↔ right = 0 := BitVec.toNat_inj (y := 0)
  obtain rfl | rfl | rfl | rfl | rfl | rfl | rfl | rfl := code_cases code
  · exact (MulDivOp.apply_mul left right).symm
  · exact (MulDivOp.apply_mulh left right).symm
  · exact (MulDivOp.apply_mulhsu left right).symm
  · exact (MulDivOp.apply_mulhu left right).symm
  · refine Eq.trans ?_ (MulDivOp.apply_div left right).symm
    simp [mulDivResult, zero_iff]
  · refine Eq.trans ?_ (MulDivOp.apply_divu left right).symm
    simp [mulDivResult, zero_iff]
  · refine Eq.trans ?_ (MulDivOp.apply_rem left right).symm
    simp [mulDivResult, zero_iff]
  · refine Eq.trans ?_ (MulDivOp.apply_remu left right).symm
    simp [mulDivResult, zero_iff]

/-- The branches that are taken are those whose condition holds. -/
theorem taken?_eq_true_iff (code : BitVec 3) (left right : Word) :
    taken? code.toNat left right = some true ↔
      ∃ cond, Cond.ofFunct3? code = some cond ∧ cond.holds left right = true := by
  obtain rfl | rfl | rfl | rfl | rfl | rfl | rfl | rfl := code_cases code
  all_goals simp [taken?, Cond.ofFunct3?, Cond.holds_iff]

/-- The widths of loads by function code. -/
theorem loadWidth?_eq (code : BitVec 3) :
    loadWidth? code.toNat = (Width.ofLoadFunct3? code).map Prod.fst := by
  obtain rfl | rfl | rfl | rfl | rfl | rfl | rfl | rfl := code_cases code <;> rfl

/-- The widths of stores by function code. -/
theorem storeWidth?_eq (code : BitVec 3) :
    storeWidth? code.toNat = Width.ofStoreFunct3? code := by
  obtain rfl | rfl | rfl | rfl | rfl | rfl | rfl | rfl := code_cases code <;> rfl

/-- Extending the low bytes of a word by their sign. -/
theorem signExtend_ofNat (width : Width) {value : Nat} (small : value < 256 ^ width.bytes) :
    width.signExtend (BitVec.ofNat 32 value) =
      BitVec.ofInt 32 (signed (8 * width.bytes) value) := by
  cases width with
  | byte =>
    have byte : (BitVec.ofNat 32 value).setWidth 8 = BitVec.ofNat 8 value := by simp
    have exact : (BitVec.ofNat 8 value).toNat = value := Nat.mod_eq_of_lt small
    have sign := toInt_eq_signed (BitVec.ofNat 8 value)
    rw [exact] at sign
    change ((BitVec.ofNat 32 value).setWidth 8).signExtend 32 = _
    rw [byte]
    exact congrArg (BitVec.ofInt 32) sign
  | half =>
    have half : (BitVec.ofNat 32 value).setWidth 16 = BitVec.ofNat 16 value := by simp
    have exact : (BitVec.ofNat 16 value).toNat = value := Nat.mod_eq_of_lt small
    have sign := toInt_eq_signed (BitVec.ofNat 16 value)
    rw [exact] at sign
    change ((BitVec.ofNat 32 value).setWidth 16).signExtend 32 = _
    rw [half]
    exact congrArg (BitVec.ofInt 32) sign
  | word =>
    have exact : (BitVec.ofNat 32 value).toNat = value := Nat.mod_eq_of_lt small
    have sign := toInt_eq_signed (BitVec.ofNat 32 value)
    rw [exact] at sign
    change BitVec.ofNat 32 value = BitVec.ofInt 32 (signed 32 value)
    rw [← sign, BitVec.ofInt_toInt]

/-- The value that a load extends, by function code. -/
theorem extended_eq {code : BitVec 3} {width : Width} {sign : Bool}
    (found : Width.ofLoadFunct3? code = some (width, sign)) {value : Nat}
    (small : value < 256 ^ width.bytes) :
    extended code.toNat width value =
      if sign then width.signExtend (BitVec.ofNat 32 value) else BitVec.ofNat 32 value := by
  have low : code.toNat < 4 ↔ sign = true := by
    obtain rfl | rfl | rfl | rfl | rfl | rfl | rfl | rfl := code_cases code
    all_goals simp [Width.ofLoadFunct3?] at found ⊢
    all_goals simp [← found.2]
  rw [extended, signExtend_ofNat width small]
  simp only [low]

/-- Clearing the lowest bit rounds down to an even number. -/
theorem and_not_one_eq (word : Word) :
    word &&& ~~~(1 : Word) = BitVec.ofNat 32 (word.toNat - word.toNat % 2) := by
  have halves : word &&& ~~~(1 : Word) = (word >>> 1) <<< 1 := by
    ext position inside
    have one : (1 : Word)[position] = decide (position = 0) := BitVec.getElem_one inside
    rw [BitVec.getElem_and, BitVec.getElem_not, one]
    cases position with
    | zero => simp
    | succ position => simp [BitVec.getLsbD_eq_getElem inside, Nat.add_comm 1]
  apply BitVec.eq_of_toNat_eq
  rw [halves, BitVec.toNat_shiftLeft, BitVec.toNat_ushiftRight, BitVec.toNat_ofNat,
    Nat.shiftLeft_eq, Nat.shiftRight_eq_div_pow]
  omega

/-- A known opcode by its number. -/
theorem opcode_eq_of_ofBits? {word : Word} {opcode : Opcode}
    (found : Opcode.ofBits? (BitField.opcode word) = some opcode) :
    bits word.toNat 0 7 = opcode.bits.toNat := by
  rw [Opcode.bits_of_ofBits? found, BitField.opcode, toNat_extractLsb']

/-- An unknown opcode has none of the numbers. -/
theorem opcode_ne_of_ofBits? {word : Word}
    (unknown : Opcode.ofBits? (BitField.opcode word) = none) (opcode : Opcode) :
    bits word.toNat 0 7 ≠ opcode.bits.toNat := by
  intro same
  rw [← toNat_extractLsb', BitVec.toNat_inj] at same
  rw [BitField.opcode, same, Opcode.ofBits?_bits] at unknown
  cases unknown

/-- Jumps lead to the word at the target address, or to the next one. -/
theorem follow_jump (image : Image) (settings : Settings) (pc target : Word) (index : Nat)
    (machine written : Machine) :
    (image.lift settings).follow pc index machine (.ok (written, .jump target)) =
      .next ⟨destination image index target, written⟩ := by
  simp only [Program.follow, Image.blockIndex?_lift, destination]
  split <;> rfl

section Runs

variable {image : Image} {settings : Settings}

section Codes

variable (machine : Machine) (index : Nat) (code : BitVec 3)

/-- A branch, by function code, is the branch instruction; codes of no condition do nothing. -/
theorem branchStep_eq (settings : Settings) (first second : Reg) (offset : Word) :
    (if taken? code.toNat (machine.reg first) (machine.reg second) = some true then
      Step.next ⟨destination image index (Word.address image.base index + offset), machine⟩
    else .next ⟨index + 1, machine⟩) =
      match Cond.ofFunct3? code with
      | none => .next ⟨index + 1, machine⟩
      | some cond =>
        (image.lift settings).follow (Word.address image.base index) index machine
          ((Instruction.branch cond first second offset).effect settings
            (Word.address image.base index) machine) := by
  simp only [taken?_eq_true_iff]
  cases Cond.ofFunct3? code with
  | none => simp
  | some cond =>
    simp only [Option.some.injEq, exists_eq_left']
    by_cases taken : cond.holds (machine.reg first) (machine.reg second) = true
    · rw [if_pos taken]
      simp only [Instruction.effect, if_pos taken, follow_jump]
    · rw [if_neg taken]
      simp only [Instruction.effect, if_neg taken, Program.follow]

/-- A load, by function code, is the load instruction; codes of no width do nothing. -/
theorem loadStep_eq (same : settings.base = image.base) (target source : Reg) (offset : Word) :
    loadStep image index code.toNat target.index (machine.reg source + offset) machine =
      match Width.ofLoadFunct3? code with
      | none => .next ⟨index + 1, machine⟩
      | some (width, sign) =>
        (image.lift settings).follow (Word.address image.base index) index machine
          ((Instruction.load width sign target source offset).effect settings
            (Word.address image.base index) machine) := by
  simp only [loadStep, loadWidth?_eq, writeReg_eq]
  cases found : Width.ofLoadFunct3? code with
  | none => rfl
  | some form =>
    obtain ⟨width, sign⟩ := form
    simp only [Option.map_some, Instruction.effect, same, Machine.load, Machine.covers,
      decide_eq_true_eq]
    split
    · rw [← readLittle_eq, extended_eq found (Bytes.readLittle_lt ..), Bytes.shiftedWord_eq]
      rfl
    · rfl

/-- A store, by function code, is the store instruction; codes of no width do nothing. -/
theorem storeStep_eq (same : settings.base = image.base) (first second : Reg) (offset : Word) :
    storeStep image settings.haltAddress index code.toNat (machine.reg first + offset)
        (machine.reg second) machine =
      match Width.ofStoreFunct3? code with
      | none => .next ⟨index + 1, machine⟩
      | some width =>
        (image.lift settings).follow (Word.address image.base index) index machine
          ((Instruction.store width first second offset).effect settings
            (Word.address image.base index) machine) := by
  simp only [storeStep, storeWidth?_eq]
  cases Width.ofStoreFunct3? code with
  | none => rfl
  | some width =>
    simp only [Instruction.effect, same]
    split
    · rfl
    · simp only [Program.follow, Machine.store?, Machine.covers, decide_eq_true_eq,
        writeLittle_eq]
      split <;> rfl

end Codes

/-- Interpreting a word is entering its block. -/
theorem step_eq {machine : Machine} (same : settings.base = image.base)
    (zero : machine.reg Reg.zero = 0) (index : Nat) :
    step image settings.haltAddress index machine =
      (image.lift settings).follow (Word.address image.base index) index machine
        ((Block.ofWord settings (Word.address image.base index) (image.word index)).effect machine
          settings.haltAddress) := by
  rw [Block.effect_ofWord]
  generalize fetched : image.word index = word
  have rd : bits word.toNat 7 5 = (BitField.rd word).index := (toNat_extractLsb' ..).symm
  have rs1 : bits word.toNat 15 5 = (BitField.rs1 word).index := (toNat_extractLsb' ..).symm
  have rs2 : bits word.toNat 20 5 = (BitField.rs2 word).index := (toNat_extractLsb' ..).symm
  have funct3 : bits word.toNat 12 3 = (BitField.funct3 word).toNat := (toNat_extractLsb' ..).symm
  have alternate : decide (bits word.toNat 30 1 = 1) = BitField.isAlternate word :=
    (getLsbD_eq ..).symm
  have pc : image.base + BitVec.ofNat 32 (4 * index) = Word.address image.base index := rfl
  unfold step Instruction.decode
  simp only [← fetch_eq, fetched, rd, rs1, rs2, funct3, alternate, pc, readReg_eq zero,
    writeReg_eq, ← immI_eq, ← immS_eq, ← immB_eq, ← immJ_eq, ← immU_eq, aluResult_eq,
    mulDivResult_eq]
  cases found : Opcode.ofBits? (BitField.opcode word) with
  | none =>
    have unknown := opcode_ne_of_ofBits? found
    refine (if_neg (unknown .lui)).trans ((if_neg (unknown .auipc)).trans ?_)
    refine (if_neg (unknown .jal)).trans ((if_neg (unknown .jalr)).trans ?_)
    refine (if_neg (unknown .branch)).trans ((if_neg (unknown .load)).trans ?_)
    refine (if_neg (unknown .store)).trans ((if_neg (unknown .opImm)).trans ?_)
    exact if_neg (unknown .op)
  | some opcode =>
    rw [opcode_eq_of_ofBits? found]
    cases opcode with
    | lui => rfl
    | auipc => rfl
    | jal => exact (follow_jump ..).symm
    | jalr =>
      refine Eq.trans ?_ (follow_jump ..).symm
      rw [and_not_one_eq]
      rfl
    | branch =>
      refine (branchStep_eq machine index _ settings ..).trans ?_
      cases Cond.ofFunct3? (BitField.funct3 word) <;> rfl
    | load =>
      refine (loadStep_eq machine index _ same ..).trans ?_
      cases Width.ofLoadFunct3? (BitField.funct3 word) <;> rfl
    | store =>
      refine (storeStep_eq machine index _ same ..).trans ?_
      cases Width.ofStoreFunct3? (BitField.funct3 word) <;> rfl
    | opImm => rfl
    | op =>
      change (if bits word.toNat 25 1 = 1 then _ else _) = _
      have marked : bits word.toNat 25 1 = 1 ↔ BitField.isMulDiv word = true := by
        rw [BitField.isMulDiv, getLsbD_eq, decide_eq_true_eq]
      simp only [marked, Instruction.decodeRegister]
      split <;> rfl
    | miscMem => rfl

/-- Interpreting from a state on is running the lifted image from there. -/
theorem runFrom_eq (same : settings.base = image.base) (limit remaining : Nat) {state : State}
    (zero : state.machine.reg Reg.zero = 0) :
    (image.lift settings).runFrom limit remaining state =
      runFrom (step image settings.haltAddress) image.wordCount limit remaining state := by
  induction remaining generalizing state with
  | zero =>
    rw [Program.runFrom, runFrom, Image.getElem?_blocks_lift]
    by_cases inside : state.index < image.wordCount
    · simp only [if_pos inside]
    · simp only [if_neg inside]
  | succ remaining hypothesis =>
    rw [Program.runFrom, runFrom, Image.getElem?_blocks_lift]
    by_cases inside : state.index < image.wordCount
    · simp only [if_pos inside]
      generalize named : Block.ofWord settings (Word.address image.base state.index)
        (image.word state.index) = block
      have entered : (image.lift settings).step block state.index state.machine =
          step image settings.haltAddress state.index state.machine := by
        rw [Program.step_eq_follow, step_eq same zero, ← named, Block.pc_ofWord]
        rfl
      rw [← entered]
      cases stepped : (image.lift settings).step block state.index state.machine with
      | next after => exact hypothesis ((Program.reg_zero_of_step stepped).trans zero)
      | halted value after => rfl
      | faulted fault after => rfl
    · simp only [if_neg inside]

/-- Running a lifted image is interpreting its words: the result and the final machine are the
same, however the run ends. -/
theorem run_lift_eq_interpret (same : settings.base = image.base) {machine : Machine}
    (zero : machine.reg Reg.zero = 0) (limit : Nat) :
    (image.lift settings).run limit machine = run image settings.haltAddress limit machine :=
  runFrom_eq same limit limit zero

/-- Two instructions, `addi x1, x0, 5` and a jump back to it, run out of steps alike. -/
theorem run_lift_eq_interpret_loop :
    let image : Image := ⟨0x80000000, ⟨#[0x93, 0x00, 0x50, 0x00, 0x6f, 0xf0, 0xdf, 0xff]⟩⟩
    let machine := Machine.ofImage image
    Settings.base {} = image.base ∧ machine.reg Reg.zero = 0 ∧
      (image.lift {}).run 5 machine = run image (Settings.haltAddress {}) 5 machine :=
  ⟨rfl, rfl, run_lift_eq_interpret rfl rfl 5⟩

end Runs

end Isa

end RvLift
