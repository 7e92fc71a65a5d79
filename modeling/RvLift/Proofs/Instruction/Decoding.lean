import Mathlib
import RvLift.Proofs.Instruction.Encode

/-!
# Exactness of decoding

Decoding reads an instruction off a word exactly when the instruction is representable and its
standard word agrees with the word outside the ignored bits. So the standard words decode to their
instructions, and a word is refused exactly when it agrees with no standard word.
-/

namespace RvLift

open BitField

/-- Bits that encode an opcode are the bits of that opcode. -/
theorem Opcode.bits_of_ofBits? {bits : BitVec 7} {code : Opcode}
    (found : Opcode.ofBits? bits = some code) : code.bits = bits := by
  have matched := List.find?_some found
  exact eq_of_beq matched

/-- The function code of a branch reads back as its condition. -/
theorem Cond.ofFunct3?_funct3 (cond : Cond) : Cond.ofFunct3? cond.funct3 = some cond := by
  cases cond <;> rfl

/-- Only its own function code reads as a condition. -/
theorem Cond.funct3_of_ofFunct3? {code : BitVec 3} {cond : Cond} :
    Cond.ofFunct3? code = some cond → cond.funct3 = code := by
  revert code
  cases cond <;> decide

/-- The function code of a representable load reads back as its width and signedness. -/
theorem Width.ofLoadFunct3?_loadFunct3 {width : Width} {signed : Bool}
    (whole : width = .word → signed = true) :
    Width.ofLoadFunct3? (width.loadFunct3 signed) = some (width, signed) := by
  revert whole
  cases width <;> cases signed <;> decide

/-- Only its own function code reads as a load, and whole words read as signed. -/
theorem Width.loadFunct3_of_ofLoadFunct3? {code : BitVec 3} {width : Width} {signed : Bool} :
    Width.ofLoadFunct3? code = some (width, signed) →
      width.loadFunct3 signed = code ∧ (width = .word → signed = true) := by
  revert code
  cases width <;> cases signed <;> decide

/-- The function code of a store reads back as its width. -/
theorem Width.ofStoreFunct3?_storeFunct3 (width : Width) :
    Width.ofStoreFunct3? width.storeFunct3 = some width := by
  cases width <;> rfl

/-- Only its own function code reads as a store of a width. -/
theorem Width.storeFunct3_of_ofStoreFunct3? {code : BitVec 3} {width : Width} :
    Width.ofStoreFunct3? code = some width → width.storeFunct3 = code := by
  revert code
  cases width <;> decide

/-- The function code of a multiplication or division reads back as this operation. -/
theorem MulDivOp.ofFunct3_funct3 (op : MulDivOp) : MulDivOp.ofFunct3 op.funct3 = op := by
  cases op <;> rfl

/-- Every function code is that of a multiplication or division. -/
theorem MulDivOp.funct3_ofFunct3 : ∀ code, (MulDivOp.ofFunct3 code).funct3 = code := by
  decide

/-- The function codes of an arithmetic operation read back as this operation, the upper one
deciding both alternatives. -/
theorem AluOp.ofFunct3_funct3 (op : AluOp) :
    AluOp.ofFunct3 op.funct3 (op.funct7.getLsbD 5) (op.funct7.getLsbD 5) = op := by
  cases op <;> rfl

/-- The operation that a function code is read as has this code, whatever is chosen besides. -/
theorem AluOp.funct3_ofFunct3 :
    ∀ code subtract arithmetic, (AluOp.ofFunct3 code subtract arithmetic).funct3 = code := by
  decide

/-- Bit 5 of the upper function code tells subtraction and the arithmetic right shift apart from
their alternatives. -/
theorem AluOp.funct7_ofFunct3 (code : BitVec 3) (alternate : Bool)
    (matters : code = 0b000 ∨ code = 0b101) :
    (AluOp.ofFunct3 code alternate alternate).funct7.getLsbD 5 = alternate := by
  obtain rfl | rfl := matters
  · cases alternate <;> rfl
  · cases alternate <;> rfl

/-- Bit 0 of the upper function code is clear in every arithmetic or logic operation. -/
theorem AluOp.funct7_even (op : AluOp) : op.funct7.getLsbD 0 = false := by
  cases op <;> rfl

/-- There is no immediate subtraction. -/
theorem AluOp.ofFunct3_ne_sub :
    ∀ code arithmetic, AluOp.ofFunct3 code false arithmetic ≠ .sub := by
  decide

/-- The two right shifts differ by the alternate bit. -/
theorem AluOp.ofFunct3_right_shift : ∀ code arithmetic,
    (AluOp.ofFunct3 code false arithmetic = .srl → arithmetic = false) ∧
      (AluOp.ofFunct3 code false arithmetic = .sra → arithmetic = true) := by
  decide

/-- Only addition and the logical right shift have alternates. -/
theorem AluOp.ofFunct3_congr (code : BitVec 3) (first second : Bool)
    (same : code = 0b000 ∨ code = 0b101 → first = second) :
    AluOp.ofFunct3 code first first = AluOp.ofFunct3 code second second := by
  revert code first second
  decide

namespace Instruction

section Standard

variable (code : Opcode) (funct7 : BitVec 7) (funct : BitVec 3) (target first second : Reg)

/-- The second source register of the register-register format. -/
theorem rs2_formatR : rs2 (formatR code funct7 funct target first second) = second := by
  rw [formatR, rs2_layout]
  exact congrArg Reg.mk BitVec.extractLsb'_append_eq_right

/-- The second source register of the store format. -/
theorem rs2_formatS (imm : Word) : rs2 (formatS code funct first second imm) = second := by
  rw [formatS, rs2_layout]
  exact congrArg Reg.mk BitVec.extractLsb'_append_eq_right

/-- The second source register of the branch format. -/
theorem rs2_formatB (imm : Word) : rs2 (formatB code funct first second imm) = second := by
  rw [formatB, rs2_layout]
  exact congrArg Reg.mk BitVec.extractLsb'_append_eq_right

/-- Bit 25 of the register-register format is bit 0 of the upper function code. -/
theorem isMulDiv_formatR :
    isMulDiv (formatR code funct7 funct target first second) = funct7.getLsbD 0 := by
  rw [formatR, isMulDiv_layout, BitVec.getLsbD_append]
  rfl

/-- Bit 30 of the register-register format is bit 5 of the upper function code. -/
theorem isAlternate_formatR :
    isAlternate (formatR code funct7 funct target first second) = funct7.getLsbD 5 := by
  rw [formatR, isAlternate_layout, BitVec.getLsbD_append]
  rfl

end Standard

/-- The standard word of a representable instruction decodes to it. -/
theorem decode_encode {instruction : Instruction} (valid : instruction.Valid) (pc : Word) :
    decode instruction.encode pc = .ok instruction := by
  cases instruction with
  | lui rd imm =>
    have immediate := immU_formatU .lui rd valid
    unfold formatU at immediate
    simp [decode, encode, formatU, Opcode.ofBits?_bits, immediate]
  | auipc rd imm =>
    have immediate := immU_formatU .auipc rd valid
    unfold formatU at immediate
    simp [decode, encode, formatU, Opcode.ofBits?_bits, immediate]
  | jal rd offset =>
    have immediate := immJ_formatJ .jal rd valid.1 valid.2
    unfold formatJ at immediate
    simp [decode, encode, formatJ, Opcode.ofBits?_bits, immediate]
  | jalr rd rs1 offset =>
    have immediate := Word.signExtend_low 11 (by decide) valid
    simp [decode, encode, formatI, Opcode.ofBits?_bits, immediate]
  | branch cond rs1 rs2 offset =>
    have immediate := immB_formatB .branch cond.funct3 rs1 rs2 valid.1 valid.2
    have second := rs2_formatB .branch cond.funct3 rs1 rs2 offset
    unfold formatB at immediate second
    simp [decode, encode, formatB, Opcode.ofBits?_bits, Cond.ofFunct3?_funct3, immediate, second]
  | load width signed rd rs1 offset =>
    have immediate := Word.signExtend_low 11 (by decide) valid.1
    have code := Width.ofLoadFunct3?_loadFunct3 valid.2
    simp [decode, encode, formatI, Opcode.ofBits?_bits, code, immediate]
  | store width rs1 rs2 offset =>
    have immediate := immS_formatS .store width.storeFunct3 rs1 rs2 valid
    have second := rs2_formatS .store width.storeFunct3 rs1 rs2 offset
    unfold formatS at immediate second
    simp [decode, encode, formatS, Opcode.ofBits?_bits, Width.ofStoreFunct3?_storeFunct3,
      immediate, second]
  | alu op rd rs1 source =>
    cases source with
    | reg rs2 =>
      have second := rs2_formatR .op op.funct7 op.funct3 rd rs1 rs2
      have base := isMulDiv_formatR .op op.funct7 op.funct3 rd rs1 rs2
      have alternate := isAlternate_formatR .op op.funct7 op.funct3 rd rs1 rs2
      unfold formatR at second base alternate
      simp only [decode, encode, formatR, opcode_layout, Opcode.ofBits?_bits, decodeRegister, base,
        AluOp.funct7_even, alternate, second, funct3_layout, AluOp.ofFunct3_funct3, rd_layout,
        rs1_layout, Bool.false_eq_true, ↓reduceIte]
    | imm value =>
      obtain ⟨range, noSub, logical, arithmetic⟩ := valid
      have immediate := Word.signExtend_low 11 (by decide) range
      have alternate : isAlternate (formatI .opImm op.funct3 rd rs1 value) = value.getLsbD 10 := by
        rw [formatI, isAlternate_layout, BitVec.getLsbD_extractLsb']
        rfl
      have operation : AluOp.ofFunct3 op.funct3 false (value.getLsbD 10) = op := by
        cases op <;> simp_all [AluOp.ofFunct3, AluOp.funct3]
      unfold formatI at alternate
      simp only [decode, encode, formatI, opcode_layout, Opcode.ofBits?_bits, decodeImmediate,
        alternate, funct3_layout, operation, rd_layout, rs1_layout, immI_layout, immediate]
  | mulDiv op rd rs1 rs2 =>
    have second := rs2_formatR .op 0b0000001 op.funct3 rd rs1 rs2
    have marked := isMulDiv_formatR .op 0b0000001 op.funct3 rd rs1 rs2
    unfold formatR at second marked
    simp only [decode, encode, formatR, opcode_layout, Opcode.ofBits?_bits, decodeRegister, marked,
      second, funct3_layout, MulDivOp.ofFunct3_funct3, rd_layout, rs1_layout]
    rfl
  | fence => rfl

/-- The opcode is never ignored. -/
theorem not_ignores_of_lt {word : Word} {position : Nat} (low : position < 7) :
    ¬Ignores word position := by
  unfold Ignores
  split
  · omega
  · omega
  · omega
  · exact id

/-- Agreeing words have the same pieces outside the ignored bits. -/
theorem Agrees.extractLsb'_eq {word other : Word} (agrees : Agrees word other)
    {start length : Nat} (bound : start + length ≤ 32)
    (kept : ∀ position, start ≤ position → position < start + length → ¬Ignores word position) :
    other.extractLsb' start length = word.extractLsb' start length := by
  ext position inside
  rw [BitVec.getElem_extractLsb', BitVec.getElem_extractLsb']
  exact agrees _ (by omega) (kept _ (by omega) (by omega))

/-- A word agrees with itself. -/
theorem Agrees.of_eq {word other : Word} (same : other = word) : Agrees word other :=
  fun _ _ _ => by rw [same]

/-- A word without ignored bits agrees with itself only. -/
theorem Agrees.eq {word other : Word} (agrees : Agrees word other)
    (none : ∀ position, ¬Ignores word position) : other = word := by
  apply BitVec.eq_of_getLsbD_eq
  intro position inside
  exact agrees position inside (none position)

/-- Agreeing words have the same opcode, as none of its bits is ignored. -/
theorem Agrees.opcode_eq {word other : Word} (agrees : Agrees word other) :
    opcode other = opcode word :=
  agrees.extractLsb'_eq (by decide) fun _ _ below => not_ignores_of_lt below

/-- Register operations that agree are the same instruction. -/
theorem Agrees.decodeRegister_eq {word other : Word} (agrees : Agrees word other)
    (found : Opcode.ofBits? (opcode word) = some .op) :
    decodeRegister other = decodeRegister word := by
  have kept : ∀ {start length : Nat}, start + length ≤ 25 →
      other.extractLsb' start length = word.extractLsb' start length := fun bound =>
    agrees.extractLsb'_eq (by omega) (by simp only [Ignores, found]; omega)
  have code : funct3 other = funct3 word := kept (by decide)
  have target : rd other = rd word := congrArg Reg.mk (kept (by decide))
  have first : rs1 other = rs1 word := congrArg Reg.mk (kept (by decide))
  have second : rs2 other = rs2 word := congrArg Reg.mk (kept (by decide))
  have marked : isMulDiv other = isMulDiv word :=
    agrees 25 (by decide) (by simp only [Ignores, found]; omega)
  unfold decodeRegister
  rw [code, target, first, second, marked]
  cases base : isMulDiv word with
  | true => rfl
  | false =>
    have alternate : funct3 word = 0b000 ∨ funct3 word = 0b101 →
        isAlternate other = isAlternate word := fun matters =>
      agrees 30 (by decide) (by
        simp only [Ignores, found]
        exact fun ignored => ignored.2 ⟨trivial, base, matters⟩)
    rw [AluOp.ofFunct3_congr _ _ _ alternate]

/-- Decoding does not depend on the ignored bits. -/
theorem decode_of_agrees {word other pc : Word} {instruction : Instruction}
    (agrees : Agrees word other) (decoded : decode other pc = .ok instruction) :
    decode word pc = .ok instruction := by
  have same := agrees.opcode_eq
  cases found : Opcode.ofBits? (opcode word) with
  | none =>
    rw [decode, same, found] at decoded
    contradiction
  | some code =>
    by_cases complete : ∀ position, ¬Ignores word position
    · rw [← agrees.eq complete]
      exact decoded
    · have kept : ∀ {start length : Nat}, start + length ≤ 32 →
          (∀ position, start ≤ position → position < start + length → ¬Ignores word position) →
          other.extractLsb' start length = word.extractLsb' start length :=
        agrees.extractLsb'_eq
      cases code with
      | jalr =>
        have target : rd other = rd word :=
          congrArg Reg.mk (kept (by decide) (by simp only [Ignores, found]; omega))
        have first : rs1 other = rs1 word :=
          congrArg Reg.mk (kept (by decide) (by simp only [Ignores, found]; omega))
        have immediate : immI other = immI word :=
          congrArg (BitVec.signExtend 32) (kept (by decide) (by simp only [Ignores, found]; omega))
        simp only [decode, same, found, target, first, immediate] at decoded
        simp only [decode, found, decoded]
      | miscMem =>
        simp only [decode, same, found] at decoded
        simp only [decode, found, decoded]
      | op =>
        simp only [decode, same, found, agrees.decodeRegister_eq found] at decoded
        simp only [decode, found, decoded]
      | _ => exact absurd (fun position => by simp [Ignores, found]) complete

/-- A register-register word that repeats the fields of a word and the significant bits of its
upper function code agrees with it. -/
theorem agrees_formatR {word : Word} (found : Opcode.ofBits? (opcode word) = some .op)
    {funct7 : BitVec 7} (marked : funct7.getLsbD 0 = isMulDiv word)
    (alternate : isMulDiv word = false → funct3 word = 0b000 ∨ funct3 word = 0b101 →
      funct7.getLsbD 5 = isAlternate word) :
    Agrees word (formatR .op funct7 (funct3 word) (rd word) (rs1 word) (rs2 word)) := by
  intro position inside kept
  simp only [Ignores, found] at kept
  unfold formatR layout rd rs1 rs2 funct3
  rw [Opcode.bits_of_ofBits? found]
  unfold opcode
  by_cases low : position < 25
  · grind
  · by_cases mark : position = 25
    · subst mark
      rw [isMulDiv] at marked
      grind
    · have place : position = 30 ∧ isMulDiv word = false ∧
          (funct3 word = 0b000 ∨ funct3 word = 0b101) :=
        Classical.byContradiction fun absent => kept ⟨by omega, absent⟩
      obtain ⟨rfl, base, matters⟩ := place
      have bit := alternate base matters
      rw [isAlternate] at bit
      grind

/-- The instruction of a register operation agrees with its word. -/
theorem agrees_encode_decodeRegister {word : Word}
    (found : Opcode.ofBits? (opcode word) = some .op) :
    Agrees word (decodeRegister word).encode := by
  unfold decodeRegister
  cases base : isMulDiv word with
  | true =>
    simp only [↓reduceIte, encode, MulDivOp.funct3_ofFunct3]
    exact agrees_formatR found base.symm (by simp [base])
  | false =>
    simp only [Bool.false_eq_true, ↓reduceIte, encode, AluOp.funct3_ofFunct3]
    apply agrees_formatR found
    · rw [AluOp.funct7_even, base]
    · intro _ matters
      exact AluOp.funct7_ofFunct3 _ _ matters

/-- The upper immediate of a word has its low bits clear. -/
theorem extractLsb'_immU (word : Word) : (immU word).extractLsb' 0 12 = 0#12 :=
  BitVec.extractLsb'_append_eq_right

/-- The immediate of stores is in range. -/
theorem within_immS (word : Word) : (immS word).Within (-2048) 2047 :=
  Word.within_signExtend _ (by decide)

/-- The immediate of register-immediate operations is in range. -/
theorem within_immI (word : Word) : (immI word).Within (-2048) 2047 :=
  Word.within_signExtend _ (by decide)

/-- The immediate of branches is even and in range. -/
theorem even_within_immB (word : Word) :
    (immB word).Even ∧ (immB word).Within (-4096) 4094 := by
  have even : (immB word).Even := Word.even_signExtend_append_zero _
  have range : (immB word).Within (-4096) 4095 := Word.within_signExtend _ (by decide)
  exact ⟨even, even.within (by decide) range⟩

/-- The immediate of relative jumps is even and in range. -/
theorem even_within_immJ (word : Word) :
    (immJ word).Even ∧ (immJ word).Within (-2 ^ 20) (2 ^ 20 - 2) := by
  have even : (immJ word).Even := Word.even_signExtend_append_zero _
  have range : (immJ word).Within (-2 ^ 20) (2 ^ 20 - 1) := Word.within_signExtend _ (by decide)
  exact ⟨even, even.within (by decide) range⟩

/-- Bit 10 of the immediate of register-immediate operations is bit 30 of the word. -/
theorem getLsbD_immI (word : Word) : (immI word).getLsbD 10 = isAlternate word := by
  unfold immI isAlternate
  grind

/-- An indirect jump agrees with its word whatever the function code of the word. -/
theorem agrees_encode_jalr {word : Word} (found : Opcode.ofBits? (opcode word) = some .jalr) :
    Agrees word (Instruction.jalr (rd word) (rs1 word) (immI word)).encode := by
  intro position inside kept
  have own := formatI_fields (Opcode.bits_of_ofBits? found)
  simp only [Ignores, found] at kept
  conv =>
    rhs
    rw [← own]
  unfold encode formatI layout
  grind

/-- A fence agrees with every word of its opcode. -/
theorem agrees_encode_fence {word : Word} (found : Opcode.ofBits? (opcode word) = some .miscMem) :
    Agrees word Instruction.fence.encode := by
  intro position inside kept
  simp only [Ignores, found] at kept
  unfold encode
  rw [Opcode.bits_of_ofBits? found]
  unfold opcode
  grind

/-- Register-immediate operations are representable: none of them subtracts, and bit 10 of the
immediate is the one that tells the right shifts apart. -/
theorem valid_decodeImmediate (word : Word) : (decodeImmediate word).Valid := by
  refine ⟨within_immI word, AluOp.ofFunct3_ne_sub _ _, ?_, ?_⟩
  · rw [getLsbD_immI]
    exact (AluOp.ofFunct3_right_shift _ _).1
  · rw [getLsbD_immI]
    exact (AluOp.ofFunct3_right_shift _ _).2

/-- Register operations are representable, as they have no immediate. -/
theorem valid_decodeRegister (word : Word) : (decodeRegister word).Valid := by
  unfold decodeRegister
  split <;> trivial

/-- The instruction read off a word is representable, and its standard word agrees with the
word. -/
theorem valid_agrees_of_decode {word pc : Word} {instruction : Instruction}
    (decoded : decode word pc = .ok instruction) :
    instruction.Valid ∧ Agrees word instruction.encode := by
  unfold decode at decoded
  cases found : Opcode.ofBits? (opcode word) with
  | none =>
    rw [found] at decoded
    cases decoded
  | some code =>
    have bits := Opcode.bits_of_ofBits? found
    rw [found] at decoded
    cases code with
    | lui =>
      cases decoded
      exact ⟨extractLsb'_immU word, .of_eq (formatU_fields bits)⟩
    | auipc =>
      cases decoded
      exact ⟨extractLsb'_immU word, .of_eq (formatU_fields bits)⟩
    | jal =>
      cases decoded
      exact ⟨even_within_immJ word, .of_eq (formatJ_fields bits)⟩
    | jalr =>
      cases decoded
      exact ⟨within_immI word, agrees_encode_jalr found⟩
    | branch =>
      cases condition : Cond.ofFunct3? (funct3 word) with
      | none =>
        simp only [condition] at decoded
        cases decoded
      | some cond =>
        simp only [condition] at decoded
        cases decoded
        refine ⟨even_within_immB word, .of_eq ?_⟩
        rw [encode, Cond.funct3_of_ofFunct3? condition, formatB_fields bits]
    | load =>
      cases access : Width.ofLoadFunct3? (funct3 word) with
      | none =>
        simp only [access] at decoded
        cases decoded
      | some shape =>
        obtain ⟨width, signed⟩ := shape
        simp only [access] at decoded
        cases decoded
        obtain ⟨code, whole⟩ := Width.loadFunct3_of_ofLoadFunct3? access
        refine ⟨⟨within_immI word, whole⟩, .of_eq ?_⟩
        rw [encode, code, formatI_fields bits]
    | store =>
      cases access : Width.ofStoreFunct3? (funct3 word) with
      | none =>
        simp only [access] at decoded
        cases decoded
      | some width =>
        simp only [access] at decoded
        cases decoded
        refine ⟨within_immS word, .of_eq ?_⟩
        rw [encode, Width.storeFunct3_of_ofStoreFunct3? access, formatS_fields bits]
    | opImm =>
      cases decoded
      refine ⟨valid_decodeImmediate word, .of_eq ?_⟩
      rw [decodeImmediate, encode, AluOp.funct3_ofFunct3, formatI_fields bits]
    | op =>
      cases decoded
      exact ⟨valid_decodeRegister word, agrees_encode_decodeRegister found⟩
    | miscMem =>
      cases decoded
      exact ⟨trivial, agrees_encode_fence found⟩

/-- A word decodes to an instruction exactly when the instruction is representable and its
standard word agrees with the word. -/
theorem decode_eq_ok_iff {word pc : Word} {instruction : Instruction} :
    decode word pc = .ok instruction ↔ instruction.Valid ∧ Agrees word instruction.encode :=
  ⟨valid_agrees_of_decode, fun both => decode_of_agrees both.2 (decode_encode both.1 pc)⟩

/-- Decoding inverts encoding up to the ignored bits: standard words of representable instructions
decode to them, every instruction read is representable and agrees with its word, and a word is
refused exactly when it agrees with the standard word of no representable instruction. -/
theorem decode_inverts_encode (pc : Word) :
    (∀ instruction : Instruction, instruction.Valid →
      decode instruction.encode pc = .ok instruction) ∧
    (∀ word instruction, decode word pc = .ok instruction →
      instruction.Valid ∧ Agrees word instruction.encode) ∧
    (∀ word, (∃ error, decode word pc = .error error) ↔
      ¬∃ instruction : Instruction, instruction.Valid ∧ Agrees word instruction.encode) := by
  refine ⟨fun _ valid => decode_encode valid pc, fun _ _ => valid_agrees_of_decode, fun word => ?_⟩
  constructor
  · rintro ⟨error, refused⟩ ⟨instruction, represented⟩
    rw [decode_eq_ok_iff.2 represented] at refused
    contradiction
  · intro absent
    cases decoded : decode word pc with
    | error error => exact ⟨error, rfl⟩
    | ok instruction => exact absurd ⟨instruction, decode_eq_ok_iff.1 decoded⟩ absent

/-- The immediate arithmetic shift of `x6` by 3 is representable and read off its standard word;
a computed jump with a stray function code is read too and agrees with its standard word. -/
theorem decode_inverts_encode_shift_and_jump :
    (Instruction.alu .sra ⟨5⟩ ⟨6⟩ (.imm 0x403)).Valid ∧
      decode (Instruction.alu .sra ⟨5⟩ ⟨6⟩ (.imm 0x403)).encode 0 =
        .ok (.alu .sra ⟨5⟩ ⟨6⟩ (.imm 0x403)) ∧
      decode 0x0040f0e7 0 = .ok (.jalr ⟨1⟩ ⟨1⟩ 4) ∧
      Agrees 0x0040f0e7 (Instruction.jalr ⟨1⟩ ⟨1⟩ 4).encode := by
  have valid : (Instruction.alu .sra ⟨5⟩ ⟨6⟩ (.imm 0x403)).Valid :=
    ⟨⟨by decide, by decide⟩, by decide, by decide, by decide⟩
  have decoded : decode 0x0040f0e7 0 = .ok (.jalr ⟨1⟩ ⟨1⟩ 4) := rfl
  exact ⟨valid, (decode_inverts_encode 0).1 _ valid, decoded,
    ((decode_inverts_encode 0).2.1 _ _ decoded).2⟩

end Instruction

end RvLift
