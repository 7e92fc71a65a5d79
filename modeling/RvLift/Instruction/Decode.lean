import RvLift.Instruction.Basic
import RvLift.Instruction.BitField

/-!
# Decoding

The instruction that a word encodes. Bits that the formats leave open are ignored: the function
code of a computed jump, everything but the opcode of a memory ordering hint, and the bits of the
upper function code other than 25 and 30. Every other encoding is refused with the opcode or
function code at fault.
-/

namespace RvLift

/-- The major opcodes of RV32IM. -/
inductive Opcode where
  | lui | auipc | jal | jalr | branch | load | store | opImm | op | miscMem
  deriving DecidableEq, Repr

namespace Opcode

/-- Every major opcode. -/
def all : List Opcode :=
  [.lui, .auipc, .jal, .jalr, .branch, .load, .store, .opImm, .op, .miscMem]

/-- The seven bits that encode an opcode. -/
def bits : Opcode → BitVec 7
  | .lui => 0b0110111
  | .auipc => 0b0010111
  | .jal => 0b1101111
  | .jalr => 0b1100111
  | .branch => 0b1100011
  | .load => 0b0000011
  | .store => 0b0100011
  | .opImm => 0b0010011
  | .op => 0b0110011
  | .miscMem => 0b0001111

/-- The opcode that seven bits encode. -/
def ofBits? (bits : BitVec 7) : Option Opcode :=
  all.find? (fun opcode => opcode.bits == bits)

/-- Encoding and decoding an opcode gives it back. -/
theorem ofBits?_bits (opcode : Opcode) : ofBits? opcode.bits = some opcode := by
  cases opcode <;> decide

end Opcode

/-- Why a word encodes no instruction. -/
inductive DecodeError where
  /-- The major opcode is not one of RV32IM. -/
  | unknownOpcode (pc word opcode : Word)
  /-- The major opcode has no instruction with this function code. -/
  | unknownFunct (pc word opcode funct3 : Word)
  deriving DecidableEq, Repr

/-- The wording of a decoding error. -/
def DecodeError.message : DecodeError → String
  | .unknownOpcode _ word opcode =>
    "unsupported opcode 0x" ++ Text.padded 16 2 opcode.toNat ++
      " (word " ++ Text.address word.toNat ++ ")"
  | .unknownFunct _ word opcode funct3 =>
    "unsupported funct3 0b" ++ Text.padded 2 3 funct3.toNat ++
      " for opcode 0x" ++ Text.padded 16 2 opcode.toNat ++
      " (word " ++ Text.address word.toNat ++ ")"

/-- The branch condition with a function code. -/
def Cond.ofFunct3? (funct3 : BitVec 3) : Option Cond :=
  match funct3 with
  | 0b000 => some .eq
  | 0b001 => some .ne
  | 0b100 => some .lt
  | 0b101 => some .ge
  | 0b110 => some .ltu
  | 0b111 => some .geu
  | _ => none

/-- The width and signedness of the load with a function code; whole words count as signed. -/
def Width.ofLoadFunct3? (funct3 : BitVec 3) : Option (Width × Bool) :=
  match funct3 with
  | 0b000 => some (.byte, true)
  | 0b001 => some (.half, true)
  | 0b010 => some (.word, true)
  | 0b100 => some (.byte, false)
  | 0b101 => some (.half, false)
  | _ => none

/-- The width of the store with a function code. -/
def Width.ofStoreFunct3? (funct3 : BitVec 3) : Option Width :=
  match funct3 with
  | 0b000 => some .byte
  | 0b001 => some .half
  | 0b010 => some .word
  | _ => none

/-- The multiplication or division with a function code. -/
def MulDivOp.ofFunct3 (funct3 : BitVec 3) : MulDivOp :=
  match funct3 with
  | 0b000 => .mul
  | 0b001 => .mulh
  | 0b010 => .mulhsu
  | 0b011 => .mulhu
  | 0b100 => .div
  | 0b101 => .divu
  | 0b110 => .rem
  | _ => .remu

/-- The arithmetic or logic operation with a function code. `subtract` selects the alternate of
addition and `arithmetic` the alternate of the logical right shift. -/
def AluOp.ofFunct3 (funct3 : BitVec 3) (subtract arithmetic : Bool) : AluOp :=
  match funct3 with
  | 0b000 => if subtract then .sub else .add
  | 0b001 => .sll
  | 0b010 => .slt
  | 0b011 => .sltu
  | 0b100 => .xor
  | 0b101 => if arithmetic then .sra else .srl
  | 0b110 => .or
  | _ => .and

namespace Instruction

open BitField

/-- The register-register instruction that a word encodes. -/
def decodeRegister (word : Word) : Instruction :=
  if isMulDiv word then .mulDiv (.ofFunct3 (funct3 word)) (rd word) (rs1 word) (rs2 word)
  else .alu (.ofFunct3 (funct3 word) (isAlternate word) (isAlternate word)) (rd word) (rs1 word)
    (.reg (rs2 word))

/-- The register-immediate instruction that a word encodes. There is no immediate subtraction: bit
30 belongs to the immediate, and of the operations only the right shift looks at it. -/
def decodeImmediate (word : Word) : Instruction :=
  .alu (.ofFunct3 (funct3 word) false (isAlternate word)) (rd word) (rs1 word) (.imm (immI word))

/-- The instruction that the word at address `pc` encodes. -/
def decode (word pc : Word) : Except DecodeError Instruction :=
  let unknownFunct : DecodeError :=
    .unknownFunct pc word ((opcode word).setWidth 32) ((funct3 word).setWidth 32)
  match Opcode.ofBits? (opcode word) with
  | none => .error (.unknownOpcode pc word ((opcode word).setWidth 32))
  | some .lui => .ok (.lui (rd word) (immU word))
  | some .auipc => .ok (.auipc (rd word) (immU word))
  | some .jal => .ok (.jal (rd word) (immJ word))
  | some .jalr => .ok (.jalr (rd word) (rs1 word) (immI word))
  | some .branch =>
    match Cond.ofFunct3? (funct3 word) with
    | none => .error unknownFunct
    | some cond => .ok (.branch cond (rs1 word) (rs2 word) (immB word))
  | some .load =>
    match Width.ofLoadFunct3? (funct3 word) with
    | none => .error unknownFunct
    | some (width, signed) => .ok (.load width signed (rd word) (rs1 word) (immI word))
  | some .store =>
    match Width.ofStoreFunct3? (funct3 word) with
    | none => .error unknownFunct
    | some width => .ok (.store width (rs1 word) (rs2 word) (immS word))
  | some .op => .ok (decodeRegister word)
  | some .opImm => .ok (decodeImmediate word)
  | some .miscMem => .ok .fence

end Instruction

end RvLift
