import Mathlib
import RvLift.Proofs.Block.Effect

/-!
# Relocation

What moving an image in the address space does to the program lifted from it. Labels, targets and
the addresses in findings move along, and so do the constants that stand for addresses: return
addresses, sums with the address of the instruction, and the start of guest memory in loads and
stores. Immediates, operands and the shape of every block stay.

Lifting the moved image gives the moved program, whether or not one of them wraps past the top of
the address space.
-/

namespace RvLift

/-- An image at another place. -/
def Image.relocate (distance : Word) (image : Image) : Image :=
  { image with base := image.base + distance }

/-- Settings for guest memory at another place. -/
def Settings.relocate (distance : Word) (settings : Settings) : Settings :=
  { settings with base := settings.base + distance }

/-- The label of a block at another place. -/
def Label.relocate (distance : Word) (label : Label) : Label := ⟨label.address + distance⟩

/-- A jump table over words at another place. -/
def JumpTable.relocate (distance : Word) (table : JumpTable) : JumpTable :=
  { table with base := table.base + distance }

/-- A decoding error at another place. -/
def DecodeError.relocate (distance : Word) : DecodeError → DecodeError
  | .unknownOpcode pc word opcode => .unknownOpcode (pc + distance) word opcode
  | .unknownFunct pc word opcode funct3 => .unknownFunct (pc + distance) word opcode funct3

/-- What is wrong with a word, at another place. -/
def Reason.relocate (distance : Word) : Reason → Reason
  | .unsupported error => .unsupported (error.relocate distance)
  | .targetOutside target => .targetOutside (target + distance)

/-- A finding at another place. -/
def Diagnostic.relocate (distance : Word) (diagnostic : Diagnostic) : Diagnostic where
  pc := diagnostic.pc + distance
  reason := diagnostic.reason.relocate distance

/-- An offset from the start of guest memory, which is at another place. -/
def Expr.relocateOffset (distance : Word) : Expr → Expr
  | .alu .sub address (.imm base) => .alu .sub address (.imm (base + distance))
  | expr => expr

/-- The result of an instruction at another place: an address that is counted from the instruction
moves along, and so does the start of guest memory in a load. -/
def Expr.relocateResult (distance : Word) (instruction : Instruction) (value : Expr) : Expr :=
  match instruction, value with
  | .auipc .., .imm address | .jal .., .imm address | .jalr .., .imm address =>
    .imm (address + distance)
  | .load .., .load width signed offset => .load width signed (offset.relocateOffset distance)
  | _, value => value

/-- A statement of an instruction at another place. -/
def Stmt.relocate (distance : Word) (instruction : Instruction) : Stmt → Stmt
  | .define .rval value => .define .rval (value.relocateResult distance instruction)
  | stmt => stmt

/-- A terminator at another place. -/
def Terminator.relocate (distance : Word) : Terminator → Terminator
  | .jump target => .jump (target.relocate distance)
  | .branch cond left right target => .branch cond left right (target.relocate distance)
  | .haltOrStore width address offset value =>
    .haltOrStore width address (offset.relocateOffset distance) value
  | .fallthrough => .fallthrough
  | .dispatch target => .dispatch target

/-- A block at another place. -/
def Block.relocate (distance : Word) (block : Block) : Block where
  label := block.label.relocate distance
  word := block.word
  instruction := block.instruction.mapError (DecodeError.relocate distance)
  stmts :=
    match block.instruction with
    | .ok instruction => block.stmts.map (Stmt.relocate distance instruction)
    | .error _ => block.stmts
  terminator := block.terminator.relocate distance

/-- A program at another place. -/
def Program.relocate (distance : Word) (program : Program) : Program where
  base := program.base + distance
  haltAddress := program.haltAddress
  table := program.table.relocate distance
  blocks := program.blocks.map (Block.relocate distance)
  diagnostics := ⟨program.diagnostics.entries.map (Diagnostic.relocate distance)⟩

section Addresses

variable (distance : Word)

/-- The words of a moved region have moved. -/
theorem Word.address_relocate (base : Word) (index : Nat) :
    address (base + distance) index = address base index + distance := by
  rw [address, address, add_right_comm]

/-- Moving a table and an address along with it resolves to the moved label. -/
theorem JumpTable.lookup?_relocate (table : JumpTable) (address : Word) :
    (table.relocate distance).lookup? (address + distance) =
      (table.lookup? address).map (Label.relocate distance) := by
  have same : address + distance - (table.base + distance) = address - table.base :=
    add_sub_add_right_eq_sub ..
  simp only [lookup?, relocate, same]
  split <;> rfl

/-- A moved address leads to the block at the same position. -/
theorem Program.blockIndex?_relocate (program : Program) (address : Word) :
    (program.relocate distance).blockIndex? (address + distance) = program.blockIndex? address := by
  have same (label : Label) : (label.relocate distance).address - (program.base + distance) =
      label.address - program.base := add_sub_add_right_eq_sub ..
  have table : (program.relocate distance).table = program.table.relocate distance := rfl
  rw [blockIndex?, blockIndex?, table, JumpTable.lookup?_relocate, Option.map_map]
  congr
  funext label
  exact congrArg (fun offset : Word => offset.toNat / 4) (same label)

end Addresses

namespace Instruction

variable (distance : Word)

/-- Decoding at another place differs in the address of errors only. -/
theorem decode_relocate (word pc : Word) :
    decode word (pc + distance) = (decode word pc).mapError (DecodeError.relocate distance) := by
  simp only [decode]
  cases Opcode.ofBits? (BitField.opcode word) with
  | none => rfl
  | some opcode =>
    cases opcode with
    | branch => cases Cond.ofFunct3? (BitField.funct3 word) <;> rfl
    | load => cases Width.ofLoadFunct3? (BitField.funct3 word) <;> rfl
    | store => cases Width.ofStoreFunct3? (BitField.funct3 word) <;> rfl
    | lui | auipc | jal | jalr | opImm | op | miscMem => rfl

/-- Of the statements that compute a result, the first one moves. -/
theorem result_relocate (instruction : Instruction) (rd : Reg) (value : Expr) :
    (result rd value).map (Stmt.relocate distance instruction) =
      result rd (value.relocateResult distance instruction) := by
  by_cases dropped : rd = Reg.zero
  · simp only [result, if_pos dropped]
    rfl
  · simp only [result, if_neg dropped]
    rfl

/-- The statements of an instruction at another place. -/
theorem stmts_relocate (settings : Settings) (pc : Word) (instruction : Instruction) :
    instruction.stmts (settings.relocate distance) (pc + distance) =
      (instruction.stmts settings pc).map (Stmt.relocate distance instruction) := by
  have link : pc + distance + 4 = pc + 4 + distance := add_right_comm ..
  cases instruction with
  | lui rd imm =>
    rw [stmts, stmts, result_relocate]
    rfl
  | auipc rd imm =>
    have sum : pc + distance + imm = pc + imm + distance := add_right_comm ..
    rw [stmts, stmts, result_relocate, sum]
    rfl
  | jal rd offset =>
    rw [stmts, stmts, result_relocate, link]
    rfl
  | jalr rd rs1 offset =>
    rw [stmts, stmts, List.map_cons, result_relocate, link]
    rfl
  | branch cond rs1 rs2 offset => rfl
  | load width signed rd rs1 offset =>
    rw [stmts, stmts, List.map_cons, List.map_cons, result_relocate]
    rfl
  | store width rs1 rs2 offset => rfl
  | alu op rd rs1 source =>
    rw [stmts, stmts, List.map_cons, List.map_cons, result_relocate]
    rfl
  | mulDiv op rd rs1 rs2 =>
    rw [stmts, stmts, List.map_cons, List.map_cons, result_relocate]
    rfl
  | fence => rfl

/-- Where control goes after an instruction at another place. -/
theorem terminator_relocate (settings : Settings) (pc : Word) (instruction : Instruction) :
    instruction.terminator (settings.relocate distance) (pc + distance) =
      (instruction.terminator settings pc).relocate distance := by
  have moved (offset : Word) : pc + distance + offset = pc + offset + distance :=
    add_right_comm ..
  cases instruction with
  | jal rd offset => exact congrArg (fun target => Terminator.jump ⟨target⟩) (moved offset)
  | branch cond rs1 rs2 offset =>
    exact congrArg (fun target => Terminator.branch cond (.temp .rs1) (.temp .rs2) ⟨target⟩)
      (moved offset)
  | lui | auipc | jalr | load | store | alu | mulDiv | fence => rfl

end Instruction

namespace Block

variable (distance : Word)

/-- The block of a word at another place. -/
theorem ofWord_relocate (settings : Settings) (pc word : Word) :
    ofWord (settings.relocate distance) (pc + distance) word =
      (ofWord settings pc word).relocate distance := by
  unfold ofWord
  rw [Instruction.decode_relocate]
  cases Instruction.decode word pc with
  | error error => rfl
  | ok instruction =>
    simp only [Except.mapError, ofInstruction, relocate, Instruction.stmts_relocate,
      Instruction.terminator_relocate]
    rfl

/-- The finding about a moved block is the moved finding. -/
theorem diagnostic?_relocate (table : JumpTable) (block : Block) :
    (block.relocate distance).diagnostic? (table.relocate distance) =
      (block.diagnostic? table).map (Diagnostic.relocate distance) := by
  have target (terminator : Terminator) : (terminator.relocate distance).staticTarget? =
      terminator.staticTarget?.map (Label.relocate distance) := by
    cases terminator <;> rfl
  obtain ⟨label, word, instruction, stmts, terminator⟩ := block
  cases instruction with
  | error error => rfl
  | ok instruction =>
    simp only [diagnostic?, relocate, Except.mapError, target]
    cases terminator.staticTarget? with
    | none => rfl
    | some label =>
      simp only [Option.map_some, Label.relocate, JumpTable.lookup?_relocate]
      cases table.lookup? label.address <;> rfl

end Block

namespace Image

/-- The words of a moved image are the same, at moved addresses. -/
theorem words_relocate (distance : Word) (image : Image) :
    (image.relocate distance).words =
      image.words.map fun (pc, word) => (pc + distance, word) := by
  have word (index : Nat) : (image.relocate distance).word index = image.word index := rfl
  have base : (image.relocate distance).base = image.base + distance := rfl
  have count : (image.relocate distance).wordCount = image.wordCount := rfl
  simp only [words, word, base, count, Word.address_relocate, List.map_map]
  rfl

/-- The blocks of a moved image are the moved blocks. -/
theorem blocks_relocate (distance : Word) (image : Image) (settings : Settings) :
    (image.relocate distance).blocks (settings.relocate distance) =
      (image.blocks settings).map (Block.relocate distance) := by
  simp only [blocks, words_relocate, List.map_map, Function.comp_def, Block.ofWord_relocate]

/-- Lifting commutes with relocation. The program of an image that has been moved by a distance,
together with the start of guest memory, is the program of the image moved by that distance, and a
moved address leads to the same position in it as the address did before. All sums wrap. -/
theorem lift_relocate (image : Image) (settings : Settings) (distance : Word) :
    (image.relocate distance).lift (settings.relocate distance) =
        (image.lift settings).relocate distance ∧
      ∀ address,
        ((image.relocate distance).lift (settings.relocate distance)).blockIndex?
            (address + distance) =
          (image.lift settings).blockIndex? address := by
  have moved : (image.relocate distance).lift (settings.relocate distance) =
      (image.lift settings).relocate distance := by
    have findings : ((image.blocks settings).map (Block.relocate distance)).filterMap
          (Block.diagnostic? (image.jumpTable.relocate distance)) =
        ((image.blocks settings).filterMap (Block.diagnostic? image.jumpTable)).map
          (Diagnostic.relocate distance) := by
      rw [List.filterMap_map, List.map_filterMap]
      congr
      funext block
      exact block.diagnostic?_relocate distance image.jumpTable
    have table : (image.relocate distance).jumpTable = image.jumpTable.relocate distance := rfl
    simp only [lift, Program.relocate, blocks_relocate, table, findings, List.map_toArray]
    rfl
  refine ⟨moved, fun address => ?_⟩
  rw [moved]
  exact (image.lift settings).blockIndex?_relocate distance address

end Image

end RvLift
