import Mathlib
import RvLift.Machine.Run
import RvLift.Proofs.Results

/-!
# The effect of an instruction

What the block of an instruction comes to, without its statements and temporaries: the machine
after the register write and the transfer of control, or the access outside memory. Entering a block
depends on its effect only.
-/

namespace RvLift

namespace Expr

/-- A constant has its own value. -/
@[simp] theorem eval_imm (machine : Machine) (temps : Temps) (value : Word) :
    (imm value).eval machine temps = .ok value := rfl

/-- A register has its value in the machine. -/
@[simp] theorem eval_reg (machine : Machine) (temps : Temps) (source : Reg) :
    (reg source).eval machine temps = .ok (machine.reg source) := rfl

/-- A temporary has the value it was given. -/
@[simp] theorem eval_temp (machine : Machine) (temps : Temps) (source : Temp) :
    (temp source).eval machine temps = .ok (temps source) := rfl

/-- An arithmetic operation has both operands evaluated, the left one first. -/
@[simp] theorem eval_alu (machine : Machine) (temps : Temps) (op : AluOp) (left right : Expr) :
    (alu op left right).eval machine temps = (do
      let leftValue ← left.eval machine temps
      let rightValue ← right.eval machine temps
      return op.apply leftValue rightValue) := rfl

/-- A multiplication or division has both operands evaluated, the left one first. -/
@[simp] theorem eval_mulDiv (machine : Machine) (temps : Temps) (op : MulDivOp)
    (left right : Expr) :
    (mulDiv op left right).eval machine temps = (do
      let leftValue ← left.eval machine temps
      let rightValue ← right.eval machine temps
      return op.apply leftValue rightValue) := rfl

/-- A load evaluates its offset, then reads memory, and then extends the sign where this is asked
for. -/
@[simp] theorem eval_load (machine : Machine) (temps : Temps) (width : Width) (signed : Bool)
    (offset : Expr) :
    (load width signed offset).eval machine temps = (do
      let start ← offset.eval machine temps
      let value ← machine.load ⟨start, width⟩
      return if signed then width.signExtend value else value) := rfl

end Expr

/-- A temporary has the value it was given last. -/
@[simp] theorem Temps.set_apply (temps : Temps) (temp other : Temp) (value : Word) :
    temps.set temp value other = if other = temp then value else temps other := rfl

namespace Instruction

/-- The value of the second operand of an arithmetic instruction. -/
def operand (machine : Machine) : Operand → Word
  | .reg source => machine.reg source
  | .imm value => value

/-- The machine after the register write of an instruction at address `pc`, and where control goes;
or the access outside memory that the instruction makes. -/
def effect (settings : Settings) (pc : Word) (machine : Machine) :
    Instruction → Except Access (Machine × Transfer)
  | .lui rd imm => .ok (machine.setReg rd imm, .next)
  | .auipc rd imm => .ok (machine.setReg rd (pc + imm), .next)
  | .jal rd offset => .ok (machine.setReg rd (pc + 4), .jump (pc + offset))
  | .jalr rd rs1 offset =>
    .ok (machine.setReg rd (pc + 4), .jump ((machine.reg rs1 + offset) &&& ~~~1))
  | .branch cond rs1 rs2 offset =>
    .ok (machine,
      if cond.holds (machine.reg rs1) (machine.reg rs2) then .jump (pc + offset) else .next)
  | .load width signed rd rs1 offset =>
    (machine.load ⟨machine.reg rs1 + offset - settings.base, width⟩).map fun value =>
      (machine.setReg rd (if signed then width.signExtend value else value), .next)
  | .store width rs1 rs2 offset =>
    .ok (machine,
      if machine.reg rs1 + offset = settings.haltAddress then .halt (machine.reg rs2)
      else .store ⟨machine.reg rs1 + offset - settings.base, width⟩ (machine.reg rs2))
  | .alu op rd rs1 source =>
    .ok (machine.setReg rd (op.apply (machine.reg rs1) (operand machine source)), .next)
  | .mulDiv op rd rs1 rs2 =>
    .ok (machine.setReg rd (op.apply (machine.reg rs1) (machine.reg rs2)), .next)
  | .fence => .ok (machine, .next)

end Instruction

namespace Block

/-- The machine after the register write of a block, and where control goes. -/
def effect (machine : Machine) (haltAddress : Word) (block : Block) :
    Except Access (Machine × Transfer) :=
  (block.eval machine haltAddress).map fun result => (machine.writeBack result.1, result.2)

end Block

/-- A result that is written unless it is for `x0` is a register write. -/
theorem Machine.writeBack_ite (machine : Machine) (rd : Reg) (value : Word) :
    machine.writeBack (if rd = Reg.zero then none else some (rd, value)) =
      machine.setReg rd value := by
  by_cases dropped : rd = Reg.zero
  · simp [dropped, writeBack, setReg]
  · simp [dropped, writeBack]

namespace Instruction

/-- Evaluating an operand reads its value. -/
@[simp] theorem eval_operandValue (machine : Machine) (temps : Temps) (source : Operand) :
    (operandValue source).eval machine temps = .ok (operand machine source) := by
  cases source <;> rfl

/-- Computing a result leaves it due for its register. -/
theorem foldlM_result (machine : Machine) (temps : Temps) (rd : Reg) (value : Expr) :
    (result rd value).foldlM (Stmt.eval machine) ⟨temps, none⟩ =
      (value.eval machine temps).map fun word =>
        ⟨temps.set .rval word, if rd = Reg.zero then none else some (rd, word)⟩ := by
  rw [result, List.foldlM_cons]
  cases evaluated : value.eval machine temps with
  | error access => simp [Stmt.eval, evaluated, Except.map]
  | ok word =>
    by_cases dropped : rd = Reg.zero
    · simp [Stmt.eval, evaluated, dropped, Except.map]
    · simp [Stmt.eval, evaluated, dropped, Except.map]

/-- The block of an instruction has the effect of the instruction. -/
theorem effect_ofInstruction (settings : Settings) (pc word : Word) (machine : Machine)
    (instruction : Instruction) :
    (Block.ofInstruction settings pc word instruction).effect machine settings.haltAddress =
      instruction.effect settings pc machine := by
  unfold Block.effect Block.eval Block.ofInstruction Frame.initial
  cases instruction with
  | lui rd imm =>
    simp [stmts, foldlM_result, terminator, Terminator.eval, effect, Except.map,
      Machine.writeBack_ite]
  | auipc rd imm =>
    simp [stmts, foldlM_result, terminator, Terminator.eval, effect, Except.map,
      Machine.writeBack_ite]
  | jal rd offset =>
    simp [stmts, foldlM_result, terminator, Terminator.eval, effect, Except.map,
      Machine.writeBack_ite]
  | jalr rd rs1 offset =>
    simp [stmts, Stmt.eval, jumpTarget, AluOp.apply, foldlM_result, terminator, Terminator.eval,
      effect, Except.map, Machine.writeBack_ite]
  | branch cond rs1 rs2 offset =>
    simp [stmts, Stmt.eval, terminator, Terminator.eval, effect, Except.map, Machine.writeBack]
  | load width signed rd rs1 offset =>
    cases loaded : machine.load ⟨machine.reg rs1 + offset - settings.base, width⟩ with
    | error access =>
      simp [stmts, Stmt.eval, accessAddress, Expr.rebase, AluOp.apply, foldlM_result, loaded,
        effect, Except.map]
    | ok value =>
      simp [stmts, Stmt.eval, accessAddress, Expr.rebase, AluOp.apply, foldlM_result, loaded,
        terminator, Terminator.eval, effect, Except.map, Machine.writeBack_ite]
  | store width rs1 rs2 offset =>
    by_cases halts : machine.reg rs1 + offset = settings.haltAddress
    · simp [stmts, Stmt.eval, accessAddress, AluOp.apply, terminator, Terminator.eval, halts,
        effect, Except.map, Machine.writeBack]
    · simp [stmts, Stmt.eval, accessAddress, Expr.rebase, AluOp.apply, terminator,
        Terminator.eval, halts, effect, Except.map, Machine.writeBack]
  | alu op rd rs1 source =>
    simp [stmts, Stmt.eval, foldlM_result, terminator, Terminator.eval, effect, Except.map,
      Machine.writeBack_ite]
  | mulDiv op rd rs1 rs2 =>
    simp [stmts, Stmt.eval, foldlM_result, terminator, Terminator.eval, effect, Except.map,
      Machine.writeBack_ite]
  | fence => rfl

end Instruction

/-- The block of a word has the effect of its instruction, and none if it encodes none. -/
theorem Block.effect_ofWord (settings : Settings) (pc word : Word) (machine : Machine) :
    (Block.ofWord settings pc word).effect machine settings.haltAddress =
      match Instruction.decode word pc with
      | .ok instruction => instruction.effect settings pc machine
      | .error _ => .ok (machine, .next) := by
  unfold Block.ofWord
  cases Instruction.decode word pc with
  | ok instruction => exact Instruction.effect_ofInstruction ..
  | error error => rfl

/-- The block of a word stands at the address of the word. -/
theorem Block.pc_ofWord (settings : Settings) (pc word : Word) :
    (Block.ofWord settings pc word).pc = pc := by
  unfold Block.ofWord
  cases Instruction.decode word pc <;> rfl

/-- The block of a word holds the word. -/
theorem Block.word_ofWord (settings : Settings) (pc word : Word) :
    (Block.ofWord settings pc word).word = word := by
  unfold Block.ofWord
  cases Instruction.decode word pc <;> rfl

namespace Program

/-- What an effect leads to at the block at address `pc` and position `index`. -/
def follow (program : Program) (pc : Word) (index : Nat) (machine : Machine) :
    Except Access (Machine × Transfer) → Step
  | .error access => .faulted ⟨pc, access⟩ machine
  | .ok (written, .next) => .next ⟨index + 1, written⟩
  | .ok (written, .jump target) => .next ⟨(program.blockIndex? target).getD (index + 1), written⟩
  | .ok (written, .halt value) => .halted value written
  | .ok (written, .store access value) =>
    match written.store? access value with
    | some stored => .next ⟨index + 1, stored⟩
    | none => .faulted ⟨pc, access⟩ written

/-- Entering a block follows its effect. -/
theorem step_eq_follow (program : Program) (block : Block) (index : Nat) (machine : Machine) :
    program.step block index machine =
      program.follow block.pc index machine (block.effect machine program.haltAddress) := by
  unfold step Block.effect
  cases evaluated : block.eval machine program.haltAddress with
  | error access => rfl
  | ok result =>
    obtain ⟨writeback, transfer⟩ := result
    cases transfer <;> rfl

end Program

namespace Image

/-- The blocks of a lifted image are those of its whole words, by position. -/
theorem getElem?_blocks_lift (image : Image) (settings : Settings) (index : Nat) :
    (image.lift settings).blocks[index]? =
      if index < image.wordCount then
        some (Block.ofWord settings (Word.address image.base index) (image.word index))
      else none := by
  simp only [lift, blocks, words, List.getElem?_toArray, List.map_map, List.getElem?_map]
  split
  · rename_i inside
    simp [inside]
  · rename_i outside
    simp [outside]

/-- A block of a lifted image is that of the word at its position. -/
theorem eq_ofWord_of_getElem? {image : Image} {settings : Settings} {index : Nat} {block : Block}
    (present : (image.lift settings).blocks[index]? = some block) :
    index < image.wordCount ∧
      block = Block.ofWord settings (Word.address image.base index) (image.word index) := by
  rw [getElem?_blocks_lift] at present
  split at present
  · rename_i inside
    exact ⟨inside, (Option.some.inj present).symm⟩
  · cases present

/-- An address leads to the block whose place it is, counted from the base of the image. -/
theorem blockIndex?_lift (image : Image) (settings : Settings) (target : Word) :
    (image.lift settings).blockIndex? target =
      if (target - image.base).toNat % 4 = 0 ∧ (target - image.base).toNat / 4 < image.wordCount
      then some ((target - image.base).toNat / 4) else none := by
  simp [Program.blockIndex?, JumpTable.lookup?, lift, jumpTable]

end Image

end RvLift
