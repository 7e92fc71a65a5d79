import Mathlib
import RvLift.Proofs.Block.Effect
import RvLift.Proofs.Machine.Progress

/-!
# Memory faults

A run of a lifted image that makes an access outside memory leaves the machine as it was when the
faulting instruction was reached. Carrying out a register write before a store would break this for
blocks that do both; the block of an instruction never does, as stores write no register and loads
fault before anything is written.
-/

namespace RvLift

/-- The access that an instruction makes on a machine. A store to the halt address makes none. -/
inductive Instruction.Makes (settings : Settings) (machine : Machine) :
    Instruction → Access → Prop where
  /-- A load reads at its address, whatever register it is for. -/
  | load (width : Width) (signed : Bool) (rd rs1 : Reg) (offset : Word) :
    Makes settings machine (.load width signed rd rs1 offset)
      ⟨machine.reg rs1 + offset - settings.base, width⟩
  /-- A store that does not halt the program writes at its address. -/
  | store (width : Width) (rs1 rs2 : Reg) (offset : Word)
    (onward : machine.reg rs1 + offset ≠ settings.haltAddress) :
    Makes settings machine (.store width rs1 rs2 offset)
      ⟨machine.reg rs1 + offset - settings.base, width⟩

namespace Instruction

variable {settings : Settings} {machine : Machine} {access : Access} {width : Width}
  {rs1 rs2 : Reg} {offset : Word}

/-- The one access that a load makes. -/
@[simp] theorem makes_load_iff {signed : Bool} {rd : Reg} :
    (load width signed rd rs1 offset).Makes settings machine access ↔
      access = ⟨machine.reg rs1 + offset - settings.base, width⟩ := by
  constructor
  · intro makes
    cases makes
    rfl
  · rintro rfl
    exact .load ..

/-- The one access that a store makes, which is none if it halts the program. -/
@[simp] theorem makes_store_iff :
    (store width rs1 rs2 offset).Makes settings machine access ↔
      machine.reg rs1 + offset ≠ settings.haltAddress ∧
        access = ⟨machine.reg rs1 + offset - settings.base, width⟩ := by
  constructor
  · intro makes
    cases makes with
    | store width rs1 rs2 offset onward => exact ⟨onward, rfl⟩
  · rintro ⟨onward, rfl⟩
    exact .store _ _ _ _ onward

end Instruction

/-- An access lies outside memory if its last byte does. -/
theorem Machine.covers_eq_false_iff {machine : Machine} {access : Access} :
    machine.covers access = false ↔
      machine.memory.size < access.offset.toNat + access.width.bytes := by
  rw [covers, decide_eq_false_iff_not, Nat.not_le]

namespace Program

section Steps

variable {program : Program} {settings : Settings} {pc word : Word} {index : Nat}
  {machine final : Machine} {fault : Fault} {instruction : Instruction}

/-- Without a store, an effect that has been worked out does not fault. -/
theorem follow_ne_faulted {written : Machine} {transfer : Transfer}
    (inner : ∀ access value, transfer ≠ .store access value) :
    program.follow pc index machine (.ok (written, transfer)) ≠ .faulted fault final := by
  cases transfer with
  | store access value => exact absurd rfl (inner access value)
  | _ =>
    intro faults
    cases faults

/-- Whether an access outside memory is the fault that is reported. -/
theorem faulted_eq_iff {access : Access} (outside : machine.covers access = false) :
    Step.faulted ⟨pc, access⟩ machine = .faulted fault final ↔
      final = machine ∧ fault.pc = pc ∧ fault.access = access ∧
        machine.covers fault.access = false := by
  constructor
  · intro same
    cases same
    exact ⟨rfl, rfl, rfl, outside⟩
  · obtain ⟨place, made⟩ := fault
    rintro ⟨rfl, rfl, rfl, -⟩
    rfl

/-- Following an instruction leads to a fault exactly if the instruction makes an access outside
memory, and then nothing has been written. -/
theorem follow_effect_eq_faulted_iff :
    program.follow pc index machine (instruction.effect settings pc machine) =
        .faulted fault final ↔
      final = machine ∧ fault.pc = pc ∧ instruction.Makes settings machine fault.access ∧
        machine.covers fault.access = false := by
  have inside {access : Access} (covered : machine.covers access = true) :
      ¬(fault.access = access ∧ machine.covers fault.access = false) := by
    rintro ⟨rfl, outside⟩
    exact absurd (covered.symm.trans outside) (by decide)
  -- An instruction that makes no access cannot fault, and has no access to fault with.
  have inert (made : ∀ access, ¬instruction.Makes settings machine access)
      (leads : program.follow pc index machine (instruction.effect settings pc machine) ≠
        .faulted fault final) :
      program.follow pc index machine (instruction.effect settings pc machine) =
          .faulted fault final ↔
        final = machine ∧ fault.pc = pc ∧ instruction.Makes settings machine fault.access ∧
          machine.covers fault.access = false :=
    ⟨fun faults => absurd faults leads, fun all => absurd all.2.2.1 (made _)⟩
  cases instruction with
  | load width signed rd rs1 offset =>
    rw [Instruction.makes_load_iff]
    cases covered : machine.covers ⟨machine.reg rs1 + offset - settings.base, width⟩ with
    | true =>
      simp only [Instruction.effect, Machine.load, covered, if_true, Except.map, follow]
      refine ⟨fun faults => ?_, fun all => absurd all.2.2 (inside covered)⟩
      cases faults
    | false =>
      simp only [Instruction.effect, Machine.load, covered, Bool.false_eq_true, if_false,
        Except.map, follow]
      exact faulted_eq_iff covered
  | store width rs1 rs2 offset =>
    rw [Instruction.makes_store_iff]
    by_cases halts : machine.reg rs1 + offset = settings.haltAddress
    · simp only [Instruction.effect, if_pos halts, follow]
      refine ⟨fun faults => ?_, fun all => absurd halts all.2.2.1.1⟩
      cases faults
    · simp only [Instruction.effect, follow, Machine.store?, ne_eq, halts, if_false,
        not_false_eq_true, true_and]
      cases covered : machine.covers ⟨machine.reg rs1 + offset - settings.base, width⟩ with
      | true =>
        refine ⟨fun faults => ?_, fun all => absurd all.2.2 (inside covered)⟩
        cases faults
      | false =>
        simp only [Bool.false_eq_true, if_false]
        exact faulted_eq_iff covered
  | branch cond rs1 rs2 offset =>
    refine inert (fun access makes => ?_) (follow_ne_faulted fun access value => ?_)
    · cases makes
    · split <;> simp
  | _ =>
    refine inert (fun access makes => ?_) (follow_ne_faulted fun access value => ?_)
    · cases makes
    · simp

/-- Entering the block of a word leads to a fault exactly if the word encodes an instruction that
makes an access outside memory, and then the machine is left as it was. -/
theorem step_ofWord_eq_faulted_iff (halting : program.haltAddress = settings.haltAddress) :
    program.step (Block.ofWord settings pc word) index machine = .faulted fault final ↔
      final = machine ∧ fault.pc = pc ∧ ∃ instruction,
        (Block.ofWord settings pc word).instruction = .ok instruction ∧
          instruction.Makes settings machine fault.access ∧
          machine.covers fault.access = false := by
  rw [step_eq_follow, halting, Block.effect_ofWord, Block.pc_ofWord]
  unfold Block.ofWord
  cases Instruction.decode word pc with
  | ok instruction =>
    simp only [follow_effect_eq_faulted_iff, Block.ofInstruction, Except.ok.injEq,
      exists_eq_left']
  | error error =>
    constructor
    · intro faults
      cases faults
    · rintro ⟨-, -, instruction, decoded, -⟩
      cases decoded

end Steps

end Program

namespace Image

/-- A run that ends with an access outside memory leaves the machine exactly as the instruction that
made the access found it: the run that may enter just the blocks before it stops with the same
machine, in front of the block of a load or store that makes the access from its registers there.
Conversely, a run that reaches such an instruction ends with its access, whether the instruction
would have written a register or not. -/
theorem fault_leaves_machine (image : Image) (settings : Settings) (machine : Machine)
    (limit : Nat) :
    let program := image.lift settings
    (∀ fault final, program.run limit machine = (.error (.memoryFault fault), final) →
      ∃ count < limit, program.run count machine = (.error (.stepLimit count), final) ∧
        ∃ index block instruction,
          program.after count (.start machine) = some ⟨index, final⟩ ∧
          program.blocks[index]? = some block ∧ block.pc = fault.pc ∧
          block.instruction = .ok instruction ∧ instruction.Makes settings final fault.access ∧
          final.memory.size < fault.access.offset.toNat + fault.access.width.bytes) ∧
    ∀ count < limit, ∀ index reached block instruction access,
      program.after count (.start machine) = some ⟨index, reached⟩ →
      program.blocks[index]? = some block → block.instruction = .ok instruction →
      instruction.Makes settings reached access →
      reached.memory.size < access.offset.toNat + access.width.bytes →
      program.run limit machine = (.error (.memoryFault ⟨block.pc, access⟩), reached) := by
  intro program
  constructor
  · intro fault final ended
    have ending := program.ending_runFrom limit limit (.start machine)
    rw [← Program.run, ended] at ending
    cases ending with
    | @faulted count last block _ _ reached within present stepped =>
      obtain ⟨-, rfl⟩ := eq_ofWord_of_getElem? present
      obtain ⟨rfl, place, instruction, decoded, makes, outside⟩ :=
        (Program.step_ofWord_eq_faulted_iff rfl).1 stepped
      refine ⟨count, within, Program.run_eq_stepLimit reached present, last.index, _, instruction,
        reached, present, ?_, decoded, makes, Machine.covers_eq_false_iff.1 outside⟩
      rw [Block.pc_ofWord, place]
  · intro count within index reached block instruction access arrived present decoded makes outside
    refine Program.run_eq_memoryFault arrived present within ?_
    obtain ⟨-, rfl⟩ := eq_ofWord_of_getElem? present
    rw [Block.pc_ofWord]
    exact (Program.step_ofWord_eq_faulted_iff rfl).2
      ⟨rfl, rfl, instruction, decoded, makes, Machine.covers_eq_false_iff.2 outside⟩

/-- `addi x1, x0, 5` and `lb x0, -1(x1)` on four bytes of memory: the load into `x0` is reached
after one block and faults, and the machine it leaves is that of a shorter run. -/
theorem fault_leaves_machine_load :
    let image : Image := ⟨0, ⟨#[0x93, 0x00, 0x50, 0x00, 0x03, 0x80, 0xf0, 0xff]⟩⟩
    let program := image.lift { base := 0 }
    let machine := Machine.ofMemory ⟨#[1, 2, 3, 4]⟩
    ∃ final, program.run 9 machine = (.error (.memoryFault ⟨4, 4, .byte⟩), final) ∧
      ∃ count < 9, program.run count machine = (.error (.stepLimit count), final) := by
  intro image program machine
  have arrives : (program.after 1 (.start machine)).map (fun state =>
      (state.index, state.machine.reg ⟨1⟩, state.machine.memory.size)) = some (1, 5, 4) := by
    decide +kernel
  have decodes : program.blocks[1]?.map (fun block => (block.pc, block.instruction)) =
      some (4, .ok (.load .byte true Reg.zero ⟨1⟩ (-1))) := by
    decide +kernel
  obtain ⟨⟨index, reached⟩, arrived, found⟩ := Option.map_eq_some_iff.1 arrives
  obtain ⟨block, present, encoded⟩ := Option.map_eq_some_iff.1 decodes
  simp only [Prod.mk.injEq] at found encoded
  obtain ⟨rfl, value, size⟩ := found
  obtain ⟨place, decoded⟩ := encoded
  have makes : (Instruction.load .byte true Reg.zero ⟨1⟩ (-1)).Makes { base := 0 } reached
      ⟨4, .byte⟩ := by
    rw [Instruction.makes_load_iff, value]
    rfl
  have faults := (fault_leaves_machine image { base := 0 } machine 9).2 1 (by decide) 1 reached
    block _ _ arrived present decoded makes (by rw [size]; decide)
  rw [place] at faults
  obtain ⟨count, within, stops, -⟩ :=
    (fault_leaves_machine image { base := 0 } machine 9).1 _ _ faults
  exact ⟨reached, faults, count, within, stops⟩

end Image

end RvLift
