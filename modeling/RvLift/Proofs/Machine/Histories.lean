import Mathlib
import RvLift.Proofs.Block.Changes

/-!
# Histories of machines

A machine starts with an image in memory, and from then on registers are written and programs are
run on it, in any order and however the runs end. The programs may be any at all, not only lifted
ones. All the while `x0` reads as zero and memory keeps its size, and every block entered on the
way changes no more than a block can change.
-/

namespace RvLift

namespace Machine

/-- The machines that a history starts with. -/
inductive Built : Machine → Prop where
  /-- Memory is the image. -/
  | exact (image : Image) : Built (.ofImage image)
  /-- Memory is the image with zeros after it. -/
  | sized (image : Image) (size : Nat) : Built (.ofImageSized image size)

/-- What is done to a machine from outside. -/
inductive Use where
  /-- Write a register. -/
  | setReg (reg : Reg) (value : Word)
  /-- Run a program, entering at most `limit` blocks. -/
  | run (program : Program) (limit : Nat)

/-- The machine that is left after a use. -/
def use (machine : Machine) : Use → Machine
  | .setReg reg value => machine.setReg reg value
  | .run program limit => (program.run limit machine).2

/-- The machine that is left after several uses, one after another. -/
def useAll (machine : Machine) (uses : List Use) : Machine := uses.foldl use machine

/-- What stays true of a machine with `size` bytes of memory. -/
structure Sound (size : Nat) (machine : Machine) : Prop where
  /-- Register `x0` reads as zero. -/
  zero : machine.reg Reg.zero = 0
  /-- Memory has its size. -/
  size : machine.memory.size = size

end Machine

section Invariants

variable {size : Nat} {machine : Machine}

/-- A machine is sound to begin with. -/
theorem Machine.Built.sound (built : machine.Built) : machine.Sound machine.memory.size := by
  refine ⟨?_, rfl⟩
  cases built with
  | exact image | sized image size => exact Vector.getElem_replicate ..

/-- A register write keeps a machine sound. -/
theorem Machine.Sound.setReg (sound : machine.Sound size) (reg : Reg) (value : Word) :
    (machine.setReg reg value).Sound size := by
  refine ⟨?_, ?_⟩
  · rw [reg_setReg, if_neg fun both => both.2 both.1.symm]
    exact sound.zero
  · rw [memory_setReg]
    exact sound.size

/-- Entering a block keeps a machine sound. -/
theorem Machine.Sound.step (sound : machine.Sound size) (program : Program) (block : Block)
    (index : Nat) : (program.step block index machine).machine.Sound size := by
  have confines := program.confines_step block index machine
  exact ⟨confines.reg_zero.trans sound.zero, confines.size.trans sound.size⟩

/-- A run meets sound machines only. -/
theorem Machine.Sound.after {program : Program} {count index : Nat} {last : State}
    (sound : machine.Sound size) (reached : program.after count ⟨index, machine⟩ = some last) :
    last.machine.Sound size := by
  induction count generalizing machine index with
  | zero =>
    cases reached
    exact sound
  | succ count hypothesis =>
    obtain ⟨block, next, present, stepped, later⟩ := Program.exists_step_of_after reached
    have kept := sound.step program block index
    rw [stepped] at kept
    exact hypothesis kept later

/-- A run leaves a sound machine, however it ends. -/
theorem Machine.Sound.run (sound : machine.Sound size) (program : Program) (limit : Nat) :
    (program.run limit machine).2.Sound size := by
  have before {count : Nat} {last : State}
      (reached : program.after count (.start machine) = some last) : last.machine.Sound size :=
    sound.after reached
  generalize ended : program.run limit machine = result
  cases Program.run_eq_iff_ending.1 ended with
  | fellThrough reached within past => exact before reached
  | stopped reached present => exact before reached
  | @halted count last block value final reached within present stepped
  | @faulted count last block fault final reached within present stepped =>
    have kept := (before reached).step program block last.index
    rw [stepped] at kept
    exact kept

/-- Uses keep a machine sound. -/
theorem Machine.Sound.useAll (sound : machine.Sound size) (uses : List Use) :
    (machine.useAll uses).Sound size := by
  induction uses generalizing machine with
  | nil => exact sound
  | cons first rest hypothesis =>
    apply hypothesis
    cases first with
    | setReg reg value => exact sound.setReg reg value
    | run program limit => exact sound.run program limit

end Invariants

/-- Whatever registers are written and whatever programs are run on a machine built from an image,
`x0` reads as zero and memory keeps its size: after every use, in front of every block that a run
enters, and behind it. Such a block has another value for no register but the one it writes last,
and for that one only if it is not `x0`; it has other values for no bytes but those of one access of
one, two or four bytes inside memory, and for those only if it stores there, at an address other
than the halt address; it leaves memory alone if it halts the program, and everything if one of its
expressions fails. -/
theorem Machine.use_invariants {start : Machine} (built : start.Built) (uses : List Use) :
    let machine := start.useAll uses
    let size := start.memory.size
    machine.Sound size ∧
    ∀ (program : Program) count state, program.after count (.start machine) = some state →
      state.machine.Sound size ∧
      ∀ block, program.blocks[state.index]? = some block →
        let step := program.step block state.index state.machine
        (program.run (count + 1) machine).2 = step.machine ∧ step.machine.Sound size ∧
          block.Confines program.haltAddress state.machine step := by
  intro machine size
  have sound : machine.Sound size := built.sound.useAll uses
  refine ⟨sound, fun program count state reached => ?_⟩
  have here : state.machine.Sound size := sound.after reached
  refine ⟨here, fun block present => ⟨?_, ?_, ?_⟩⟩
  · exact Program.run_succ_machine reached present
  · exact here.step program block state.index
  · exact program.confines_step block state.index state.machine

/-- A block by hand that writes `x5` and then `x0`, and stores two bytes at offset 2. Entered a
second time on the same machine, it still changes no register, and the bytes in front of the store
are those of the image. -/
theorem Machine.use_invariants_two_writes :
    let start := Machine.ofImageSized ⟨0, ⟨#[1, 2]⟩⟩ 4
    let block : Block := ⟨⟨0⟩, 0, .ok .fence, [.write ⟨5⟩ (.imm 1), .write Reg.zero (.imm 9)],
      .haltOrStore .half (.imm 8) (.imm 2) (.imm 0x0403)⟩
    let program := Program.ofBlocks 0 0x11100000 #[block]
    let machine := start.useAll [.setReg ⟨1⟩ 7, .run program 1]
    start.Built ∧ machine.Sound 4 ∧
      (∀ reg, (program.run 1 machine).2.reg reg = machine.reg reg) ∧
      ∀ position < 2, Bytes.byteAt (program.run 1 machine).2.memory position =
        Bytes.byteAt machine.memory position := by
  intro start block program machine
  have built : start.Built := .sized ⟨0, ⟨#[1, 2]⟩⟩ 4
  obtain ⟨sound, entered⟩ := use_invariants built [.setReg ⟨1⟩ 7, .run program 1]
  obtain ⟨left, -, confines⟩ := (entered program 0 (.start machine) rfl).2 block rfl
  have last : block.lastWrite? = some Reg.zero := rfl
  refine ⟨built, sound, fun reg => ?_, fun position front => ?_⟩
  · rw [left]
    by_contra changed
    obtain ⟨written, other⟩ := confines.register reg changed
    exact other (Option.some.inj (written.symm.trans last))
  · rw [left]
    rcases confines.memory with same | ⟨frame, stored, access, worked, stores, inside, kept⟩
    · rw [same]
      rfl
    · cases stores with
      | intro first second onward third =>
        cases third
        exact kept position (.inl front)

end RvLift
