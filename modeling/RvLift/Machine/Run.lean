import RvLift.Machine.Eval
import RvLift.Program

/-!
# Running programs

A run starts at the first block and ends when a store hits the halt address, when control passes
the last block, when an access lies outside memory, or when it has entered as many blocks as
allowed. A jump to an address without a block goes on with the next block.
-/

namespace RvLift

/-- How a run ended by itself. -/
inductive Exit where
  /-- A store hit the halt address. -/
  | returned (value : Word)
  /-- Control passed the last block. -/
  | fellThrough
  deriving DecidableEq, Repr

/-- The value that the program returns. -/
def Exit.code : Exit → Word
  | .returned value => value
  | .fellThrough => 0

/-- An access outside memory, and the block that made it. -/
structure Fault where
  /-- The address of the block. -/
  pc : Word
  /-- The refused access. -/
  access : Access
  deriving DecidableEq, Repr

/-- Why a run was broken off. -/
inductive RunError where
  /-- The allowed number of blocks was entered. -/
  | stepLimit (limit : Nat)
  /-- An access lay outside memory. -/
  | memoryFault (fault : Fault)
  deriving DecidableEq, Repr

/-- The wording of a run error. -/
def RunError.message : RunError → String
  | .stepLimit limit => "step limit of " ++ Text.decimal limit ++ " blocks reached"
  | .memoryFault fault =>
    "memory fault at pc " ++ Text.address fault.pc.toNat ++ ": " ++
      Text.decimal fault.access.width.bytes ++ "-byte access at offset " ++
      Text.address fault.access.offset.toNat

/-- The result of a run. -/
abbrev RunResult := Except RunError Exit

/-- Where a run stands: the position of the block to enter, and the machine. -/
structure State where
  /-- The position of the next block; past the last block if there is none. -/
  index : Nat
  /-- The machine. -/
  machine : Machine

/-- The state at the start of a run. -/
def State.start (machine : Machine) : State := ⟨0, machine⟩

/-- What entering a block leads to. -/
inductive Step where
  /-- The run goes on. -/
  | next (state : State)
  /-- The program has ended with a value. -/
  | halted (value : Word) (machine : Machine)
  /-- The block made an access outside memory. -/
  | faulted (fault : Fault) (machine : Machine)

/-- Carry out the register write of a block. -/
def Machine.writeBack (machine : Machine) : Option (Reg × Word) → Machine
  | none => machine
  | some (rd, value) => machine.setReg rd value

namespace Program

/-- Enter a block that stands at position `index`. Its register write is carried out before its
store. -/
def step (program : Program) (block : Block) (index : Nat) (machine : Machine) : Step :=
  match block.eval machine program.haltAddress with
  | .error access => .faulted ⟨block.pc, access⟩ machine
  | .ok (writeback, transfer) =>
    let machine := machine.writeBack writeback
    match transfer with
    | .next => .next ⟨index + 1, machine⟩
    | .jump target => .next ⟨(program.blockIndex? target).getD (index + 1), machine⟩
    | .halt value => .halted value machine
    | .store access value =>
      match machine.store? access value with
      | some machine => .next ⟨index + 1, machine⟩
      | none => .faulted ⟨block.pc, access⟩ machine

/-- Run on from a state, entering at most `remaining` more blocks of the `limit` allowed. Only a
state that still has a block to enter can run out of blocks. -/
def runFrom (program : Program) (limit : Nat) : Nat → State → RunResult × Machine
  | remaining, ⟨index, machine⟩ =>
    match program.blocks[index]? with
    | none => (.ok .fellThrough, machine)
    | some block =>
      match remaining with
      | 0 => (.error (.stepLimit limit), machine)
      | remaining + 1 =>
        match program.step block index machine with
        | .next state => program.runFrom limit remaining state
        | .halted value machine => (.ok (.returned value), machine)
        | .faulted fault machine => (.error (.memoryFault fault), machine)

/-- Run from the first block, entering at most `limit` blocks. -/
def run (program : Program) (limit : Nat) (machine : Machine) : RunResult × Machine :=
  program.runFrom limit limit (.start machine)

end Program

end RvLift
