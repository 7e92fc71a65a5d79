import Mathlib
import RvLift.Machine.Run

/-!
# The instruction set

RV32IM as an interpreter of its own, straight from the numbers that the bits of an instruction word
spell and from integer arithmetic. Instructions are fetched from the image, which stores do not
change. Words that encode no instruction and memory ordering hints do nothing.
-/

namespace RvLift.Isa

/-- The number that `count` bits of a word spell, from bit `low` on. -/
def bits (word low count : Nat) : Nat := word / 2 ^ low % 2 ^ count

/-- The integer that `count` bits spell in two's complement. -/
def signed (count value : Nat) : Int :=
  if value < 2 ^ (count - 1) then value else value - 2 ^ count

/-- The immediate of register-immediate operations, loads and computed jumps. -/
def immI (word : Nat) : Int := signed 12 (bits word 20 12)

/-- The immediate of stores. -/
def immS (word : Nat) : Int := signed 12 (2 ^ 5 * bits word 25 7 + bits word 7 5)

/-- The immediate of branches. -/
def immB (word : Nat) : Int :=
  signed 13 (2 ^ 12 * bits word 31 1 + 2 ^ 11 * bits word 7 1 + 2 ^ 5 * bits word 25 6 +
    2 * bits word 8 4)

/-- The upper immediate. -/
def immU (word : Nat) : Nat := 2 ^ 12 * bits word 12 20

/-- The immediate of relative jumps. -/
def immJ (word : Nat) : Int :=
  signed 21 (2 ^ 20 * bits word 31 1 + 2 ^ 12 * bits word 12 8 + 2 ^ 11 * bits word 20 1 +
    2 * bits word 21 10)

/-- The number that `count` bytes spell from a position on, least significant byte first. -/
def littleEndian (bytes : ByteArray) (start count : Nat) : Nat :=
  ((List.range count).map fun place => Bytes.byteAt bytes (start + place) * 256 ^ place).sum

/-- The bytes with `count` of them replaced from a position on by the low bytes of a value, least
significant byte first. -/
def replaced (bytes : ByteArray) (start count value : Nat) : ByteArray :=
  Bytes.tabulate bytes.size fun position =>
    if start ≤ position ∧ position < start + count then
      UInt8.ofNat (value / 256 ^ (position - start))
    else UInt8.ofNat (Bytes.byteAt bytes position)

/-- The value of a register; `x0` is zero. -/
def readReg (machine : Machine) (number : Nat) : Word :=
  if number = 0 then 0 else machine.registers[number]?.getD 0

/-- Write a register; `x0` stays as it is. -/
def writeReg (machine : Machine) (number : Nat) (value : Word) : Machine :=
  if number = 0 then machine
  else { machine with registers := machine.registers.setIfInBounds number value }

/-- The result of an arithmetic or logic instruction, by function code. -/
def aluResult (funct3 : Nat) (subtract arithmetic : Bool) (left right : Word) : Word :=
  match funct3 with
  | 0 =>
    if subtract then BitVec.ofInt 32 (left.toNat - right.toNat)
    else BitVec.ofNat 32 (left.toNat + right.toNat)
  | 1 => BitVec.ofNat 32 (left.toNat * 2 ^ (right.toNat % 32))
  | 2 => if left.toInt < right.toInt then 1 else 0
  | 3 => if left.toNat < right.toNat then 1 else 0
  | 4 => BitVec.ofNat 32 (left.toNat ^^^ right.toNat)
  | 5 =>
    if arithmetic then BitVec.ofInt 32 (left.toInt / 2 ^ (right.toNat % 32))
    else BitVec.ofNat 32 (left.toNat / 2 ^ (right.toNat % 32))
  | 6 => BitVec.ofNat 32 (left.toNat ||| right.toNat)
  | _ => BitVec.ofNat 32 (left.toNat &&& right.toNat)

/-- The result of a multiplication or division, by function code. -/
def mulDivResult (funct3 : Nat) (left right : Word) : Word :=
  let zero := right.toNat = 0
  let overflow := left.toInt = -2 ^ 31 ∧ right.toInt = -1
  match funct3 with
  | 0 => BitVec.ofInt 32 (left.toInt * right.toInt)
  | 1 => BitVec.ofInt 32 (left.toInt * right.toInt / 2 ^ 32)
  | 2 => BitVec.ofInt 32 (left.toInt * right.toNat / 2 ^ 32)
  | 3 => BitVec.ofNat 32 (left.toNat * right.toNat / 2 ^ 32)
  | 4 =>
    if zero then BitVec.ofInt 32 (-1) else if overflow then left
    else BitVec.ofInt 32 (left.toInt.tdiv right.toInt)
  | 5 => if zero then BitVec.ofNat 32 (2 ^ 32 - 1) else BitVec.ofNat 32 (left.toNat / right.toNat)
  | 6 =>
    if zero then left else if overflow then 0
    else BitVec.ofInt 32 (left.toInt.tmod right.toInt)
  | _ => if zero then left else BitVec.ofNat 32 (left.toNat % right.toNat)

/-- Whether a branch is taken, by function code; two codes are no branch. -/
def taken? (funct3 : Nat) (left right : Word) : Option Bool :=
  match funct3 with
  | 0 => some (left.toNat = right.toNat)
  | 1 => some (left.toNat ≠ right.toNat)
  | 4 => some (left.toInt < right.toInt)
  | 5 => some (left.toInt ≥ right.toInt)
  | 6 => some (left.toNat < right.toNat)
  | 7 => some (left.toNat ≥ right.toNat)
  | _ => none

/-- The width of a load, by function code; three codes are no load. -/
def loadWidth? (funct3 : Nat) : Option Width :=
  match funct3 with
  | 0 | 4 => some .byte
  | 1 | 5 => some .half
  | 2 => some .word
  | _ => none

/-- The width of a store, by function code; five codes are no store. -/
def storeWidth? (funct3 : Nat) : Option Width :=
  match funct3 with
  | 0 => some .byte
  | 1 => some .half
  | 2 => some .word
  | _ => none

/-- The value that a load extends from the number in memory: by its sign for the low function
codes, by zeros for the others. -/
def extended (funct3 : Nat) (width : Width) (value : Nat) : Word :=
  if funct3 < 4 then BitVec.ofInt 32 (signed (8 * width.bytes) value) else BitVec.ofNat 32 value

/-- The instruction word at a position of an image. -/
def fetch (image : Image) (index : Nat) : Nat := littleEndian image.bytes (4 * index) 4

/-- The position that a jump from position `index` to an address leads to: that of the word at the
address, or the next one if the image has none there. -/
def destination (image : Image) (index : Nat) (target : Word) : Nat :=
  let distance := (target - image.base).toNat
  if distance % 4 = 0 ∧ distance / 4 < image.wordCount then distance / 4 else index + 1

/-- Load into a register, by function code. -/
def loadStep (image : Image) (index funct3 rd : Nat) (address : Word) (machine : Machine) : Step :=
  match loadWidth? funct3 with
  | none => .next ⟨index + 1, machine⟩
  | some width =>
    let offset := address - image.base
    if offset.toNat + width.bytes ≤ machine.memory.size then
      let value := littleEndian machine.memory offset.toNat width.bytes
      .next ⟨index + 1, writeReg machine rd (extended funct3 width value)⟩
    else .faulted ⟨image.base + BitVec.ofNat 32 (4 * index), ⟨offset, width⟩⟩ machine

/-- Store a value, by function code; a store to the halt address ends the run. -/
def storeStep (image : Image) (haltAddress : Word) (index funct3 : Nat) (address value : Word)
    (machine : Machine) : Step :=
  match storeWidth? funct3 with
  | none => .next ⟨index + 1, machine⟩
  | some width =>
    let offset := address - image.base
    if address = haltAddress then .halted value machine
    else if offset.toNat + width.bytes ≤ machine.memory.size then
      .next ⟨index + 1, { machine with
        memory := replaced machine.memory offset.toNat width.bytes value.toNat }⟩
    else .faulted ⟨image.base + BitVec.ofNat 32 (4 * index), ⟨offset, width⟩⟩ machine

/-- Carry out the instruction at a position. Memory starts at the base of the image. -/
def step (image : Image) (haltAddress : Word) (index : Nat) (machine : Machine) : Step :=
  let word := fetch image index
  let pc := image.base + BitVec.ofNat 32 (4 * index)
  let opcode := bits word 0 7
  let rd := bits word 7 5
  let funct3 := bits word 12 3
  let left := readReg machine (bits word 15 5)
  let right := readReg machine (bits word 20 5)
  let inOrder (after : Machine) : Step := .next ⟨index + 1, after⟩
  let jump (target : Word) (after : Machine) : Step := .next ⟨destination image index target, after⟩
  if opcode = 0b0110111 then inOrder (writeReg machine rd (BitVec.ofNat 32 (immU word)))
  else if opcode = 0b0010111 then
    inOrder (writeReg machine rd (pc + BitVec.ofNat 32 (immU word)))
  else if opcode = 0b1101111 then
    jump (pc + BitVec.ofInt 32 (immJ word)) (writeReg machine rd (pc + 4))
  else if opcode = 0b1100111 then
    let sum := (left + BitVec.ofInt 32 (immI word)).toNat
    jump (BitVec.ofNat 32 (sum - sum % 2)) (writeReg machine rd (pc + 4))
  else if opcode = 0b1100011 then
    if taken? funct3 left right = some true then
      jump (pc + BitVec.ofInt 32 (immB word)) machine
    else inOrder machine
  else if opcode = 0b0000011 then
    loadStep image index funct3 rd (left + BitVec.ofInt 32 (immI word)) machine
  else if opcode = 0b0100011 then
    storeStep image haltAddress index funct3 (left + BitVec.ofInt 32 (immS word)) right machine
  else if opcode = 0b0010011 then
    inOrder (writeReg machine rd
      (aluResult funct3 false (bits word 30 1 = 1) left (BitVec.ofInt 32 (immI word))))
  else if opcode = 0b0110011 then
    if bits word 25 1 = 1 then inOrder (writeReg machine rd (mulDivResult funct3 left right))
    else
      inOrder (writeReg machine rd
        (aluResult funct3 (bits word 30 1 = 1) (bits word 30 1 = 1) left right))
  else inOrder machine

/-- Carry out steps from a state on while its position is below `count`, at most `remaining` more of
the `limit` allowed. -/
def runFrom (step : Nat → Machine → Step) (count limit : Nat) : Nat → State → RunResult × Machine
  | 0, state =>
    if state.index < count then (.error (.stepLimit limit), state.machine)
    else (.ok .fellThrough, state.machine)
  | remaining + 1, state =>
    if state.index < count then
      match step state.index state.machine with
      | .next after => runFrom step count limit remaining after
      | .halted value after => (.ok (.returned value), after)
      | .faulted fault after => (.error (.memoryFault fault), after)
    else (.ok .fellThrough, state.machine)

/-- Interpret an image from its first word, carrying out at most `limit` instructions. -/
def run (image : Image) (haltAddress : Word) (limit : Nat) (machine : Machine) :
    RunResult × Machine :=
  runFrom (step image haltAddress) image.wordCount limit limit ⟨0, machine⟩

end RvLift.Isa
