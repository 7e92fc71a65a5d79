import RvLift.Image
import RvLift.Instruction.Basic

/-!
# Machines

The state that a program works on: 32 registers and the bytes of guest memory. Memory is addressed
by offset from its first byte. An access that does not lie inside memory is refused; offsets do not
wrap.
-/

namespace RvLift

/-- Guest registers and memory. -/
structure Machine where
  /-- The register values; the one for `x0` is never written. -/
  registers : Vector Word 32
  /-- The contents of guest memory. -/
  memory : ByteArray

/-- An access to guest memory. -/
structure Access where
  /-- The offset of the first byte. -/
  offset : Word
  /-- The number of bytes. -/
  width : Width
  deriving DecidableEq, Repr

/-- Extend the low bytes of a word by their sign; whole words stay as they are. -/
def Width.signExtend (width : Width) (value : Word) : Word :=
  match width with
  | .byte => (value.setWidth 8).signExtend 32
  | .half => (value.setWidth 16).signExtend 32
  | .word => value

namespace Machine

/-- A machine with zero registers and given memory. -/
def ofMemory (memory : ByteArray) : Machine := ⟨Vector.replicate 32 0, memory⟩

/-- A machine whose memory is exactly the image. -/
def ofImage (image : Image) : Machine := ofMemory image.bytes

/-- A machine whose memory is the image, with zeros after it up to `size` bytes. -/
def ofImageSized (image : Image) (size : Nat) : Machine := ofMemory (Bytes.padTo image.bytes size)

/-- The value of a register. -/
def reg (machine : Machine) (reg : Reg) : Word :=
  have bound : reg.index < 32 := reg.index_lt
  machine.registers[reg.index]

/-- Write a register; writes of `x0` are dropped. -/
def setReg (machine : Machine) (reg : Reg) (value : Word) : Machine :=
  if reg = Reg.zero then machine
  else { machine with registers := machine.registers.set reg.index value reg.index_lt }

/-- A register write is seen by reads of that register only, and never by reads of `x0`. -/
theorem reg_setReg (machine : Machine) (target other : Reg) (value : Word) :
    (machine.setReg target value).reg other =
      if other = target ∧ target ≠ Reg.zero then value else machine.reg other := by
  by_cases dropped : target = Reg.zero
  · simp [setReg, dropped]
  · have index_eq_iff : target.index = other.index ↔ other = target := by
      cases target
      cases other
      simp [Reg.index, BitVec.toNat_inj, eq_comm]
    simp [setReg, reg, dropped, Vector.getElem_set, index_eq_iff]

/-- A register write leaves memory alone. -/
@[simp] theorem memory_setReg (machine : Machine) (target : Reg) (value : Word) :
    (machine.setReg target value).memory = machine.memory := by
  unfold setReg
  split <;> rfl

/-- Whether an access lies inside memory. -/
def covers (machine : Machine) (access : Access) : Bool :=
  access.offset.toNat + access.width.bytes ≤ machine.memory.size

/-- The little-endian value of the accessed bytes, refused outside memory. -/
def load (machine : Machine) (access : Access) : Except Access Word :=
  if machine.covers access then
    .ok (Bytes.shiftedWord machine.memory access.offset.toNat access.width.bytes)
  else .error access

/-- Replace the accessed bytes by the low bytes of a value, refused outside memory. -/
@[inline] def store? (machine : Machine) (access : Access) (value : Word) : Option Machine :=
  if machine.covers access then
    some { machine with
      memory := Bytes.writeLittle machine.memory access.offset.toNat access.width.bytes
        value.toNat }
  else none

end Machine

end RvLift
