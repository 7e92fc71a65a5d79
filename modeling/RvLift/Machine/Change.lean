import RvLift.Machine.Basic

/-!
# Changes of a machine

Which registers and bytes differ between two states of a machine, in ascending order with their new
values.
-/

namespace RvLift.Machine

/-- The registers whose values differ, with their values in the later machine. -/
def registerChanges (earlier later : Machine) : List (Reg × Word) :=
  (List.range 32).filterMap fun number =>
    let reg := Reg.ofNat number
    if earlier.reg reg = later.reg reg then none else some (reg, later.reg reg)

/-- The offsets at which memories of one size differ, with the bytes in the later machine. -/
def memoryChanges (earlier later : Machine) : List (Nat × Nat) :=
  (List.range later.memory.size).filterMap fun offset =>
    let byte := Bytes.byteAt later.memory offset
    if Bytes.byteAt earlier.memory offset = byte then none else some (offset, byte)

end RvLift.Machine
