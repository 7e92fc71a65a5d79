import RvLift.Block.Basic
import RvLift.Machine.Basic

/-!
# The meaning of blocks

A block reads the registers as they are when it is entered, whatever it writes. What it does is
first worked out, a register write and a transfer of control, and only then applied; an access
outside memory in any of its expressions leaves nothing to apply.
-/

namespace RvLift

/-- The values of the temporaries. -/
abbrev Temps := Temp → Word

/-- The temporaries on entry to a block. -/
def Temps.initial : Temps := fun _ => 0

/-- The temporaries after giving one of them a value. -/
def Temps.set (temps : Temps) (temp : Temp) (value : Word) : Temps :=
  fun other => if other = temp then value else temps other

/-- The value of an expression, or the access outside memory that it makes first. Operands are
evaluated from the left. -/
def Expr.eval (machine : Machine) (temps : Temps) : Expr → Except Access Word
  | .imm value => .ok value
  | .reg source => .ok (machine.reg source)
  | .temp source => .ok (temps source)
  | .alu op left right => do
    let leftValue ← left.eval machine temps
    let rightValue ← right.eval machine temps
    return op.apply leftValue rightValue
  | .mulDiv op left right => do
    let leftValue ← left.eval machine temps
    let rightValue ← right.eval machine temps
    return op.apply leftValue rightValue
  | .load width signed offset => do
    let start ← offset.eval machine temps
    let value ← machine.load ⟨start, width⟩
    return if signed then width.signExtend value else value

/-- What the statements of a block have worked out. -/
structure Frame where
  /-- The values of the temporaries. -/
  temps : Temps
  /-- The register write that is due, the last one if there are several. -/
  writeback : Option (Reg × Word)

/-- The frame on entry to a block. -/
def Frame.initial : Frame := ⟨Temps.initial, none⟩

/-- Take one statement into account. -/
def Stmt.eval (machine : Machine) (frame : Frame) : Stmt → Except Access Frame
  | .define temp value => do
    let result ← value.eval machine frame.temps
    return { frame with temps := frame.temps.set temp result }
  | .write rd value => do
    let result ← value.eval machine frame.temps
    return { frame with writeback := some (rd, result) }

/-- What a terminator asks for. -/
inductive Transfer where
  /-- Go on with the next block. -/
  | next
  /-- Jump to an address. -/
  | jump (target : Word)
  /-- End the program with a value. -/
  | halt (value : Word)
  /-- Store a value and go on with the next block. -/
  | store (access : Access) (value : Word)
  deriving DecidableEq, Repr

/-- What a terminator asks for. The stored value is evaluated before the address, and the offset
only if the address is not the halt address. -/
def Terminator.eval (machine : Machine) (haltAddress : Word) (temps : Temps) :
    Terminator → Except Access Transfer
  | .fallthrough => .ok .next
  | .jump target => .ok (.jump target.address)
  | .branch cond left right target => do
    let leftValue ← left.eval machine temps
    let rightValue ← right.eval machine temps
    return if cond.holds leftValue rightValue then .jump target.address else .next
  | .dispatch target => do
    let address ← target.eval machine temps
    return .jump address
  | .haltOrStore width address offset value => do
    let stored ← value.eval machine temps
    if (← address.eval machine temps) = haltAddress then
      return .halt stored
    else
      let start ← offset.eval machine temps
      return .store ⟨start, width⟩ stored

/-- The register write and the transfer of control that a block comes to. -/
def Block.eval (machine : Machine) (haltAddress : Word) (block : Block) :
    Except Access (Option (Reg × Word) × Transfer) := do
  let frame ← block.stmts.foldlM (Stmt.eval machine) Frame.initial
  let transfer ← block.terminator.eval machine haltAddress frame.temps
  return (frame.writeback, transfer)

end RvLift
