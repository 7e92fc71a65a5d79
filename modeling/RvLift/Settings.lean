import RvLift.Word

/-!
# Settings

Where guest memory starts, which address halts the program, and how much the emitted code explains.
-/

namespace RvLift

/-- The settings of one lifting pass. -/
structure Settings where
  /-- The address of the first byte of guest memory; accesses are made relative to it. -/
  base : Word := 0x80000000
  /-- The address whose stores end the program. -/
  haltAddress : Word := 0x11100000
  /-- Whether every emitted block names its instruction. -/
  annotate : Bool := false
  deriving DecidableEq, Repr

end RvLift
