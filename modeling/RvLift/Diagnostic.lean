import RvLift.Block.Basic
import RvLift.Event

/-!
# Diagnostics

What a pass finds wrong with an image, in address order. Only the first unsupported word is brought
to the user's attention; the report mentions every other entry quietly.
-/

namespace RvLift

/-- What is wrong with a word. -/
inductive Reason where
  /-- It encodes no instruction. -/
  | unsupported (error : DecodeError)
  /-- It jumps to an address that has no block. -/
  | targetOutside (target : Word)
  deriving DecidableEq, Repr

namespace Reason

/-- Whether the word encodes no instruction. -/
def isUnsupported : Reason → Bool
  | .unsupported _ => true
  | .targetOutside _ => false

/-- The wording of a reason. -/
def message : Reason → String
  | .unsupported error => error.message
  | .targetOutside target =>
    "target " ++ Text.address target.toNat ++ " has no block in the image"

end Reason

/-- One finding about the word at an address. -/
structure Diagnostic where
  /-- The address of the word. -/
  pc : Word
  /-- What is wrong with it. -/
  reason : Reason
  deriving DecidableEq, Repr

namespace Diagnostic

/-- Whether the word encodes no instruction. -/
def isUnsupported (diagnostic : Diagnostic) : Bool := diagnostic.reason.isUnsupported

/-- The wording of a finding. -/
def message (diagnostic : Diagnostic) : String :=
  let subject := match diagnostic.reason with
    | .unsupported _ => "unexpected instruction"
    | .targetOutside _ => "jump"
  subject ++ " at pc " ++ Text.address diagnostic.pc.toNat ++ ": " ++ diagnostic.reason.message

/-- The event that mentions a finding. -/
def event (level : Level) (diagnostic : Diagnostic) : Event :=
  { level := level, message := diagnostic.message }

end Diagnostic

/-- The findings of a pass, in order. -/
structure Diagnostics where
  /-- The findings. -/
  entries : List Diagnostic := []
  deriving DecidableEq, Repr

namespace Diagnostics

/-- Add a finding after the others. -/
def push (diagnostics : Diagnostics) (diagnostic : Diagnostic) : Diagnostics :=
  ⟨diagnostics.entries ++ [diagnostic]⟩

/-- The number of findings. -/
def size (diagnostics : Diagnostics) : Nat := diagnostics.entries.length

/-- Whether there is no finding. -/
def isEmpty (diagnostics : Diagnostics) : Bool := diagnostics.entries.isEmpty

/-- The finding brought to the user's attention: the first unsupported word. -/
def surfaced? (diagnostics : Diagnostics) : Option Diagnostic :=
  diagnostics.entries.find? Diagnostic.isUnsupported

/-- The position of the finding brought to the user's attention. Findings that are equal to it stand
at other positions. -/
def surfacedAt? (diagnostics : Diagnostics) : Option Nat :=
  diagnostics.entries.findIdx? Diagnostic.isUnsupported

/-- The events of a report: a warning of the finding brought to the user's attention, and then, for
each finding in order, a quiet event unless it is this very one. Findings are told apart by their
positions, so that equal ones are all mentioned. -/
def report (diagnostics : Diagnostics) : List Event :=
  let warning := diagnostics.surfaced?.map (Diagnostic.event .warn)
  let surfacedAt := diagnostics.surfacedAt?
  let others := diagnostics.entries.zipIdx.filterMap fun (diagnostic, position) =>
    if surfacedAt = some position then none else some (diagnostic.event .debug)
  warning.toList ++ others

end Diagnostics

/-- The finding about a block, if any: its word encodes no instruction, or it jumps to a known
address without a block. -/
def Block.diagnostic? (table : JumpTable) (block : Block) : Option Diagnostic :=
  match block.instruction with
  | .error error => some ⟨block.pc, .unsupported error⟩
  | .ok _ =>
    match block.terminator.staticTarget? with
    | none => none
    | some target =>
      match table.lookup? target.address with
      | some _ => none
      | none => some ⟨block.pc, .targetOutside target.address⟩

end RvLift
