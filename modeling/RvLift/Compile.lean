import RvLift.Target.Emit

/-!
# Compiling images

From an image to the program lifted from it, its source text and the events reported on the way.
-/

namespace RvLift

/-- The result of compiling an image. -/
structure Compiled where
  /-- The image. -/
  image : Image
  /-- The program lifted from it. -/
  program : Program
  /-- The source text of the program. -/
  source : String
  /-- What was reported. -/
  events : List Event

/-- The event that ends lifting. -/
def Program.liftedEvent (program : Program) (image : Image) : Event where
  level := .debug
  message := "translation complete"
  fields := [("blocks", Text.decimal program.blockCount),
    ("ignored_bytes", Text.decimal image.ignoredBytes),
    ("diagnostics", Text.decimal program.diagnostics.size)]

/-- Lift an image and emit its source text. -/
def Image.compile (image : Image) (settings : Settings) : Compiled :=
  let program := image.lift settings
  { image := image
    program := program
    source := program.source settings.annotate
    events := program.liftedEvent image :: program.diagnostics.report }

end RvLift
