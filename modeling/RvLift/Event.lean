/-!
# Events

What a pass reports while it works: a level, a message and named values.
-/

namespace RvLift

/-- How much an event matters, least first. -/
inductive Level where
  | debug | info | warn
  deriving DecidableEq, Repr

/-- The name of a level. -/
def Level.name : Level → String
  | .debug => "DEBUG"
  | .info => "INFO"
  | .warn => "WARN"

/-- One reported event. -/
structure Event where
  /-- How much it matters. -/
  level : Level
  /-- What happened. -/
  message : String
  /-- Named values, in order. -/
  fields : List (String × String) := []
  deriving DecidableEq, Repr

/-- The line of an event: level, message, and each value behind its name. -/
def Event.text (event : Event) : String :=
  event.level.name ++ " " ++ event.message ++
    String.join (event.fields.map fun (name, value) => " " ++ name ++ "=" ++ value)

end RvLift
