import RvLift.CommandLine.Session

/-!
# The command

Carries out its arguments on the files of the system.
-/

namespace RvLift

open CommandLine

/-- The file error of a system error, whose number may come with either sign. -/
def fileError : IO.Error → FileError
  | .noFileOrDirectory .. => .notFound
  | .inappropriateType _ code _ =>
    if code = 20 ∨ 0 - code = 20 then .notDirectory else .isDirectory
  | error@(.invalidArgument _ code _) =>
    if code = 36 ∨ 0 - code = 36 then .nameTooLong else .other error.toString
  | error@(.resourceExhausted _ code _) =>
    if code = 28 ∨ 0 - code = 28 then .noSpace else .other error.toString
  | error@(.noSuchThing _ code _) =>
    if code = 6 ∨ 0 - code = 6 then .noDevice else .other error.toString
  | error => .other error.toString

/-- Carry out a file operation, keeping its error. -/
def attempt {α : Type} (action : IO α) : IO (Except FileError α) := do
  match ← action.toBaseIO with
  | .ok value => return .ok value
  | .error error => return .error (fileError error)

/-- The host that works on the files of the system. -/
def systemHost : Host IO where
  readFile path := attempt (IO.FS.readBinFile path)
  writeFile path text := attempt (IO.FS.writeFile path text)
  print := IO.print
  message := IO.eprintln

end RvLift

/-- Carry out the command line. -/
def main (arguments : List String) : IO UInt32 :=
  RvLift.systemHost.session arguments
