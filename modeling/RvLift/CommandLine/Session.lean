import RvLift.CommandLine.Options
import RvLift.Compile
import RvLift.Elf.Load
import RvLift.Machine.Run

/-!
# Command-line sessions

What the command does with its arguments: read an image, write its source text, and run the program
if asked to. A session is written against a `Host`, which supplies files and output channels, so it
can be carried out for real or in memory.
-/

namespace RvLift.CommandLine

/-- Why a file cannot be read or written. -/
inductive FileError where
  | notFound
  | isDirectory
  | notDirectory
  | nameTooLong
  | noSpace
  | noDevice
  | other (text : String)
  deriving DecidableEq, Repr

/-- The wording of a file error. -/
def FileError.message : FileError → String
  | .notFound => "No such file or directory (os error 2)"
  | .isDirectory => "Is a directory (os error 21)"
  | .notDirectory => "Not a directory (os error 20)"
  | .nameTooLong => "File name too long (os error 36)"
  | .noSpace => "No space left on device (os error 28)"
  | .noDevice => "No such device or address (os error 6)"
  | .other text => text

/-- What a session needs from its surroundings. -/
structure Host (m : Type → Type) where
  /-- The contents of a file. -/
  readFile : String → m (Except FileError ByteArray)
  /-- Replace the contents of a file. -/
  writeFile : String → String → m (Except FileError Unit)
  /-- Write text to the output channel. -/
  print : String → m Unit
  /-- Write a line to the message channel. -/
  message : String → m Unit

/-- A failed session: what was being done, and why it failed, the nearest cause first. -/
structure Failure where
  /-- What was being done. -/
  context : String
  /-- The causes. -/
  causes : List String
  deriving DecidableEq, Repr

/-- The lines that report a failure; several causes are numbered. -/
def Failure.lines (failure : Failure) : List String :=
  let causes := match failure.causes with
    | [cause] => ["    " ++ cause]
    | causes => causes.zipIdx.map fun (cause, position) =>
      "    " ++ Text.decimal position ++ ": " ++ cause
  ["Error: " ++ failure.context, "", "Caused by:"] ++ causes

/-- The causes of a loading error: a structural error is named once more by itself, and if it is
about reading a value, the value that cannot be read is a cause of its own. -/
def loadCauses (error : Elf.LoadError) : List String :=
  match error with
  | .parse cause =>
    error.message :: List.replicate (if cause.isUnreadable then 2 else 1) cause.message
  | _ => [error.message]

/-- The outcome of loading, compiling or running, with the events reported before it. -/
structure Stage (α : Type) where
  /-- What was reported. -/
  events : List Event
  /-- The result or why there is none. -/
  outcome : Except Failure α

/-- The settings that the options ask for. -/
def Options.settings (options : Options) : Settings where
  base := options.base
  haltAddress := options.haltAddress
  annotate := options.debug

/-- The image in the contents of the input file. -/
def Options.loadImage (options : Options) (bytes : ByteArray) : Stage Image :=
  if options.elf then
    match Elf.load bytes options.base with
    | .error error => ⟨[], .error ⟨"Failed to load ELF", loadCauses error⟩⟩
    | .ok loaded => ⟨loaded.events, .ok loaded.image⟩
  else ⟨[], .ok ⟨options.base, bytes⟩⟩

/-- The event that ends loading. -/
def loadedEvent (image : Image) : Event where
  level := .debug
  message := "loaded image at " ++ Text.address image.base.toNat
  fields := [("bytes", Text.decimal image.size)]

/-- The compiled form of the contents of the input file. -/
def Options.compile (options : Options) (bytes : ByteArray) : Stage Compiled :=
  let loaded := options.loadImage bytes
  match loaded.outcome with
  | .error failure => ⟨loaded.events, .error failure⟩
  | .ok image =>
    let compiled := image.compile options.settings
    ⟨loaded.events ++ loadedEvent image :: compiled.events, .ok compiled⟩

/-- The event that ends writing. -/
def wroteEvent (output : String) (compiled : Compiled) : Event where
  level := .info
  message := "wrote " ++ Terminal.spelled output
  fields := [("blocks", Text.decimal compiled.program.blockCount),
    ("diagnostics", Text.decimal compiled.program.diagnostics.size),
    ("bytes", Text.decimal compiled.source.utf8ByteSize)]

/-- How the end of a run is named in events. -/
def exitText : Exit → String
  | .returned value => "Returned(" ++ Text.decimal value.toNat ++ ")"
  | .fellThrough => "FellThrough"

/-- The event that ends a run. -/
def ranEvent (exit : Exit) : Event where
  level := .info
  message := "run() returned " ++ Text.decimal exit.code.toNat
  fields := [("exit", exitText exit)]

/-- Run the compiled program, if the options ask for it. -/
def Options.execute (options : Options) (compiled : Compiled) : Stage Unit :=
  if options.run then
    let machine := Machine.ofImageSized compiled.image options.memSize
    match (compiled.program.run options.maxSteps machine).1 with
    | .error error => ⟨[], .error ⟨"Reference execution failed", [error.message]⟩⟩
    | .ok exit => ⟨[ranEvent exit], .ok ()⟩
  else ⟨[], .ok ()⟩

/-- Whether events of a level are shown. -/
def Options.shows (options : Options) (level : Level) : Bool :=
  options.verbose || level != .debug

section

variable {m : Type → Type} [Monad m]

/-- Show the events of a stage and go on with its result. -/
def Host.stage {α : Type} (host : Host m) (options : Options) (stage : Stage α) :
    ExceptT Failure m α := do
  for event in stage.events do
    if options.shows event.level then
      host.message event.text
  stage.outcome

/-- Carry out a file operation, naming what it was for if it fails. -/
def inContext {α : Type} (context : String) (action : m (Except FileError α)) :
    ExceptT Failure m α := do
  match ← action with
  | .ok value => return value
  | .error error => throw ⟨context, [error.message]⟩

/-- Compile a file into another. -/
def Host.compileFile (host : Host m) (options : Options) (input output : String) :
    ExceptT Failure m Unit := do
  let bytes ← inContext ("Failed to read input " ++ input) (host.readFile input)
  let compiled ← host.stage options (options.compile bytes)
  inContext ("Failed to create output " ++ output) (host.writeFile output compiled.source)
  host.stage options ⟨[wroteEvent output compiled], .ok ()⟩
  host.stage options (options.execute compiled)

/-- Do what the options ask for. The result is the exit status. -/
def Host.perform (host : Host m) (options : Options) : m UInt32 := do
  match options.input?, options.output? with
  | some input, some output =>
    match ← (host.compileFile options input output).run with
    | .ok () => return 0
    | .error failure =>
      for line in failure.lines do
        host.message line
      return 1
  | _, _ =>
    host.print helpText
    return 0

/-- Carry out a command line. The result is the exit status. -/
def Host.session (host : Host m) (arguments : List String) : m UInt32 := do
  match Options.parse arguments with
  | .ok options => host.perform options
  | .error .help =>
    host.print helpText
    return 0
  | .error .version =>
    host.print versionText
    return 0
  | .error (.usage error) =>
    host.message (Terminal.plain .resumed error.report)
    return 2

end

end RvLift.CommandLine
