import RvLift.Settings
import RvLift.Terminal
import RvLift.Text.Lines
import RvLift.Text.Numeral

/-!
# Command-line options

Arguments are taken from left to right. The value of an option is checked only when the next known
argument is met or the arguments end, so an unknown argument right behind a bad value is the one
complained about. An option or flag may be given once. Behind `--` everything is positional.
-/

namespace RvLift.CommandLine

/-- Everything that can be given on the command line. -/
inductive Argument where
  | input | output
  | base | haltAddr | maxSteps | memSize
  | elf | debug | run | verbose
  | help | version
  deriving DecidableEq, Repr

namespace Argument

/-- The name behind `--`; positional arguments have none. -/
def longName? : Argument → Option String
  | .input | .output => none
  | .base => some "base"
  | .haltAddr => some "halt-addr"
  | .maxSteps => some "max-steps"
  | .memSize => some "mem-size"
  | .elf => some "elf"
  | .debug => some "debug"
  | .run => some "run"
  | .verbose => some "verbose"
  | .help => some "help"
  | .version => some "version"

/-- The name of the value; flags have none. -/
def valueName? : Argument → Option String
  | .input => some "INPUT"
  | .output => some "OUTPUT"
  | .base => some "BASE"
  | .haltAddr => some "HALT_ADDR"
  | .maxSteps => some "MAX_STEPS"
  | .memSize => some "MEM_SIZE"
  | .elf | .debug | .run | .verbose | .help | .version => none

/-- How an argument is written in messages. -/
def text (argument : Argument) : String :=
  match argument.longName?, argument.valueName? with
  | some name, some value => "--" ++ name ++ " <" ++ value ++ ">"
  | some name, none => "--" ++ name
  | none, some value => "[" ++ value ++ "]"
  | none, none => ""

/-- The options and flags. -/
def named : List Argument :=
  [.base, .haltAddr, .maxSteps, .memSize, .elf, .debug, .run, .verbose, .help, .version]

/-- The option or flag with a long name. -/
def ofLongName? (name : String) : Option Argument :=
  named.find? (·.longName? == some name)

/-- The flag with a one-letter name. -/
def ofShortName? : Char → Option Argument
  | 'v' => some .verbose
  | 'h' => some .help
  | 'V' => some .version
  | _ => none

end Argument

/-- What the command line asks for. -/
structure Options where
  /-- The file to read. -/
  input? : Option String := none
  /-- The file to write. -/
  output? : Option String := none
  /-- The address of the first byte. -/
  base : Word := ({} : Settings).base
  /-- The address whose stores end the program. -/
  haltAddress : Word := ({} : Settings).haltAddress
  /-- Whether the input is an ELF file. -/
  elf : Bool := false
  /-- Whether every emitted block names its instruction. -/
  debug : Bool := false
  /-- Whether to run the program. -/
  run : Bool := false
  /-- The most blocks that a run may enter. -/
  maxSteps : Nat := 100000000
  /-- The size of guest memory for a run. -/
  memSize : Nat := 16777216
  /-- Whether to report events of every level. -/
  verbose : Bool := false
  deriving DecidableEq, Repr

/-- What is wrong with a command line. -/
inductive UsageError where
  /-- No such argument is known. -/
  | unknown (text : String)
  /-- An option or flag is given twice. -/
  | repeated (argument : Argument)
  /-- An option or positional argument has no value. -/
  | missingValue (argument : Argument)
  /-- A value cannot be read. -/
  | badValue (argument : Argument) (value reason : String)
  /-- A flag is given a value. -/
  | unexpectedValue (argument : Argument) (value : String)
  deriving DecidableEq, Repr

/-- Text in quotes, marked for a terminal. -/
def quoted (text : String) : String := "'" ++ Terminal.marked text ++ "'"

/-- What is wrong, with the marks of a terminal around arguments and values. -/
def UsageError.markedText : UsageError → String
  | .unknown text => "unexpected argument " ++ quoted text ++ " found"
  | .repeated argument =>
    "the argument " ++ quoted argument.text ++ " cannot be used multiple times"
  | .missingValue argument =>
    "a value is required for " ++ quoted argument.text ++ " but none was supplied"
  | .badValue argument value reason =>
    "invalid value " ++ quoted value ++ " for " ++ quoted argument.text ++ ": " ++ reason
  | .unexpectedValue argument value =>
    "unexpected value " ++ quoted value ++ " for " ++ quoted argument.text ++
      " found; no more were expected"

/-- The report of a usage error, with the marks of a terminal. Control sequences are left out of it
as a whole, so one that is cut short in a reason takes along what follows the reason. -/
def UsageError.report (error : UsageError) : String :=
  "error: " ++ error.markedText ++ "\n\nFor more information, try " ++ quoted "--help" ++ "."

/-- The first line of the report, without control sequences. -/
def UsageError.message (error : UsageError) : String :=
  Text.firstLine (Terminal.plain .forgotten error.report)

/-- Why there is nothing to do after reading the command line. -/
inductive Stop where
  /-- The help text was asked for. -/
  | help
  /-- The version was asked for. -/
  | version
  /-- The command line is wrong. -/
  | usage (error : UsageError)
  deriving DecidableEq, Repr

namespace Options

/-- Read the value of an argument; the argument is named if the value cannot be read. -/
def readValue {α ε : Type} (read : String → Except ε α) (reason : ε → String)
    (argument : Argument) (value : String) : Except Stop α :=
  (read value).mapError fun error => .usage (.badValue argument value (reason error))

/-- Read the address that is the value of an argument. -/
def readAddress : Argument → String → Except Stop Word :=
  readValue Text.readAddress Text.AddressError.message

/-- Read the size that is the value of an argument. -/
def readSize : Argument → String → Except Stop Nat :=
  readValue Text.readSize Text.AddressError.message

/-- Read the 64-bit number that is the value of an argument. -/
def readCount : Argument → String → Except Stop Nat :=
  readValue (fun value => Text.readNumeral 10 0x10000000000000000 value.toList)
    Text.NumeralError.message

/-- Read the file name that is the value of an argument. -/
def readPath (argument : Argument) (value : String) : Except Stop String :=
  if value.isEmpty then .error (.usage (.missingValue argument)) else .ok value

/-- Give an argument its value. -/
def assign (options : Options) (argument : Argument) (value : String) : Except Stop Options :=
  match argument with
  | .input => return { options with input? := some (← readPath argument value) }
  | .output => return { options with output? := some (← readPath argument value) }
  | .base => return { options with base := ← readAddress argument value }
  | .haltAddr => return { options with haltAddress := ← readAddress argument value }
  | .maxSteps => return { options with maxSteps := ← readCount argument value }
  | .memSize => return { options with memSize := ← readSize argument value }
  | .elf | .debug | .run | .verbose | .help | .version =>
    .error (.usage (.unexpectedValue argument value))

/-- Take a flag into account. -/
def enable (options : Options) (argument : Argument) : Except Stop Options :=
  match argument with
  | .elf => .ok { options with elf := true }
  | .debug => .ok { options with debug := true }
  | .run => .ok { options with run := true }
  | .verbose => .ok { options with verbose := true }
  | .help => .error .help
  | .version => .error .version
  | .input | .output | .base | .haltAddr | .maxSteps | .memSize =>
    .error (.usage (.missingValue argument))

end Options

/-- How far the command line has been read. -/
structure Progress where
  /-- What it has asked for so far. -/
  options : Options := {}
  /-- The arguments that have been taken into account. -/
  given : List Argument := []
  /-- An argument that is yet to be taken into account, with its value once it is known. -/
  pending? : Option (Argument × Option String) := none
  /-- The positional arguments that may still come. -/
  places : List Argument := [.input, .output]
  /-- Whether only positional arguments follow. -/
  onlyPositional : Bool := false

namespace Progress

/-- Refuse an argument that has been given before. -/
def once (progress : Progress) (argument : Argument) : Except Stop Unit :=
  if argument ∈ progress.given then .error (.usage (.repeated argument)) else .ok ()

/-- Take the pending argument into account. -/
def settle (progress : Progress) : Except Stop Progress :=
  match progress.pending? with
  | none => .ok progress
  | some (argument, none) => .error (.usage (.missingValue argument))
  | some (argument, some value) => do
    progress.once argument
    let options ← progress.options.assign argument value
    return { progress with options, given := argument :: progress.given, pending? := none }

/-- Leave an argument pending behind those before it. -/
def await (progress : Progress) (argument : Argument) (value? : Option String) :
    Except Stop Progress := do
  let progress ← progress.settle
  return { progress with pending? := some (argument, value?) }

/-- Take a flag into account. -/
def flag (progress : Progress) (argument : Argument) : Except Stop Progress := do
  let progress ← progress.settle
  progress.once argument
  let options ← progress.options.enable argument
  return { progress with options, given := argument :: progress.given }

/-- Take a positional argument. -/
def positional (progress : Progress) (text : String) : Except Stop Progress :=
  match progress.places with
  | [] => .error (.usage (.unknown text))
  | place :: places => do
    let progress ← progress.await place (some text)
    return { progress with places }

/-- Take an option or flag by its long name, with the value attached to it. -/
def long (progress : Progress) (name : String) (value? : Option String) :
    Except Stop Progress :=
  match Argument.ofLongName? name with
  | none => .error (.usage (.unknown ("--" ++ name)))
  | some argument =>
    match argument.valueName?, value? with
    | some _, none => progress.await argument none
    | some _, some value => do (← progress.await argument (some value)).settle
    | none, some value => .error (.usage (.unexpectedValue argument value))
    | none, none => progress.flag argument

/-- Take flags by their one-letter names. -/
def short (progress : Progress) : List Char → Except Stop Progress
  | [] => .ok progress
  | letter :: rest =>
    match Argument.ofShortName? letter with
    | none => .error (.usage (.unknown ("-" ++ letter.toString)))
    | some argument => do (← progress.flag argument).short rest

/-- The value behind the first equals sign, if there is one. -/
def attachedValue? (characters : List Char) : Option String :=
  match characters.dropWhile (· ≠ '=') with
  | [] => none
  | _ :: value => some (String.ofList value)

/-- Take a text that stands alone: the value of the pending option, or a positional argument. -/
def plain (progress : Progress) (text : String) : Except Stop Progress :=
  match progress.pending? with
  | some (argument, none) => .ok { progress with pending? := some (argument, some text) }
  | _ => progress.positional text

/-- Take the next argument. -/
def take (progress : Progress) (text : String) : Except Stop Progress :=
  if progress.onlyPositional then progress.positional text
  else
    match text.toList with
    | ['-', '-'] => .ok { progress with onlyPositional := true }
    | '-' :: '-' :: rest =>
      progress.long (String.ofList (rest.takeWhile (· ≠ '='))) (attachedValue? rest)
    | '-' :: letter :: rest => progress.short (letter :: rest)
    | _ => progress.plain text

end Progress

/-- Read the arguments of a command line. -/
def Options.parse (arguments : List String) : Except Stop Options := do
  let progress ← arguments.foldlM Progress.take {}
  return (← progress.settle).options

/-- The version text. -/
def versionText : String := "rv2c 0.1.0\n"

/-- The help text. -/
def helpText : String :=
  String.join ([
    "RV32IM to C static translator",
    "",
    "Usage: rv2c [OPTIONS] [INPUT] [OUTPUT]",
    "",
    "Arguments:",
    "  [INPUT]   Input memory image (raw bytes, or ELF with --elf)",
    "  [OUTPUT]  Output C/C++ file",
    "",
    "Options:",
    "      --base <BASE>            Guest address of the first image byte [default: 2147483648]",
    "      --halt-addr <HALT_ADDR>  Stores to this address halt the program [default: 286261248]",
    "      --elf                    Input is an ELF32 executable; its PT_LOAD segments are " ++
      "flattened from --base",
    "      --debug                  Annotate every block with its disassembly",
    "      --run                    Also execute the translation with the reference executor",
    "      --max-steps <MAX_STEPS>  Block limit for --run [default: 100000000]",
    "      --mem-size <MEM_SIZE>    Guest RAM size in bytes for --run [default: 16777216]",
    "  -v, --verbose                Verbose output",
    "  -h, --help                   Print help",
    "  -V, --version                Print version"].map (· ++ "\n"))

end RvLift.CommandLine
