import RvLift.CommandLine.Directory
import RvLift.CommandLine.Session
import RvLift.Text.Utf8

/-!
# Sessions in memory

A workspace is a file system in memory together with what has been written to the output and
message channels. A session in it needs nothing else, so its whole effect is a value.
-/

namespace RvLift.CommandLine

/-- Files and the two output channels. -/
structure Workspace where
  /-- The files by directory and name. -/
  files : List ((Directory × String) × ByteArray) := []
  /-- The text written to the output channel. -/
  output : String := ""
  /-- The text written to the message channel. -/
  messages : String := ""

/-- What a name stands for. -/
inductive Entry where
  /-- Another directory. -/
  | directory (directory : Directory)
  /-- A device. -/
  | device (device : Device)
  /-- A file with its contents. -/
  | file (bytes : ByteArray)

/-- Where a path leads before the last name in it is looked up. -/
inductive Goal where
  /-- To a directory that is known to exist. -/
  | directory
  /-- To a name in a directory. -/
  | name (parent : Directory) (name : String)
  deriving DecidableEq, Repr

namespace Workspace

/-- The workspace with files in the working directory. -/
def ofFiles (files : List (String × ByteArray)) : Workspace where
  files := files.map fun (name, bytes) => ((.working, name), bytes)

/-- The lines written to the message channel. -/
def messageLines (workspace : Workspace) : List String := Text.lines workspace.messages

/-- What a name in a directory stands for, if it is there. -/
def entry? (workspace : Workspace) (parent : Directory) (name : String) :
    Except FileError (Option Entry) :=
  if name.utf8ByteSize > maxNameSize ∧ ¬ parent.showsPrograms then .error .nameTooLong
  else
    match parent.child? name, Device.named? parent name with
    | some directory, _ => .ok (some (.directory directory))
    | none, some device => .ok (some (.device device))
    | none, none => .ok ((workspace.files.lookup (parent, name)).map .file)

/-- The directory that a part of a path leads to. -/
def enter (workspace : Workspace) (directory : Directory) (part : String) :
    Except FileError Directory := do
  if part = "." then
    return directory
  if part = ".." then
    return directory.parent
  match ← workspace.entry? directory part with
  | some (.directory next) => return next
  | some _ => throw .notDirectory
  | none => throw .notFound

/-- Follow the parts of a path up to the last one. -/
def follow (workspace : Workspace) (directory : Directory) : List String → Except FileError Goal
  | [] => .ok .directory
  | [last] => .ok (if last ∈ [".", ".."] then .directory else .name directory last)
  | part :: rest => do workspace.follow (← workspace.enter directory part) rest

/-- Where the text of a path leads. -/
def goal (workspace : Workspace) (text : String) : Except FileError Goal :=
  if text.utf8ByteSize > maxPathSize then .error .nameTooLong
  else workspace.follow (Path.ofText text).start (Path.ofText text).parts

/-- What can be read from a device: nothing, unless it cannot be opened. -/
def readDevice : Device → Except FileError ByteArray
  | .terminal => .error .noDevice
  | _ => .ok .empty

/-- The contents of the file at a path. -/
def read (workspace : Workspace) (path : String) : Except FileError ByteArray := do
  match ← workspace.goal path with
  | .directory => throw .isDirectory
  | .name parent name =>
    match ← workspace.entry? parent name with
    | none => throw .notFound
    | some (.directory _) => throw .isDirectory
    | some found =>
      if (Path.ofText path).slashed then
        throw .notDirectory
      match found with
      | .file bytes => return bytes
      | .device device => readDevice device
      | .directory _ => throw .isDirectory

/-- The workspace after text has been written to a device. -/
def writeDevice (workspace : Workspace) (text : String) : Device → Except FileError Workspace
  | .null => .ok workspace
  | .full => .error .noSpace
  | .output => .ok { workspace with output := workspace.output ++ text }
  | .messages => .ok { workspace with messages := workspace.messages ++ text }
  | .terminal => .error .noDevice

/-- The workspace after a file has been replaced. -/
def writeFile (workspace : Workspace) (text : String) (parent : Directory) (name : String) :
    Except FileError Workspace :=
  if parent.showsPrograms then .error .notFound
  else
    let others := workspace.files.filter (·.1 ≠ (parent, name))
    .ok { workspace with files := ((parent, name), text.toUTF8) :: others }

/-- The workspace after text has been written to the file at a path. A path with a slash at its end
cannot lead to a file, so what its last name stands for does not matter. -/
def write (workspace : Workspace) (path text : String) : Except FileError Workspace := do
  match ← workspace.goal path with
  | .directory => throw .isDirectory
  | .name parent name =>
    if (Path.ofText path).slashed then
      throw .isDirectory
    match ← workspace.entry? parent name with
    | some (.directory _) => throw .isDirectory
    | some (.device device) => workspace.writeDevice text device
    | _ => workspace.writeFile text parent name

/-- The text of the file at a path, if it can be read. -/
def text? (workspace : Workspace) (path : String) : Option String :=
  (workspace.read path).toOption.map Text.readable

/-- The host whose files and channels are those of a workspace. -/
def host : Host (StateM Workspace) where
  readFile path := do return (← get).read path
  writeFile path text := do
    match (← get).write path text with
    | .error error => return .error error
    | .ok workspace =>
      set workspace
      return .ok ()
  print text := modify fun workspace => { workspace with output := workspace.output ++ text }
  message line := modify fun workspace =>
    { workspace with messages := workspace.messages ++ line ++ "\n" }

/-- The exit status and the workspace after a command line has been carried out. -/
def session (workspace : Workspace) (arguments : List String) : UInt32 × Workspace :=
  (host.session arguments).run workspace

end Workspace

end RvLift.CommandLine
