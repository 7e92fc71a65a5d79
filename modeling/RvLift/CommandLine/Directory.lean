/-!
# Directories and paths

A small model of a file system as paths see it: the standard directories from the top of the file
system down, the working directory inside one of them, and the devices that stand for the channels
of a program, for nothing and for a full disk.
-/

namespace RvLift.CommandLine

/-- The directories that paths can lead to. -/
inductive Directory where
  /-- The one that paths without a leading slash start from. -/
  | working
  /-- The one reached by names from the top of the file system. -/
  | absolute (names : List String)
  deriving DecidableEq, Repr

namespace Directory

/-- The top of the file system. -/
def root : Directory := .absolute []

/-- The open channels of the program, by number. -/
def channels : Directory := .absolute ["proc", "self", "fd"]

/-- The directory for temporary files, which holds the working directory. -/
def temporary : Directory := .absolute ["tmp"]

/-- The directory that holds a directory; the top holds itself, so enough steps up from any
directory end there. -/
def parent : Directory → Directory
  | .working => temporary
  | .absolute names => .absolute names.dropLast

/-- The standard directories. -/
def standard : List (List String) :=
  ["bin", "boot", "dev", "etc", "home", "lib", "lib64", "media", "mnt", "opt", "proc", "root",
    "run", "sbin", "srv", "sys", "tmp", "usr", "var"].map ([·]) ++
  ["mqueue", "pts", "shm"].map (["dev", ·]) ++
  ["bin", "lib", "local", "sbin", "share"].map (["usr", ·]) ++
  ["lib", "log", "tmp"].map (["var", ·]) ++
  [["proc", "self"], ["proc", "self", "fd"]]

/-- Other names of directories. -/
def links : List (List String × Directory) :=
  [(["dev", "fd"], channels), (["proc", "self", "cwd"], .working), (["proc", "self", "root"], root)]

/-- The directory with a name in a directory. -/
def child? (directory : Directory) (name : String) : Option Directory :=
  match directory with
  | .working => none
  | .absolute names =>
    let path := names ++ [name]
    if path ∈ standard then some (.absolute path) else links.lookup path

/-- Whether a directory shows running programs: nothing can be added to it, and a name in it may
have any size. -/
def showsPrograms : Directory → Bool
  | .absolute ("proc" :: _) => true
  | _ => false

end Directory

/-- Files that stand for something other than stored bytes. -/
inductive Device where
  /-- Takes every text and keeps none; also the input channel, which has nothing to read. -/
  | null
  /-- Has no room for any text. -/
  | full
  /-- The output channel. -/
  | output
  /-- The message channel. -/
  | messages
  /-- The terminal of a program that has none. -/
  | terminal
  deriving DecidableEq, Repr

namespace Device

/-- The devices by the names that lead to them from the top. -/
def standard : List (List String × Device) :=
  [(["dev", "null"], .null), (["dev", "zero"], .null), (["dev", "random"], .null),
    (["dev", "urandom"], .null), (["dev", "full"], .full), (["dev", "tty"], .terminal),
    (["dev", "stdin"], .null), (["dev", "stdout"], .output), (["dev", "stderr"], .messages),
    (["proc", "self", "fd", "0"], .null), (["proc", "self", "fd", "1"], .output),
    (["proc", "self", "fd", "2"], .messages)]

/-- The device with a name in a directory. -/
def named? (directory : Directory) (name : String) : Option Device :=
  match directory with
  | .working => none
  | .absolute names => standard.lookup (names ++ [name])

end Device

/-- A path in parts: names, `.` for the directory reached so far and `..` for the one above it. -/
structure Path where
  /-- Where it starts. -/
  start : Directory
  /-- The parts between slashes. -/
  parts : List String
  /-- Whether it ends with a slash, which says that it leads to a directory. -/
  slashed : Bool
  deriving DecidableEq, Repr

/-- The path that a text spells; several slashes count as one. -/
def Path.ofText (text : String) : Path where
  start := if text.startsWith "/" then .root else .working
  parts := (text.splitOn "/").filter (· ≠ "")
  slashed := text.endsWith "/"

/-- The most bytes of a name. -/
def maxNameSize : Nat := 255

/-- The most bytes of the text of a path. -/
def maxPathSize : Nat := 4095

end RvLift.CommandLine
