import RvLift.Text.Digits

/-!
# Terminal text

Text for a terminal may hold control sequences, which a terminal obeys and does not show. They
start with the escape character; `plain` leaves them out, as for a reader that is no terminal. A
sequence that is cut short takes what follows it along, up to where it would have ended. A layout
character inside a sequence interrupts it and is shown; what becomes of the sequence then is up to
the reader.
-/

namespace RvLift.Terminal

/-- The character that starts a control sequence. -/
def escape : Char := '\x1b'

/-- What the characters read so far have begun. -/
inductive Mode where
  /-- Nothing: characters are shown. -/
  | shown
  /-- A sequence of which only the escape character has been read. -/
  | escaped
  /-- A sequence that ends with a digit or letter. -/
  | selecting
  /-- A sequence of parameters that ends with a letter. -/
  | control
  /-- A device command before its parameters. -/
  | device
  /-- A device command in its parameters. -/
  | deviceParameters
  /-- A device command behind its parameters. -/
  | deviceSelecting
  /-- The text of a device command or of a message to the terminal. -/
  | message
  /-- A command to the system, such as a new window title. -/
  | system
  deriving DecidableEq, Repr

/-- Whether the code of a character lies in a range. -/
def within (low high : Nat) (character : Char) : Bool :=
  low ≤ character.toNat && character.toNat ≤ high

/-- Whether a control character only moves on: tab, line feed, form feed or carriage return. -/
def isLayout (character : Char) : Bool := character ∈ ['\t', '\n', '\x0c', '\r']

/-- Whether a character ends every sequence without being part of it. -/
def isCancel (character : Char) : Bool := character ∈ ['\x18', '\x1a']

/-- Whether the bytes of a character hold the terminator of messages. -/
def holdsTerminator (character : Char) : Bool :=
  (String.utf8EncodeChar character).contains 0x9c

namespace Mode

/-- Whether a character is shown. -/
def shows (mode : Mode) (character : Char) : Bool :=
  match mode with
  | .shown => isLayout character || (0x20 ≤ character.toNat && character.toNat ≠ 0x7f)
  | .escaped | .selecting | .control => isLayout character
  | _ => false

/-- The mode behind the character that follows an escape character. -/
def ofSelector (character : Char) : Mode :=
  if character = '[' then .control
  else if character = ']' then .system
  else if character = 'P' then .device
  else if character ∈ ['X', '^', '_'] then .message
  else if within 0x20 0x2f character then .selecting
  else if within 0x30 0x7e character then .shown
  else .escaped

/-- The mode behind a character that neither starts nor cancels a sequence. -/
def proceed (mode : Mode) (character : Char) : Mode :=
  match mode with
  | .shown => .shown
  | .escaped => ofSelector character
  | .selecting => if within 0x30 0x7e character then .shown else .selecting
  | .control => if within 0x40 0x7e character then .shown else .control
  | .device =>
    if within 0x20 0x2f character then .deviceSelecting
    else if within 0x30 0x3f character then .deviceParameters
    else if within 0x40 0x7e character then .message
    else .device
  | .deviceParameters =>
    if within 0x20 0x2f character then .deviceSelecting
    else if within 0x3c 0x7e character then .message
    else .deviceParameters
  | .deviceSelecting => if within 0x30 0x7e character then .message else .deviceSelecting
  | .message => if holdsTerminator character then .shown else .message
  | .system => if character = '\x07' then .shown else .system

/-- The mode behind a character that is not shown. -/
def next (mode : Mode) (character : Char) : Mode :=
  if character = escape then .escaped
  else if isCancel character then .shown
  else mode.proceed character

end Mode

/-- What becomes of a sequence that a layout character has interrupted. -/
inductive Interruption where
  /-- It is forgotten. -/
  | forgotten
  /-- It goes on with the next character that is not shown, unless one beyond ASCII is shown
  before. -/
  | resumed
  deriving DecidableEq, Repr

/-- How far a text has been read. -/
structure Progress where
  /-- The sequence that has been begun. -/
  mode : Mode := .shown
  /-- Whether it is interrupted, so that characters are shown. -/
  interrupted : Bool := false
  deriving DecidableEq, Repr

namespace Progress

/-- Whether a character is shown. -/
def shows (progress : Progress) (character : Char) : Bool :=
  if progress.interrupted then Mode.shown.shows character else progress.mode.shows character

/-- The progress behind a character. -/
def next (interruption : Interruption) (progress : Progress) (character : Char) : Progress :=
  if progress.shows character then
    if interruption = .resumed ∧ character.toNat < 0x80 then
      { progress with interrupted := true }
    else {}
  else { mode := progress.mode.next character }

/-- The characters that are shown. -/
def visible (interruption : Interruption) : Progress → List Char → List Char
  | _, [] => []
  | progress, character :: rest =>
    let others := visible interruption (progress.next interruption character) rest
    if progress.shows character then character :: others else others

end Progress

/-- Text without its control sequences and control characters. -/
def plain (interruption : Interruption) (text : String) : String :=
  String.ofList (Progress.visible interruption {} text.toList)

/-- Text between a mark that sets a colour and one that takes it back. -/
def marked (text : String) : String := "\x1b[33m" ++ text ++ "\x1b[0m"

/-- A control character that a terminal acts on spelled out, any other character as it is. -/
def spellCharacter (character : Char) : String :=
  if character ∈ [escape, '\x07', '\x08', '\x0c', '\x7f'] then
    "\\x" ++ Text.padded 16 2 character.toNat
  else if within 0x80 0x9f character then "\\u\x7b" ++ Text.hex character.toNat ++ "\x7d"
  else character.toString

/-- Text with the control characters that a terminal acts on spelled out. -/
def spelled (text : String) : String := String.join (text.toList.map spellCharacter)

end RvLift.Terminal
