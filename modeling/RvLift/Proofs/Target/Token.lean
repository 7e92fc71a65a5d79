import Mathlib
import RvLift.Proofs.Text.Digits
import RvLift.Target.Text

/-!
# Tokens of emitted code

The tokens of a C text, scanned one character at a time. A line feed behind a backslash does not
count, a comment goes to the end of its line, and letters and operator signs run together as far as
they go. Only what emitted code uses is accepted: a run of signs must be one operator, a constant
must not touch an operator or a period, and a directive ends with its line.
-/

namespace RvLift.Target

/-- A token. -/
inductive Token where
  /-- A name or a keyword. -/
  | word (text : String)
  /-- An integer constant. -/
  | constant (value : Constant)
  /-- An operator or a mark of punctuation. -/
  | mark (text : String)
  /-- The text between quotation marks. -/
  | quoted (text : String)
  /-- A name in a directive, with the opening parenthesis that touches it. -/
  | callee (text : String)
  /-- The end of a directive. -/
  | lineEnd
  deriving DecidableEq, Repr

/-- Whether a character is part of a name, a keyword or a constant. -/
def isLetter (character : Char) : Bool := character.isAlphanum || character = '_'

/-- Whether a character is part of an operator of one or more signs. -/
def isSign (character : Char) : Bool :=
  ['+', '-', '*', '/', '%', '<', '>', '=', '!', '&', '^', '|'].contains character

/-- Whether a character is a token by itself. -/
def isSingle (character : Char) : Bool :=
  ['(', ')', '[', ']', '\x7b', '\x7d', ';', ',', '.', ':', '?'].contains character

/-- The operators that are runs of signs. -/
def operators : List String :=
  ["*", "/", "%", "+", "-", "<<", ">>", "<", ">=", "==", "!=", "&", "^", "|", "&&", "="]

/-- The value of the digits of a constant. A zero in front of other figures would make it octal. -/
def Constant.ofDigits? (unsigned : Bool) : List Char → Option Constant
  | [] => none
  | ['0'] => some ⟨0, .decimal, unsigned⟩
  | ['0', 'x'] => none
  | '0' :: 'x' :: digits => (Text.value? 16 digits).map (⟨·, .hexadecimal, unsigned⟩)
  | '0' :: _ => none
  | digits => (Text.value? 10 digits).map (⟨·, .decimal, unsigned⟩)

/-- The constant that a run of letters spells, the unsigned suffix last. -/
def Constant.ofLetters? (letters : List Char) : Option Constant :=
  if letters.getLast? = some 'u' then ofDigits? true letters.dropLast else ofDigits? false letters

/-- The token of a run of letters. -/
def Token.ofLetters? (letters : List Char) : Option Token :=
  if (letters.head?.any Char.isDigit) = true then (Constant.ofLetters? letters).map .constant
  else some (.word (String.ofList letters))

/-- The token of a run of signs. -/
def Token.ofSigns? (signs : List Char) : Option Token :=
  if String.ofList signs ∈ operators then some (.mark (String.ofList signs)) else none

/-- What has been read of the token under way. -/
inductive Run where
  /-- Nothing on this line but blanks. -/
  | margin
  /-- Nothing since the last token. -/
  | blank
  /-- Letters. -/
  | letters (text : List Char)
  /-- Operator signs. -/
  | signs (text : List Char)
  /-- The text behind a quotation mark. -/
  | quoted (text : List Char)
  /-- The text behind two slashes. -/
  | comment
  deriving DecidableEq, Repr

/-- What has been read of a text. -/
structure Scanner where
  /-- The token under way. -/
  run : Run
  /-- Whether the line is a directive. -/
  directive : Bool
  /-- Whether the last character was a backslash. -/
  escaped : Bool
  /-- The tokens so far, the last one first. -/
  tokens : List Token
  deriving DecidableEq, Repr

namespace Scanner

/-- The scanner between two tokens of a line. -/
def between (directive : Bool) (tokens : List Token) : Scanner := ⟨.blank, directive, false, tokens⟩

/-- The scanner at the start of a line. -/
def fresh (tokens : List Token) : Scanner := ⟨.margin, false, false, tokens⟩

/-- Add a token. -/
def push (scanner : Scanner) (token : Token) : Scanner :=
  { scanner with run := .blank, tokens := token :: scanner.tokens }

/-- End the token under way. Quotations and comments are ended by characters of their own. -/
def settle (scanner : Scanner) : Option Scanner :=
  if scanner.escaped then none
  else
    match scanner.run with
    | .margin | .blank => some scanner
    | .letters text => (Token.ofLetters? text).map scanner.push
    | .signs text => (Token.ofSigns? text).map scanner.push
    | .quoted _ | .comment => none

/-- Begin a token. -/
def begin (scanner : Scanner) (character : Char) : Option Scanner :=
  if character = ' ' then some scanner
  else if isLetter character then some { scanner with run := .letters [character] }
  else if isSign character then some { scanner with run := .signs [character] }
  else if isSingle character then some (scanner.push (.mark (String.ofList [character])))
  else if character = '\x22' then some { scanner with run := .quoted [] }
  else if character = '#' ∧ scanner.run = .margin then
    some { scanner.push (.mark "#") with directive := true }
  else none

/-- End a line. -/
def newline (scanner : Scanner) : Option Scanner :=
  let ended :=
    if scanner.run = .comment then some { scanner with run := .blank } else scanner.settle
  ended.map fun scanner =>
    fresh (if scanner.directive then .lineEnd :: scanner.tokens else scanner.tokens)

/-- Whether a character must not follow a run of letters directly: a quotation mark, and an operator
or a period behind a constant. -/
def clashes (letters : List Char) (character : Char) : Bool :=
  character = '\x22' ||
    letters.head?.any Char.isDigit && (isSign character || character = '.')

/-- Take in one character that is neither a backslash nor a line feed. -/
def take (scanner : Scanner) (character : Char) : Option Scanner :=
  match scanner.run with
  | .margin | .blank => scanner.begin character
  | .letters text =>
    if isLetter character then some { scanner with run := .letters (text ++ [character]) }
    else if clashes text character then none
    else if character = '(' ∧ scanner.directive then
      some (scanner.push (.callee (String.ofList text)))
    else do (← scanner.settle).begin character
  | .signs text =>
    if isSign character then
      some { scanner with
        run := if text ++ [character] = ['/', '/'] then .comment else .signs (text ++ [character]) }
    else do (← scanner.settle).begin character
  | .quoted text =>
    if character = '\x22' then some (scanner.push (.quoted (String.ofList text)))
    else some { scanner with run := .quoted (text ++ [character]) }
  | .comment => some scanner

/-- Take in one character. -/
def step (scanner : Scanner) (character : Char) : Option Scanner :=
  if scanner.escaped then
    if character = '\n' then some { scanner with escaped := false } else none
  else if character = '\\' then some { scanner with escaped := true }
  else if character = '\n' then scanner.newline
  else scanner.take character

/-- Take in characters. -/
def scan (scanner : Scanner) (text : List Char) : Option Scanner := text.foldlM step scanner

end Scanner

/-- The tokens of a text, which may be part of a line. -/
def tokens? (start : Scanner) (text : String) : Option (List Token) := do
  let scanner ← start.scan text.toList
  let settled ← scanner.settle
  return settled.tokens.reverse

end RvLift.Target
