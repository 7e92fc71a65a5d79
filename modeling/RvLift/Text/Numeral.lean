/-!
# Reading numerals

An unsigned numeral is an optional `+` and one or more digits, read from the left. Reading stops
at the first character that is no digit, or at the first digit with which the value reaches the
bound; whichever comes first is the reason given, and at one character a bad digit comes first.
-/

namespace RvLift.Text

/-- Why a text is not a numeral below the bound. -/
inductive NumeralError where
  /-- There is nothing to read. -/
  | empty
  /-- A character is not a digit of the base. -/
  | invalidDigit
  /-- The value does not fit below the bound. -/
  | overflow
  deriving DecidableEq, Repr

/-- The wording of a numeral error. -/
def NumeralError.message : NumeralError → String
  | .empty => "cannot parse integer from empty string"
  | .invalidDigit => "invalid digit found in string"
  | .overflow => "number too large to fit in target type"

/-- The value of an ASCII digit or letter, letters counting from ten in either case. -/
def digitValue? (character : Char) : Option Nat :=
  if '0' ≤ character ∧ character ≤ '9' then some (character.toNat - '0'.toNat)
  else if 'a' ≤ character ∧ character ≤ 'z' then some (character.toNat - 'a'.toNat + 10)
  else if 'A' ≤ character ∧ character ≤ 'Z' then some (character.toNat - 'A'.toNat + 10)
  else none

/-- The value of a character as a digit of a base. -/
def digit? (radix : Nat) (character : Char) : Option Nat :=
  (digitValue? character).filter (· < radix)

/-- Continue the number `value` with the digits that follow it, keeping it below `bound`. -/
def readDigits (radix bound : Nat) : Nat → List Char → Except NumeralError Nat
  | value, [] => .ok value
  | value, character :: rest =>
    match digit? radix character with
    | none => .error .invalidDigit
    | some digit =>
      if value * radix + digit < bound then readDigits radix bound (value * radix + digit) rest
      else .error .overflow

/-- Read an unsigned numeral below `bound`. -/
def readNumeral (radix bound : Nat) : List Char → Except NumeralError Nat
  | [] => .error .empty
  | ['+'] => .error .invalidDigit
  | '+' :: digits => readDigits radix bound 0 digits
  | digits => readDigits radix bound 0 digits

/-- An address text that could not be read. -/
structure AddressError where
  /-- The text without its underscores. -/
  text : String
  /-- What is wrong with it. -/
  reason : NumeralError
  deriving DecidableEq, Repr

/-- The wording of an address error. -/
def AddressError.message (error : AddressError) : String :=
  "invalid address '" ++ error.text ++ "': " ++ error.reason.message

/-- Read the characters of an address: hexadecimal behind `0x` or `0X`, decimal otherwise. -/
def readAddressDigits : List Char → Except NumeralError Nat
  | '0' :: 'x' :: digits => readNumeral 16 0x100000000 digits
  | '0' :: 'X' :: digits => readNumeral 16 0x100000000 digits
  | digits => readNumeral 10 0x100000000 digits

/-- Read a 32-bit address. Underscores may stand anywhere and do not count. -/
def readAddress (text : String) : Except AddressError (BitVec 32) :=
  let characters := text.toList.filter (· ≠ '_')
  match readAddressDigits characters with
  | .ok value => .ok (BitVec.ofNat 32 value)
  | .error reason => .error ⟨String.ofList characters, reason⟩

/-- Read a number of bytes, which is written like an address. -/
def readSize (text : String) : Except AddressError Nat := (readAddress text).map BitVec.toNat

end RvLift.Text
