/-!
# Positional numerals

Texts of natural numbers and integers: decimal without leading zeros, and lower-case hexadecimal
and binary padded on the left with zeros to a least number of digits.
-/

namespace RvLift.Text

/-- The digits of a number in a base, with zeros in front up to `width` digits. -/
def padded (radix width number : Nat) : String :=
  String.ofList ((Nat.toDigits radix number).leftpad width '0')

/-- The decimal numeral of a number. -/
def decimal (number : Nat) : String :=
  padded 10 0 number

/-- The decimal numeral of an integer, with a minus sign if it is negative. -/
def signed : Int → String
  | .ofNat number => decimal number
  | .negSucc number => "-" ++ decimal (number + 1)

/-- The hexadecimal digits of a number, as few as possible. -/
def hex (number : Nat) : String :=
  padded 16 0 number

/-- The hexadecimal digits of a number behind `0x`, as few as possible. -/
def hexNumeral (number : Nat) : String :=
  "0x" ++ hex number

/-- The eight hexadecimal digits of a 32-bit number; a larger number takes more. -/
def hex8 (number : Nat) : String :=
  padded 16 8 number

/-- Eight hexadecimal digits behind `0x`, the form of an address in messages. -/
def address (number : Nat) : String :=
  "0x" ++ hex8 number

end RvLift.Text
