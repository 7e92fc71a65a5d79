import RvLift.Bytes
import RvLift.Text.Digits

/-!
# Reading records

ELF records are sequences of numbers of fixed widths, in one byte order for the whole file. A
`Reader` takes them one after another from a position on and refuses to read past the end. A record
may start at the end of the file, where its first number is refused, but not behind it.
-/

namespace RvLift.Elf

/-- The order of the bytes of a number. -/
inductive ByteOrder where
  | little | big
  deriving DecidableEq, Repr

/-- The number spelled by `count` bytes from `start`. -/
def ByteOrder.read (order : ByteOrder) (bytes : ByteArray) (start count : Nat) : Nat :=
  match order with
  | .little => Bytes.readLittle bytes start count
  | .big => Bytes.readBig bytes start count

/-- The width of addresses and offsets in a file. -/
inductive AddressSize where
  | bits32 | bits64
  deriving DecidableEq, Repr

/-- The number of bytes of an address. -/
def AddressSize.bytes : AddressSize → Nat
  | .bits32 => 4
  | .bits64 => 8

/-- Why the structure of a file cannot be read. -/
inductive ParseError where
  /-- There is no room for the identification bytes. -/
  | tooSmall
  /-- The file does not start as ELF files do; holds its first eight bytes. -/
  | badMagic (magic : Nat)
  /-- The identification names no known address size. -/
  | badAddressSize (value : Nat)
  /-- The identification names no known byte order. -/
  | badByteOrder (value : Nat)
  /-- The file is too short for that many entries of a table. -/
  | tableTooLong (count : Nat) (entries : String)
  /-- A number reaches past the end; holds the bytes it needs and those left. -/
  | pastEnd (needed left : Nat)
  /-- A record starts behind the end. -/
  | behindEnd (offset : Nat)
  /-- The contents of a section are not in the file. -/
  | sectionOutside (name offset size : Nat)
  /-- The addresses of a section pass the largest one. -/
  | sectionTooHigh (name address size : Nat)
  /-- The table of names is not in the file. -/
  | namesOutside (offset size fileSize : Nat)
  /-- A name is not UTF-8 text; holds the bytes from its start to the end of the table. -/
  | badName (left : Nat)
  deriving DecidableEq, Repr

/-- Whether a sum of two 64-bit numbers is too large for another. -/
def overflows (first second : Nat) : Bool := 0x10000000000000000 ≤ first + second

/-- The numbers of a range and whether its end is too large, as errors name them. -/
def rangeText (first : Nat) (middle : String) (second : Nat) (tail : String) : String :=
  " size (" ++ Text.decimal first ++ ") + " ++ middle ++ " (" ++ Text.decimal second ++
    ") is out of bounds" ++ tail ++ ". Overflowed: " ++
      (if overflows first second then "true" else "false")

/-- The wording of a structural error. -/
def ParseError.message : ParseError → String
  | .tooSmall => "Malformed entity: Too small"
  | .badMagic magic => "Invalid magic number: " ++ Text.hexNumeral magic
  | .badAddressSize value => "Malformed entity: invalid ELF class " ++ Text.hex value
  | .badByteOrder value => "Malformed entity: invalid ELF endianness DATA type " ++ Text.hex value
  | .tableTooLong count entries =>
    "Buffer is too short for " ++ Text.decimal count ++ " " ++ entries
  | .pastEnd needed left =>
    "type is too big (" ++ Text.decimal needed ++ ") for " ++ Text.decimal left
  | .behindEnd offset => "bad offset " ++ Text.decimal offset
  | .sectionOutside name offset size =>
    "Malformed entity: Section " ++ Text.decimal name ++ rangeText offset "offset" size ""
  | .sectionTooHigh name address size =>
    "Malformed entity: Section " ++ Text.decimal name ++ rangeText address "addr" size ""
  | .namesOutside offset size fileSize =>
    "Malformed entity: Strtable" ++
      rangeText size "offset" offset (" for " ++ Text.decimal fileSize ++ " #bytes")
  | .badName left => "bad input invalid utf8 (" ++ Text.decimal left ++ ")"

/-- Whether an error is about reading a value, not about what it says. -/
def ParseError.isUnreadable : ParseError → Bool
  | .pastEnd .. | .behindEnd _ | .badName _ => true
  | _ => false

/-- A file together with how its numbers are stored. -/
structure Input where
  /-- The contents. -/
  bytes : ByteArray
  /-- The order of the bytes of a number. -/
  order : ByteOrder
  /-- The width of addresses and offsets. -/
  addressSize : AddressSize

/-- Takes a value from a position of a file on and moves the position behind it. -/
abbrev Reader := ReaderT Input (StateT Nat (Except ParseError))

namespace Reader

/-- A number of `count` bytes. -/
def number (count : Nat) : Reader Nat := fun input position =>
  if position + count ≤ input.bytes.size then
    .ok (input.order.read input.bytes position count, position + count)
  else .error (.pastEnd count (input.bytes.size - position))

/-- An address or offset. -/
def address : Reader Nat := fun input => number input.addressSize.bytes input

/-- A record, which does not start behind the end of the file. -/
def record {α : Type} (fields : Reader α) : Reader α := fun input position =>
  if position ≤ input.bytes.size then fields input position else .error (.behindEnd position)

/-- `count` values, one after another. -/
def table {α : Type} (entry : Reader α) : Nat → Reader (List α)
  | 0 => pure []
  | count + 1 => do
    let first ← entry
    let rest ← table entry count
    return first :: rest

/-- The value at a position of a file. -/
def readAt {α : Type} (reader : Reader α) (input : Input) (position : Nat) :
    Except ParseError α :=
  (reader input position).map Prod.fst

end Reader

end RvLift.Elf
