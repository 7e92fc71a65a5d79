import RvLift.Elf.Names

/-!
# ELF files

The part of an ELF file that loading needs: machine, address size, entry point and program headers.
Files of either address size and byte order are read. Section headers are read only to see that
they are there and that the table of their names is in order.
-/

namespace RvLift.Elf

/-- The parts of an ELF file. -/
structure File where
  /-- The machine that the file is for. -/
  machine : Nat
  /-- The width of addresses. -/
  addressSize : AddressSize
  /-- The entry point. -/
  entry : Nat
  /-- The program headers, in order. -/
  segments : List Segment
  deriving DecidableEq, Repr

/-- The number of identification bytes. -/
def identSize : Nat := 16

/-- The first four bytes of every ELF file, as a number. -/
def magic : Nat := 0x464c457f

/-- The address size that an identification byte names. -/
def AddressSize.ofIdent (value : Nat) : Except ParseError AddressSize :=
  match value with
  | 1 => .ok .bits32
  | 2 => .ok .bits64
  | _ => .error (.badAddressSize value)

/-- The byte order that an identification byte names. -/
def ByteOrder.ofIdent (value : Nat) : Except ParseError ByteOrder :=
  match value with
  | 1 => .ok .little
  | 2 => .ok .big
  | _ => .error (.badByteOrder value)

/-- What the identification bytes say about a file. -/
def Input.ofBytes (bytes : ByteArray) : Except ParseError Input := do
  if bytes.size < identSize then
    throw .tooSmall
  if Bytes.readLittle bytes 0 4 ≠ magic then
    throw (.badMagic (Bytes.readLittle bytes 0 8))
  let addressSize ← AddressSize.ofIdent (Bytes.byteAt bytes 4)
  let order ← ByteOrder.ofIdent (Bytes.byteAt bytes 5)
  return { bytes, order, addressSize }

/-- The program headers. -/
def Reader.segments (header : Header) : Reader (List Segment) := do
  let input ← read
  let count := header.programCount
  if count > input.bytes.size / input.addressSize.programHeaderSize then
    throw (.tableTooLong count "program headers")
  table (record segment) count

/-- The section headers. Their number stands in the file header or, if it is zero there, in the
size field of the first of them, which is there in any case. -/
def Reader.sections (header : Header) : Reader (List Section) := do
  let first ← record sectionHeader
  let input ← read
  let count := if header.sectionCount = 0 then first.size else header.sectionCount
  if count > input.bytes.size / input.addressSize.sectionHeaderSize then
    throw (.tableTooLong count "section headers")
  let others ← table (record sectionHeader) (count - 1)
  return first :: others

/-- The section headers of a file, of which there are none if they have no position. -/
def Input.sections (input : Input) (header : Header) : Except ParseError (List Section) :=
  if header.sectionOffset = 0 then .ok []
  else (Reader.sections header).readAt input header.sectionOffset

/-- Read the structure of an ELF file. -/
def File.ofBytes (bytes : ByteArray) : Except ParseError File := do
  let input ← Input.ofBytes bytes
  let header ← Reader.header.readAt input identSize
  let segments ← (Reader.segments header).readAt input header.programOffset
  let sections ← input.sections header
  checkNames bytes header sections
  return { machine := header.machine
           addressSize := input.addressSize
           entry := header.entry
           segments := segments }

end RvLift.Elf
