import RvLift.Elf.Reader

/-!
# ELF headers

The records that describe an ELF file: the file header, the program headers and the section
headers, each with the reader of its fields. Fields that nothing depends on are read and dropped.
-/

namespace RvLift.Elf

/-- The file header fields that matter. -/
structure Header where
  /-- The machine that the file is for. -/
  machine : Nat
  /-- The entry point. -/
  entry : Nat
  /-- The position of the program headers. -/
  programOffset : Nat
  /-- The number of program headers. -/
  programCount : Nat
  /-- The position of the section headers, zero if there are none. -/
  sectionOffset : Nat
  /-- The number of section headers, zero if the first one holds it. -/
  sectionCount : Nat
  /-- The section that holds the names of sections, or `namesElsewhere`. -/
  namesIndex : Nat
  deriving DecidableEq, Repr

/-- A program header. -/
structure Segment where
  /-- What the segment is for. -/
  kind : Nat
  /-- The position of its contents in the file. -/
  offset : Nat
  /-- The address of its first byte. -/
  address : Nat
  /-- The number of bytes that the file holds. -/
  fileSize : Nat
  deriving DecidableEq, Repr

/-- A section header. -/
structure Section where
  /-- The position of its name in the table of names. -/
  name : Nat
  /-- What the section is for. -/
  kind : Nat
  /-- The address of its first byte. -/
  address : Nat
  /-- The position of its contents in the file. -/
  offset : Nat
  /-- The number of bytes. -/
  size : Nat
  /-- Another section that it refers to. -/
  link : Nat
  deriving DecidableEq, Repr

namespace AddressSize

/-- The number of bytes of a program header. -/
def programHeaderSize : AddressSize → Nat
  | .bits32 => 32
  | .bits64 => 56

/-- The number of bytes of a section header. -/
def sectionHeaderSize : AddressSize → Nat
  | .bits32 => 40
  | .bits64 => 64

end AddressSize

namespace Reader

/-- The file header after the identification bytes. -/
def header : Reader Header := do
  let _kind ← number 2
  let machine ← number 2
  let _version ← number 4
  let entry ← address
  let programOffset ← address
  let sectionOffset ← address
  let _flags ← number 4
  let _headerSize ← number 2
  let _programEntrySize ← number 2
  let programCount ← number 2
  let _sectionEntrySize ← number 2
  let sectionCount ← number 2
  let namesIndex ← number 2
  return { machine, entry, programOffset, programCount, sectionOffset, sectionCount, namesIndex }

/-- A program header; the flags stand in different places in the two address sizes. -/
def segment : Reader Segment := do
  let kind ← number 4
  match (← read).addressSize with
  | .bits32 =>
    let offset ← address
    let virtualAddress ← address
    let _physicalAddress ← address
    let fileSize ← address
    let _memorySize ← address
    let _flags ← number 4
    let _align ← address
    return { kind, offset, address := virtualAddress, fileSize }
  | .bits64 =>
    let _flags ← number 4
    let offset ← address
    let virtualAddress ← address
    let _physicalAddress ← address
    let fileSize ← address
    let _memorySize ← address
    let _align ← address
    return { kind, offset, address := virtualAddress, fileSize }

/-- A section header. -/
def sectionHeader : Reader Section := do
  let name ← number 4
  let kind ← number 4
  let _flags ← address
  let virtualAddress ← address
  let offset ← address
  let size ← address
  let link ← number 4
  let _info ← number 4
  let _align ← address
  let _entrySize ← address
  return { name, kind, address := virtualAddress, offset, size, link }

end Reader

end RvLift.Elf
