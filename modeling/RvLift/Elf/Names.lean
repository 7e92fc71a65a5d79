import RvLift.Elf.Header
import RvLift.Text.Utf8

/-!
# Names of sections

One section of a file holds the names of all sections, one behind another, each ended by a zero
byte or by the end of the table. Nothing depends on the names, but a file whose table is not in
the file or holds something other than UTF-8 text is refused.
-/

namespace RvLift.Elf

/-- The index that says that the first section header links to the table of names. -/
def namesElsewhere : Nat := 0xffff

/-- The kind of section that has no contents in the file. -/
def emptyKind : Nat := 8

namespace Section

/-- Check that the contents of a section are in a file of some size and that its addresses do not
pass the largest one. -/
def check (fileSize : Nat) (found : Section) : Except ParseError Unit :=
  if found.kind = emptyKind ∨ found.size = 0 then .ok ()
  else if found.offset + found.size > fileSize then
    .error (.sectionOutside found.name found.offset found.size)
  else if overflows found.address found.size then
    .error (.sectionTooHigh found.name found.address found.size)
  else .ok ()

/-- The contents of a section that holds names. -/
def table (bytes : ByteArray) (found : Section) : Except ParseError (List UInt8) :=
  let stop := found.offset + found.size
  if stop > bytes.size then .error (.namesOutside found.offset found.size bytes.size)
  else .ok (bytes.extract found.offset stop).toList

end Section

/-- Check that every name in a table is UTF-8 text. -/
def checkTable : List UInt8 → Except ParseError Unit
  | [] => .ok ()
  | byte :: rest =>
    let table := byte :: rest
    let name := table.takeWhile (· ≠ 0)
    if Text.isUtf8 name then checkTable (rest.drop name.length)
    else .error (.badName table.length)
termination_by table => table.length

/-- The section that holds the names, if there is one. -/
def namesSection? (header : Header) (sections : List Section) : Option Section :=
  if header.namesIndex = namesElsewhere then
    sections.head?.bind fun first => sections[first.link]?
  else sections[header.namesIndex]?

/-- Check the table of names of a file, if there is one. -/
def checkNames (bytes : ByteArray) (header : Header) (sections : List Section) :
    Except ParseError Unit :=
  match namesSection? header sections with
  | none => .ok ()
  | some found => do
    found.check bytes.size
    checkTable (← found.table bytes)

end RvLift.Elf
