import RvLift.Elf.File
import RvLift.Event
import RvLift.Image

/-!
# Loading ELF files

The image of a 32-bit RISC-V file at a base address. Its loadable segments are laid out at their
addresses; where two overlap the later one wins, and bytes between them are zero. The image ends
with the segment that reaches farthest.
-/

namespace RvLift.Elf

/-- Why a file has no image. -/
inductive LoadError where
  /-- Its structure cannot be read. -/
  | parse (error : ParseError)
  /-- It is for another machine. -/
  | notRiscV (machine : Nat)
  /-- It does not have 32-bit addresses. -/
  | not32Bit
  /-- It has no loadable segment. -/
  | noLoadableSegments
  /-- A segment starts before the base. -/
  | belowBase (address : Nat) (base : Word)
  /-- The contents of a segment are not in the file, or it passes the top of the address space. -/
  | segmentOutOfRange (address : Nat)
  deriving DecidableEq, Repr

/-- The wording of a loading error. -/
def LoadError.message : LoadError → String
  | .parse error => "invalid ELF: " ++ error.message
  | .notRiscV machine => "not a RISC-V binary (e_machine=" ++ Text.hexNumeral machine ++ ")"
  | .not32Bit => "only 32-bit RISC-V (RV32) is supported"
  | .noLoadableSegments => "no loadable segments found"
  | .belowBase address base =>
    "segment at " ++ Text.address address ++ " lies below the image base " ++
      Text.address base.toNat
  | .segmentOutOfRange address =>
    "segment at " ++ Text.address address ++
      " extends beyond the file or the 32-bit address space"

/-- The machine number of RISC-V. -/
def riscVMachine : Nat := 0xf3

/-- The kind of segment that is loaded into memory. -/
def loadableKind : Nat := 1

namespace Segment

/-- Whether a segment puts bytes into memory. -/
def isLoaded (segment : Segment) : Bool := segment.kind == loadableKind && segment.fileSize > 0

/-- The address behind the last byte. -/
def endAddress (segment : Segment) : Nat := segment.address + segment.fileSize

/-- Whether an address lies in a segment. -/
def contains (segment : Segment) (address : Nat) : Bool :=
  segment.address ≤ address && address < segment.endAddress

/-- The contents of a segment at an address in it. -/
def byteAt (segment : Segment) (bytes : ByteArray) (address : Nat) : Nat :=
  Bytes.byteAt bytes (segment.offset + (address - segment.address))

/-- Check that a segment can be laid out from a base address and that the file holds it. -/
def check (base : Word) (bytes : ByteArray) (segment : Segment) : Except LoadError Unit :=
  if segment.address < base.toNat then .error (.belowBase segment.address base)
  else if segment.offset + segment.fileSize ≤ bytes.size ∧ segment.endAddress ≤ 0x100000000 then
    .ok ()
  else .error (.segmentOutOfRange segment.address)

end Segment

/-- The size of the image of segments at a base address. -/
def imageSize (base : Word) (segments : List Segment) : Nat :=
  (segments.map (·.endAddress - base.toNat)).foldl max 0

/-- The byte at an address: that of the last segment it lies in, or zero. -/
def imageByte (bytes : ByteArray) (segments : List Segment) (address : Nat) : UInt8 :=
  match segments.findRev? (·.contains address) with
  | some segment => UInt8.ofNat (segment.byteAt bytes address)
  | none => 0

/-- Lay out segments from a base address. -/
def layOut (base : Word) (bytes : ByteArray) (segments : List Segment) : Image where
  base := base
  bytes := Bytes.tabulate (imageSize base segments) fun position =>
    imageByte bytes segments (base.toNat + position)

/-- An image and the events reported while it was loaded. -/
structure Loaded where
  /-- The image. -/
  image : Image
  /-- What was reported. -/
  events : List Event

/-- The events of a successful load. -/
def loadEvents (entry : Nat) (segmentCount : Nat) (image : Image) : List Event :=
  let entryEvent : Event :=
    { level := .debug
      message := "ELF entry " ++ Text.hexNumeral entry ++ " differs from image base " ++
        Text.hexNumeral image.base.toNat ++ "; translation starts at base" }
  let flattened : Event :=
    { level := .debug
      message := "flattened ELF image"
      fields := [("segments", Text.decimal segmentCount), ("bytes", Text.decimal image.size)] }
  if entry = image.base.toNat then [flattened] else [entryEvent, flattened]

/-- The image of the loadable segments of a file whose structure has been read. -/
def File.image (file : File) (base : Word) (bytes : ByteArray) : Except LoadError Loaded := do
  if file.machine ≠ riscVMachine then
    throw (.notRiscV file.machine)
  if file.addressSize = .bits64 then
    throw .not32Bit
  let segments := file.segments.filter Segment.isLoaded
  if segments.isEmpty then
    throw .noLoadableSegments
  segments.forM (Segment.check base bytes)
  let image := layOut base bytes segments
  return { image := image, events := loadEvents file.entry segments.length image }

/-- The image of a file at a base address; how its structure is read is left to `parse`. -/
def loadWith (parse : ByteArray → Except ParseError File) (bytes : ByteArray) (base : Word) :
    Except LoadError Loaded :=
  match parse bytes with
  | .error error => .error (.parse error)
  | .ok file => file.image base bytes

/-- The image of an ELF file at a base address. -/
def load (bytes : ByteArray) (base : Word) : Except LoadError Loaded :=
  loadWith File.ofBytes bytes base

end RvLift.Elf
