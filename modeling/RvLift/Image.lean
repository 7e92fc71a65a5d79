import RvLift.Bytes
import RvLift.JumpTable

/-!
# Memory images

An image is the initial contents of guest memory from a base address on. Its instructions are its
whole little-endian words; up to three bytes after the last whole word are not part of any.
-/

namespace RvLift

/-- Guest memory contents from an address on. -/
structure Image where
  /-- The address of the first byte. -/
  base : Word
  /-- The contents. -/
  bytes : ByteArray

namespace Image

/-- The number of bytes. -/
def size (image : Image) : Nat := image.bytes.size

/-- Whether the image has no byte. -/
def isEmpty (image : Image) : Bool := image.size == 0

/-- The number of whole words. -/
def wordCount (image : Image) : Nat := image.size / 4

/-- The number of bytes after the last whole word. -/
def ignoredBytes (image : Image) : Nat := image.size % 4

/-- The word at a position, counted in words. -/
def word (image : Image) (index : Nat) : Word := Bytes.joinedWord image.bytes (4 * index)

/-- The whole words with their addresses, in order. -/
def words (image : Image) : List (Word × Word) :=
  (List.range image.wordCount).map fun index =>
    (Word.address image.base index, image.word index)

/-- The jump table over the whole words. -/
def jumpTable (image : Image) : JumpTable := ⟨image.base, image.wordCount⟩

end Image

end RvLift
