import RvLift.Compile
import RvLift.Listing

/-!
# Code regions

The library seen by a caller that holds a region of machine code in memory: the region starts at a
given address, which is also where guest memory starts, and the halt address is the usual one.
-/

namespace RvLift.Region

/-- A region without a whole word. -/
structure EmptyRegion where
  /-- The address of the region. -/
  base : Word
  deriving DecidableEq, Repr

/-- The wording of the refusal of a region. -/
def EmptyRegion.message (error : EmptyRegion) : String :=
  "No instructions in region " ++ Text.address error.base.toNat

/-- The annotated source text of a region. -/
def source (code : ByteArray) (base : Word) : Except EmptyRegion String :=
  let image : Image := ⟨base, code⟩
  if image.wordCount = 0 then .error ⟨base⟩
  else .ok (image.compile { base := base, annotate := true }).source

/-- The listing of a region. -/
def listing (code : ByteArray) (base : Word) : String := (Image.mk base code).listing

/-- The name and version that callers are told. -/
def version : String := "rv2c-web 0.1.0"

end RvLift.Region
