import RvLift.Image
import RvLift.Instruction.Decode
import RvLift.Instruction.Text

/-!
# Listings

One line for each whole word of an image: its address, the word, and the instruction, or behind a
semicolon why there is none.
-/

namespace RvLift

/-- The listing line of the word at address `pc`. -/
def listingLine (pc word : Word) : String :=
  let remark := match Instruction.decode word pc with
    | .ok instruction => instruction.text
    | .error error => "; " ++ error.message
  Text.hex8 pc.toNat ++ ": " ++ Text.hex8 word.toNat ++ "  " ++ remark

/-- The listing of an image. -/
def Image.listing (image : Image) : String :=
  String.join (image.words.map fun (pc, word) => listingLine pc word ++ "\n")

end RvLift
