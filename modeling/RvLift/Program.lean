import RvLift.Block.Lift
import RvLift.Diagnostic
import RvLift.Image

/-!
# Lifted programs

The result of lifting an image: one block for each whole word, in address order, with a jump table
over their addresses.
-/

namespace RvLift

/-- Blocks in address order, and what is needed to move between them. -/
structure Program where
  /-- The address of the first block. -/
  base : Word
  /-- The address whose stores end the program. -/
  haltAddress : Word
  /-- The addresses that can be jumped to. -/
  table : JumpTable
  /-- The blocks. -/
  blocks : Array Block
  /-- What was found wrong with the image. -/
  diagnostics : Diagnostics := {}

namespace Program

/-- The number of blocks. -/
def blockCount (program : Program) : Nat := program.blocks.size

/-- The position of the block at an address that can be jumped to. -/
def blockIndex? (program : Program) (address : Word) : Option Nat :=
  (program.table.lookup? address).map fun label => (label.address - program.base).toNat / 4

/-- The program of given blocks, which stand at consecutive words from `base`. -/
def ofBlocks (base haltAddress : Word) (blocks : Array Block) : Program where
  base := base
  haltAddress := haltAddress
  table := ⟨base, blocks.size⟩
  blocks := blocks

end Program

namespace Image

/-- The blocks of the whole words of an image, in order. -/
def blocks (image : Image) (settings : Settings) : List Block :=
  image.words.map fun (pc, word) => Block.ofWord settings pc word

/-- Lift every whole word of an image. Code addresses count from the base of the image and memory
offsets from the base in the settings. -/
def lift (image : Image) (settings : Settings) : Program :=
  let blocks := image.blocks settings
  { base := image.base
    haltAddress := settings.haltAddress
    table := image.jumpTable
    blocks := blocks.toArray
    diagnostics := ⟨blocks.filterMap (Block.diagnostic? image.jumpTable)⟩ }

end Image

end RvLift
