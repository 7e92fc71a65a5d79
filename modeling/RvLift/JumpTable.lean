import RvLift.Text.Digits
import RvLift.Word

/-!
# Labels and jump tables

Every instruction of an image has a label derived from its address. A jump table covers a run of
consecutive words: it resolves exactly the addresses of those words, which may wrap past the top of
the address space.
-/

namespace RvLift

/-- The label of the block at an address. -/
structure Label where
  /-- The address of the block. -/
  address : Word
  deriving DecidableEq, Repr

/-- The eight hexadecimal digits of the address. -/
def Label.text (label : Label) : String := Text.hex8 label.address.toNat

/-- The labels of `size` consecutive words from `base`. -/
structure JumpTable where
  /-- The address of the first word. -/
  base : Word
  /-- The number of words. -/
  size : Nat
  deriving DecidableEq, Repr

namespace JumpTable

/-- Whether the table has no entry. -/
def isEmpty (table : JumpTable) : Bool := table.size == 0

/-- The label at an address, if the address is that of one of the words. -/
def lookup? (table : JumpTable) (address : Word) : Option Label :=
  let offset := (address - table.base).toNat
  if offset % 4 = 0 ∧ offset / 4 < table.size then some ⟨address⟩ else none

/-- The addresses with a label are those of the words, and the label is that of the address. -/
theorem lookup?_eq_some_iff {table : JumpTable} {address : Word} {label : Label} :
    table.lookup? address = some label ↔
      label = ⟨address⟩ ∧ (address - table.base).toNat % 4 = 0 ∧
        (address - table.base).toNat / 4 < table.size := by
  by_cases found : (address - table.base).toNat % 4 = 0 ∧
      (address - table.base).toNat / 4 < table.size
  · rw [lookup?, if_pos found, Option.some.injEq]
    exact ⟨fun same => ⟨same.symm, found⟩, fun both => both.1.symm⟩
  · rw [lookup?, if_neg found]
    exact ⟨nofun, fun both => absurd both.2 found⟩

/-- The addresses of the words with their labels, in order. -/
def entries (table : JumpTable) : List (Word × Label) :=
  (List.range table.size).map fun index =>
    (Word.address table.base index, ⟨Word.address table.base index⟩)

end JumpTable

end RvLift
