import Mathlib
import RvLift.Proofs.Addresses
import RvLift.Proofs.Block.Effect
import RvLift.Proofs.Bytes

/-!
# Where blocks stand

A lifted image has one block for each whole word, at the address of the word. The jump table, its
entries, the addresses of the blocks and the positions at which jumps look for them are four views
of one map, wherever the image starts and also where its addresses wrap past the top of the address
space. They agree as long as no two words share an address.
-/

namespace RvLift

/-- Whether there is a block at a position, and it stands at an address. -/
def Program.StandsAt (program : Program) (index : Nat) (address : Word) : Prop :=
  program.blocks[index]?.map Block.pc = some address
  deriving Decidable

namespace Image

variable {image : Image} {settings : Settings} {index : Nat} {address : Word}

/-- Blocks stand at the addresses of the words. -/
theorem standsAt_lift_iff :
    (image.lift settings).StandsAt index address ↔
      index < image.wordCount ∧ Word.address image.base index = address := by
  rw [Program.StandsAt, getElem?_blocks_lift]
  by_cases inside : index < image.wordCount
  · rw [if_pos inside, Option.map_some, Block.pc_ofWord, Option.some.injEq]
    exact ⟨fun same => ⟨inside, same⟩, fun both => both.2⟩
  · rw [if_neg inside, Option.map_none]
    exact ⟨nofun, fun both => absurd both.1 inside⟩

/-- An address has a label if and only if a block stands there, and the label is that of the
address. -/
theorem lookup?_lift_eq_some_iff {label : Label} :
    (image.lift settings).table.lookup? address = some label ↔
      label = ⟨address⟩ ∧ ∃ index, (image.lift settings).StandsAt index address := by
  simp only [standsAt_lift_iff]
  exact JumpTable.lookup?_eq_some_iff_exists

/-- An address without a block has no label. -/
theorem lookup?_lift_eq_none_iff :
    (image.lift settings).table.lookup? address = none ↔
      ∀ index, ¬(image.lift settings).StandsAt index address := by
  rw [Option.eq_none_iff_forall_ne_some]
  constructor
  · intro unresolved index stands
    exact unresolved ⟨address⟩ (lookup?_lift_eq_some_iff.2 ⟨rfl, index, stands⟩)
  · intro vacant label found
    obtain ⟨-, index, stands⟩ := lookup?_lift_eq_some_iff.1 found
    exact vacant index stands

/-- An address without a label has no position either. -/
theorem blockIndex?_eq_none_iff {program : Program} :
    program.blockIndex? address = none ↔ program.table.lookup? address = none := by
  rw [Program.blockIndex?, Option.map_eq_none_iff]

section Small

variable (small : image.wordCount ≤ 2 ^ 30)
include small

/-- At most one block stands at an address. -/
theorem standsAt_lift_inj {other : Nat} (first : (image.lift settings).StandsAt index address)
    (second : (image.lift settings).StandsAt other address) : other = index := by
  obtain ⟨firstInside, rfl⟩ := standsAt_lift_iff.1 first
  obtain ⟨secondInside, same⟩ := standsAt_lift_iff.1 second
  exact (Word.address_inj (by omega) (by omega)).1 same

/-- A block is looked for where it stands. -/
theorem blockIndex?_of_standsAt (stands : (image.lift settings).StandsAt index address) :
    (image.lift settings).blockIndex? address = some index := by
  obtain ⟨inside, rfl⟩ := standsAt_lift_iff.1 stands
  have distance := Word.toNat_address_sub image.base index
  rw [blockIndex?_lift, if_pos (by omega), Option.some.injEq]
  omega

end Small

/-- The word at a position is spelled by its own four bytes, the least significant one first. -/
theorem toNat_word (image : Image) (index : Nat) :
    (image.word index).toNat =
      Bytes.byteAt image.bytes (4 * index) + 2 ^ 8 * Bytes.byteAt image.bytes (4 * index + 1) +
        2 ^ 16 * Bytes.byteAt image.bytes (4 * index + 2) +
        2 ^ 24 * Bytes.byteAt image.bytes (4 * index + 3) := by
  rw [toNat_word_eq_readLittle]
  simp only [Bytes.readLittle, Nat.add_assoc, Nat.reduceAdd]
  omega

/-- The words do not depend on the bytes behind the last one. -/
theorem words_congr {first second : Image} (base : first.base = second.base)
    (count : first.wordCount = second.wordCount)
    (bytes : ∀ position < 4 * first.wordCount,
      Bytes.byteAt first.bytes position = Bytes.byteAt second.bytes position) :
    first.words = second.words := by
  rw [words, words, ← count, ← base]
  refine List.map_congr_left fun index inside => ?_
  rw [List.mem_range] at inside
  have same : first.word index = second.word index := by
    rw [word_eq, word_eq]
    refine congrArg (BitVec.ofNat 32) (Bytes.readLittle_congr fun place small => ?_)
    exact bytes (4 * index + place) (by omega)
  rw [same]

/-- Lifting reads the whole words only, so that bytes behind the last one do not count. -/
theorem lift_congr {first second : Image} (settings : Settings) (base : first.base = second.base)
    (count : first.wordCount = second.wordCount)
    (bytes : ∀ position < 4 * first.wordCount,
      Bytes.byteAt first.bytes position = Bytes.byteAt second.bytes position) :
    first.lift settings = second.lift settings := by
  have words := words_congr base count bytes
  have table : first.jumpTable = second.jumpTable := by rw [jumpTable, jumpTable, base, count]
  rw [lift, lift, blocks, blocks, words, table, base]

/-- The jump table, its entries, the blocks and their positions describe one map. An address has a
label exactly where the table has an entry and exactly where one block stands; then the label is
that of the block and the position is where it stands, and elsewhere there is neither. The block at
a position stands at the address of the word there and holds the word that its four bytes spell;
there are as many blocks and labels as whole words, and bytes behind the last word do not count. -/
theorem table_and_blocks_agree (image : Image) (settings : Settings)
    (small : image.wordCount ≤ 2 ^ 30) (address : Word) :
    let program := image.lift settings
    (∀ label, program.table.lookup? address = some label ↔
      (address, label) ∈ program.table.entries) ∧
    ((∃ label, program.table.lookup? address = some label) ↔
      ∃! index, program.StandsAt index address) ∧
    (∀ index block, program.blocks[index]? = some block → block.pc = address →
      program.table.lookup? address = some block.label ∧
        program.blockIndex? address = some index) ∧
    ((¬∃! index, program.StandsAt index address) →
      program.table.lookup? address = none ∧ program.blockIndex? address = none) ∧
    (∀ index block, program.blocks[index]? = some block →
      block.pc.toNat = (image.base.toNat + 4 * index) % 2 ^ 32 ∧
        block.word.toNat =
          Bytes.byteAt image.bytes (4 * index) +
            2 ^ 8 * Bytes.byteAt image.bytes (4 * index + 1) +
            2 ^ 16 * Bytes.byteAt image.bytes (4 * index + 2) +
            2 ^ 24 * Bytes.byteAt image.bytes (4 * index + 3)) ∧
    program.blockCount = image.size / 4 ∧ program.table.size = image.size / 4 ∧
    ∀ other : Image, other.base = image.base → other.wordCount = image.wordCount →
      (∀ position < 4 * other.wordCount,
        Bytes.byteAt other.bytes position = Bytes.byteAt image.bytes position) →
      other.lift settings = program := by
  intro program
  have unique : (∃ label, program.table.lookup? address = some label) ↔
      ∃! index, program.StandsAt index address := by
    constructor
    · rintro ⟨label, found⟩
      obtain ⟨-, index, stands⟩ := lookup?_lift_eq_some_iff.1 found
      exact ⟨index, stands, fun other => standsAt_lift_inj small stands⟩
    · rintro ⟨index, stands, -⟩
      exact ⟨⟨address⟩, lookup?_lift_eq_some_iff.2 ⟨rfl, index, stands⟩⟩
  refine ⟨fun label => JumpTable.mem_entries_iff.symm, unique, ?_, ?_, ?_, ?_, rfl, ?_⟩
  · rintro index block present rfl
    have stands : program.StandsAt index block.pc := by
      rw [Program.StandsAt, present, Option.map_some]
    exact ⟨lookup?_lift_eq_some_iff.2 ⟨rfl, index, stands⟩, blockIndex?_of_standsAt small stands⟩
  · intro vacant
    have unresolved : program.table.lookup? address = none := by
      rw [Option.eq_none_iff_forall_ne_some]
      exact fun label found => vacant (unique.1 ⟨label, found⟩)
    exact ⟨unresolved, blockIndex?_eq_none_iff.2 unresolved⟩
  · intro index block present
    obtain ⟨-, rfl⟩ := eq_ofWord_of_getElem? present
    constructor
    · rw [Block.pc_ofWord, Word.toNat_address]
    · rw [Block.word_ofWord, toNat_word]
  · simp [program, Program.blockCount, lift, blocks, words, wordCount]
  · intro other base count bytes
    exact lift_congr settings base count bytes

/-- Three words and three more bytes at an unaligned base, the last word behind the top of the
address space: it is the third block, and the byte between two words has no block. -/
theorem table_and_blocks_agree_wrapped :
    let image : Image := ⟨0xfffffffa,
      ⟨#[0x93, 0x00, 0x50, 0x00, 0x93, 0x00, 0x60, 0x00, 0x93, 0x00, 0x70, 0x00, 1, 2, 3]⟩⟩
    let program := image.lift {}
    image.wordCount ≤ 2 ^ 30 ∧ program.StandsAt 2 0x00000002 ∧
      program.blockIndex? 0x00000002 = some 2 ∧ program.blockIndex? 0xfffffffc = none := by
  intro image program
  have small : image.wordCount ≤ 2 ^ 30 := by decide
  have third : program.StandsAt 2 0x00000002 := by decide +kernel
  obtain ⟨block, present, address⟩ := Option.map_eq_some_iff.1 third
  have found := (table_and_blocks_agree image {} small 0x00000002).2.2.1 2 block present address
  have vacant : ¬∃! index, program.StandsAt index 0xfffffffc := by
    rintro ⟨index, stands, -⟩
    obtain ⟨inside, same⟩ := standsAt_lift_iff.1 stands
    have outside : ∀ index < image.wordCount, Word.address image.base index ≠ 0xfffffffc := by
      decide
    exact outside index inside same
  have nowhere := (table_and_blocks_agree image {} small 0xfffffffc).2.2.2.1 vacant
  exact ⟨small, third, found.2, nowhere.2⟩

end Image

end RvLift
