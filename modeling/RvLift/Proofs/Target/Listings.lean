import Mathlib
import RvLift.Proofs.Instruction.Listings
import RvLift.Proofs.Target.Annotations

/-!
# Listings and comments

The annotated source text of a region says of every word what the listing of the region says of it.
The comments of blocks are the only lines that begin as comments of blocks do, and behind that
beginning they are the lines of the listing, except that the listing marks the words that encode no
instruction and the comments do not.
-/

namespace RvLift

open Text

/-- What the comment of a block begins with. -/
def commentStart : String := "    // 0x"

/-- The lines of a source text that begin as the comment of a block does. -/
def blockComments (source : String) : List String :=
  (lines source).filter fun line => commentStart.toList.isPrefixOf line.toList

/-- A remark without the marker of words that encode no instruction. -/
def withoutMarker : List Char → List Char
  | ';' :: ' ' :: remark => remark
  | remark => remark

/-- The comment of a block that says what a line of a listing says: behind the beginning of a
comment the columns of the line, and its remark without a marker. -/
def asComment (line : String) : String :=
  commentStart ++ String.ofList (line.toList.take 20 ++ withoutMarker (line.toList.drop 20))

section Remarks

variable {columns : String} {address word : Nat}

/-- The remark of a line stands behind its columns. -/
theorem Columns.asComment (shown : Columns columns address word) (remark : String) :
    RvLift.asComment (columns ++ remark) =
      commentStart ++ (columns ++ String.ofList (withoutMarker remark.toList)) := by
  rw [RvLift.asComment, String.toList_append, List.take_left' shown.length,
    List.drop_left' shown.length, String.ofList_append, String.ofList_toList]

/-- The comment for a word that encodes no instruction has no marker. -/
theorem Columns.asComment_message (shown : Columns columns address word) (error : DecodeError) :
    RvLift.asComment (columns ++ ("; " ++ error.message)) =
      commentStart ++ (columns ++ error.message) := by
  have marked : ("; " ++ error.message).toList = ';' :: ' ' :: error.message.toList := by simp
  rw [shown.asComment, marked, withoutMarker, String.ofList_toList]

/-- The comment for an instruction is the line of the listing, as no instruction looks marked. -/
theorem Columns.asComment_text (shown : Columns columns address word) (instruction : Instruction) :
    RvLift.asComment (columns ++ instruction.text) =
      commentStart ++ (columns ++ instruction.text) := by
  have missing : ';' ∉ instruction.text.toList := instruction.consists_text.not_mem rfl
  have unmarked : withoutMarker instruction.text.toList = instruction.text.toList := by
    unfold withoutMarker
    split
    · rename_i remark marked
      exact absurd (by simp [marked]) missing
    · rfl
  rw [shown.asComment, unmarked, String.ofList_toList]

/-- The comment of the block of a word says what its line in a listing says. -/
theorem text_comment_ofWord (settings : Settings) (pc word : Word) :
    (Row.comment (Block.ofWord settings pc word)).text true = asComment (listingLine pc word) := by
  have shown := columns_listingColumns pc word
  have opening (text : String) : commentStart ++ text = "    " ++ ("// 0x" ++ text) := by
    rw [← String.append_assoc]
    rfl
  rw [listingLine_eq, listingRemark, Block.ofWord]
  cases Instruction.decode word pc with
  | ok instruction =>
    simp only [shown.asComment_text, opening]
    simp only [Row.text, Block.ofInstruction, Label.text, Target.indent, listingColumns, if_true,
      String.append_assoc]
  | error error =>
    simp only [shown.asComment_message, opening]
    simp only [Row.text, Block.ofError, Label.text, Target.indent, listingColumns,
      String.append_assoc]

end Remarks

section Comments

/-- A line begins as the comment of a block does exactly if it is one. -/
theorem Row.Proper.isPrefixOf_text {row : Row} (proper : row.Proper) (annotate : Bool) :
    commentStart.toList.isPrefixOf (row.text annotate).toList = row.block?.isSome := by
  cases row with
  | title text =>
    obtain ⟨rest, opener⟩ := proper.2
    rw [Row.text, ← opener]
    rfl
  | code text =>
    refine Bool.eq_false_iff.2 fun begins => proper.slashes_apart ?_
    have opener : ['/', '/'] <:+: commentStart.toList := ⟨"    ".toList, " 0x".toList, rfl⟩
    exact opener.trans (List.isPrefixOf_iff_prefix.1 begins).isInfix
  | comment block =>
    refine List.isPrefixOf_iff_prefix.2 ?_
    simp [text, commentStart, Target.indent]

/-- Of the lines of a source text, those that begin as comments of blocks do are those comments. -/
theorem filter_text {rows : List Row} (proper : ∀ row ∈ rows, row.Proper) (annotate : Bool) :
    ((rows.map (Row.text annotate)).filter fun line =>
        commentStart.toList.isPrefixOf line.toList) =
      (rows.filterMap Row.block?).map fun block => (Row.comment block).text annotate := by
  induction rows with
  | nil => rfl
  | cons row rows hypothesis =>
    have later := hypothesis fun other member => proper other (List.mem_cons_of_mem _ member)
    have kept := (proper row List.mem_cons_self).isPrefixOf_text annotate
    rw [List.map_cons, List.filter_cons, later, kept]
    cases row <;> rfl

/-- The comments in the source text of a program are those of its blocks. -/
theorem Program.blockComments_source (program : Program) (annotate : Bool) :
    blockComments (program.source annotate) =
      program.blocks.toList.map fun block => (Row.comment block).text annotate := by
  rw [blockComments, lines_source, filter_text program.proper_of_mem_rows, filterMap_block?_rows]

/-- The comments in the annotated source text of a lifted image say what its listing says. -/
theorem Image.blockComments_lift (image : Image) (settings : Settings) :
    blockComments ((image.lift settings).source true) = (lines image.listing).map asComment := by
  rw [Program.blockComments_source, lines_listing, lift, blocks, List.map_map, List.map_map]
  exact List.map_congr_left fun entry _ => text_comment_ofWord settings entry.1 entry.2

end Comments

/-- The listing and the annotated source text of a region describe the same words. The listing has a
line for each whole word, and a line feed behind each. A line begins with the address of its word,
which wraps past the top of the address space, and with the word, in eight hexadecimal digits each,
so that the bytes of the whole words can be read back from the listing. The comments of blocks in
the source text are the lines of the listing, in order, behind the beginning of a comment and
without the marker that the listing puts in front of the reason why a word encodes no instruction.
So two regions at one address have the same listing exactly if they agree on their whole words. -/
theorem Region.listing_matches_source (code : ByteArray) (base : Word) (whole : 4 ≤ code.size) :
    let listing := Region.listing code base
    let image : Image := ⟨base, code⟩
    listing = String.join ((lines listing).map (· ++ "\n")) ∧
    (lines listing).length = code.size / 4 ∧
    (∀ index < code.size / 4, ∃ columns,
      Columns columns ((base.toNat + 4 * index) % 2 ^ 32) (Bytes.readLittle code (4 * index) 4) ∧
      (∀ instruction,
        Instruction.decode (image.word index) (Word.address base index) = .ok instruction →
        (lines listing)[index]? = some (columns ++ instruction.text) ∧
          asComment (columns ++ instruction.text) =
            "    // 0x" ++ (columns ++ instruction.text)) ∧
      ∀ error, Instruction.decode (image.word index) (Word.address base index) = .error error →
        (lines listing)[index]? = some (columns ++ ("; " ++ error.message)) ∧
          asComment (columns ++ ("; " ++ error.message)) =
            "    // 0x" ++ (columns ++ error.message)) ∧
    listedBytes listing = code.data.toList.take (4 * (code.size / 4)) ∧
    (∃ text, Region.source code base = .ok text ∧
      blockComments text = (lines listing).map asComment) ∧
    ∀ other : ByteArray, listing = Region.listing other base ↔
      code.data.toList.take (4 * (code.size / 4)) =
        other.data.toList.take (4 * (other.size / 4)) := by
  intro listing image
  have shown (index : Nat) : Columns (listingColumns (Word.address base index) (image.word index))
      ((base.toNat + 4 * index) % 2 ^ 32) (Bytes.readLittle code (4 * index) 4) := by
    rw [← Word.toNat_address, ← image.toNat_word_eq_readLittle]
    exact columns_listingColumns _ _
  have line {index : Nat} (inside : index < code.size / 4) :
      (lines listing)[index]? = some
        (listingColumns (Word.address base index) (image.word index) ++
          listingRemark (Word.address base index) (image.word index)) :=
    image.getElem?_lines_listing inside
  refine ⟨image.listing_eq_join, image.length_lines_listing,
    fun index inside => ⟨_, shown index, ?_, ?_⟩, image.listedBytes_listing,
    ⟨_, Region.source_eq base whole, image.blockComments_lift _⟩,
    fun other => Image.listing_eq_iff rfl⟩
  · intro instruction decoded
    refine ⟨?_, (shown index).asComment_text instruction⟩
    rw [line inside, listingRemark, decoded]
  · intro error decoded
    refine ⟨?_, (shown index).asComment_message error⟩
    rw [line inside, listingRemark, decoded]

/-- An addition at the top of the address space, a word that encodes no instruction behind it, and
one more byte, which is not listed. -/
theorem Region.listing_matches_source_wrapped :
    let code : ByteArray := ⟨#[0xb3, 0x81, 0x20, 0x00, 0x73, 0x00, 0x00, 0x00, 0xff]⟩
    let listing := Region.listing code 0xfffffffc
    4 ≤ code.size ∧ (lines listing).length = 2 ∧
      listedBytes listing = [0xb3, 0x81, 0x20, 0x00, 0x73, 0x00, 0x00, 0x00] ∧
      ∃ text, Region.source code 0xfffffffc = .ok text ∧
        blockComments text =
          ["    // 0xfffffffc: 002081b3  add x3, x1, x2",
            "    // 0x00000000: 00000073  unsupported opcode 0x73 (word 0x00000073)"] := by
  intro code listing
  have size : 4 ≤ code.size := by decide
  obtain ⟨-, count, -, bytes, ⟨text, translated, comments⟩, -⟩ :=
    Region.listing_matches_source code 0xfffffffc size
  refine ⟨size, count.trans (by decide), bytes.trans (by decide), text, translated,
    comments.trans ?_⟩
  decide +kernel

end RvLift
