import Mathlib
import RvLift.Proofs.Addresses
import RvLift.Proofs.Instruction.Assembly
import RvLift.Proofs.Program.Placement
import RvLift.Proofs.Text.Comments
import RvLift.Region

/-!
# Listings and the words they show

A listing has one line for each whole word of an image. Addresses and words stand in columns of
fixed width, so that the words can be read back from their columns, and with them the bytes that
spell them. A listing therefore shows nothing but the words, and all of them.
-/

namespace RvLift

namespace Bytes

/-- The `count` low bytes of a number, least significant byte first. -/
def little : Nat → Nat → List UInt8
  | 0, _ => []
  | count + 1, number => UInt8.ofNat number :: little count (number / 256)

/-- The bytes of a number that is read from a sequence are those it is read from. -/
theorem little_readLittle {bytes : ByteArray} {start count : Nat}
    (inside : start + count ≤ bytes.size) :
    little count (readLittle bytes start count) = (bytes.data.toList.drop start).take count := by
  induction count generalizing start with
  | zero => rfl
  | succ count hypothesis =>
    have bound : start < bytes.data.toList.length := by
      change start < bytes.size
      omega
    have first : UInt8.ofNat (byteAt bytes start + 256 * readLittle bytes (start + 1) count) =
        bytes.data.toList[start] := by
      apply UInt8.toNat_inj.1
      rw [UInt8.toNat_ofNat', byteAt_eq_getD, Array.getElem_toList, Array.getElem?_eq_getElem,
        Option.getD_some, Nat.add_mul_mod_self_left, Nat.mod_eq_of_lt (UInt8.toNat_lt _)]
    have behind : (byteAt bytes start + 256 * readLittle bytes (start + 1) count) / 256 =
        readLittle bytes (start + 1) count := by
      have byte := byteAt_lt bytes start
      omega
    rw [readLittle, little, first, behind, hypothesis (by omega), List.drop_eq_getElem_cons bound,
      List.take_succ_cons]

/-- The bytes of consecutive numbers are those of the sequence they are read from. -/
theorem flatMap_little_readLittle {bytes : ByteArray} (width : Nat) {count : Nat}
    (inside : width * count ≤ bytes.size) :
    (List.range count).flatMap
        (fun index => little width (readLittle bytes (width * index) width)) =
      bytes.data.toList.take (width * count) := by
  induction count with
  | zero => rfl
  | succ count hypothesis =>
    rw [Nat.mul_succ] at inside ⊢
    rw [List.range_succ, List.flatMap_append, hypothesis (by omega), List.flatMap_singleton,
      little_readLittle inside, List.take_add]

end Bytes

namespace Text

/-- Whether a text is the eight hexadecimal digits of a number. -/
structure EightDigits (text : String) (number : Nat) : Prop where
  /-- There are eight digits. -/
  length : text.toList.length = 8
  /-- They spell the number. -/
  value : value? 16 text.toList = some number

/-- Every number of 32 bits has eight digits. -/
theorem eightDigits_hex8 (word : Word) : EightDigits (hex8 word.toNat) word.toNat where
  length := length_padded (by decide) (by decide) word.isLt
  value := value?_padded (by decide) (by decide) 8 word.toNat

end Text

open Text

/-- The columns of a line that lists a word: its address and the word in eight digits each. -/
inductive Columns : (columns : String) → (address word : Nat) → Prop where
  | intro {first second : String} {address word : Nat} (placed : EightDigits first address)
    (spelled : EightDigits second word) :
    Columns (first ++ ": " ++ second ++ "  ") address word

/-- The columns in front of a remark in a listing. -/
def listingColumns (pc word : Word) : String :=
  hex8 pc.toNat ++ ": " ++ hex8 word.toNat ++ "  "

/-- What a listing says about a word behind the columns. -/
def listingRemark (pc word : Word) : String :=
  match Instruction.decode word pc with
  | .ok instruction => instruction.text
  | .error error => "; " ++ error.message

/-- The word in a line of a listing, in its eleventh to eighteenth character. -/
def listedWord? (line : String) : Option Nat := value? 16 ((line.toList.drop 10).take 8)

/-- The bytes of the words in a listing. -/
def listedBytes (listing : String) : List UInt8 :=
  ((lines listing).filterMap listedWord?).flatMap (Bytes.little 4)

section Lines

variable {columns : String} {address word : Nat}

/-- The columns take up twenty characters. -/
theorem Columns.length (shown : Columns columns address word) : columns.toList.length = 20 := by
  cases shown with
  | intro placed spelled => simp [placed.length, spelled.length]

/-- The word of a line is read from its column. -/
theorem Columns.listedWord? (shown : Columns columns address word) (remark : String) :
    RvLift.listedWord? (columns ++ remark) = some word := by
  cases shown with
  | @intro first second _ _ placed spelled =>
    have front : (first ++ ": ").toList.length = 10 := by simp [placed.length]
    have whole : (first ++ ": " ++ second ++ "  " ++ remark).toList =
        (first ++ ": ").toList ++ (second.toList ++ ("  " ++ remark).toList) := by
      simp
    rw [RvLift.listedWord?, whole, List.drop_left' front, List.take_left' spelled.length]
    exact spelled.value

variable (pc word : Word)

/-- The columns of a line in a listing. -/
theorem columns_listingColumns : Columns (listingColumns pc word) pc.toNat word.toNat :=
  .intro (eightDigits_hex8 pc) (eightDigits_hex8 word)

/-- A line of a listing is its columns and its remark. -/
theorem listingLine_eq : listingLine pc word = listingColumns pc word ++ listingRemark pc word :=
  rfl

/-- The word that a line lists is read from it. -/
theorem listedWord?_listingLine : listedWord? (listingLine pc word) = some word.toNat :=
  (columns_listingColumns pc word).listedWord? (listingRemark pc word)

/-- A remark is plain. -/
theorem plain_listingRemark : Plain (listingRemark pc word) := by
  unfold listingRemark
  split
  · exact Instruction.plain_text _
  · rename_i error _
    have marker : Plain "; " := rfl
    exact plain_append.2 ⟨marker, error.plain_message⟩

/-- A line of a listing stays on its line. -/
theorem plain_listingLine : Plain (listingLine pc word) := by
  have colon : Plain ": " := rfl
  have blanks : Plain "  " := rfl
  have columns : Plain (listingColumns pc word) := by
    simp only [listingColumns, plain_append, plain_hex8, colon, blanks, and_self]
  exact plain_append.2 ⟨columns, plain_listingRemark pc word⟩

end Lines

namespace Image

variable (image : Image)

/-- The bytes of the whole words. -/
def wholeBytes : List UInt8 := image.bytes.data.toList.take (4 * image.wordCount)

/-- The lines of a listing. -/
theorem lines_listing :
    lines image.listing = image.words.map fun (pc, word) => listingLine pc word := by
  have inline : ∀ line ∈ image.words.map fun (pc, word) => listingLine pc word,
      Consists isInline line :=
    List.forall_mem_map.2 fun entry _ => (plain_listingLine entry.1 entry.2).inline
  rw [← lines_join inline, List.map_map]
  rfl

/-- A listing is its lines with a line feed behind each. -/
theorem listing_eq_join : image.listing = String.join ((lines image.listing).map (· ++ "\n")) := by
  rw [lines_listing, List.map_map]
  rfl

/-- There is a line for each whole word. -/
theorem length_lines_listing : (lines image.listing).length = image.wordCount := by
  rw [lines_listing, words, List.length_map, List.length_map, List.length_range]

/-- The line of the word at a position. -/
theorem getElem?_lines_listing {index : Nat} (inside : index < image.wordCount) :
    (lines image.listing)[index]? =
      some (listingLine (Word.address image.base index) (image.word index)) := by
  simp [lines_listing, words, inside]

/-- The whole words lie inside the image. -/
theorem four_mul_wordCount_le : 4 * image.wordCount ≤ image.bytes.size := Nat.mul_div_le ..

/-- There are four bytes to a whole word. -/
theorem length_wholeBytes : image.wholeBytes.length = 4 * image.wordCount := by
  rw [wholeBytes, List.length_take, Array.length_toList]
  exact Nat.min_eq_left image.four_mul_wordCount_le

/-- The bytes of the whole words are those of the image. -/
theorem byteAt_eq_wholeBytes {position : Nat} (inside : position < 4 * image.wordCount) :
    Bytes.byteAt image.bytes position = (image.wholeBytes[position]?.getD 0).toNat := by
  rw [Bytes.byteAt_eq_getD, wholeBytes, List.getElem?_take_of_lt inside, Array.getElem?_toList]

/-- The words in the listing of an image are its whole words. -/
theorem filterMap_listedWord?_listing :
    (lines image.listing).filterMap listedWord? =
      (List.range image.wordCount).map fun index =>
        Bytes.readLittle image.bytes (4 * index) 4 := by
  have word (index : Nat) :
      listedWord? (listingLine (Word.address image.base index) (image.word index)) =
        some (Bytes.readLittle image.bytes (4 * index) 4) := by
    rw [listedWord?_listingLine, toNat_word_eq_readLittle]
  rw [lines_listing, words, List.map_map, List.filterMap_map, ← List.filterMap_eq_map]
  exact List.filterMap_congr fun index _ => by simp only [Function.comp_apply, word]

/-- The bytes in the listing of an image are those of its whole words. -/
theorem listedBytes_listing : listedBytes image.listing = image.wholeBytes := by
  rw [listedBytes, filterMap_listedWord?_listing, List.flatMap_map]
  exact Bytes.flatMap_little_readLittle 4 image.four_mul_wordCount_le

/-- At one base, images with the same whole words have the same listing and no others. -/
theorem listing_eq_iff {first second : Image} (base : first.base = second.base) :
    first.listing = second.listing ↔ first.wholeBytes = second.wholeBytes := by
  constructor
  · intro same
    rw [← listedBytes_listing, same, listedBytes_listing]
  · intro same
    have count : first.wordCount = second.wordCount := by
      have lengths := congrArg List.length same
      rw [length_wholeBytes, length_wholeBytes] at lengths
      omega
    have words : first.words = second.words := by
      refine words_congr base count fun position inside => ?_
      rw [byteAt_eq_wholeBytes first inside, same, byteAt_eq_wholeBytes second (count ▸ inside)]
    rw [listing, listing, words]

end Image

end RvLift
