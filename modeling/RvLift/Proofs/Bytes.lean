import Mathlib
import RvLift.Machine.Basic

/-!
# Bytes and the numbers they spell

Bytes are below 256, so that bytes determine the number they spell and the sequence they make up.
Reading and writing inside a sequence does not depend on what follows it. Words are put together
from bytes in two ways, side by side in an image and one after another in memory; both come to the
number that the bytes spell.
-/

namespace RvLift

namespace Bytes

/-- A byte is below 256. -/
theorem byteAt_lt (bytes : ByteArray) (position : Nat) : byteAt bytes position < 256 := by
  rw [byteAt_eq_getD]
  exact UInt8.toNat_lt _

/-- A number read from `count` bytes has `count` digits of base 256. -/
theorem readLittle_lt (bytes : ByteArray) (start count : Nat) :
    readLittle bytes start count < 256 ^ count := by
  induction count generalizing start with
  | zero => exact Nat.one_pos
  | succ count hypothesis =>
    have byte := byteAt_lt bytes start
    have rest := hypothesis (start + 1)
    rw [readLittle, Nat.pow_succ']
    omega

/-- A number is the sum of its bytes by place. -/
theorem readLittle_eq_sum (bytes : ByteArray) (start count : Nat) :
    readLittle bytes start count =
      ∑ place ∈ Finset.range count, byteAt bytes (start + place) * 256 ^ place := by
  induction count generalizing start with
  | zero => rfl
  | succ count hypothesis =>
    have later : ∀ place ∈ Finset.range count,
        byteAt bytes (start + (place + 1)) * 256 ^ (place + 1) =
          256 * (byteAt bytes (start + 1 + place) * 256 ^ place) := by
      intro place _
      rw [Nat.add_assoc, Nat.add_comm 1, Nat.pow_succ', Nat.mul_left_comm]
    have first : byteAt bytes (start + 0) * 256 ^ 0 = byteAt bytes start := Nat.mul_one _
    rw [readLittle, hypothesis, Finset.sum_range_succ', Finset.sum_congr rfl later,
      ← Finset.mul_sum, first, Nat.add_comm]

/-- One more byte adds the most significant digit. -/
theorem readLittle_succ (bytes : ByteArray) (start count : Nat) :
    readLittle bytes start (count + 1) =
      readLittle bytes start count + byteAt bytes (start + count) * 256 ^ count := by
  rw [readLittle_eq_sum, readLittle_eq_sum, Finset.sum_range_succ]

/-- Shifting a byte in below the others multiplies them by 256. -/
theorem shiftLeft_or_eq (word : Word) {byte : Nat} (small : byte < 256) :
    word <<< 8 ||| BitVec.ofNat 32 byte = word * 256 + BitVec.ofNat 32 byte := by
  have apart : word <<< 8 &&& BitVec.ofNat 32 byte = 0#32 := by
    ext position inside
    have high (large : 8 ≤ position) : byte.testBit position = false := by
      have bound : 2 ^ 8 ≤ 2 ^ position := Nat.pow_le_pow_right Nat.two_pos large
      exact Nat.testBit_lt_two_pow (Nat.lt_of_lt_of_le small bound)
    by_cases low : position < 8
    · simp [low]
    · have clear : (BitVec.ofNat 32 byte)[position] = false := by
        rw [← BitVec.getLsbD_eq_getElem, BitVec.getLsbD_ofNat, high (Nat.le_of_not_lt low),
          Bool.and_false]
      rw [BitVec.getElem_and, clear, Bool.and_false, BitVec.getElem_zero]
  have scaled : word <<< 8 = word * 256 := BitVec.shiftLeft_eq_mul_twoPow word 8
  rw [← BitVec.add_eq_or_of_and_eq_zero _ _ apart, scaled]

/-- Bytes that are shifted in one after another from the last to the first stand below what was
there before. -/
theorem foldRev_shift (bytes : ByteArray) (start count : Nat) (word : Word) :
    count.foldRev (fun place _ (taken : Word) =>
        taken <<< 8 ||| BitVec.ofNat 32 (byteAt bytes (start + place))) word =
      word * 256 ^ count + BitVec.ofNat 32 (readLittle bytes start count) := by
  induction count generalizing word with
  | zero =>
    rw [Nat.foldRev_zero, readLittle, pow_zero, mul_one]
    exact (add_zero word).symm
  | succ count hypothesis =>
    have base : BitVec.ofNat 32 256 = (256 : Word) := rfl
    rw [Nat.foldRev_succ, hypothesis, shiftLeft_or_eq word (byteAt_lt ..), readLittle_succ,
      BitVec.ofNat_add, BitVec.ofNat_mul, BitVec.ofNat_pow, base]
    ring

/-- Shifting bytes in gives the word of the number that they spell. -/
theorem shiftedWord_eq (bytes : ByteArray) (start count : Nat) :
    shiftedWord bytes start count = BitVec.ofNat 32 (readLittle bytes start count) := by
  rw [shiftedWord, foldRev_shift]
  exact (congrArg (· + _) (zero_mul _)).trans (zero_add _)

/-- The number that two joined bit vectors spell. -/
theorem toNat_append {high low : Nat} (left : BitVec high) (right : BitVec low) :
    (left ++ right).toNat = 2 ^ low * left.toNat + right.toNat := by
  rw [BitVec.toNat_append, ← Nat.shiftLeft_add_eq_or_of_lt right.isLt, Nat.shiftLeft_eq,
    Nat.mul_comm]

/-- Four bytes next to one another are the word of the number that they spell. -/
theorem joinedWord_eq (bytes : ByteArray) (start : Nat) :
    joinedWord bytes start = BitVec.ofNat 32 (readLittle bytes start 4) := by
  have byte (place : Nat) : (BitVec.ofNat 8 (byteAt bytes (start + place))).toNat =
      byteAt bytes (start + place) := Nat.mod_eq_of_lt (byteAt_lt ..)
  have small : readLittle bytes start 4 < 2 ^ 32 := readLittle_lt ..
  have joined : (joinedWord bytes start).toNat =
      2 ^ 8 * (2 ^ 8 * (2 ^ 8 * byteAt bytes (start + 3) + byteAt bytes (start + 2)) +
        byteAt bytes (start + 1)) + byteAt bytes start := by
    refine (toNat_append _ _).trans ?_
    rw [toNat_append, toNat_append, byte, byte, byte, byte]
    rfl
  apply BitVec.eq_of_toNat_eq
  rw [joined, BitVec.toNat_ofNat, Nat.mod_eq_of_lt small]
  simp only [readLittle, Nat.add_assoc, Nat.reduceAdd]
  omega

/-- A number is read from its own bytes only. -/
theorem readLittle_congr {left right : ByteArray} {start count : Nat}
    (same : ∀ place < count, byteAt left (start + place) = byteAt right (start + place)) :
    readLittle left start count = readLittle right start count := by
  induction count generalizing start with
  | zero => rfl
  | succ count hypothesis =>
    have first : byteAt left start = byteAt right start := same 0 (Nat.zero_lt_succ count)
    have later : readLittle left (start + 1) count = readLittle right (start + 1) count := by
      apply hypothesis
      intro place small
      have shifted := same (place + 1) (Nat.succ_lt_succ small)
      rwa [← Nat.add_assoc, Nat.add_right_comm] at shifted
    rw [readLittle, readLittle, first, later]

/-- Byte sequences of one size are determined by their bytes. -/
theorem eq_of_byteAt {left right : ByteArray} (size : left.size = right.size)
    (bytes : ∀ position, byteAt left position = byteAt right position) :
    left = right := by
  apply ByteArray.ext
  apply Array.ext size
  intro position insideLeft insideRight
  have same := bytes position
  rw [byteAt_eq_getD, byteAt_eq_getD, Array.getElem?_eq_getElem insideLeft,
    Array.getElem?_eq_getElem insideRight] at same
  exact UInt8.toNat_inj.1 same

/-- The bytes of two sequences one behind the other. -/
theorem byteAt_append (first second : ByteArray) (position : Nat) :
    byteAt (first ++ second) position =
      if position < first.size then byteAt first position
      else byteAt second (position - first.size) := by
  simp only [byteAt_eq_getD, ByteArray.data_append, Array.getElem?_append]
  change ((if position < first.size then _ else _ : Option UInt8).getD 0).toNat = _
  split <;> rfl

/-- A number inside a sequence is read without what follows it. -/
theorem readLittle_append {first : ByteArray} {start count : Nat}
    (inside : start + count ≤ first.size) (second : ByteArray) :
    readLittle (first ++ second) start count = readLittle first start count := by
  apply readLittle_congr
  intro place small
  rw [byteAt_append, if_pos (by omega)]

/-- A number written inside a sequence leaves what follows it alone. -/
theorem writeLittle_append {first : ByteArray} {start count : Nat}
    (inside : start + count ≤ first.size) (second : ByteArray) (value : Nat) :
    writeLittle (first ++ second) start count value =
      writeLittle first start count value ++ second := by
  apply eq_of_byteAt
  · simp only [size_writeLittle, ByteArray.size_append]
  · intro position
    rw [byteAt_writeLittle, byteAt_append, byteAt_append, byteAt_writeLittle, size_writeLittle,
      ByteArray.size_append]
    by_cases written : start ≤ position ∧ position < start + count
    · rw [if_pos (by omega), if_pos (by omega), if_pos (by omega)]
    · have elsewhere (size : Nat) :
          ¬(start ≤ position ∧ position < start + count ∧ position < size) := by omega
      rw [if_neg (elsewhere _), if_neg (elsewhere _)]

end Bytes

/-- The word at a position of an image is the number that its four bytes spell. -/
theorem Image.word_eq (image : Image) (index : Nat) :
    image.word index = BitVec.ofNat 32 (Bytes.readLittle image.bytes (4 * index) 4) :=
  Bytes.joinedWord_eq ..

/-- As a number, the word at a position is read from its own four bytes. -/
theorem Image.toNat_word_eq_readLittle (image : Image) (index : Nat) :
    (image.word index).toNat = Bytes.readLittle image.bytes (4 * index) 4 := by
  rw [word_eq, BitVec.toNat_ofNat]
  exact Nat.mod_eq_of_lt (Bytes.readLittle_lt ..)

/-- A load inside memory finds the number that the accessed bytes spell. -/
theorem Machine.load_of_covers {machine : Machine} {access : Access}
    (covered : machine.covers access = true) :
    machine.load access = .ok
      (BitVec.ofNat 32
        (Bytes.readLittle machine.memory access.offset.toNat access.width.bytes)) := by
  rw [load, if_pos covered, Bytes.shiftedWord_eq]

end RvLift
