import RvLift.Word

/-!
# Byte sequences

Reading and writing fixed-width numbers inside a `ByteArray`. A position past the end reads as
zero and ignores writes; callers that must refuse such accesses check the bounds first.
-/

namespace RvLift.Bytes

/-- The byte at `position`, zero past the end. -/
def byteAt (bytes : ByteArray) (position : Nat) : Nat :=
  if h : position < bytes.size then (bytes.get position h).toNat else 0

/-- The bytes with the one at `position` replaced; unchanged past the end. -/
def setByte (bytes : ByteArray) (position : Nat) (byte : UInt8) : ByteArray :=
  if h : position < bytes.size then bytes.set position byte h else bytes

/-- The number spelled by `count` bytes from `start`, least significant byte first. -/
def readLittle (bytes : ByteArray) (start : Nat) : Nat → Nat
  | 0 => 0
  | count + 1 => byteAt bytes start + 256 * readLittle bytes (start + 1) count

/-- The number spelled by `count` bytes from `start`, most significant byte first. -/
def readBig (bytes : ByteArray) (start : Nat) : Nat → Nat
  | 0 => 0
  | count + 1 => 256 * readBig bytes start count + byteAt bytes (start + count)

/-- The word of `count` bytes from `start`, least significant byte first: they are shifted in one
after another from the last to the first. -/
def shiftedWord (bytes : ByteArray) (start count : Nat) : Word :=
  count.foldRev (fun place _ word =>
    word <<< 8 ||| BitVec.ofNat 32 (byteAt bytes (start + place))) 0

/-- The word of the four bytes from `start`, least significant byte first: they stand next to one
another. -/
def joinedWord (bytes : ByteArray) (start : Nat) : Word :=
  let byte (place : Nat) : BitVec 8 := BitVec.ofNat 8 (byteAt bytes (start + place))
  byte 3 ++ byte 2 ++ byte 1 ++ byte 0

/-- Write the `count` low bytes of `value` from `start` on, least significant byte first. -/
def writeLittle (bytes : ByteArray) (start count value : Nat) : ByteArray :=
  count.fold (fun index _ written =>
    setByte written (start + index) (UInt8.ofNat (value >>> (8 * index)))) bytes

/-- The sequence of `count` bytes whose byte at each position is given by `byte`. -/
def tabulate (count : Nat) (byte : Nat → UInt8) : ByteArray :=
  count.fold (fun position _ bytes => bytes.push (byte position)) ByteArray.empty

/-- Append zero bytes until there are at least `size` bytes. -/
def padTo (bytes : ByteArray) (size : Nat) : ByteArray :=
  (size - bytes.size).fold (fun _ _ padded => padded.push 0) bytes

/-- A byte is the element of the underlying array, with zero past the end. -/
theorem byteAt_eq_getD (bytes : ByteArray) (position : Nat) :
    byteAt bytes position = (bytes.data[position]?.getD 0).toNat := by
  by_cases inside : position < bytes.size
  · have bound : position < bytes.data.size := inside
    rw [byteAt, dif_pos inside, Array.getElem?_eq_getElem bound, Option.getD_some]
    rfl
  · have bound : bytes.data.size ≤ position := Nat.le_of_not_lt inside
    rw [byteAt, dif_neg inside, Array.getElem?_eq_none bound]
    rfl

/-- Bytes past the end are zero. -/
theorem byteAt_of_size_le {bytes : ByteArray} {position : Nat} (past : bytes.size ≤ position) :
    byteAt bytes position = 0 := by
  unfold byteAt
  rw [dif_neg (Nat.not_lt.2 past)]

/-- Replacing a byte keeps the size. -/
@[simp] theorem size_setByte (bytes : ByteArray) (position : Nat) (byte : UInt8) :
    (setByte bytes position byte).size = bytes.size := by
  unfold setByte
  split
  · exact Array.size_set ..
  · rfl

/-- Replacing a byte changes that byte and no other. -/
theorem byteAt_setByte (bytes : ByteArray) (target position : Nat) (byte : UInt8) :
    byteAt (setByte bytes target byte) position =
      if position = target ∧ target < bytes.size then byte.toNat else byteAt bytes position := by
  by_cases inside : target < bytes.size
  · have bound : target < bytes.data.size := inside
    rw [setByte, dif_pos inside, byteAt_eq_getD, byteAt_eq_getD]
    change ((bytes.data.set target byte bound)[position]?.getD 0).toNat = _
    rw [Array.getElem?_set]
    by_cases same : target = position
    · simp [same, same ▸ inside]
    · simp [same, Ne.symm same]
  · rw [setByte, dif_neg inside, if_neg (fun both => inside both.2)]

/-- Writing a number keeps the size. -/
@[simp] theorem size_writeLittle (bytes : ByteArray) (start count value : Nat) :
    (writeLittle bytes start count value).size = bytes.size := by
  induction count with
  | zero => simp [writeLittle]
  | succ count hypothesis =>
    rw [writeLittle, Nat.fold_succ, size_setByte]
    exact hypothesis

/-- Writing a number replaces its own bytes, least significant first, and no other. -/
theorem byteAt_writeLittle (bytes : ByteArray) (start count value position : Nat) :
    byteAt (writeLittle bytes start count value) position =
      if start ≤ position ∧ position < start + count ∧ position < bytes.size then
        (value >>> (8 * (position - start))) % 256
      else byteAt bytes position := by
  induction count with
  | zero =>
    have none : ¬(start ≤ position ∧ position < start + 0 ∧ position < bytes.size) := by omega
    rw [if_neg none]
    simp [writeLittle]
  | succ count hypothesis =>
    have size : (writeLittle bytes start count value).size = bytes.size := size_writeLittle ..
    have step : writeLittle bytes start (count + 1) value =
        setByte (writeLittle bytes start count value) (start + count)
          (UInt8.ofNat (value >>> (8 * count))) := by
      rw [writeLittle, Nat.fold_succ]
      rfl
    rw [step, byteAt_setByte, size, hypothesis]
    by_cases last : position = start + count ∧ start + count < bytes.size
    · have offset : position - start = count := by omega
      rw [if_pos last, if_pos (by omega), offset]
      simp
    · rw [if_neg last]
      by_cases earlier : start ≤ position ∧ position < start + count ∧ position < bytes.size
      · rw [if_pos earlier, if_pos (by omega)]
      · rw [if_neg earlier, if_neg (by omega)]

/-- Appending a byte adds it behind the others. -/
theorem byteAt_push (bytes : ByteArray) (byte : UInt8) (position : Nat) :
    byteAt (bytes.push byte) position =
      if position = bytes.size then byte.toNat else byteAt bytes position := by
  rw [byteAt_eq_getD, byteAt_eq_getD]
  change ((bytes.data.push byte)[position]?.getD 0).toNat = _
  rw [Array.getElem?_push]
  by_cases same : position = bytes.size
  · have here : position = bytes.data.size := same
    simp [here]
  · have elsewhere : position ≠ bytes.data.size := same
    rw [if_neg elsewhere, if_neg same]

/-- A tabulated sequence has as many bytes as asked for. -/
@[simp] theorem size_tabulate (count : Nat) (byte : Nat → UInt8) :
    (tabulate count byte).size = count := by
  induction count with
  | zero => rfl
  | succ count hypothesis =>
    rw [tabulate, Nat.fold_succ, ByteArray.size_push]
    exact congrArg (· + 1) hypothesis

/-- A tabulated sequence holds the bytes asked for. -/
theorem byteAt_tabulate (count : Nat) (byte : Nat → UInt8) (position : Nat) :
    byteAt (tabulate count byte) position =
      if position < count then (byte position).toNat else 0 := by
  induction count with
  | zero => rfl
  | succ count hypothesis =>
    have size : (tabulate count byte).size = count := size_tabulate ..
    have step : tabulate (count + 1) byte = (tabulate count byte).push (byte count) := by
      rw [tabulate, Nat.fold_succ]
      rfl
    rw [step, byteAt_push, size, hypothesis]
    by_cases last : position = count
    · rw [if_pos last, if_pos (by omega), last]
    · by_cases earlier : position < count
      · rw [if_neg last, if_pos earlier, if_pos (by omega)]
      · rw [if_neg last, if_neg earlier, if_neg (by omega)]

/-- Appending zeros adds as many bytes as there are zeros. -/
theorem size_fold_zeros (bytes : ByteArray) (count : Nat) :
    (count.fold (fun _ _ padded => padded.push 0) bytes).size = bytes.size + count := by
  induction count with
  | zero => rfl
  | succ count hypothesis =>
    rw [Nat.fold_succ, ByteArray.size_push, hypothesis]
    omega

/-- Appending zeros keeps every byte, as bytes past the end are zero. -/
theorem byteAt_fold_zeros (bytes : ByteArray) (count position : Nat) :
    byteAt (count.fold (fun _ _ padded => padded.push 0) bytes) position =
      byteAt bytes position := by
  induction count with
  | zero => rfl
  | succ count hypothesis =>
    rw [Nat.fold_succ, byteAt_push, size_fold_zeros, hypothesis]
    by_cases last : position = bytes.size + count
    · rw [if_pos last, byteAt_of_size_le (by omega)]
      rfl
    · rw [if_neg last]

/-- Padding reaches the size asked for and never removes bytes. -/
@[simp] theorem size_padTo (bytes : ByteArray) (size : Nat) :
    (padTo bytes size).size = max bytes.size size := by
  rw [padTo, size_fold_zeros]
  omega

/-- Padding keeps every byte. -/
@[simp] theorem byteAt_padTo (bytes : ByteArray) (size position : Nat) :
    byteAt (padTo bytes size) position = byteAt bytes position :=
  byteAt_fold_zeros ..

end RvLift.Bytes
