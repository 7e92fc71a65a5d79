import Mathlib
import RvLift.Elf.File
import RvLift.Proofs.Bytes
import RvLift.Proofs.Elf.Layout
import RvLift.Proofs.Results

/-!
# Flattening segments

The image of a file, built segment by segment: each segment is checked with sums of 64 bits, the
buffer is grown to its end, and its contents are copied from the file over what the buffer holds
there. Every slice that is taken is checked as well. None of the checks of slices ever fails, and
the buffer behind each segment is the layout of the segments so far.

A sum that passes 64 bits also passes every bound that has 64 bits, so the checks say the same as
sums without a limit. Nothing else has to be known about the numbers in the headers.
-/

namespace RvLift

namespace Bytes

/-- The bytes from `start` to `stop`, which must lie inside the sequence. -/
def slice? (bytes : ByteArray) (start stop : Nat) : Option ByteArray :=
  if start ≤ stop ∧ stop ≤ bytes.size then some (bytes.extract start stop) else none

/-- The sequence with the bytes from `start` to `stop`, which must lie inside it, replaced by as
many others. -/
def overwrite? (bytes : ByteArray) (start stop : Nat) (contents : ByteArray) : Option ByteArray :=
  if start ≤ stop ∧ stop ≤ bytes.size ∧ contents.size = stop - start then
    some (bytes.extract 0 start ++ contents ++ bytes.extract stop bytes.size)
  else none

/-- The bytes of a part of a sequence. -/
theorem byteAt_extract (bytes : ByteArray) (start stop position : Nat) :
    byteAt (bytes.extract start stop) position =
      if start + position < stop then byteAt bytes (start + position) else 0 := by
  rw [byteAt_eq_getD, byteAt_eq_getD, ByteArray.data_extract, Array.getElem?_extract]
  change ((if position < min stop bytes.size - start then _ else _ : Option UInt8).getD 0).toNat = _
  by_cases inside : start + position < stop
  · by_cases held : start + position < bytes.size
    · rw [if_pos (by omega), if_pos inside]
    · rw [if_neg (by omega), if_pos inside, Array.getElem?_eq_none (Nat.le_of_not_lt held)]
  · rw [if_neg (by omega), if_neg inside]
    rfl

/-- A slice inside a sequence has its bytes. -/
theorem exists_slice? {bytes : ByteArray} {start count : Nat}
    (inside : start + count ≤ bytes.size) :
    ∃ contents, slice? bytes start (start + count) = some contents ∧ contents.size = count ∧
      ∀ position < count, byteAt contents position = byteAt bytes (start + position) := by
  refine ⟨_, if_pos ⟨Nat.le_add_right start count, inside⟩, ?_, fun position small => ?_⟩
  · rw [ByteArray.size_extract]
    omega
  · rw [byteAt_extract, if_pos (by omega)]

/-- Overwriting a part of a sequence by as many bytes replaces this part and nothing else. -/
theorem exists_overwrite? {bytes contents : ByteArray} {start count : Nat}
    (inside : start + count ≤ bytes.size) (size : contents.size = count) :
    ∃ result, overwrite? bytes start (start + count) contents = some result ∧
      result.size = bytes.size ∧
      ∀ position, byteAt result position =
        if start ≤ position ∧ position < start + count then byteAt contents (position - start)
        else byteAt bytes position := by
  have front : (bytes.extract 0 start).size = start := by
    rw [ByteArray.size_extract]
    omega
  refine ⟨_, if_pos ⟨Nat.le_add_right start count, inside, by omega⟩, ?_, fun position => ?_⟩
  · rw [ByteArray.size_append, ByteArray.size_append, front, size, ByteArray.size_extract]
    omega
  · rw [byteAt_append, byteAt_append, ByteArray.size_append, front, size, byteAt_extract,
      byteAt_extract]
    by_cases before : position < start
    · rw [if_pos (by omega), if_pos before, if_pos (by omega), if_neg (by omega), Nat.zero_add]
    · by_cases within : position < start + count
      · rw [if_pos within, if_neg before, if_pos ⟨Nat.le_of_not_lt before, within⟩]
      · have place : start + count + (position - (start + count)) = position := by omega
        have outside : ¬(start ≤ position ∧ position < start + count) := fun both => within both.2
        rw [if_neg within, place, if_neg outside]
        by_cases held : position < bytes.size
        · rw [if_pos held]
        · rw [if_neg held, byteAt_of_size_le (Nat.le_of_not_lt held)]

end Bytes

namespace Elf

/-- What can stand in the way of flattening segments. -/
inductive Obstacle where
  /-- The file or one of its segments is refused. -/
  | refused (error : LoadError)
  /-- A slice does not lie inside its sequence, or does not have the size of its copy. -/
  | badSlice

/-- The sum of two numbers, if it has 64 bits. -/
def sum? (first second : Nat) : Option Nat :=
  if overflows first second then none else some (first + second)

/-- Copy a segment into a buffer that holds the image from the base address on. -/
def Segment.place (base : Word) (bytes buffer : ByteArray) (segment : Segment) :
    Except Obstacle ByteArray := do
  if segment.address < base.toNat then
    throw (.refused (.belowBase segment.address base))
  let some fileEnd := (sum? segment.offset segment.fileSize).filter (· ≤ bytes.size)
    | throw (.refused (.segmentOutOfRange segment.address))
  let some memoryEnd := (sum? segment.address segment.fileSize).filter (· ≤ 2 ^ 32)
    | throw (.refused (.segmentOutOfRange segment.address))
  let start := segment.address - base.toNat
  let stop := memoryEnd - base.toNat
  let some contents := Bytes.slice? bytes segment.offset fileEnd | throw .badSlice
  let some written := Bytes.overwrite? (Bytes.padTo buffer stop) start stop contents
    | throw .badSlice
  return written

/-- Build the image of a file at a base address, segment by segment. -/
def File.flatten (file : File) (base : Word) (bytes : ByteArray) : Except Obstacle Image := do
  if file.machine ≠ riscVMachine then
    throw (.refused (.notRiscV file.machine))
  if file.addressSize = .bits64 then
    throw (.refused .not32Bit)
  let segments := file.segments.filter Segment.isLoaded
  if segments.isEmpty then
    throw (.refused .noLoadableSegments)
  let buffer ← segments.foldlM (Segment.place base bytes) ByteArray.empty
  return ⟨base, buffer⟩

section Placing

variable {base : Word} {bytes : ByteArray} {segment : Segment}

/-- A sum is found to be at most a bound of 64 bits if it is. -/
theorem filter_sum?_of_le {first second bound : Nat} (small : bound < 2 ^ 64)
    (within : first + second ≤ bound) :
    (sum? first second).filter (· ≤ bound) = some (first + second) := by
  have fits : overflows first second = false := by
    refine decide_eq_false ?_
    omega
  have exact : sum? first second = some (first + second) := by rw [sum?, fits, if_neg nofun]
  rw [exact, Option.filter_some, if_pos (decide_eq_true within)]

/-- A sum beyond a bound is not taken for less, whether it has 64 bits or not. -/
theorem filter_sum?_of_lt {first second bound : Nat} (beyond : bound < first + second) :
    (sum? first second).filter (· ≤ bound) = none := by
  rw [sum?]
  split
  · rfl
  · rw [Option.filter_some, if_neg (by simpa using beyond)]

section Small

-- The contents of the file are in memory.
variable (small : bytes.size < 2 ^ 64)
include small

/-- A segment that does not fit is refused, whatever the buffer holds. -/
theorem Segment.place_of_refused {error : LoadError}
    (refused : segment.Refused base bytes error) (buffer : ByteArray) :
    segment.place base bytes buffer = .error (.refused error) := by
  unfold place
  cases refused with
  | belowBase starts =>
    rw [if_pos starts]
    rfl
  | outOfRange above passes =>
    rw [if_neg (Nat.not_lt.2 above)]
    by_cases stored : segment.offset + segment.fileSize ≤ bytes.size
    · have past : 2 ^ 32 < segment.address + segment.fileSize :=
        passes.resolve_left (Nat.not_lt.2 stored)
      simp only [filter_sum?_of_le small stored, filter_sum?_of_lt past]
      rfl
    · simp only [filter_sum?_of_lt (Nat.lt_of_not_le stored)]
      rfl

/-- A segment that fits is copied over the layout of the segments before it, which gives the layout
with it. -/
theorem Segment.place_of_fits (fits : segment.Fits base bytes) (segments : List Segment) :
    segment.place base bytes (layOut base bytes segments).bytes =
      .ok (layOut base bytes (segments ++ [segment])).bytes := by
  obtain ⟨above, stored, below⟩ := fits
  have stop : segment.address + segment.fileSize - base.toNat =
      segment.address - base.toNat + segment.fileSize := by omega
  have room : segment.address - base.toNat + segment.fileSize ≤
      (Bytes.padTo (layOut base bytes segments).bytes
        (segment.address - base.toNat + segment.fileSize)).size := by
    rw [Bytes.size_padTo]
    omega
  obtain ⟨contents, sliced, contentsSize, copied⟩ := Bytes.exists_slice? stored
  obtain ⟨result, written, resultSize, replaced⟩ := Bytes.exists_overwrite? room contentsSize
  have placed : segment.place base bytes (layOut base bytes segments).bytes = .ok result := by
    unfold place
    rw [if_neg (Nat.not_lt.2 above)]
    simp only [filter_sum?_of_le small stored, filter_sum?_of_le (by decide) below, sliced, stop,
      written]
    rfl
  rw [placed]
  refine congrArg Except.ok (Bytes.eq_of_byteAt ?_ fun position => ?_)
  · rw [resultSize, Bytes.size_padTo, layOut, layOut, Bytes.size_tabulate, Bytes.size_tabulate,
      imageSize_append_singleton, stop]
  · rw [replaced, Bytes.byteAt_padTo, byteAt_layOut, byteAt_layOut, imageByte_append_singleton]
    by_cases covers : segment.Covers (base.toNat + position)
    · obtain ⟨first, last⟩ := covers
      rw [if_pos (by omega), if_pos (contains_iff.2 ⟨first, last⟩), copied _ (by omega)]
      have place : segment.offset + (position - (segment.address - base.toNat)) =
          segment.offset + (base.toNat + position - segment.address) := by omega
      rw [place]
      exact (Nat.mod_eq_of_lt (Bytes.byteAt_lt ..)).symm
    · rw [if_neg (contains_iff.not.2 covers), if_neg]
      intro both
      exact covers ⟨by omega, by omega⟩

variable {segments : List Segment}

/-- Segments that fit are laid out one after another. -/
theorem foldlM_place_of_fit (fit : ∀ segment ∈ segments, segment.Fits base bytes)
    (before : List Segment) :
    segments.foldlM (Segment.place base bytes) (layOut base bytes before).bytes =
      .ok (layOut base bytes (before ++ segments)).bytes := by
  induction segments generalizing before with
  | nil =>
    rw [List.append_nil]
    rfl
  | cons segment rest hypothesis =>
    obtain ⟨segmentFits, restFit⟩ := List.forall_mem_cons.1 fit
    rw [List.foldlM_cons, Segment.place_of_fits small segmentFits, ok_bind, hypothesis restFit,
      List.append_assoc, List.singleton_append]

/-- The first segment that does not fit ends the layout. -/
theorem foldlM_place_of_refused {before later : List Segment} {error : LoadError}
    (fit : ∀ other ∈ before, other.Fits base bytes) (refused : segment.Refused base bytes error) :
    (before ++ segment :: later).foldlM (Segment.place base bytes) (layOut base bytes []).bytes =
      .error (.refused error) := by
  rw [List.foldlM_append, foldlM_place_of_fit small fit, ok_bind, List.foldlM_cons,
    Segment.place_of_refused small refused, error_bind]

/-- Placing segments one after another comes to their layout if they pass the check, and to what the
check reports if they do not. -/
theorem foldlM_place (segments : List Segment) :
    segments.foldlM (Segment.place base bytes) (layOut base bytes []).bytes =
      match segments.forM (Segment.check base bytes) with
      | .ok _ => .ok (layOut base bytes segments).bytes
      | .error error => .error (.refused error) := by
  cases checked : segments.forM (Segment.check base bytes) with
  | ok passed => exact foldlM_place_of_fit small (forM_check_eq_ok_iff.1 checked) []
  | error error =>
    obtain ⟨before, segment, later, rfl, fit, refused⟩ := forM_check_eq_error_iff.1 checked
    exact foldlM_place_of_refused small fit refused

end Small

end Placing

namespace File

variable {file : File} {base : Word} {bytes : ByteArray}

/-- The conditions for flattening, one after another. -/
theorem flatten_eq (file : File) (base : Word) (bytes : ByteArray) :
    file.flatten base bytes =
      if file.machine ≠ riscVMachine then .error (.refused (.notRiscV file.machine))
      else if file.addressSize = .bits64 then .error (.refused .not32Bit)
      else if file.loadable = [] then .error (.refused .noLoadableSegments)
      else (file.loadable.foldlM (Segment.place base bytes) (layOut base bytes []).bytes).map
        fun buffer => ⟨base, buffer⟩ := by
  unfold flatten
  rw [filter_isLoaded]
  split
  · rfl
  · split
    · rfl
    · cases file.loadable with
      | nil => rfl
      | cons first rest =>
        rw [if_neg (List.cons_ne_nil first rest)]
        change ((first :: rest).foldlM (Segment.place base bytes) (layOut base bytes []).bytes >>=
          fun _ => pure _) = _
        cases (first :: rest).foldlM (Segment.place base bytes) (layOut base bytes []).bytes <;> rfl

/-- Flattening a file builds its image or refuses the file for the reason that is reported. No slice
is ever bad. -/
theorem flatten_eq_image (small : bytes.size < 2 ^ 64) :
    file.flatten base bytes =
      match file.image base bytes with
      | .ok loaded => .ok loaded.image
      | .error error => .error (.refused error) := by
  rw [flatten_eq, image_eq]
  by_cases machine : file.machine ≠ riscVMachine
  · rw [if_pos machine, if_pos machine]
  rw [if_neg machine, if_neg machine]
  by_cases wide : file.addressSize = .bits64
  · rw [if_pos wide, if_pos wide]
  rw [if_neg wide, if_neg wide]
  by_cases none : file.loadable = []
  · rw [if_pos none, if_pos none]
  rw [if_neg none, if_neg none, foldlM_place small]
  cases file.loadable.forM (Segment.check base bytes) <;> rfl

end File

/-- The image of a file holds every byte of its loadable segments in its place, however its headers
are read and whatever numbers they hold. A file has an image exactly if it is a 32-bit RISC-V file
with loadable segments that all fit. The image starts at the base and reaches to the farthest end of
a segment; each of its bytes is the one that the last segment over its address has in the file, or
zero where there is no segment, and if no segments overlap, the order of the headers does not
matter. A file without an image is refused for the first condition that fails. Growing a buffer and
copying one segment after another into it, with sums of 64 bits, comes to the same for every file
that is in memory, and takes no slice outside the file or the buffer. -/
theorem loadWith_places_segments (parse : ByteArray → Except ParseError File) (bytes : ByteArray)
    (file : File) (parsed : parse bytes = .ok file) (base : Word) :
    ((∃ loaded, loadWith parse bytes base = .ok loaded) ↔ file.Loads base bytes) ∧
    (∀ loaded, loadWith parse bytes base = .ok loaded →
      loaded.image.base = base ∧
      IsGreatest {size | ∃ segment ∈ file.loadable,
        size = segment.address + segment.fileSize - base.toNat} loaded.image.size ∧
      (∀ position < loaded.image.size,
        Supplies bytes file.loadable (base.toNat + position)
          (Bytes.byteAt loaded.image.bytes position)) ∧
      ∀ reordered : List Segment, reordered.Perm file.segments →
        file.loadable.Pairwise Segment.Disjoint →
        { file with segments := reordered }.image base bytes = .ok loaded) ∧
    (∀ error, loadWith parse bytes base = .error error ↔ file.Refused base bytes error) ∧
    (bytes.size < 2 ^ 64 →
      file.flatten base bytes =
        match loadWith parse bytes base with
        | .ok loaded => .ok loaded.image
        | .error error => .error (.refused error)) := by
  have loaded_eq : loadWith parse bytes base = file.image base bytes := by rw [loadWith, parsed]
  rw [loaded_eq]
  refine ⟨File.exists_image_iff, fun loaded succeeded => ?_, fun error => File.image_eq_error_iff,
    File.flatten_eq_image⟩
  have loads := File.exists_image_iff.1 ⟨loaded, succeeded⟩
  have same := succeeded.symm.trans loads.image_eq
  cases same
  refine ⟨rfl, ?_, fun position _ => ?_, fun reordered perm apart => ?_⟩
  · rw [Image.size, layOut, Bytes.size_tabulate]
    exact isGreatest_imageSize base loads.present
  · rw [byteAt_layOut]
    exact supplies_imageByte loads.fit _
  · rw [loads.image_reorder perm apart, succeeded]

/-- A file with two segments, four bytes at `0x1002` and two bytes over the last two of them. -/
def overlapping : ByteArray := ⟨#[
  0x7f, 0x45, 0x4c, 0x46, 1, 1, 1, 0, 0, 0, 0, 0, 0, 0, 0, 0,
  -- The file header: two program headers from position 52 on and no section headers.
  2, 0, 0xf3, 0, 1, 0, 0, 0, 0, 0x10, 0, 0, 52, 0, 0, 0, 0, 0, 0, 0, 0, 0, 0, 0,
  52, 0, 32, 0, 2, 0, 0, 0, 0, 0, 0, 0,
  -- The program headers, with contents at positions 116 and 120.
  1, 0, 0, 0, 116, 0, 0, 0, 2, 0x10, 0, 0, 2, 0x10, 0, 0, 4, 0, 0, 0, 4, 0, 0, 0, 5, 0, 0, 0,
  4, 0, 0, 0,
  1, 0, 0, 0, 120, 0, 0, 0, 4, 0x10, 0, 0, 4, 0x10, 0, 0, 2, 0, 0, 0, 2, 0, 0, 0, 5, 0, 0, 0,
  4, 0, 0, 0,
  -- The contents.
  1, 2, 3, 4, 9, 8]⟩

/-- Two zeros stand before the first segment and the second segment wins where they overlap; from
`0x1003` on there is no image. -/
theorem loadWith_places_segments_overlapping :
    let file : File :=
      ⟨riscVMachine, .bits32, 0x1000, [⟨1, 116, 0x1002, 4⟩, ⟨1, 120, 0x1004, 2⟩]⟩
    File.ofBytes overlapping = .ok file ∧
    (∃ loaded, loadWith File.ofBytes overlapping 0x1000 = .ok loaded ∧
      loaded.image.bytes.data = #[0, 0, 1, 2, 9, 8] ∧
      file.flatten 0x1000 overlapping = .ok loaded.image) ∧
    file.flatten 0x1003 overlapping = .error (.refused (.belowBase 0x1002 0x1003)) := by
  intro file
  have parsed : File.ofBytes overlapping = .ok file := by decide +kernel
  have small : overlapping.size < 2 ^ 64 := by decide +kernel
  obtain ⟨-, -, -, flattened⟩ :=
    loadWith_places_segments File.ofBytes overlapping file parsed 0x1000
  obtain ⟨-, -, refused, notFlattened⟩ :=
    loadWith_places_segments File.ofBytes overlapping file parsed 0x1003
  have bytes : (loadWith File.ofBytes overlapping 0x1000).map (·.image.bytes.data) =
      .ok #[0, 0, 1, 2, 9, 8] := by
    decide +kernel
  have first : file.loadable = [] ++ [⟨1, 116, 0x1002, 4⟩, ⟨1, 120, 0x1004, 2⟩] := by decide
  have below : loadWith File.ofBytes overlapping 0x1003 = .error (.belowBase 0x1002 0x1003) :=
    (refused _).2 (.segment rfl rfl first (List.forall_mem_nil _) (.belowBase (by decide)))
  have failed := notFlattened small
  rw [below] at failed
  cases loading : loadWith File.ofBytes overlapping 0x1000 with
  | error error =>
    rw [loading] at bytes
    cases bytes
  | ok loaded =>
    have built := flattened small
    rw [loading] at bytes built
    exact ⟨parsed, ⟨loaded, rfl, Except.ok.inj bytes, built⟩, failed⟩

end Elf

end RvLift
