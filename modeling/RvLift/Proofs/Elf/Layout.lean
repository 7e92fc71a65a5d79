import Mathlib
import RvLift.Elf.Load
import RvLift.Proofs.Bytes
import RvLift.Proofs.Results

/-!
# The layout of segments

The image of a file is laid out from its loadable segments: at each address stands the byte of the
last segment that covers the address, and zero where none does. It reaches from the base to the
farthest end of a segment. If no two segments overlap, their order does not matter.

A file has an image exactly if it is a 32-bit RISC-V file with loadable segments all of which fit;
otherwise the first of these conditions that fails is reported.
-/

namespace RvLift.Elf

namespace Segment

/-- Whether an address lies in a segment. -/
def Covers (segment : Segment) (address : Nat) : Prop :=
  segment.address ≤ address ∧ address < segment.address + segment.fileSize

/-- Whether a segment can be laid out from a base address: it starts there or behind, the file holds
its contents, and it ends with the address space at the latest. -/
structure Fits (base : Word) (bytes : ByteArray) (segment : Segment) : Prop where
  /-- It does not start before the base. -/
  above : base.toNat ≤ segment.address
  /-- Its contents are in the file. -/
  stored : segment.offset + segment.fileSize ≤ bytes.size
  /-- It does not pass the top of the address space. -/
  below : segment.address + segment.fileSize ≤ 2 ^ 32

/-- Why a segment cannot be laid out; that it starts before the base comes first. -/
inductive Refused (base : Word) (bytes : ByteArray) (segment : Segment) : LoadError → Prop where
  /-- It starts before the base. -/
  | belowBase (starts : segment.address < base.toNat) :
    Refused base bytes segment (.belowBase segment.address base)
  /-- Its contents are not in the file, or it passes the top of the address space. -/
  | outOfRange (above : base.toNat ≤ segment.address)
    (passes : bytes.size < segment.offset + segment.fileSize ∨
      2 ^ 32 < segment.address + segment.fileSize) :
    Refused base bytes segment (.segmentOutOfRange segment.address)

/-- Whether no address lies in both of two segments. -/
def Disjoint (first second : Segment) : Prop :=
  ∀ address, ¬(first.Covers address ∧ second.Covers address)

/-- It does not matter which of two disjoint segments is named first. -/
theorem Disjoint.symm {first second : Segment} (apart : first.Disjoint second) :
    second.Disjoint first :=
  fun address both => apart address both.symm

instance : Std.Symm Disjoint := ⟨fun _ _ => Disjoint.symm⟩

variable {base : Word} {bytes : ByteArray} {segment : Segment} {address : Nat} {error : LoadError}

/-- The test for an address in a segment decides whether the address lies there. -/
theorem contains_iff : segment.contains address = true ↔ segment.Covers address := by
  rw [contains, Bool.and_eq_true, decide_eq_true_iff, decide_eq_true_iff]
  rfl

/-- The check of a segment finds out whether it fits. -/
theorem check_eq_ok_iff : segment.check base bytes = .ok () ↔ segment.Fits base bytes := by
  unfold check endAddress
  constructor
  · intro passed
    split at passed
    · cases passed
    · split at passed
      · rename_i above both
        exact ⟨Nat.le_of_not_lt above, both.1, both.2⟩
      · cases passed
  · rintro ⟨above, stored, below⟩
    rw [if_neg (Nat.not_lt.2 above), if_pos ⟨stored, below⟩]

/-- The check of a segment reports why it does not fit. -/
theorem check_eq_error_iff :
    segment.check base bytes = .error error ↔ segment.Refused base bytes error := by
  unfold check endAddress
  constructor
  · intro failed
    split at failed
    · rename_i starts
      cases failed
      exact .belowBase starts
    · split at failed
      · cases failed
      · rename_i above passes
        cases failed
        refine .outOfRange (Nat.le_of_not_lt above) ?_
        omega
  · rintro (starts | ⟨above, passes⟩)
    · rw [if_pos starts]
    · rw [if_neg (Nat.not_lt.2 above), if_neg (by omega)]

end Segment

section Checks

variable {base : Word} {bytes : ByteArray} {segments : List Segment}

/-- Checking segments goes on behind one that fits. -/
theorem forM_check_cons (segment : Segment) (rest : List Segment) :
    (segment :: rest).forM (Segment.check base bytes) =
      (segment.check base bytes >>= fun _ => rest.forM (Segment.check base bytes)) := rfl

/-- Segments pass the check if all of them fit. -/
theorem forM_check_eq_ok_iff :
    segments.forM (Segment.check base bytes) = .ok () ↔
      ∀ segment ∈ segments, segment.Fits base bytes := by
  induction segments with
  | nil => exact ⟨fun _ => List.forall_mem_nil _, fun _ => rfl⟩
  | cons segment rest hypothesis =>
    rw [forM_check_cons, List.forall_mem_cons, ← hypothesis, ← Segment.check_eq_ok_iff]
    cases segment.check base bytes <;> simp

/-- The check reports the first segment that does not fit. -/
theorem forM_check_eq_error_iff {error : LoadError} :
    segments.forM (Segment.check base bytes) = .error error ↔
      ∃ before segment later, segments = before ++ segment :: later ∧
        (∀ other ∈ before, other.Fits base bytes) ∧ segment.Refused base bytes error := by
  constructor
  · intro failed
    induction segments with
    | nil => cases failed
    | cons segment rest hypothesis =>
      rw [forM_check_cons] at failed
      cases checked : segment.check base bytes with
      | error found =>
        rw [checked] at failed
        cases failed
        exact ⟨[], segment, rest, rfl, List.forall_mem_nil _, Segment.check_eq_error_iff.1 checked⟩
      | ok passed =>
        rw [checked] at failed
        obtain ⟨before, refused, later, rfl, fit, why⟩ := hypothesis failed
        exact ⟨segment :: before, refused, later, rfl,
          List.forall_mem_cons.2 ⟨Segment.check_eq_ok_iff.1 checked, fit⟩, why⟩
  · rintro ⟨before, segment, later, rfl, fit, why⟩
    induction before with
    | nil => rw [List.nil_append, forM_check_cons, Segment.check_eq_error_iff.2 why, error_bind]
    | cons first before hypothesis =>
      obtain ⟨fits, fit⟩ := List.forall_mem_cons.1 fit
      rw [List.cons_append, forM_check_cons, Segment.check_eq_ok_iff.2 fits, ok_bind]
      exact hypothesis fit

end Checks

section Layout

variable {base : Word} {bytes : ByteArray} {segments : List Segment} {address : Nat}

/-- The image of segments reaches as far as the farthest of them. -/
theorem isGreatest_imageSize (base : Word) (present : segments ≠ []) :
    IsGreatest {size | ∃ segment ∈ segments,
      size = segment.address + segment.fileSize - base.toNat} (imageSize base segments) := by
  have largest : (segments.map (·.endAddress - base.toNat)).max? =
      some (imageSize base segments) := by
    cases segments with
    | nil => contradiction
    | cons first rest =>
      rw [List.map_cons, List.max?_cons', imageSize, List.map_cons, List.foldl_cons, Nat.zero_max]
  obtain ⟨attained, bound⟩ := List.max?_eq_some_iff.1 largest
  obtain ⟨segment, member, reaches⟩ := List.mem_map.1 attained
  refine ⟨⟨segment, member, reaches.symm⟩, ?_⟩
  rintro _ ⟨other, otherMember, rfl⟩
  exact bound _ (List.mem_map.2 ⟨other, otherMember, rfl⟩)

/-- One more segment lets the image reach as far as it reaches. -/
theorem imageSize_append_singleton (segment : Segment) :
    imageSize base (segments ++ [segment]) =
      max (imageSize base segments) (segment.address + segment.fileSize - base.toNat) := by
  simp only [imageSize, List.map_append, List.foldl_append, List.map_cons, List.map_nil,
    List.foldl_cons, List.foldl_nil]
  rfl

/-- One more segment supplies the bytes that it covers. -/
theorem imageByte_append_singleton (segment : Segment) :
    imageByte bytes (segments ++ [segment]) address =
      if segment.contains address then UInt8.ofNat (segment.byteAt bytes address)
      else imageByte bytes segments address := by
  unfold imageByte
  rw [List.findRev?_eq_find?_reverse, List.findRev?_eq_find?_reverse, List.reverse_append,
    List.reverse_singleton, List.singleton_append, List.find?_cons]
  cases segment.contains address <;> rfl

/-- The byte that segments supply at an address. -/
inductive Supplies (bytes : ByteArray) (segments : List Segment) (address : Nat) : Nat → Prop where
  /-- The last segment that covers the address supplies a byte of the file. -/
  | last {before later : List Segment} {segment : Segment}
    (split : segments = before ++ segment :: later) (covers : segment.Covers address)
    (uncovered : ∀ other ∈ later, ¬other.Covers address)
    (stored : segment.offset + (address - segment.address) < bytes.size) :
    Supplies bytes segments address
      (Bytes.byteAt bytes (segment.offset + (address - segment.address)))
  /-- Between segments there are zeros. -/
  | gap (uncovered : ∀ segment ∈ segments, ¬segment.Covers address) :
    Supplies bytes segments address 0

/-- At each address stands the byte that the segments supply. -/
theorem supplies_imageByte (fit : ∀ segment ∈ segments, segment.Fits base bytes) (address : Nat) :
    Supplies bytes segments address (imageByte bytes segments address).toNat := by
  unfold imageByte
  rw [List.findRev?_eq_find?_reverse]
  cases found : segments.reverse.find? (·.contains address) with
  | none =>
    refine .gap fun segment member covers => ?_
    have outside := List.find?_eq_none.1 found segment (List.mem_reverse.2 member)
    exact outside (Segment.contains_iff.2 covers)
  | some segment =>
    obtain ⟨inside, later, before, split, outside⟩ := List.find?_eq_some_iff_append.1 found
    have covers := Segment.contains_iff.1 inside
    have order : segments = before.reverse ++ segment :: later.reverse := by
      rw [← List.reverse_reverse segments, split]
      simp
    have stored := (fit segment (order ▸ by simp)).stored
    have byte : (UInt8.ofNat (segment.byteAt bytes address)).toNat =
        Bytes.byteAt bytes (segment.offset + (address - segment.address)) :=
      Nat.mod_eq_of_lt (Bytes.byteAt_lt ..)
    rw [byte]
    refine .last order covers (fun other member covers => ?_) ?_
    · have apart := outside other (List.mem_reverse.1 member)
      rw [Segment.contains_iff.2 covers] at apart
      cases apart
    · have := covers.1
      have := covers.2
      omega

/-- Where no segment covers an address there is a zero. -/
theorem imageByte_of_uncovered (uncovered : ∀ segment ∈ segments, ¬segment.Covers address) :
    imageByte bytes segments address = 0 := by
  have none : segments.reverse.find? (·.contains address) = none :=
    List.find?_eq_none.2 fun segment member inside =>
      uncovered segment (List.mem_reverse.1 member) (Segment.contains_iff.1 inside)
  rw [imageByte, List.findRev?_eq_find?_reverse, none]

/-- The bytes of the image are those of the addresses from the base on, also behind its end. -/
theorem byteAt_layOut (position : Nat) :
    Bytes.byteAt (layOut base bytes segments).bytes position =
      (imageByte bytes segments (base.toNat + position)).toNat := by
  rw [layOut, Bytes.byteAt_tabulate]
  by_cases inside : position < imageSize base segments
  · rw [if_pos inside]
  · have uncovered : ∀ segment ∈ segments, ¬segment.Covers (base.toNat + position) := by
      rintro segment member ⟨-, below⟩
      have reach : segment.address + segment.fileSize - base.toNat ≤ imageSize base segments :=
        (isGreatest_imageSize base (List.ne_nil_of_mem member)).2 ⟨segment, member, rfl⟩
      omega
    rw [if_neg inside, imageByte_of_uncovered uncovered]
    rfl

/-- Of segments that do not overlap, the one that covers an address supplies its byte. -/
theorem imageByte_of_covers (apart : segments.Pairwise Segment.Disjoint) {segment : Segment}
    (member : segment ∈ segments) (covers : segment.Covers address) :
    imageByte bytes segments address = UInt8.ofNat (segment.byteAt bytes address) := by
  rw [imageByte, List.findRev?_eq_find?_reverse]
  cases found : segments.reverse.find? (·.contains address) with
  | none =>
    have outside := List.find?_eq_none.1 found segment (List.mem_reverse.2 member)
    exact absurd (Segment.contains_iff.2 covers) outside
  | some other =>
    have otherMember := List.mem_reverse.1 (List.mem_of_find?_eq_some found)
    have otherInside : other.contains address = true := by simpa using List.find?_some found
    have otherCovers := Segment.contains_iff.1 otherInside
    have same : other = segment := by
      by_contra different
      exact apart.forall otherMember member different address ⟨otherCovers, covers⟩
    rw [same]

/-- The order of segments that do not overlap does not matter. -/
theorem layOut_perm {reordered : List Segment} (perm : reordered.Perm segments)
    (apart : segments.Pairwise Segment.Disjoint) :
    layOut base bytes reordered = layOut base bytes segments := by
  have size : imageSize base reordered = imageSize base segments :=
    (perm.map _).foldl_eq 0
  have byte (address : Nat) :
      imageByte bytes reordered address = imageByte bytes segments address := by
    by_cases covered : ∃ segment ∈ segments, segment.Covers address
    · obtain ⟨segment, member, covers⟩ := covered
      have apartReordered := (perm.pairwise_iff Segment.Disjoint.symm).2 apart
      rw [imageByte_of_covers apart member covers,
        imageByte_of_covers apartReordered (perm.mem_iff.2 member) covers]
    · have uncovered : ∀ segment ∈ segments, ¬segment.Covers address :=
        fun segment member covers => covered ⟨segment, member, covers⟩
      rw [imageByte_of_uncovered uncovered, imageByte_of_uncovered fun segment member =>
        uncovered segment (perm.mem_iff.1 member)]
  simp only [layOut, size, byte]

end Layout

namespace File

/-- The loadable segments of a file that are not empty, in order. -/
def loadable (file : File) : List Segment :=
  file.segments.filter fun segment => segment.kind = loadableKind ∧ 0 < segment.fileSize

/-- Whether a file has an image at a base address. -/
structure Loads (base : Word) (bytes : ByteArray) (file : File) : Prop where
  /-- It is for RISC-V. -/
  machine : file.machine = riscVMachine
  /-- It has 32-bit addresses. -/
  narrow : file.addressSize = .bits32
  /-- It has loadable segments. -/
  present : file.loadable ≠ []
  /-- All of them fit. -/
  fit : ∀ segment ∈ file.loadable, segment.Fits base bytes

/-- Why a file has no image: the first condition that fails. -/
inductive Refused (base : Word) (bytes : ByteArray) (file : File) : LoadError → Prop where
  /-- It is for another machine. -/
  | machine (other : file.machine ≠ riscVMachine) : Refused base bytes file (.notRiscV file.machine)
  /-- It does not have 32-bit addresses. -/
  | addressSize (machine : file.machine = riscVMachine) (wide : file.addressSize ≠ .bits32) :
    Refused base bytes file .not32Bit
  /-- It has no loadable segment. -/
  | empty (machine : file.machine = riscVMachine) (narrow : file.addressSize = .bits32)
    (none : file.loadable = []) : Refused base bytes file .noLoadableSegments
  /-- A segment does not fit, and those before it do. -/
  | segment (machine : file.machine = riscVMachine) (narrow : file.addressSize = .bits32)
    {before later : List Segment} {segment : Segment} {error : LoadError}
    (split : file.loadable = before ++ segment :: later)
    (fit : ∀ other ∈ before, other.Fits base bytes) (why : segment.Refused base bytes error) :
    Refused base bytes file error

variable {file : File} {base : Word} {bytes : ByteArray}

/-- The segments that are laid out are those that are to be loaded and have bytes in the file. -/
theorem filter_isLoaded (file : File) : file.segments.filter Segment.isLoaded = file.loadable := by
  apply List.filter_congr
  intro segment member
  rw [Segment.isLoaded, Bool.decide_and]
  rfl

/-- The conditions for an image, one after another. -/
theorem image_eq (file : File) (base : Word) (bytes : ByteArray) :
    file.image base bytes =
      if file.machine ≠ riscVMachine then .error (.notRiscV file.machine)
      else if file.addressSize = .bits64 then .error .not32Bit
      else if file.loadable = [] then .error .noLoadableSegments
      else (file.loadable.forM (Segment.check base bytes)).map fun _ =>
        ⟨layOut base bytes file.loadable,
          loadEvents file.entry file.loadable.length (layOut base bytes file.loadable)⟩ := by
  unfold image
  rw [filter_isLoaded]
  split
  · rfl
  · split
    · rfl
    · cases file.loadable with
      | nil => rfl
      | cons first rest =>
        rw [if_neg (List.cons_ne_nil first rest)]
        change ((first :: rest).forM (Segment.check base bytes) >>= fun _ => pure _) = _
        cases (first :: rest).forM (Segment.check base bytes) <;> rfl

/-- A file whose conditions hold has the image of its loadable segments. -/
theorem Loads.image_eq (loads : file.Loads base bytes) :
    file.image base bytes = .ok ⟨layOut base bytes file.loadable,
      loadEvents file.entry file.loadable.length (layOut base bytes file.loadable)⟩ := by
  obtain ⟨machine, narrow, present, fit⟩ := loads
  rw [File.image_eq, if_neg (not_not.2 machine), narrow, if_neg (by decide), if_neg present,
    forM_check_eq_ok_iff.2 fit]
  rfl

/-- A file that is refused has no image. -/
theorem Refused.image_eq {error : LoadError} (refused : file.Refused base bytes error) :
    file.image base bytes = .error error := by
  rw [File.image_eq]
  cases refused with
  | machine other => rw [if_pos other]
  | addressSize machine wide =>
    have bits64 : file.addressSize = .bits64 := by
      cases size : file.addressSize with
      | bits32 => exact absurd size wide
      | bits64 => rfl
    rw [if_neg (not_not.2 machine), if_pos bits64]
  | empty machine narrow none =>
    rw [if_neg (not_not.2 machine), narrow, if_neg (by decide), if_pos none]
  | segment machine narrow split fit why =>
    have present : file.loadable ≠ [] := by simp [split]
    rw [if_neg (not_not.2 machine), narrow, if_neg (by decide), if_neg present,
      forM_check_eq_error_iff.2 ⟨_, _, _, split, fit, why⟩]
    rfl

/-- A file has an image, or there is a reason why not. -/
theorem loads_or_refused (file : File) (base : Word) (bytes : ByteArray) :
    file.Loads base bytes ∨ ∃ error, file.Refused base bytes error := by
  by_cases machine : file.machine = riscVMachine
  swap
  · exact .inr ⟨_, .machine machine⟩
  by_cases narrow : file.addressSize = .bits32
  swap
  · exact .inr ⟨_, .addressSize machine narrow⟩
  by_cases present : file.loadable = []
  · exact .inr ⟨_, .empty machine narrow present⟩
  cases checked : file.loadable.forM (Segment.check base bytes) with
  | ok passed => exact .inl ⟨machine, narrow, present, forM_check_eq_ok_iff.1 checked⟩
  | error error =>
    obtain ⟨before, segment, later, split, fit, why⟩ := forM_check_eq_error_iff.1 checked
    exact .inr ⟨error, .segment machine narrow split fit why⟩

/-- A file has an image exactly if its conditions hold. -/
theorem exists_image_iff :
    (∃ loaded, file.image base bytes = .ok loaded) ↔ file.Loads base bytes := by
  constructor
  · rintro ⟨loaded, succeeded⟩
    refine (file.loads_or_refused base bytes).resolve_right ?_
    rintro ⟨error, refused⟩
    rw [refused.image_eq] at succeeded
    cases succeeded
  · exact fun loads => ⟨_, loads.image_eq⟩

/-- A file without an image is refused for the reason that is reported. -/
theorem image_eq_error_iff {error : LoadError} :
    file.image base bytes = .error error ↔ file.Refused base bytes error := by
  constructor
  · intro failed
    rcases file.loads_or_refused base bytes with loads | ⟨found, refused⟩
    · rw [loads.image_eq] at failed
      cases failed
    · rw [refused.image_eq] at failed
      cases failed
      exact refused
  · exact Refused.image_eq

/-- The order of headers whose segments do not overlap does not matter. -/
theorem Loads.image_reorder {reordered : List Segment} (loads : file.Loads base bytes)
    (perm : reordered.Perm file.segments) (apart : file.loadable.Pairwise Segment.Disjoint) :
    { file with segments := reordered }.image base bytes = file.image base bytes := by
  have same : ({ file with segments := reordered } : File).loadable.Perm file.loadable :=
    perm.filter _
  have reloads : ({ file with segments := reordered } : File).Loads base bytes := by
    refine ⟨loads.machine, loads.narrow, fun none => ?_, fun segment member => ?_⟩
    · rw [none] at same
      exact loads.present same.nil_eq.symm
    · exact loads.fit segment (same.mem_iff.1 member)
  rw [reloads.image_eq, loads.image_eq, layOut_perm same apart, same.length_eq]

end File

end RvLift.Elf
