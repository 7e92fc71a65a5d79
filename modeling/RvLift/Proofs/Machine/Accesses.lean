import Mathlib
import RvLift.Proofs.Block.Changes
import RvLift.Proofs.Program.Placement

/-!
# Accesses to memory

What stores leave in memory and what loads find there, byte by byte. A store that lies inside memory
puts the low bytes of its value in the places that it touches, the least significant one first, and
changes nothing else; a store that does not is refused and changes nothing at all. Behind any
stores, of whatever widths and however they overlap, a byte of memory is therefore that of the last
store that was carried out and touches it, and a load finds the number that these bytes spell.
-/

namespace RvLift

open Finset (range)

/-- The byte at a place of a word, counted from the least significant one. -/
def Word.byte (word : Word) (place : Nat) : Nat := (word.extractLsb' (8 * place) 8).toNat

namespace Access

/-- The position behind the last byte of an access; it does not wrap. -/
def stop (access : Access) : Nat := access.offset.toNat + access.width.bytes

/-- Whether an access touches the byte at a position. -/
def Touches (access : Access) (position : Nat) : Prop :=
  access.offset.toNat ≤ position ∧ position < access.stop

instance (access : Access) (position : Nat) : Decidable (access.Touches position) :=
  inferInstanceAs (Decidable (_ ∧ _))

/-- The number that the touched bytes spell, least significant byte first, when memory has given
bytes. -/
def number (access : Access) (byte : Nat → Nat) : Nat :=
  ∑ place ∈ range access.width.bytes, byte (access.offset.toNat + place) * 256 ^ place

end Access

/-- A store: where, and of which value. -/
structure Write where
  /-- The access. -/
  access : Access
  /-- The value, of which the low bytes are stored. -/
  value : Word
  deriving DecidableEq, Repr

namespace Write

/-- The byte that a store puts at a position it touches. -/
def byte (write : Write) (position : Nat) : Nat :=
  write.value.byte (position - write.access.offset.toNat)

/-- The bytes of memory with those of a store in their places. -/
def overlay (write : Write) (byte : Nat → Nat) (position : Nat) : Nat :=
  if write.access.Touches position then write.byte position else byte position

/-- The last of several stores that is carried out in a memory of `size` bytes and touches a
position. -/
def latest? (size position : Nat) (writes : List Write) : Option Write :=
  writes.reverse.find? fun write => write.access.stop ≤ size ∧ write.access.Touches position

end Write

namespace Machine

/-- The machine that is left behind a store. A store that is refused leaves it as it was. -/
def attempt (machine : Machine) (write : Write) : Machine :=
  (machine.store? write.access write.value).getD machine

/-- The machine that is left behind several stores, one after another. -/
def attemptAll (machine : Machine) (writes : List Write) : Machine := writes.foldl attempt machine

/-- The bytes of memory behind several stores: those of the latest store, or those that were there
before. -/
def byteBehind (machine : Machine) (writes : List Write) (position : Nat) : Nat :=
  match Write.latest? machine.memory.size position writes with
  | some write => write.byte position
  | none => Bytes.byteAt machine.memory position

/-- What a store that is carried out makes of a machine. -/
structure Stores (machine : Machine) (write : Write) (written : Machine) : Prop where
  /-- The registers stay as they are. -/
  registers : written.registers = machine.registers
  /-- Memory keeps its size. -/
  size : written.memory.size = machine.memory.size
  /-- The bytes of the value stand in their places, and the others are unchanged. -/
  byte : ∀ position, Bytes.byteAt written.memory position =
    write.overlay (Bytes.byteAt machine.memory) position

/-- Whether a number is read at an access, as it is or with its sign extended. -/
structure Reads (machine : Machine) (access : Access) (number : Nat) : Prop where
  /-- A load finds the number. -/
  load : ∃ loaded, machine.load access = .ok loaded ∧ loaded.toNat = number
  /-- An expression that extends it by zeros has the number as its value. -/
  unsigned : ∀ temps offset, Expr.eval machine temps offset = .ok access.offset →
    ∃ result, (Expr.load access.width false offset).eval machine temps = .ok result ∧
      result.toNat = number
  /-- An expression that extends its sign has the number in two's complement as its value. -/
  signed : ∀ temps offset, Expr.eval machine temps offset = .ok access.offset →
    ∃ result, (Expr.load access.width true offset).eval machine temps = .ok result ∧
      result.toInt = (number : Int).bmod (2 ^ (8 * access.width.bytes))

/-- Whether nothing can be read or stored at an access. -/
structure Refuses (machine : Machine) (access : Access) : Prop where
  /-- A load is refused. -/
  load : machine.load access = .error access
  /-- A store is refused, and leaves the machine alone. -/
  store : ∀ value, machine.store? access value = none ∧ machine.attempt ⟨access, value⟩ = machine
  /-- An expression that reads there is refused. -/
  eval : ∀ temps signed offset, Expr.eval machine temps offset = .ok access.offset →
    (Expr.load access.width signed offset).eval machine temps = .error access

end Machine

/-- The store that entering a block asks for, if it asks for one. -/
def Block.write? (machine : Machine) (haltAddress : Word) (block : Block) : Option Write :=
  match block.eval machine haltAddress with
  | .ok (_, .store access value) => some ⟨access, value⟩
  | _ => none

/-- The stores that the blocks ask for which a run enters from a state on, in order. -/
def Program.writesFrom (program : Program) : Nat → State → List Write
  | 0, _ => []
  | remaining + 1, ⟨index, machine⟩ =>
    match program.blocks[index]? with
    | none => []
    | some block =>
      (block.write? machine program.haltAddress).toList ++
        match program.step block index machine with
        | .next state => program.writesFrom remaining state
        | .halted .. | .faulted .. => []

/-- The stores of a run, in order. -/
def Program.writes (program : Program) (limit : Nat) (machine : Machine) : List Write :=
  program.writesFrom limit (.start machine)

section Bytes

/-- The byte of a word at a place. -/
theorem Word.byte_eq (word : Word) (place : Nat) :
    word.byte place = (word.toNat >>> (8 * place)) % 256 :=
  BitVec.extractLsb'_toNat ..

/-- The low bytes of a word spell its remainder. -/
theorem Word.sum_byte (word : Word) (count : Nat) :
    ∑ place ∈ range count, word.byte place * 256 ^ place = word.toNat % 2 ^ (8 * count) := by
  induction count with
  | zero => exact (Nat.mod_one _).symm
  | succ count hypothesis =>
    have scale : 256 ^ count = 2 ^ (8 * count) := (Nat.pow_mul 2 8 count).symm
    rw [Finset.sum_range_succ, hypothesis, Word.byte_eq, Nat.shiftRight_eq_div_pow, scale,
      Nat.mul_succ, Nat.pow_add, Nat.mod_mul, Nat.mul_comm (2 ^ (8 * count))]

/-- Extending the sign of the low bytes of a word gives their value in two's complement. -/
theorem Width.toInt_signExtend (width : Width) (value : Word) :
    (width.signExtend value).toInt = (value.toNat : Int).bmod (2 ^ (8 * width.bytes)) := by
  have low {bits : Nat} (small : bits ≤ 32) :
      ((value.setWidth bits).signExtend 32).toInt = (value.toNat : Int).bmod (2 ^ bits) := by
    rw [BitVec.toInt_signExtend_of_le small, BitVec.toInt_eq_toNat_bmod, BitVec.toNat_setWidth,
      Int.natCast_emod, Int.emod_bmod]
  cases width with
  | byte => exact low (by decide)
  | half => exact low (by decide)
  | word => exact BitVec.toInt_eq_toNat_bmod value

end Bytes

/-- The latest of several stores is the last one, if that one counts. -/
theorem Write.latest?_concat (size position : Nat) (earlier : List Write) (last : Write) :
    latest? size position (earlier ++ [last]) =
      if last.access.stop ≤ size ∧ last.access.Touches position then some last
      else latest? size position earlier := by
  rw [latest?, latest?, List.reverse_append, List.reverse_singleton, List.singleton_append,
    List.find?_cons]
  by_cases takes : last.access.stop ≤ size ∧ last.access.Touches position
  · rw [if_pos takes, decide_eq_true takes]
  · rw [if_neg takes, decide_eq_false takes]

namespace Machine

variable {machine : Machine} {access : Access} {write : Write}

/-- An access lies inside memory if its last byte does. -/
theorem covers_iff : machine.covers access = true ↔ access.stop ≤ machine.memory.size := by
  rw [covers, decide_eq_true_iff]
  rfl

section Loads

/-- A load inside memory finds the number that the touched bytes spell. -/
theorem exists_load (inside : access.stop ≤ machine.memory.size) :
    ∃ loaded, machine.load access = .ok loaded ∧
      loaded.toNat = access.number (Bytes.byteAt machine.memory) := by
  let number := Bytes.readLittle machine.memory access.offset.toNat access.width.bytes
  have narrow : 256 ^ access.width.bytes ≤ 2 ^ 32 := by
    cases access.width <;> decide
  have small : number < 2 ^ 32 := Nat.lt_of_lt_of_le (Bytes.readLittle_lt ..) narrow
  refine ⟨BitVec.ofNat 32 number, ?_, ?_⟩
  · exact load_of_covers (covers_iff.2 inside)
  · rw [BitVec.toNat_ofNat, Nat.mod_eq_of_lt small]
    exact Bytes.readLittle_eq_sum ..

/-- Inside memory, the number that the touched bytes spell is read. -/
theorem reads (inside : access.stop ≤ machine.memory.size) :
    machine.Reads access (access.number (Bytes.byteAt machine.memory)) := by
  obtain ⟨loaded, found, number⟩ := exists_load inside
  refine ⟨⟨loaded, found, number⟩, ?_, ?_⟩
  · intro temps offset place
    refine ⟨loaded, ?_, number⟩
    rw [Expr.eval_load, place, ok_bind, found]
    rfl
  · intro temps offset place
    refine ⟨access.width.signExtend loaded, ?_, ?_⟩
    · rw [Expr.eval_load, place, ok_bind, found]
      rfl
    · rw [Width.toInt_signExtend, number]

/-- Outside memory, nothing can be read or stored. -/
theorem refuses (outside : machine.memory.size < access.stop) : machine.Refuses access := by
  have uncovered : machine.covers access = false := covers_eq_false_iff.2 outside
  have refused : machine.load access = .error access := by
    rw [load, uncovered]
    rfl
  refine ⟨refused, fun value => ?_, fun temps signed offset place => ?_⟩
  · have none : machine.store? access value = none := store?_eq_none_iff.2 outside
    refine ⟨none, ?_⟩
    rw [attempt, none, Option.getD_none]
  · rw [Expr.eval_load, place, ok_bind, refused]
    rfl

end Loads

section Stores

/-- A store inside memory is carried out and puts its bytes in their places. -/
theorem exists_stores (inside : write.access.stop ≤ machine.memory.size) :
    ∃ written, machine.store? write.access write.value = some written ∧
      machine.Stores write written := by
  refine ⟨_, store?_eq_some_iff.2 ⟨inside, rfl⟩, rfl, Bytes.size_writeLittle .., fun position => ?_⟩
  rw [Bytes.byteAt_writeLittle, Write.overlay, Write.byte, Word.byte_eq]
  by_cases touched : write.access.Touches position
  · have bound : position < machine.memory.size := Nat.lt_of_lt_of_le touched.2 inside
    rw [if_pos touched, if_pos ⟨touched.1, touched.2, bound⟩]
  · rw [if_neg touched, if_neg fun all => touched ⟨all.1, all.2.1⟩]

/-- What is read behind a store at its own place is the low bytes of its value. -/
theorem Stores.number {written : Machine} (stores : machine.Stores write written) :
    write.access.number (Bytes.byteAt written.memory) =
      write.value.toNat % 2 ^ (8 * write.access.width.bytes) := by
  rw [← Word.sum_byte, Access.number]
  refine Finset.sum_congr rfl fun place inside => ?_
  have small : place < write.access.width.bytes := Finset.mem_range.1 inside
  have touched : write.access.Touches (write.access.offset.toNat + place) :=
    ⟨Nat.le_add_right .., Nat.add_lt_add_left small _⟩
  rw [stores.byte, Write.overlay, if_pos touched, Write.byte, Nat.add_sub_cancel_left]

/-- A store keeps the size of memory, whether it is carried out or not. -/
@[simp] theorem size_attempt (machine : Machine) (write : Write) :
    (machine.attempt write).memory.size = machine.memory.size := by
  by_cases inside : write.access.stop ≤ machine.memory.size
  · obtain ⟨written, done, stores⟩ := exists_stores inside
    rw [attempt, done]
    exact stores.size
  · rw [((refuses (Nat.lt_of_not_le inside)).store write.value).2]

/-- The bytes behind a store are its own where it is carried out and touches them. -/
theorem byteAt_attempt (machine : Machine) (write : Write) (position : Nat) :
    Bytes.byteAt (machine.attempt write).memory position =
      if write.access.stop ≤ machine.memory.size ∧ write.access.Touches position then
        write.byte position
      else Bytes.byteAt machine.memory position := by
  by_cases inside : write.access.stop ≤ machine.memory.size
  · obtain ⟨written, done, stores⟩ := exists_stores inside
    rw [attempt, done, Option.getD_some, stores.byte, Write.overlay]
    simp only [inside, true_and]
  · rw [((refuses (Nat.lt_of_not_le inside)).store write.value).2, if_neg fun all => inside all.1]

/-- What a store leaves in memory depends on nothing but memory. -/
theorem memory_attempt_congr {other : Machine} (same : machine.memory = other.memory) :
    (machine.attempt write).memory = (other.attempt write).memory := by
  apply Bytes.eq_of_byteAt
  · rw [size_attempt, size_attempt, same]
  · intro position
    rw [byteAt_attempt, byteAt_attempt, same]

/-- Some stores and then others are all of them in turn. -/
theorem attemptAll_append (machine : Machine) (first second : List Write) :
    machine.attemptAll (first ++ second) = (machine.attemptAll first).attemptAll second :=
  List.foldl_append

/-- What several stores leave in memory depends on nothing but memory. -/
theorem memory_attemptAll_congr {other : Machine} (same : machine.memory = other.memory)
    (writes : List Write) :
    (machine.attemptAll writes).memory = (other.attemptAll writes).memory := by
  induction writes generalizing machine other with
  | nil => exact same
  | cons first rest hypothesis => exact hypothesis (memory_attempt_congr same)

/-- Several stores keep the size of memory. -/
@[simp] theorem size_attemptAll (machine : Machine) (writes : List Write) :
    (machine.attemptAll writes).memory.size = machine.memory.size := by
  induction writes generalizing machine with
  | nil => rfl
  | cons first rest hypothesis => exact (hypothesis _).trans (machine.size_attempt first)

/-- The bytes behind several stores are those of the latest one. -/
theorem byteAt_attemptAll (machine : Machine) (writes : List Write) (position : Nat) :
    Bytes.byteAt (machine.attemptAll writes).memory position =
      machine.byteBehind writes position := by
  -- The last store decides, so the stores are taken off from the end.
  induction writes using List.reverseRecOn with
  | nil => rfl
  | append_singleton earlier last hypothesis =>
    have step : machine.attemptAll (earlier ++ [last]) =
        (machine.attemptAll earlier).attempt last := List.foldl_concat ..
    rw [step, byteAt_attempt, size_attemptAll, hypothesis, byteBehind, byteBehind,
      Write.latest?_concat]
    by_cases takes : last.access.stop ≤ machine.memory.size ∧ last.access.Touches position
    · rw [if_pos takes, if_pos takes]
    · rw [if_neg takes, if_neg takes]

end Stores

end Machine

namespace Program

variable (program : Program)

/-- Entering a block leaves memory as the store does that it asks for, also if the store is
refused. -/
theorem memory_step (block : Block) (index : Nat) (machine : Machine) :
    (program.step block index machine).machine.memory =
      (machine.attemptAll (block.write? machine program.haltAddress).toList).memory := by
  rw [step, Block.write?]
  cases block.eval machine program.haltAddress with
  | error access => rfl
  | ok result =>
    obtain ⟨writeback, transfer⟩ := result
    cases transfer with
    | next | jump target | halt value => exact Machine.memory_writeBack ..
    | store access value =>
      -- The register write comes in between, but leaves memory alone.
      have kept : ((machine.writeBack writeback).attempt ⟨access, value⟩).memory =
          (machine.attempt ⟨access, value⟩).memory :=
        Machine.memory_attempt_congr (Machine.memory_writeBack ..)
      refine Eq.trans ?_ kept
      rw [Machine.attempt]
      simp only
      cases (machine.writeBack writeback).store? access value <;> rfl

/-- A run leaves memory as its stores do, one after another. -/
theorem memory_runFrom (limit remaining : Nat) (state : State) :
    (program.runFrom limit remaining state).2.memory =
      (state.machine.attemptAll (program.writesFrom remaining state)).memory := by
  induction remaining generalizing state with
  | zero =>
    rw [runFrom]
    cases program.blocks[state.index]? <;> rfl
  | succ remaining hypothesis =>
    rw [runFrom, writesFrom]
    cases program.blocks[state.index]? with
    | none => rfl
    | some block =>
      have stored := program.memory_step block state.index state.machine
      simp only [Machine.attemptAll_append]
      cases stepped : program.step block state.index state.machine with
      | next later =>
        rw [stepped] at stored
        exact (hypothesis later).trans (Machine.memory_attemptAll_congr stored _)
      | halted value final | faulted fault final =>
        rw [stepped] at stored
        exact stored

end Program

/-- The word at a position of an image is what a machine built from the image loads there. -/
theorem Image.load_word (image : Image) {index : Nat} (inside : index < image.wordCount)
    (small : 4 * index < 2 ^ 32) :
    (Machine.ofImage image).load ⟨BitVec.ofNat 32 (4 * index), .word⟩ = .ok (image.word index) := by
  have offset : (BitVec.ofNat 32 (4 * index)).toNat = 4 * index := by
    rw [BitVec.toNat_ofNat, Nat.mod_eq_of_lt small]
  have bound : 4 * index + 4 ≤ image.bytes.size := by
    have whole : image.wordCount = image.bytes.size / 4 := rfl
    omega
  have covered : (Machine.ofImage image).covers ⟨BitVec.ofNat 32 (4 * index), .word⟩ = true := by
    refine Machine.covers_iff.2 ?_
    rw [Access.stop, offset]
    exact bound
  rw [Machine.load_of_covers covered, offset, Image.word_eq]
  rfl

/-- Loads and stores obey the laws of a memory of bytes. A store is carried out exactly if its last
byte lies inside memory, counted without wrapping; then its bytes stand in their places and the
others are unchanged, so that a load behind it finds each byte as the store left it or as it was
before, and at its own place the low bytes of its value. An access that does not lie inside memory
is refused and leaves the machine alone. Behind any stores, carried out or refused, each byte is
that of the latest store carried out there, and a load inside memory finds the number that these
bytes spell, with its sign extended where that is asked for; every run of a program leaves memory as
the stores do that its blocks ask for. The words of an image are what a machine built from it
loads. -/
theorem Machine.accesses_by_bytes (machine : Machine) (write : Write) (access : Access) :
    let size := machine.memory.size
    let byte := Bytes.byteAt machine.memory
    ((∃ written, machine.store? write.access write.value = some written) ↔
      write.access.stop ≤ size) ∧
    (∀ written, machine.store? write.access write.value = some written →
      machine.Stores write written ∧
      (access.stop ≤ size → written.Reads access (access.number (write.overlay byte))) ∧
      written.Reads write.access (write.value.toNat % 2 ^ (8 * write.access.width.bytes))) ∧
    (size < access.stop → machine.Refuses access) ∧
    (access.stop ≤ size → machine.Reads access (access.number byte)) ∧
    (∀ writes, let left := machine.attemptAll writes
      (size < access.stop → left.Refuses access) ∧
      (access.stop ≤ size → left.Reads access (access.number (machine.byteBehind writes)))) ∧
    (∀ (program : Program) limit, (program.run limit machine).2.memory =
      (machine.attemptAll (program.writes limit machine)).memory) ∧
    ∀ (image : Image) index, index < image.wordCount → 4 * index < 2 ^ 32 →
      ∃ address word, image.words[index]? = some (address, word) ∧
        (ofImage image).load ⟨BitVec.ofNat 32 (4 * index), .word⟩ = .ok word := by
  intro size byte
  refine ⟨?succeeds, ?stores, refuses, reads, ?histories, ?runs, ?words⟩
  case succeeds =>
    constructor
    · rintro ⟨written, done⟩
      exact (store?_eq_some_iff.1 done).1
    · intro inside
      obtain ⟨written, done, -⟩ := exists_stores inside
      exact ⟨written, done⟩
  case stores =>
    intro written done
    have inside : write.access.stop ≤ size := (store?_eq_some_iff.1 done).1
    obtain ⟨_, found, stores⟩ := exists_stores inside
    obtain rfl := Option.some.inj (done.symm.trans found)
    have bytes : Bytes.byteAt written.memory = write.overlay byte := funext stores.byte
    refine ⟨stores, fun covered => ?_, ?_⟩
    · rw [← bytes]
      exact reads (stores.size ▸ covered)
    · rw [← stores.number]
      exact reads (stores.size ▸ inside)
  case histories =>
    intro writes left
    have kept : left.memory.size = size := size_attemptAll machine writes
    have bytes : Bytes.byteAt left.memory = machine.byteBehind writes :=
      funext (byteAt_attemptAll machine writes)
    refine ⟨fun outside => refuses (kept ▸ outside), fun inside => ?_⟩
    rw [← bytes]
    exact reads (kept ▸ inside)
  case runs =>
    exact fun program limit => program.memory_runFrom limit limit (.start machine)
  case words =>
    intro image index inside small
    refine ⟨Word.address image.base index, image.word index, ?_, image.load_word inside small⟩
    rw [Image.words, List.getElem?_map, List.getElem?_range inside]
    rfl

/-- A word over bytes 1 to 4 of six, and a half word that shares one byte with it: the half word
finds the highest byte of the word and a byte that was there before, and the run of a block that
stores the word leaves its bytes. Behind a further word that does not fit and a half word inside the
first one, the word is made up of bytes of both that were stored. -/
theorem Machine.accesses_by_bytes_overlapping :
    let machine := ofMemory ⟨#[1, 2, 3, 4, 5, 6]⟩
    let write : Write := ⟨⟨1, .word⟩, 0x80aabbcc⟩
    let half : Access := ⟨4, .half⟩
    let outside : Access := ⟨3, .word⟩
    let writes : List Write := [write, ⟨outside, 0⟩, ⟨⟨2, .half⟩, 0x1122⟩]
    let block : Block := ⟨⟨0⟩, 0, .ok .fence, [],
      .haltOrStore .word (.imm 9) (.imm 1) (.imm 0x80aabbcc)⟩
    let program := Program.ofBlocks 0 0x11100000 #[block]
    let image : Image := ⟨0xfffffffc, machine.memory⟩
    ∃ written, machine.store? write.access write.value = some written ∧
      written.Reads half 0x0680 ∧ written.Reads write.access 0x80aabbcc ∧
      machine.Refuses outside ∧ machine.Reads half 0x0605 ∧
      (machine.attemptAll writes).Reads write.access 0x801122cc ∧
      (program.run 1 machine).2.memory = written.memory ∧
      (ofImage image).load ⟨0, .word⟩ = .ok 0x04030201 := by
  intro machine write half outside writes block program image
  obtain ⟨succeeds, stores, -, reads, -, runs, words⟩ := accesses_by_bytes machine write half
  obtain ⟨-, -, refused, -, -, -, -⟩ := accesses_by_bytes machine write outside
  obtain ⟨-, -, -, -, histories, -, -⟩ := accesses_by_bytes machine write write.access
  obtain ⟨written, done⟩ := succeeds.2 (by decide)
  obtain ⟨-, shared, whole⟩ := stores written done
  have sharedNumber : half.number (write.overlay (Bytes.byteAt machine.memory)) = 0x0680 := by
    decide +kernel
  have earlierNumber : half.number (Bytes.byteAt machine.memory) = 0x0605 := by decide +kernel
  have ownNumber : write.value.toNat % 2 ^ (8 * write.access.width.bytes) = 0x80aabbcc := by
    decide
  have latestNumber : write.access.number (machine.byteBehind writes) = 0x801122cc := by
    decide +kernel
  have asked : program.writes 1 machine = [write] := rfl
  have left : machine.attemptAll [write] = written := by
    change machine.attempt write = written
    rw [attempt, done, Option.getD_some]
  obtain ⟨address, word, present, loaded⟩ := words image 0 (by decide) (by decide)
  have first : image.words[0]? = some (0xfffffffc, 0x04030201) := by decide +kernel
  have same : (address, word) = (0xfffffffc, 0x04030201) :=
    Option.some.inj (present.symm.trans first)
  refine ⟨written, done, ?_, ?_, refused (by decide), ?_, ?_, ?_, ?_⟩
  · exact sharedNumber ▸ shared (by decide)
  · exact ownNumber ▸ whole
  · exact earlierNumber ▸ reads (by decide)
  · exact latestNumber ▸ (histories writes).2 (by decide)
  · rw [runs program 1, asked, left]
  · exact (Prod.mk.inj same).2 ▸ loaded

end RvLift
