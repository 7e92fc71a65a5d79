import Mathlib
import RvLift.Proofs.Program.Placement
import RvLift.Proofs.Target.Labels

/-!
# Findings of a pass

What a pass finds wrong with an image, word by word: a word that encodes no instruction, and a
relative jump to an address where no block stands. The pass, the dispatch switch, the emitted jump
and the running program each look such an address up for themselves, and all of them miss it
together.
-/

namespace RvLift

open Target

/-- The address that an instruction at address `pc` jumps to, if that does not depend on the
machine. -/
def Instruction.target? (pc : Word) : Instruction → Option Word
  | .jal _ offset | .branch _ _ _ offset => some (pc + offset)
  | _ => none

/-- The known target of a block is that of its instruction. -/
theorem Instruction.staticTarget?_terminator (settings : Settings) (pc : Word)
    (instruction : Instruction) :
    (instruction.terminator settings pc).staticTarget? = (instruction.target? pc).map Label.mk := by
  cases instruction <;> rfl

/-- The known target of the block of a word is that of the instruction the word encodes. -/
theorem Block.exists_target?_of_staticTarget? {settings : Settings} {pc word : Word}
    {target : Label}
    (known : (Block.ofWord settings pc word).terminator.staticTarget? = some target) :
    ∃ instruction, Instruction.decode word pc = .ok instruction ∧
      instruction.target? pc = some target.address := by
  unfold Block.ofWord at known
  cases decoded : Instruction.decode word pc with
  | error error => simp [decoded, Block.ofError, Terminator.staticTarget?] at known
  | ok instruction =>
    simp only [decoded, Block.ofInstruction, Instruction.staticTarget?_terminator] at known
    obtain ⟨address, leads, rfl⟩ := Option.map_eq_some_iff.1 known
    exact ⟨instruction, rfl, leads⟩

namespace Program

/-- Whether a block stands at an address. -/
def HasBlock (program : Program) (address : Word) : Prop :=
  ∃ block ∈ program.blocks, block.pc = address
  deriving Decidable

/-- A block stands at an address if it does so at some position. -/
theorem hasBlock_iff {program : Program} {address : Word} :
    program.HasBlock address ↔ ∃ index, program.StandsAt index address := by
  simp only [HasBlock, StandsAt, Array.mem_iff_getElem?, Option.map_eq_some_iff]
  constructor
  · rintro ⟨block, ⟨index, present⟩, stands⟩
    exact ⟨index, block, present, stands⟩
  · rintro ⟨index, block, present, stands⟩
    exact ⟨block, ⟨index, present⟩, stands⟩

/-- What is wrong with the word at address `pc`: it encodes no instruction, or it jumps to a known
address where no block stands. -/
def finding? (program : Program) (pc word : Word) : Option Diagnostic :=
  match Instruction.decode word pc with
  | .error error => some ⟨pc, .unsupported error⟩
  | .ok instruction =>
    match instruction.target? pc with
    | none => none
    | some target =>
      if program.HasBlock target then none else some ⟨pc, .targetOutside target⟩

/-- A finding names the address of its word. -/
theorem pc_of_finding? {program : Program} {pc word : Word} {finding : Diagnostic}
    (found : program.finding? pc word = some finding) : finding.pc = pc := by
  unfold finding? at found
  cases decoded : Instruction.decode word pc with
  | error error =>
    obtain rfl : ⟨pc, .unsupported error⟩ = finding := by simpa [decoded] using found
    rfl
  | ok instruction =>
    cases leads : instruction.target? pc with
    | none => simp [decoded, leads] at found
    | some target =>
      obtain ⟨-, rfl⟩ : ¬program.HasBlock target ∧ ⟨pc, .targetOutside target⟩ = finding := by
        simpa [decoded, leads] using found
      rfl

/-- A word is found to jump to an address if it does and no block stands there. -/
theorem finding?_eq_targetOutside_iff {program : Program} {pc word target : Word} :
    program.finding? pc word = some ⟨pc, .targetOutside target⟩ ↔
      (∃ instruction, Instruction.decode word pc = .ok instruction ∧
        instruction.target? pc = some target) ∧ ¬program.HasBlock target := by
  unfold finding?
  cases decoded : Instruction.decode word pc with
  | error error => simp
  | ok instruction =>
    cases leads : instruction.target? pc with
    | none => simp [leads]
    | some other =>
      by_cases same : other = target
      · simp [leads, same]
      · simp [leads, same]

end Program

/-- A finding is about an unsupported word if it says why. -/
theorem Diagnostic.isUnsupported_iff {diagnostic : Diagnostic} :
    diagnostic.isUnsupported = true ↔ ∃ error, diagnostic.reason = .unsupported error := by
  unfold isUnsupported
  cases diagnostic.reason <;> simp [Reason.isUnsupported]

namespace Diagnostics

variable {diagnostics : Diagnostics}

/-- The finding brought to the user's attention is the first one about an unsupported word. -/
theorem surfaced?_eq_some_iff {first : Diagnostic} :
    diagnostics.surfaced? = some first ↔
      (∃ error, first.reason = .unsupported error) ∧
        ∃ before behind, diagnostics.entries = before ++ first :: behind ∧
          ∀ entry ∈ before, ∀ error, entry.reason ≠ .unsupported error := by
  rw [surfaced?, List.find?_eq_some_iff_append, Diagnostic.isUnsupported_iff]
  simp only [Bool.not_eq_true', ← Bool.not_eq_true, Diagnostic.isUnsupported_iff, not_exists,
    ne_eq]

/-- Nothing is brought to the user's attention if every word is supported. -/
theorem surfaced?_eq_none_iff :
    diagnostics.surfaced? = none ↔
      ∀ entry ∈ diagnostics.entries, ∀ error, entry.reason ≠ .unsupported error := by
  simp only [surfaced?, List.find?_eq_none, Diagnostic.isUnsupported_iff, not_exists, ne_eq]

end Diagnostics

namespace Target

/-- The transfer of control of a statement. -/
def Stmt.jump? : Stmt → Option Jump
  | .jump target | .jumpIf _ target => some target
  | _ => none

/-- The transfers of control of a block, in order. -/
def LabelledBlock.jumps (block : LabelledBlock) : List Jump := block.body.filterMap Stmt.jump?

end Target

/-- The only jump of a block with a known target is the one to that target. -/
theorem Block.filterMap_jump?_emit {block : Block} {target : Label} (table : JumpTable)
    (known : block.terminator.staticTarget? = some target) :
    (block.stmts.map Stmt.emit ++ block.terminator.emit table).filterMap Target.Stmt.jump? =
      [table.jumpTo target] := by
  have silent (stmt : Stmt) : stmt.emit.jump? = none := by cases stmt <;> rfl
  rw [List.filterMap_append, Stmt.filterMap_emit silent, List.nil_append]
  cases terminator : block.terminator with
  | jump label =>
    obtain rfl : label = target := by simpa [terminator, Terminator.staticTarget?] using known
    rfl
  | branch cond left right label =>
    obtain rfl : label = target := by simpa [terminator, Terminator.staticTarget?] using known
    rfl
  | _ => simp [terminator, Terminator.staticTarget?] at known

namespace JumpTable

variable {table : JumpTable} {target : Label}

/-- A jump to a known target goes through the dispatch switch if the target has no label. -/
theorem jumpTo_eq_dispatch_iff :
    table.jumpTo target = .dispatch (.ofWord target.address) ↔
      table.lookup? target.address = none := by
  unfold jumpTo
  cases table.lookup? target.address <;> simp

/-- A jump to a known target goes straight there unless the target has no label. -/
theorem jumpTo_eq_goto_iff :
    table.jumpTo target = .goto target ↔ ¬table.lookup? target.address = none := by
  unfold jumpTo
  cases found : table.lookup? target.address with
  | none => simp
  | some label =>
    obtain ⟨rfl, -⟩ := lookup?_eq_some_iff.1 found
    simp

end JumpTable

namespace Image

variable {image : Image} {settings : Settings}

/-- An address has no label if and only if no block stands there. -/
theorem lookup?_lift_eq_none_iff_not_hasBlock {address : Word} :
    (image.lift settings).table.lookup? address = none ↔
      ¬(image.lift settings).HasBlock address := by
  rw [lookup?_lift_eq_none_iff, Program.hasBlock_iff, not_exists]

/-- What is said about a block is what is wrong with its word. -/
theorem diagnostic?_ofWord (pc word : Word) :
    (Block.ofWord settings pc word).diagnostic? (image.lift settings).table =
      (image.lift settings).finding? pc word := by
  unfold Block.ofWord Program.finding?
  cases Instruction.decode word pc with
  | error error => rfl
  | ok instruction =>
    simp only [Block.diagnostic?, Block.ofInstruction, Instruction.staticTarget?_terminator]
    cases instruction.target? pc with
    | none => rfl
    | some target =>
      cases found : (image.lift settings).table.lookup? target with
      | none =>
        have vacant := lookup?_lift_eq_none_iff_not_hasBlock.1 found
        simp [found, vacant, Block.pc]
      | some label =>
        have present : (image.lift settings).HasBlock target := by
          by_contra vacant
          rw [lookup?_lift_eq_none_iff_not_hasBlock.2 vacant] at found
          cases found
        simp [found, present]

/-- The findings of a pass are those about the words of the image, in order. -/
theorem entries_lift :
    (image.lift settings).diagnostics.entries =
      image.words.filterMap fun (pc, word) => (image.lift settings).finding? pc word := by
  simp only [← diagnostic?_ofWord]
  simp only [lift, blocks, List.filterMap_map]
  rfl

/-- There is at most one finding about a word, and findings are in the order of the words. -/
theorem map_pc_entries_sublist (image : Image) (settings : Settings) :
    ((image.lift settings).diagnostics.entries.map Diagnostic.pc).Sublist
      (image.words.map Prod.fst) := by
  rw [entries_lift]
  induction image.words with
  | nil => exact List.Sublist.slnil
  | cons first rest kept =>
    obtain ⟨pc, word⟩ := first
    rw [List.map_cons]
    cases found : (image.lift settings).finding? pc word with
    | none =>
      simp only [List.filterMap_cons, found]
      exact kept.cons pc
    | some finding =>
      simp only [List.filterMap_cons, found, List.map_cons, Program.pc_of_finding? found]
      exact kept.cons_cons pc

/-- The addresses of findings increase unless the addresses of the words wrap. -/
theorem pairwise_entries_lift (unwrapped : image.base.toNat + 4 * image.wordCount ≤ 2 ^ 32) :
    (image.lift settings).diagnostics.entries.Pairwise fun first second =>
      first.pc.toNat < second.pc.toNat := by
  have words : (image.words.map Prod.fst).Pairwise fun first second =>
      first.toNat < second.toNat := by
    rw [words, List.map_map, List.pairwise_map]
    refine List.pairwise_lt_range.imp_of_mem fun firstInside secondInside ordered => ?_
    rw [List.mem_range] at firstInside secondInside
    simp only [Function.comp_apply, Word.toNat_address]
    omega
  have found := words.sublist (image.map_pc_entries_sublist settings)
  rwa [List.pairwise_map] at found

/-- An address without a label is that of no case of the dispatch switch. -/
theorem lookup?_lift_eq_none_iff_cases {address : Word} :
    (image.lift settings).table.lookup? address = none ↔
      ∀ entry ∈ (image.lift settings).code.cases, entry.1.value ≠ address.toNat := by
  rw [lookup?_lift_eq_none_iff, cases_lift]
  simp only [standsAt_lift_iff, not_and, List.forall_mem_map, List.mem_range]
  refine forall₂_congr fun index _ => not_congr ?_
  exact BitVec.toNat_inj.symm

/-- A word that jumps to a known target is reported if and only if the target has no label. -/
theorem finding?_lift_iff {pc word : Word} {target : Label}
    (known : (Block.ofWord settings pc word).terminator.staticTarget? = some target) :
    (image.lift settings).finding? pc word = some ⟨pc, .targetOutside target.address⟩ ↔
      (image.lift settings).table.lookup? target.address = none := by
  rw [Program.finding?_eq_targetOutside_iff, lookup?_lift_eq_none_iff_not_hasBlock]
  exact and_iff_right (Block.exists_target?_of_staticTarget? known)

/-- A known target without a block is reported, is no case of the dispatch switch, is jumped to
through the dispatch switch, and has no position, or none of these. -/
theorem target_outside_tfae {index : Nat} {block : Block} {target : Label}
    {labelled : LabelledBlock}
    (present : (image.lift settings).blocks[index]? = some block)
    (known : block.terminator.staticTarget? = some target)
    (jumps : labelled.jumps = [(image.lift settings).table.jumpTo target]) :
    List.TFAE [
      ⟨block.pc, .targetOutside target.address⟩ ∈ (image.lift settings).diagnostics.entries,
      (image.lift settings).finding? block.pc block.word =
        some ⟨block.pc, .targetOutside target.address⟩,
      ∀ entry ∈ (image.lift settings).code.cases, entry.1.value ≠ target.address.toNat,
      labelled.jumps = [.dispatch (.ofWord target.address)],
      labelled.jumps ≠ [.goto target],
      (image.lift settings).blockIndex? target.address = none] := by
  obtain ⟨inside, rfl⟩ := eq_ofWord_of_getElem? present
  rw [jumps, blockIndex?_eq_none_iff, ← lookup?_lift_eq_none_iff_cases, Block.pc_ofWord,
    Block.word_ofWord, finding?_lift_iff known, entries_lift]
  tfae_have 1 → 2 := by
    intro reported
    obtain ⟨⟨pc, word⟩, -, found⟩ := List.mem_filterMap.1 reported
    obtain rfl := Program.pc_of_finding? found
    exact lookup?_lift_eq_none_iff_not_hasBlock.2 (Program.finding?_eq_targetOutside_iff.1 found).2
  tfae_have 2 → 1 := by
    intro missed
    refine List.mem_filterMap.2 ⟨(_, _), ?_, (finding?_lift_iff known).2 missed⟩
    exact List.mem_map.2 ⟨index, List.mem_range.2 inside, rfl⟩
  tfae_have 2 ↔ 4 := by rw [List.singleton_inj, JumpTable.jumpTo_eq_dispatch_iff]
  tfae_have 2 ↔ 5 := by rw [ne_eq, List.singleton_inj, JumpTable.jumpTo_eq_goto_iff, not_not]
  tfae_finish

/-- The findings of a pass are exactly what is wrong with the words of the image, in order, at most
one about a word, and at increasing addresses unless these wrap. Whatever looks up a known target
misses it together: it is reported if and only if it is no case of the dispatch switch, if and only
if the jump goes through the dispatch switch instead of straight to a label, and if and only if it
has no position, so that the running program goes on with the next block. The finding brought to
the user's attention is the first about an unsupported word. -/
theorem diagnostics_exact (image : Image) (settings : Settings) (annotate : Bool) :
    let program := image.lift settings
    let entries := program.diagnostics.entries
    entries = image.words.filterMap (fun (pc, word) => program.finding? pc word) ∧
    (entries.map Diagnostic.pc).Sublist (image.words.map Prod.fst) ∧
    (image.base.toNat + 4 * image.wordCount ≤ 2 ^ 32 →
      entries.Pairwise fun first second => first.pc.toNat < second.pc.toNat) ∧
    (∃ code, Code.read? (program.source annotate) = some code ∧
      ∀ index block target, program.blocks[index]? = some block →
        block.terminator.staticTarget? = some target →
        ∃ labelled, code.blocks[index]? = some labelled ∧ labelled.label = block.label ∧
          List.TFAE [
            ⟨block.pc, .targetOutside target.address⟩ ∈ entries,
            program.finding? block.pc block.word = some ⟨block.pc, .targetOutside target.address⟩,
            ∀ entry ∈ code.cases, entry.1.value ≠ target.address.toNat,
            labelled.jumps = [.dispatch (.ofWord target.address)],
            labelled.jumps ≠ [.goto target],
            program.blockIndex? target.address = none] ∧
          (program.blockIndex? target.address = none → ∀ machine written,
            block.effect machine program.haltAddress = .ok (written, .jump target.address) →
            program.step block index machine = .next ⟨index + 1, written⟩)) ∧
    (∀ first, program.diagnostics.surfaced? = some first ↔
      (∃ error, first.reason = .unsupported error) ∧
        ∃ before behind, entries = before ++ first :: behind ∧
          ∀ entry ∈ before, ∀ error, entry.reason ≠ .unsupported error) ∧
    (program.diagnostics.surfaced? = none ↔
      ∀ entry ∈ entries, ∀ error, entry.reason ≠ .unsupported error) := by
  intro program entries
  refine ⟨entries_lift, image.map_pc_entries_sublist settings, pairwise_entries_lift,
    ⟨program.code, program.read?_source annotate, ?_⟩,
    fun _ => Diagnostics.surfaced?_eq_some_iff, Diagnostics.surfaced?_eq_none_iff⟩
  intro index block target present known
  have emitted := program.getElem?_blocks_code index
  rw [present, Option.map_some] at emitted
  refine ⟨_, emitted, rfl, ?_, ?_⟩
  · exact target_outside_tfae present known (Block.filterMap_jump?_emit program.table known)
  · intro vacant machine written taken
    rw [Program.step_eq_follow, taken, Program.follow, vacant, Option.getD_none]

/-- A system call, which is not supported, and a jump sixteen bytes ahead, behind the last word:
both are reported, the first to the user, and the jump goes on with the block behind it, where the
run ends. -/
theorem diagnostics_exact_outside :
    let image : Image := ⟨0x80000000, ⟨#[0x73, 0x00, 0x00, 0x00, 0x6f, 0x00, 0x00, 0x01]⟩⟩
    let program := image.lift {}
    let jump := Block.ofWord {} 0x80000004 0x0100006f
    program.diagnostics.entries =
      [⟨0x80000000, .unsupported (.unknownOpcode 0x80000000 0x73 0x73)⟩,
        ⟨0x80000004, .targetOutside 0x80000014⟩] ∧
    program.diagnostics.surfaced? =
      some ⟨0x80000000, .unsupported (.unknownOpcode 0x80000000 0x73 0x73)⟩ ∧
    (∃ code labelled, Code.read? (program.source true) = some code ∧
      code.blocks[1]? = some labelled ∧
      labelled.jumps = [.dispatch (.ofWord 0x80000014)]) ∧
    ∀ machine, program.step jump 1 machine = .next ⟨2, machine⟩ := by
  intro image program jump
  obtain ⟨-, -, -, ⟨code, read, resolved⟩, surfaced, -⟩ := diagnostics_exact image {} true
  have entries : program.diagnostics.entries =
      [⟨0x80000000, .unsupported (.unknownOpcode 0x80000000 0x73 0x73)⟩,
        ⟨0x80000004, .targetOutside 0x80000014⟩] := by decide +kernel
  have present : program.blocks[1]? = some jump := by
    have place : Word.address image.base 1 = 0x80000004 := by decide
    have word : image.word 1 = 0x0100006f := by decide +kernel
    rw [getElem?_blocks_lift, if_pos (by decide), place, word]
  have decoded : Instruction.decode 0x0100006f 0x80000004 = .ok (.jal Reg.zero 16) := by
    decide +kernel
  have known : jump.terminator.staticTarget? = some ⟨0x80000014⟩ := by decide +kernel
  have address : jump.pc = 0x80000004 := Block.pc_ofWord ..
  obtain ⟨labelled, placed, -, outside, onward⟩ := resolved 1 jump ⟨0x80000014⟩ present known
  have reported : ⟨jump.pc, .targetOutside 0x80000014⟩ ∈ program.diagnostics.entries := by
    simp [entries, address]
  refine ⟨entries, ?_, ⟨code, labelled, read, placed, (outside.out 0 3).1 reported⟩, ?_⟩
  · exact (surfaced _).2 ⟨⟨_, rfl⟩, [], _, entries, nofun⟩
  · intro machine
    have taken := Block.effect_ofWord {} 0x80000004 0x0100006f machine
    rw [decoded] at taken
    exact onward ((outside.out 0 5).1 reported) machine machine taken

end Image

end RvLift
