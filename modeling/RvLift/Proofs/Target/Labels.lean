import Mathlib
import RvLift.Proofs.Addresses
import RvLift.Proofs.Block.Effect
import RvLift.Proofs.Target.Recovery

/-!
# Labels of source files

The blocks of the source file of a lifted image have the addresses of the words of the image as
labels, and jumps lead to such labels only. Up to 2^30 words have labels of their own; the labels
and the cases of more words would repeat themselves.
-/

namespace RvLift

namespace Target

/-- The label that a statement jumps to. -/
def Stmt.target? : Stmt → Option Label
  | .jump (.goto target) | .jumpIf _ (.goto target) => some target
  | _ => none

/-- A conditional jump leads where the jump does. -/
theorem Stmt.target?_jumpIf (condition : Expr) (target : Jump) :
    (Stmt.jumpIf condition target).target? = (Stmt.jump target).target? := by
  cases target <;> rfl

namespace Code

variable (code : Code)

/-- The labels of the blocks, in order. -/
def labels : List Label := code.blocks.map fun block => block.label

/-- The labels that jumps lead to, those of the dispatch switch first. -/
def targets : List Label :=
  code.cases.map (fun entry => entry.2) ++
    code.blocks.flatMap fun block => block.body.filterMap Stmt.target?

/-- Whether labels and cases are unambiguous and every jump leads to a block. -/
structure Linked : Prop where
  /-- No two blocks have the same label. -/
  labels_nodup : code.labels.Nodup
  /-- No two cases of the dispatch switch have the same value. -/
  cases_nodup : (code.cases.map fun entry => entry.1.value).Nodup
  /-- Every label that a jump leads to is that of a block. -/
  targets_defined : ∀ target ∈ code.targets, target ∈ code.labels

end Code

end Target

open Target

/-- The block of a word has the address of the word as its label. -/
theorem Block.label_ofWord (settings : Settings) (pc word : Word) :
    (Block.ofWord settings pc word).label = ⟨pc⟩ :=
  congrArg Label.mk (Block.pc_ofWord settings pc word)

/-- Statements of a block do not jump. -/
theorem Stmt.target?_emit (stmt : Stmt) : stmt.emit.target? = none := by
  cases stmt <;> rfl

/-- Where statements show nothing of a kind, neither do all of them together. -/
theorem Stmt.filterMap_emit {α : Type} {view : Target.Stmt → Option α}
    (silent : ∀ stmt : Stmt, view stmt.emit = none) (stmts : List Stmt) :
    (stmts.map Stmt.emit).filterMap view = [] := by
  rw [List.filterMap_eq_nil_iff]
  intro emitted inside
  obtain ⟨stmt, -, rfl⟩ := List.mem_map.1 inside
  exact silent stmt

/-- The jumps of a terminator lead to labels of the jump table. -/
theorem Terminator.lookup?_of_target {table : JumpTable} {terminator : Terminator} {label : Label}
    (member : label ∈ (terminator.emit table).filterMap Target.Stmt.target?) :
    ∃ address, table.lookup? address = some label := by
  have resolves {target : Label}
      (leads : (Target.Stmt.jump (table.jumpTo target)).target? = some label) :
      ∃ address, table.lookup? address = some label := by
    cases found : table.lookup? target.address with
    | none => simp [JumpTable.jumpTo, found, Target.Stmt.target?] at leads
    | some resolved =>
      simp only [JumpTable.jumpTo, found, Target.Stmt.target?, Option.some.injEq] at leads
      exact ⟨target.address, leads ▸ found⟩
  cases terminator with
  | jump target => exact resolves (by simpa [Terminator.emit] using member)
  | branch cond left right target =>
    exact resolves (by simpa [Terminator.emit, Stmt.target?_jumpIf] using member)
  | _ => simp [Terminator.emit, Target.Stmt.target?] at member

/-- The blocks of the code are those of the program. -/
theorem Program.getElem?_blocks_code (program : Program) (index : Nat) :
    program.code.blocks[index]? = program.blocks[index]?.map fun block =>
      ⟨block.label, block.stmts.map Stmt.emit ++ block.terminator.emit program.table⟩ := by
  simp only [code, emit, SourceFile.code, List.map_map, List.getElem?_map,
    Array.getElem?_toList]
  rfl

/-- The jumps of a source file lead to labels of the jump table. -/
theorem Program.lookup?_of_mem_targets {program : Program} {label : Label}
    (member : label ∈ program.code.targets) :
    ∃ address, program.table.lookup? address = some label := by
  obtain entry | jump := List.mem_append.1 member
  · simp only [code, emit, SourceFile.code, List.map_map, List.mem_map] at entry
    obtain ⟨⟨address, resolved⟩, inside, rfl⟩ := entry
    exact ⟨address, JumpTable.mem_entries_iff.1 inside⟩
  · obtain ⟨labelled, inside, jump⟩ := List.mem_flatMap.1 jump
    simp only [code, emit, SourceFile.code, List.map_map, List.mem_map] at inside
    obtain ⟨block, -, rfl⟩ := inside
    change label ∈ (block.stmts.map Stmt.emit ++ block.terminator.emit program.table).filterMap
      Target.Stmt.target? at jump
    rw [List.filterMap_append, Stmt.filterMap_emit Stmt.target?_emit, List.nil_append] at jump
    exact Terminator.lookup?_of_target jump

namespace Image

variable (image : Image) (settings : Settings)

/-- The labels of a lifted image are the addresses of its words. -/
theorem labels_lift :
    (image.lift settings).code.labels =
      (List.range image.wordCount).map fun index => ⟨Word.address image.base index⟩ := by
  simp only [Code.labels, Program.code, Program.emit, SourceFile.code, lift, blocks, words,
    List.map_map]
  refine List.map_congr_left fun index _ => ?_
  exact Block.label_ofWord ..

/-- The cases of a lifted image are the addresses of its words. -/
theorem cases_lift :
    (image.lift settings).code.cases = (List.range image.wordCount).map fun index =>
      (.ofWord (Word.address image.base index), ⟨Word.address image.base index⟩) := by
  simp [Program.code, Program.emit, SourceFile.code, lift, jumpTable, JumpTable.entries]

/-- The jumps of a lifted image lead to its blocks. -/
theorem mem_labels_of_mem_targets {label : Label}
    (member : label ∈ (image.lift settings).code.targets) :
    label ∈ (image.lift settings).code.labels := by
  obtain ⟨address, found⟩ := Program.lookup?_of_mem_targets member
  obtain ⟨rfl, index, inside, rfl⟩ := JumpTable.lookup?_eq_some_iff_exists.1 found
  rw [labels_lift]
  exact List.mem_map.2 ⟨index, List.mem_range.2 inside, rfl⟩

variable {image} in
/-- The source file of up to 2^30 words is unambiguous and its jumps lead to its blocks. -/
theorem linked_lift (small : image.wordCount ≤ 2 ^ 30) : (image.lift settings).code.Linked where
  labels_nodup := by
    rw [labels_lift]
    exact (Word.nodup_map_address_iff (fun _ _ => Label.mk.inj) ..).2 small
  cases_nodup := by
    rw [cases_lift, List.map_map]
    exact (Word.nodup_map_address_iff (fun _ _ => BitVec.eq_of_toNat_eq) ..).2 small
  targets_defined _ member := image.mem_labels_of_mem_targets settings member

end Image

end RvLift
