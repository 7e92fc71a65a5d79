import Mathlib
import RvLift.Instruction.Text
import RvLift.Proofs.Text.Characters

/-!
# Mnemonics and operands

The assembly text of an instruction is a mnemonic, which names the form of the instruction, and its
operands. No mnemonic has a blank in it and no operand a comma, so that a text is put together from
its parts in one way only, and no two forms share a mnemonic.
-/

namespace RvLift

open Text

/-- An instruction without its operands. -/
inductive Form where
  | lui | auipc | jal | jalr
  | branch (cond : Cond)
  | load (width : Width) (signed : Bool)
  | store (width : Width)
  | register (op : AluOp)
  | immediate (op : AluOp)
  | mulDiv (op : MulDivOp)
  | fence
  deriving DecidableEq, Repr

namespace Form

/-- The mnemonic of a form. -/
def mnemonic : Form → String
  | .lui => "lui"
  | .auipc => "auipc"
  | .jal => "jal"
  | .jalr => "jalr"
  | .branch cond => cond.mnemonic
  | .load width signed => width.loadMnemonic signed
  | .store width => width.storeMnemonic
  | .register op => op.mnemonic
  | .immediate op => op.immediateMnemonic
  | .mulDiv op => op.mnemonic
  | .fence => "fence"

/-- The forms, loads of whole words as signed ones only. -/
def all : List Form :=
  [.lui, .auipc, .jal, .jalr, .branch .eq, .branch .ne, .branch .lt, .branch .ge, .branch .ltu,
    .branch .geu, .load .byte true, .load .half true, .load .word true, .load .byte false,
    .load .half false, .store .byte, .store .half, .store .word, .register .add, .register .sub,
    .register .sll, .register .slt, .register .sltu, .register .xor, .register .srl,
    .register .sra, .register .or, .register .and, .immediate .add, .immediate .sub,
    .immediate .sll, .immediate .slt, .immediate .sltu, .immediate .xor, .immediate .srl,
    .immediate .sra, .immediate .or, .immediate .and, .mulDiv .mul, .mulDiv .mulh,
    .mulDiv .mulhsu, .mulDiv .mulhu, .mulDiv .div, .mulDiv .divu, .mulDiv .rem, .mulDiv .remu,
    .fence]

/-- No two forms share a mnemonic. -/
theorem nodup_mnemonics : (all.map mnemonic).Nodup := by decide

/-- Every form is listed, except the unsigned load of a whole word. -/
theorem mem_all {form : Form} (standard : form ≠ .load .word false) : form ∈ all := by
  cases form with
  | branch cond => cases cond <;> decide
  | load width signed =>
    cases width <;> cases signed <;> first | decide | exact absurd rfl standard
  | store width => cases width <;> decide
  | register op => cases op <;> decide
  | immediate op => cases op <;> decide
  | mulDiv op => cases op <;> decide
  | lui | auipc | jal | jalr | fence => decide

/-- Mnemonics are made up of lower-case letters. -/
theorem consists_mnemonic (form : Form) : Consists Char.isLower form.mnemonic := by
  cases form with
  | branch cond => cases cond <;> rfl
  | load width signed => cases width <;> cases signed <;> rfl
  | store width => cases width <;> rfl
  | register op => cases op <;> rfl
  | immediate op => cases op <;> rfl
  | mulDiv op => cases op <;> rfl
  | lui | auipc | jal | jalr | fence => rfl

end Form

namespace Instruction

/-- The form of an instruction. -/
def form : Instruction → Form
  | .lui .. => .lui
  | .auipc .. => .auipc
  | .jal .. => .jal
  | .jalr .. => .jalr
  | .branch cond .. => .branch cond
  | .load width signed .. => .load width signed
  | .store width .. => .store width
  | .alu op _ _ (.reg _) => .register op
  | .alu op _ _ (.imm _) => .immediate op
  | .mulDiv op .. => .mulDiv op
  | .fence => .fence

/-- The texts of the operands of an instruction, in order. -/
def operands : Instruction → List String
  | .lui rd imm | .auipc rd imm => [rd.text, upperText imm]
  | .jal rd offset => [rd.text, signed offset.toInt]
  | .jalr rd rs1 offset | .load _ _ rd rs1 offset => [rd.text, memoryText offset rs1]
  | .branch _ rs1 rs2 offset => [rs1.text, rs2.text, signed offset.toInt]
  | .store _ rs1 rs2 offset => [rs2.text, memoryText offset rs1]
  | .alu _ rd rs1 (.reg rs2) | .mulDiv _ rd rs1 rs2 => [rd.text, rs1.text, rs2.text]
  | .alu op rd rs1 (.imm value) => [rd.text, rs1.text, immediateText op value]
  | .fence => []

/-- The text of an instruction is its mnemonic and its operands, if it has any. -/
theorem text_eq (instruction : Instruction) :
    instruction.text =
      if instruction.operands = [] then instruction.form.mnemonic
      else line instruction.form.mnemonic instruction.operands := by
  cases instruction with
  | alu op rd rs1 source => cases source <;> rfl
  | lui | auipc | jal | jalr | branch | load | store | mulDiv | fence => rfl

section Characters

/-- The names of registers are made up of the characters of operands. -/
theorem consists_reg (reg : Reg) : Consists isOperand reg.text := by
  have letter : Consists isOperand "x" := rfl
  exact consists_append.2 ⟨letter, consists_padded (by decide) (by decide) 0 reg.index⟩

/-- Signed numerals are made up of the characters of operands. -/
theorem consists_number (number : Int) : Consists isOperand (signed number) :=
  consists_signed (by decide) rfl number

/-- Memory operands are made up of the characters of operands, their parentheses included. -/
theorem consists_memoryText (offset : Word) (base : Reg) :
    Consists isOperand (memoryText offset base) := by
  have opening : Consists isOperand "(" := rfl
  have closing : Consists isOperand ")" := rfl
  simp only [memoryText, consists_append]
  exact ⟨⟨⟨consists_number _, opening⟩, consists_reg base⟩, closing⟩

/-- Upper immediates are made up of the characters of operands. -/
theorem consists_upperText (imm : Word) : Consists isOperand (upperText imm) := by
  have sign : Consists isOperand "0x" := rfl
  exact consists_append.2 ⟨sign, consists_padded (by decide) (by decide) 0 _⟩

/-- Immediates are made up of the characters of operands, shift amounts among them. -/
theorem consists_immediateText (op : AluOp) (value : Word) :
    Consists isOperand (immediateText op value) := by
  unfold immediateText
  split
  · exact consists_padded (by decide) (by decide) 0 _
  · exact consists_number _

/-- Operands are made up of letters, figures and a few signs. -/
theorem consists_of_mem_operands (instruction : Instruction) :
    ∀ operand ∈ instruction.operands, Consists isOperand operand := by
  cases instruction with
  | lui rd imm => simp [operands, consists_reg, consists_upperText]
  | auipc rd imm => simp [operands, consists_reg, consists_upperText]
  | jal rd offset => simp [operands, consists_reg, consists_number]
  | jalr rd rs1 offset => simp [operands, consists_reg, consists_memoryText]
  | branch cond rs1 rs2 offset => simp [operands, consists_reg, consists_number]
  | load width signed rd rs1 offset => simp [operands, consists_reg, consists_memoryText]
  | store width rs1 rs2 offset => simp [operands, consists_reg, consists_memoryText]
  | alu op rd rs1 source =>
    cases source with
    | reg rs2 => simp [operands, consists_reg]
    | imm value => simp [operands, consists_reg, consists_immediateText]
  | mulDiv op rd rs1 rs2 => simp [operands, consists_reg]
  | fence => simp [operands]

/-- Whether a character can stand in the assembly text of an instruction. -/
def isAssembly (character : Char) : Bool :=
  isOperand character || [' ', ','].contains character

/-- The characters of operands stand in assembly texts. -/
theorem consists_assembly {text : String} (consists : Consists isOperand text) :
    Consists isAssembly text :=
  consists.mono fun character own => by rw [isAssembly, own, Bool.true_or]

/-- Operands are put together with commas and blanks. -/
theorem consists_line {mnemonic : String} {operands : List String}
    (named : Consists isAssembly mnemonic)
    (all : ∀ operand ∈ operands, Consists isAssembly operand) :
    Consists isAssembly (line mnemonic operands) := by
  have blank : Consists isAssembly " " := rfl
  have comma : Consists isAssembly ", " := rfl
  have joined : Consists isAssembly (String.intercalate ", " operands) := by
    induction operands with
    | nil => rfl
    | cons first rest hypothesis =>
      have later := hypothesis fun operand member => all operand (List.mem_cons_of_mem _ member)
      have head := all first (List.mem_cons_self ..)
      cases rest with
      | nil => rwa [String.intercalate_singleton]
      | cons second rest =>
        rw [String.intercalate_cons_cons]
        exact consists_append.2 ⟨consists_append.2 ⟨head, comma⟩, later⟩
  exact consists_append.2 ⟨consists_append.2 ⟨named, blank⟩, joined⟩

/-- The assembly text of an instruction has letters, figures, blanks and a few signs in it. -/
theorem consists_text (instruction : Instruction) : Consists isAssembly instruction.text := by
  have named : Consists isAssembly instruction.form.mnemonic :=
    consists_assembly (instruction.form.consists_mnemonic.mono fun character lower => by
      simp [isOperand, lower])
  rw [text_eq]
  split
  · exact named
  · exact consists_line named fun operand member =>
      consists_assembly (instruction.consists_of_mem_operands operand member)

/-- The assembly text of an instruction is plain. -/
theorem plain_text (instruction : Instruction) : Plain instruction.text :=
  instruction.consists_text.plain rfl rfl rfl

end Characters

section Parts

/-- A sequence is divided in one way at the first occurrence of an element. -/
theorem append_cons_cancel {α : Type} {divider : α} {first second rest other : List α}
    (firstLacks : divider ∉ first) (secondLacks : divider ∉ second)
    (same : first ++ divider :: rest = second ++ divider :: other) :
    first = second ∧ rest = other := by
  induction first generalizing second with
  | nil =>
    cases second with
    | nil => exact ⟨rfl, (List.cons.inj same).2⟩
    | cons head tail =>
      exact absurd (List.cons.inj same).1 fun equal => secondLacks (by simp [equal])
  | cons head tail hypothesis =>
    cases second with
    | nil =>
      exact absurd (List.cons.inj same).1 fun equal => firstLacks (by simp [equal])
    | cons head' tail' =>
      obtain ⟨rfl, behind⟩ := List.cons.inj same
      rw [List.mem_cons, not_or] at firstLacks secondLacks
      obtain ⟨rfl, rfl⟩ := hypothesis firstLacks.2 secondLacks.2 behind
      exact ⟨rfl, rfl⟩

/-- The characters of two or more operands, a comma behind the first. -/
theorem toList_intercalate_cons_cons (first second : String) (rest : List String) :
    (String.intercalate ", " (first :: second :: rest)).toList =
      first.toList ++ ',' :: ' ' :: (String.intercalate ", " (second :: rest)).toList := by
  simp [String.intercalate_cons_cons]

/-- Operands without commas are read off their text. -/
theorem eq_of_intercalate_eq {first second : List String} (firstSome : first ≠ [])
    (secondSome : second ≠ []) (firstLacks : ∀ operand ∈ first, ',' ∉ operand.toList)
    (secondLacks : ∀ operand ∈ second, ',' ∉ operand.toList)
    (same : String.intercalate ", " first = String.intercalate ", " second) : first = second := by
  -- One operand is not two: only a text of several operands has a comma.
  have comma (head next : String) (rest : List String) :
      ',' ∈ (String.intercalate ", " (head :: next :: rest)).toList := by
    simp
  induction first generalizing second with
  | nil => exact absurd rfl firstSome
  | cons head tail hypothesis =>
    obtain ⟨head', tail', rfl⟩ := List.exists_cons_of_ne_nil secondSome
    have headLacks := firstLacks head (List.mem_cons_self ..)
    have headLacks' := secondLacks head' (List.mem_cons_self ..)
    cases tail with
    | nil =>
      rw [String.intercalate_singleton] at same
      cases tail' with
      | nil => rw [same, String.intercalate_singleton]
      | cons next' rest' => exact absurd (same ▸ comma head' next' rest') headLacks
    | cons next rest =>
      cases tail' with
      | nil =>
        rw [String.intercalate_singleton] at same
        exact absurd (same ▸ comma head next rest) headLacks'
      | cons next' rest' =>
        have characters := congrArg String.toList same
        rw [toList_intercalate_cons_cons, toList_intercalate_cons_cons] at characters
        obtain ⟨heads, behind⟩ := append_cons_cancel headLacks headLacks' characters
        have later := hypothesis (List.cons_ne_nil _ _) (List.cons_ne_nil _ _)
          (fun operand member => firstLacks operand (List.mem_cons_of_mem _ member))
          (fun operand member => secondLacks operand (List.mem_cons_of_mem _ member))
          (String.toList_inj.1 (List.cons.inj behind).2)
        rw [String.toList_inj.1 heads, later]

/-- The text of an instruction determines its mnemonic and its operands. -/
theorem parts_of_text_eq {first second : Instruction} (same : first.text = second.text) :
    first.form.mnemonic = second.form.mnemonic ∧ first.operands = second.operands := by
  have blank (instruction : Instruction) : ' ' ∉ instruction.form.mnemonic.toList :=
    instruction.form.consists_mnemonic.not_mem rfl
  have comma (instruction : Instruction) : ∀ operand ∈ instruction.operands, ',' ∉ operand.toList :=
    fun operand member => (instruction.consists_of_mem_operands operand member).not_mem rfl
  have divided (mnemonic : String) (operands : List String) : (line mnemonic operands).toList =
      mnemonic.toList ++ ' ' :: (String.intercalate ", " operands).toList := by
    simp [line]
  have characters := congrArg String.toList same
  rw [text_eq, text_eq] at characters
  by_cases firstNone : first.operands = []
  · rw [if_pos firstNone] at characters
    by_cases secondNone : second.operands = []
    · rw [if_pos secondNone] at characters
      exact ⟨String.toList_inj.1 characters, firstNone.trans secondNone.symm⟩
    · rw [if_neg secondNone, divided] at characters
      exact absurd (characters ▸ by simp) (blank first)
  · rw [if_neg firstNone, divided] at characters
    by_cases secondNone : second.operands = []
    · rw [if_pos secondNone] at characters
      exact absurd (characters ▸ by simp) (blank second)
    · rw [if_neg secondNone, divided] at characters
      obtain ⟨mnemonics, behind⟩ := append_cons_cancel (blank first) (blank second) characters
      exact ⟨String.toList_inj.1 mnemonics, eq_of_intercalate_eq firstNone secondNone (comma first)
        (comma second) (String.toList_inj.1 behind)⟩

end Parts

end Instruction

end RvLift
