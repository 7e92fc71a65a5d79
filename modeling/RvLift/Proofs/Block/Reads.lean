import Mathlib
import RvLift.Proofs.Block.Effect

/-!
# What blocks read

The temporaries that an expression reads, and whether it reads the machine. An expression has one
value for all temporaries and machines that agree on what it reads.

The blocks of instructions are in order: temporaries are declared once and before they are read, a
register write comes last and is never one of `x0`, and terminators read neither registers nor
memory. What such a block reads is therefore not affected by what it writes.
-/

namespace RvLift

namespace Expr

/-- Whether an expression reads a temporary. -/
def Reads (temp : Temp) : Expr → Prop
  | .imm _ | .reg _ => False
  | .temp source => source = temp
  | .alu _ left right | .mulDiv _ left right => left.Reads temp ∨ right.Reads temp
  | .load _ _ offset => offset.Reads temp

/-- Whether an expression reads neither registers nor memory. -/
def Detached : Expr → Prop
  | .imm _ | .temp _ => True
  | .reg _ | .load .. => False
  | .alu _ left right | .mulDiv _ left right => left.Detached ∧ right.Detached

/-- A detached expression has the same value on every machine. -/
theorem eval_of_detached {expr : Expr} (detached : expr.Detached) (first second : Machine)
    (temps : Temps) : expr.eval first temps = expr.eval second temps := by
  induction expr with
  | imm value => rfl
  | reg source => exact absurd detached id
  | temp source => rfl
  | alu op left right leftHypothesis rightHypothesis =>
    rw [eval, eval, leftHypothesis detached.1, rightHypothesis detached.2]
  | mulDiv op left right leftHypothesis rightHypothesis =>
    rw [eval, eval, leftHypothesis detached.1, rightHypothesis detached.2]
  | load width signed offset hypothesis => exact absurd detached id

/-- Whether all temporaries that an expression reads are among given ones. -/
def ReadsOnly (declared : List Temp) (expr : Expr) : Prop :=
  ∀ source, expr.Reads source → source ∈ declared

end Expr

/-- The expressions of a terminator. -/
def Terminator.exprs : Terminator → List Expr
  | .fallthrough | .jump _ => []
  | .branch _ left right _ => [left, right]
  | .dispatch target => [target]
  | .haltOrStore _ address offset value => [address, offset, value]

/-- Whether a terminator reads given temporaries only, and neither registers nor memory. -/
def Terminator.Settled (declared : List Temp) (terminator : Terminator) : Prop :=
  ∀ expr ∈ terminator.exprs, expr.ReadsOnly declared ∧ expr.Detached

/-- Whether statements and the terminator behind them are in order where given temporaries have been
declared. -/
def Orderly (terminator : Terminator) : List Temp → List Stmt → Prop
  | declared, [] => terminator.Settled declared
  | declared, .define temp value :: rest =>
    temp ∉ declared ∧ value.ReadsOnly declared ∧ Orderly terminator (temp :: declared) rest
  | declared, [.write rd value] =>
    rd ≠ Reg.zero ∧ value.ReadsOnly declared ∧ terminator.Settled declared
  | _, .write .. :: _ :: _ => False

/-- Whether a block is in order. -/
def Block.Orderly (block : Block) : Prop := RvLift.Orderly block.terminator [] block.stmts

section Instructions

variable {declared : List Temp} {terminator : Terminator}

/-- A result is in order behind the declarations it reads. -/
theorem orderly_result {rd : Reg} {value : Expr} (fresh : .rval ∉ declared)
    (reads : value.ReadsOnly declared) (settled : terminator.Settled (.rval :: declared)) :
    Orderly terminator declared (Instruction.result rd value) := by
  refine ⟨fresh, reads, ?_⟩
  by_cases dropped : rd = Reg.zero
  · rw [if_pos dropped]
    exact settled
  · rw [if_neg dropped]
    refine ⟨dropped, ?_, settled⟩
    intro source read
    obtain rfl : Temp.rval = source := read
    exact List.mem_cons_self ..

/-- The block of an instruction is in order. -/
theorem Block.orderly_ofInstruction (settings : Settings) (pc word : Word)
    (instruction : Instruction) : (ofInstruction settings pc word instruction).Orderly := by
  have nothing (declared : List Temp) : Terminator.fallthrough.Settled declared := by
    intro expr member
    cases member
  have sources (source : Temp) (read : .rs1 = source ∨ .rs2 = source) :
      source ∈ [Temp.rs2, .rs1] := by
    rcases read with rfl | rfl <;> simp
  cases instruction with
  | lui rd imm => exact orderly_result (by simp) (by simp [Expr.ReadsOnly, Expr.Reads]) (nothing _)
  | auipc rd imm =>
    exact orderly_result (by simp) (by simp [Expr.ReadsOnly, Expr.Reads]) (nothing _)
  | jal rd offset =>
    refine orderly_result (by simp) (by simp [Expr.ReadsOnly, Expr.Reads]) ?_
    intro expr member
    cases member
  | jalr rd rs1 offset =>
    refine ⟨by simp, ?_, orderly_result (by simp) (by simp [Expr.ReadsOnly, Expr.Reads]) ?_⟩
    · simp [Expr.ReadsOnly, Instruction.jumpTarget, Expr.Reads]
    · simp [Terminator.Settled, Terminator.exprs, Instruction.terminator, ofInstruction,
        Expr.ReadsOnly, Expr.Reads, Expr.Detached]
  | branch cond rs1 rs2 offset =>
    simp [Orderly, RvLift.Orderly, ofInstruction, Instruction.stmts, Instruction.terminator,
      Terminator.Settled, Terminator.exprs, Expr.ReadsOnly, Expr.Reads, Expr.Detached]
  | load width signed rd rs1 offset =>
    refine ⟨by simp, by simp [Expr.ReadsOnly, Expr.Reads], by simp, ?_, orderly_result (by simp) ?_
      (nothing _)⟩
    · simp [Expr.ReadsOnly, Instruction.accessAddress, Expr.Reads]
    · simp [Expr.ReadsOnly, Expr.rebase, Expr.Reads]
  | store width rs1 rs2 offset =>
    simp [Orderly, RvLift.Orderly, ofInstruction, Instruction.stmts, Instruction.terminator,
      Instruction.accessAddress, Expr.rebase, Terminator.Settled, Terminator.exprs, Expr.ReadsOnly,
      Expr.Reads, Expr.Detached]
  | alu op rd rs1 source =>
    have operand : (Instruction.operandValue source).ReadsOnly [.rs1] := by
      intro temp read
      cases source <;> cases read
    exact ⟨by simp, by simp [Expr.ReadsOnly, Expr.Reads], by simp, operand,
      orderly_result (by simp) sources (nothing _)⟩
  | mulDiv op rd rs1 rs2 =>
    exact ⟨by simp, by simp [Expr.ReadsOnly, Expr.Reads], by simp,
      by simp [Expr.ReadsOnly, Expr.Reads], orderly_result (by simp) sources (nothing _)⟩
  | fence => exact nothing []

/-- The block of a word is in order. -/
theorem Block.orderly_ofWord (settings : Settings) (pc word : Word) :
    (ofWord settings pc word).Orderly := by
  unfold ofWord
  cases Instruction.decode word pc with
  | ok instruction => exact orderly_ofInstruction ..
  | error error =>
    intro expr member
    cases member

end Instructions

end RvLift
