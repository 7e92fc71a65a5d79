import Mathlib
import RvLift.Proofs.Block.Reads

/-!
# Blocks in order

Register writes of a block are due when the block is left; its statements and its terminator read
the registers as they were on entry. Carried out one after another instead, each write taking effect
at once, the statements of a block can come to something else: a read behind a write sees it, and an
access outside memory behind a write leaves it done.

In blocks that are in order there is nothing behind the write that reads registers or memory, and no
temporary is read before it is declared. The two ways of entering such a block come to the same,
whatever the temporaries hold on entry.
-/

namespace RvLift

namespace Stmt

/-- The temporary that a statement declares. -/
def declares? : Stmt → Option Temp
  | .define temp _ => some temp
  | .write .. => none

/-- The register that a statement writes. -/
def writes? : Stmt → Option Reg
  | .define .. => none
  | .write rd _ => some rd

/-- The expression that a statement evaluates. -/
def value : Stmt → Expr
  | .define _ value | .write _ value => value

/-- Carry out a statement. -/
def perform (machine : Machine) (temps : Temps) : Stmt → Except Access (Machine × Temps)
  | .define temp value => do
    let result ← value.eval machine temps
    return (machine, temps.set temp result)
  | .write rd value => do
    let result ← value.eval machine temps
    return (machine.setReg rd result, temps)

/-- Carry out statements one after another. An access outside memory is given together with the
machine as the statements before it have left it. -/
def performAll : Machine → Temps → List Stmt → Except (Access × Machine) (Machine × Temps)
  | machine, temps, [] => .ok (machine, temps)
  | machine, temps, stmt :: rest =>
    match stmt.perform machine temps with
    | .error access => .error (access, machine)
    | .ok (machine, temps) => performAll machine temps rest

end Stmt

/-- The temporaries that statements declare, in order. -/
def declarations (stmts : List Stmt) : List Temp := stmts.filterMap Stmt.declares?

/-- Enter a block that stands at position `index`, carrying out its statements one after another
from given values of the temporaries on. -/
def Program.stepInOrder (program : Program) (temps : Temps) (block : Block) (index : Nat)
    (machine : Machine) : Step :=
  match Stmt.performAll machine temps block.stmts with
  | .error (access, machine) => .faulted ⟨block.pc, access⟩ machine
  | .ok (machine, temps) =>
    program.follow block.pc index machine
      ((block.terminator.eval machine program.haltAddress temps).map fun transfer =>
        (machine, transfer))

section Reads

variable {declared : List Temp} {first second : Temps}

/-- An expression has one value for all temporaries that agree on what it reads. -/
theorem Expr.eval_of_readsOnly {expr : Expr} (reads : expr.ReadsOnly declared)
    (agree : ∀ temp ∈ declared, first temp = second temp) (machine : Machine) :
    expr.eval machine first = expr.eval machine second := by
  induction expr with
  | imm value => rfl
  | reg source => rfl
  | temp source => exact congrArg Except.ok (agree source (reads source rfl))
  | alu op left right leftHypothesis rightHypothesis =>
    rw [eval, eval, leftHypothesis fun source read => reads source (.inl read),
      rightHypothesis fun source read => reads source (.inr read)]
  | mulDiv op left right leftHypothesis rightHypothesis =>
    rw [eval, eval, leftHypothesis fun source read => reads source (.inl read),
      rightHypothesis fun source read => reads source (.inr read)]
  | load width signed offset hypothesis => rw [eval, eval, hypothesis reads]

/-- Whether an evaluation makes no access outside memory. -/
def Succeeds {α : Type} (evaluation : Except Access α) : Prop := ∃ value, evaluation = .ok value

/-- A sequence succeeds whose parts do. -/
theorem Succeeds.bind {α β : Type} {start : Except Access α} {next : α → Except Access β}
    (starts : Succeeds start) (goesOn : ∀ value, Succeeds (next value)) :
    Succeeds (start >>= next) := by
  obtain ⟨value, rfl⟩ := starts
  exact goesOn value

/-- A detached expression has a value. -/
theorem Expr.succeeds_of_detached {expr : Expr} (detached : expr.Detached) (machine : Machine)
    (temps : Temps) : Succeeds (expr.eval machine temps) := by
  induction expr with
  | imm value => exact ⟨value, rfl⟩
  | reg source => exact absurd detached id
  | temp source => exact ⟨temps source, rfl⟩
  | alu op left right leftHypothesis rightHypothesis =>
    exact (leftHypothesis detached.1).bind fun _ =>
      (rightHypothesis detached.2).bind fun _ => ⟨_, rfl⟩
  | mulDiv op left right leftHypothesis rightHypothesis =>
    exact (leftHypothesis detached.1).bind fun _ =>
      (rightHypothesis detached.2).bind fun _ => ⟨_, rfl⟩
  | load width signed offset hypothesis => exact absurd detached id

namespace Terminator

variable {terminator : Terminator}

/-- A terminator asks for the same on all machines and for all temporaries that agree on what it
reads. -/
theorem eval_of_settled (settled : terminator.Settled declared)
    (agree : ∀ temp ∈ declared, first temp = second temp) (machine other : Machine)
    (haltAddress : Word) :
    terminator.eval machine haltAddress first = terminator.eval other haltAddress second := by
  have same {expr : Expr} (member : expr ∈ terminator.exprs) :
      expr.eval machine first = expr.eval other second := by
    obtain ⟨reads, detached⟩ := settled expr member
    rw [Expr.eval_of_readsOnly reads agree, Expr.eval_of_detached detached machine other]
  cases terminator with
  | «fallthrough» => rfl
  | jump target => rfl
  | branch cond left right target =>
    rw [eval, eval, same (by simp [exprs]), same (by simp [exprs])]
  | dispatch target => rw [eval, eval, same (by simp [exprs])]
  | haltOrStore width address offset value =>
    rw [eval, eval, same (by simp [exprs]), same (by simp [exprs]), same (by simp [exprs])]

/-- A terminator that reads no memory makes no access outside it. -/
theorem succeeds_of_settled (settled : terminator.Settled declared) (machine : Machine)
    (haltAddress : Word) (temps : Temps) :
    Succeeds (terminator.eval machine haltAddress temps) := by
  have part {expr : Expr} (member : expr ∈ terminator.exprs) :
      Succeeds (expr.eval machine temps) :=
    Expr.succeeds_of_detached (settled expr member).2 machine temps
  cases terminator with
  | «fallthrough» => exact ⟨_, rfl⟩
  | jump target => exact ⟨_, rfl⟩
  | branch cond left right target =>
    exact (part (by simp [exprs])).bind fun _ => (part (by simp [exprs])).bind fun _ => ⟨_, rfl⟩
  | dispatch target => exact (part (by simp [exprs])).bind fun _ => ⟨_, rfl⟩
  | haltOrStore width address offset value =>
    refine (part (by simp [exprs])).bind fun stored => (part (by simp [exprs])).bind fun place => ?_
    split
    · exact ⟨_, rfl⟩
    · exact (part (by simp [exprs])).bind fun _ => ⟨_, rfl⟩

end Terminator

end Reads

section InOrder

variable {terminator : Terminator} {declared : List Temp} {machine : Machine} {stmts : List Stmt}

/-- Giving a temporary a value keeps temporaries in agreement. -/
theorem Temps.set_agree {first second : Temps}
    (agree : ∀ temp ∈ declared, first temp = second temp) (temp : Temp) (value : Word) :
    ∀ other ∈ temp :: declared, first.set temp value other = second.set temp value other := by
  intro other member
  by_cases same : other = temp
  · simp [same]
  · simpa [same] using agree other ((List.mem_cons.1 member).resolve_left same)

/-- Statements in order come to the same in both ways: they make the same access outside memory with
nothing written before it, or they leave the register write that was due carried out, and
temporaries that agree on what the terminator reads. -/
theorem performAll_of_orderly {first second : Temps} (orderly : Orderly terminator declared stmts)
    (agree : ∀ temp ∈ declared, first temp = second temp) :
    (∃ access, stmts.foldlM (Stmt.eval machine) ⟨first, none⟩ = .error access ∧
      Stmt.performAll machine second stmts = .error (access, machine)) ∨
    ∃ frame final known, stmts.foldlM (Stmt.eval machine) ⟨first, none⟩ = .ok frame ∧
      Stmt.performAll machine second stmts = .ok (machine.writeBack frame.writeback, final) ∧
      terminator.Settled known ∧ ∀ temp ∈ known, frame.temps temp = final temp := by
  induction stmts generalizing declared first second with
  | nil => exact .inr ⟨_, second, declared, rfl, rfl, orderly, agree⟩
  | cons stmt rest hypothesis =>
    rw [List.foldlM_cons, Stmt.performAll]
    cases stmt with
    | define temp value =>
      obtain ⟨-, reads, orderly⟩ := orderly
      have same := Expr.eval_of_readsOnly reads agree machine
      simp only [Stmt.eval, Stmt.perform, same]
      cases value.eval machine second with
      | error access => exact .inl ⟨access, rfl, rfl⟩
      | ok result => exact hypothesis orderly (Temps.set_agree agree temp result)
    | write rd value =>
      cases rest with
      | cons next rest => exact absurd orderly id
      | nil =>
        obtain ⟨-, reads, settled⟩ := orderly
        have same := Expr.eval_of_readsOnly reads agree machine
        simp only [Stmt.eval, Stmt.perform, same]
        cases value.eval machine second with
        | error access => exact .inl ⟨access, rfl, rfl⟩
        | ok result => exact .inr ⟨_, second, declared, rfl, rfl, settled, agree⟩

/-- Entering a block that is in order comes to the same whether its register write is due when the
block is left or is carried out at once. -/
theorem Program.stepInOrder_eq_step (program : Program) {block : Block} (orderly : block.Orderly)
    (temps : Temps) (index : Nat) (machine : Machine) :
    program.stepInOrder temps block index machine = program.step block index machine := by
  rw [step_eq_follow, stepInOrder, Block.effect, Block.eval, Frame.initial]
  have agree : ∀ temp ∈ ([] : List Temp), Temps.initial temp = temps temp := nofun
  rcases performAll_of_orderly orderly agree with
    ⟨access, refused, performed⟩ | ⟨frame, final, known, worked, performed, settled, agrees⟩
  · rw [refused, performed]
    rfl
  · have same := Terminator.eval_of_settled settled agrees machine
      (machine.writeBack frame.writeback) program.haltAddress
    obtain ⟨transfer, asked⟩ := Terminator.succeeds_of_settled settled machine program.haltAddress
      frame.temps
    rw [asked] at same
    rw [worked, performed]
    simp only [ok_bind, asked, ← same]
    cases transfer <;> rfl

end InOrder

section Shape

variable {terminator : Terminator} {declared : List Temp} {stmts before rest later : List Stmt}
  {stmt : Stmt}

/-- Statements in order declare no temporary twice, and none that has been declared before. -/
theorem Orderly.nodup_declarations (orderly : Orderly terminator declared stmts) :
    (declarations stmts).Nodup ∧ ∀ temp ∈ declarations stmts, temp ∉ declared := by
  induction stmts generalizing declared with
  | nil => exact ⟨List.nodup_nil, nofun⟩
  | cons stmt rest hypothesis =>
    cases stmt with
    | define temp value =>
      obtain ⟨fresh, -, orderly⟩ := orderly
      obtain ⟨once, apart⟩ := hypothesis orderly
      refine ⟨List.nodup_cons.2 ⟨fun again => apart temp again List.mem_cons_self, once⟩, ?_⟩
      intro other member
      rcases List.mem_cons.1 member with rfl | declaredLater
      · exact fresh
      · exact fun earlier => apart other declaredLater (List.mem_cons_of_mem temp earlier)
    | write rd value =>
      cases rest with
      | nil => exact ⟨List.nodup_nil, nofun⟩
      | cons next rest => exact absurd orderly id

/-- What stands behind statements in order is in order where their temporaries have been declared,
and nothing else. -/
theorem Orderly.behind (orderly : Orderly terminator declared (before ++ rest)) :
    ∃ known, (∀ temp ∈ known, temp ∈ declarations before ∨ temp ∈ declared) ∧
      Orderly terminator known rest := by
  induction before generalizing declared with
  | nil => exact ⟨declared, fun temp member => .inr member, orderly⟩
  | cons first others hypothesis =>
    cases first with
    | define temp value =>
      obtain ⟨known, declaredBefore, orderly⟩ := hypothesis orderly.2.2
      refine ⟨known, fun other member => ?_, orderly⟩
      change other ∈ temp :: declarations others ∨ _
      rcases declaredBefore other member with inOthers | inDeclared
      · exact .inl (List.mem_cons_of_mem temp inOthers)
      · rcases List.mem_cons.1 inDeclared with rfl | earlier
        · exact .inl List.mem_cons_self
        · exact .inr earlier
    | write rd value =>
      -- Nothing but the terminator stands behind a write.
      cases others with
      | nil =>
        cases rest with
        | nil => exact ⟨declared, fun temp member => .inr member, orderly.2.2⟩
        | cons next later => exact absurd orderly id
      | cons next others => exact absurd orderly id

/-- What stands behind the first statements of a block in order is in order where only their
temporaries have been declared. -/
theorem Block.Orderly.behind {block : Block} (orderly : block.Orderly)
    (split : block.stmts = before ++ rest) :
    ∃ known, (∀ temp ∈ known, temp ∈ declarations before) ∧
      RvLift.Orderly block.terminator known rest := by
  rw [Block.Orderly, split] at orderly
  obtain ⟨known, declaredBefore, inOrder⟩ := RvLift.Orderly.behind orderly
  exact ⟨known, fun temp member => (declaredBefore temp member).resolve_right List.not_mem_nil,
    inOrder⟩

/-- A statement of a block in order reads what the statements before it have declared. -/
theorem Block.Orderly.readsOnly {block : Block} (orderly : block.Orderly)
    (split : block.stmts = before ++ stmt :: later) :
    stmt.value.ReadsOnly (declarations before) := by
  obtain ⟨known, declaredBefore, orderly⟩ := orderly.behind split
  have reads : stmt.value.ReadsOnly known := by
    cases stmt with
    | define temp value => exact orderly.2.1
    | write rd value =>
      cases later with
      | nil => exact orderly.2.1
      | cons next later => exact absurd orderly id
  exact fun source read => declaredBefore source (reads source read)

/-- A register write of a block in order is its last statement. -/
theorem Block.Orderly.later_eq_nil {block : Block} (orderly : block.Orderly)
    (split : block.stmts = before ++ stmt :: later) (writes : stmt.writes?.isSome) :
    later = [] := by
  obtain ⟨known, -, orderly⟩ := orderly.behind split
  cases stmt with
  | define temp value => cases writes
  | write rd value =>
    cases later with
    | nil => rfl
    | cons next later => exact absurd orderly id

/-- The terminator of a block in order reads what its statements have declared, and neither
registers nor memory. -/
theorem Block.Orderly.settled {block : Block} (orderly : block.Orderly) :
    block.terminator.Settled (declarations block.stmts) := by
  obtain ⟨known, declaredBefore, settled⟩ := orderly.behind (List.append_nil block.stmts).symm
  intro expr member
  obtain ⟨reads, detached⟩ := settled expr member
  exact ⟨fun source read => declaredBefore source (reads source read), detached⟩

end Shape

namespace Instruction

/-- A result is written unless it is for `x0`. -/
theorem filterMap_writes?_result (rd : Reg) (value : Expr) :
    (result rd value).filterMap Stmt.writes? = ((some rd).filter (· ≠ Reg.zero)).toList := by
  rw [result, Option.filter_some]
  by_cases dropped : rd = Reg.zero
  · simp only [dropped, if_true, ne_eq, not_true_eq_false, decide_false, Bool.false_eq_true,
      if_false]
    rfl
  · simp only [dropped, if_false, ne_eq, not_false_eq_true, decide_true, if_true]
    rfl

/-- An instruction writes its destination unless that is `x0`, and nothing else. -/
theorem filterMap_writes?_stmts (settings : Settings) (pc : Word) (instruction : Instruction) :
    (instruction.stmts settings pc).filterMap Stmt.writes? =
      (instruction.dest?.filter (· ≠ Reg.zero)).toList := by
  cases instruction with
  | lui rd imm => exact filterMap_writes?_result rd _
  | auipc rd imm => exact filterMap_writes?_result rd _
  | jal rd offset => exact filterMap_writes?_result rd _
  | jalr rd rs1 offset => exact filterMap_writes?_result rd (.imm (pc + 4))
  | branch cond rs1 rs2 offset => rfl
  | load width signed rd rs1 offset =>
    exact filterMap_writes?_result rd (.load width signed (.rebase (.temp .addr) settings.base))
  | store width rs1 rs2 offset => rfl
  | alu op rd rs1 source => exact filterMap_writes?_result rd (.alu op (.temp .rs1) (.temp .rs2))
  | mulDiv op rd rs1 rs2 =>
    exact filterMap_writes?_result rd (.mulDiv op (.temp .rs1) (.temp .rs2))
  | fence => rfl

end Instruction

/-- The register write of a block is the first of its statements' writes. -/
theorem Block.writeback?_eq_head? (block : Block) :
    block.writeback? = (block.stmts.filterMap Stmt.writes?).head? := by
  rw [List.head?_filterMap, writeback?]
  congr
  funext stmt
  cases stmt <;> rfl

/-- The block of an instruction is well formed, and its register write may as well take effect at
once. It declares no temporary twice and reads none before its declaration; it has at most one
register write, its last statement, which is there exactly if the instruction has a destination
other than `x0`; and its terminator reads neither registers nor memory. So carrying out its
statements one after another, from any values of the temporaries on, comes to what entering the
block comes to: the same registers and memory, the same next block, the same value on halting, or
the same access outside memory. -/
theorem Block.ofInstruction_in_order (settings : Settings) (pc word : Word)
    (instruction : Instruction) :
    let block := ofInstruction settings pc word instruction
    let written := instruction.dest?.filter (· ≠ Reg.zero)
    (declarations block.stmts).Nodup ∧
    (∀ before stmt later, block.stmts = before ++ stmt :: later →
      stmt.value.ReadsOnly (declarations before) ∧ (stmt.writes?.isSome → later = [])) ∧
    block.stmts.filterMap Stmt.writes? = written.toList ∧ block.writeback? = written ∧
    (∀ expr ∈ block.terminator.exprs,
      expr.ReadsOnly (declarations block.stmts) ∧ expr.Detached) ∧
    ∀ (program : Program) temps index machine,
      program.stepInOrder temps block index machine = program.step block index machine := by
  intro block written
  have orderly : block.Orderly := orderly_ofInstruction settings pc word instruction
  have writes : block.stmts.filterMap Stmt.writes? = written.toList :=
    Instruction.filterMap_writes?_stmts settings pc instruction
  refine ⟨(RvLift.Orderly.nodup_declarations orderly).1, ?_, writes, ?_, orderly.settled, ?_⟩
  · intro before stmt later split
    exact ⟨orderly.readsOnly split, orderly.later_eq_nil split⟩
  · rw [writeback?_eq_head?, writes, Option.head?_toList]
  · intro program temps index machine
    exact program.stepInOrder_eq_step orderly temps index machine

end RvLift
