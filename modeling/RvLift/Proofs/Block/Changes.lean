import Mathlib
import RvLift.Proofs.Block.InOrder
import RvLift.Proofs.Machine.Faults
import RvLift.Proofs.Machine.Limits

/-!
# What a block can change

Blocks need not come from instructions: they may write several registers, or `x0`, or read memory in
any expression. Whatever their statements and terminator are, entering them changes little. Nothing
is applied before all expressions have been worked out, so an access outside memory in one of them
leaves the machine alone; then the last register write is carried out, and after it the store that
the terminator asks for, if it asks for one.
-/

namespace RvLift

/-- An access that an expression fails with lies outside memory. -/
theorem Expr.covers_of_eval_eq_error {machine : Machine} {temps : Temps} {access : Access}
    {expr : Expr} (fails : expr.eval machine temps = .error access) :
    machine.covers access = false := by
  induction expr with
  | imm value | reg source | temp source => cases fails
  | alu op left right leftHypothesis rightHypothesis
  | mulDiv op left right leftHypothesis rightHypothesis =>
    rcases bind_eq_error_iff.1 fails with first | ⟨leftValue, -, later⟩
    · exact leftHypothesis first
    · rcases bind_eq_error_iff.1 later with second | ⟨rightValue, -, applied⟩
      · exact rightHypothesis second
      · cases applied
  | load width signed offset hypothesis =>
    rcases bind_eq_error_iff.1 fails with first | ⟨start, -, later⟩
    · exact hypothesis first
    · rcases bind_eq_error_iff.1 later with refused | ⟨value, -, extended⟩
      · rw [Machine.load] at refused
        split at refused
        · cases refused
        · rename_i outside
          cases refused
          exact Bool.eq_false_iff.2 outside
      · cases extended

section Failing

variable {machine : Machine} {haltAddress : Word} {temps : Temps} {access : Access}

/-- A terminator fails with an access if an expression of it that comes to be evaluated does. The
right operand of a branch is evaluated after the left one, the address of a store after the value,
and its offset only if it does not halt the program. -/
inductive Terminator.Fails (machine : Machine) (haltAddress : Word) (temps : Temps)
    (access : Access) : Terminator → Prop where
  /-- The left operand of a branch fails. -/
  | left {cond left right target} (fails : left.eval machine temps = .error access) :
    Fails machine haltAddress temps access (.branch cond left right target)
  /-- The right operand of a branch fails. -/
  | right {cond left right target leftValue} (first : left.eval machine temps = .ok leftValue)
    (fails : right.eval machine temps = .error access) :
    Fails machine haltAddress temps access (.branch cond left right target)
  /-- The target of a computed jump fails. -/
  | target {target} (fails : target.eval machine temps = .error access) :
    Fails machine haltAddress temps access (.dispatch target)
  /-- The value to be stored or returned fails. -/
  | value {width address offset value} (fails : value.eval machine temps = .error access) :
    Fails machine haltAddress temps access (.haltOrStore width address offset value)
  /-- The address of a store fails. -/
  | address {width address offset value stored} (first : value.eval machine temps = .ok stored)
    (fails : address.eval machine temps = .error access) :
    Fails machine haltAddress temps access (.haltOrStore width address offset value)
  /-- The offset of a store fails that does not halt the program. -/
  | offset {width address offset value stored place}
    (first : value.eval machine temps = .ok stored)
    (second : address.eval machine temps = .ok place) (onward : place ≠ haltAddress)
    (fails : offset.eval machine temps = .error access) :
    Fails machine haltAddress temps access (.haltOrStore width address offset value)

/-- What the statements of a block work out from a machine. -/
def Block.WorksOut (block : Block) (machine : Machine) (frame : Frame) : Prop :=
  block.stmts.foldlM (Stmt.eval machine) Frame.initial = .ok frame

/-- A block fails with an access if an expression of it that comes to be evaluated does: that of a
statement behind statements that have been worked out, or one of its terminator. -/
inductive Block.Fails (block : Block) (machine : Machine) (haltAddress : Word) (access : Access) :
    Prop where
  /-- The expression of a statement fails. -/
  | stmt {before stmt later frame} (split : block.stmts = before ++ stmt :: later)
    (earlier : before.foldlM (Stmt.eval machine) Frame.initial = .ok frame)
    (fails : stmt.value.eval machine frame.temps = .error access)
  /-- The statements are worked out, and the terminator fails. -/
  | terminator {frame} (worked : block.WorksOut machine frame)
    (fails : block.terminator.Fails machine haltAddress frame.temps access)

/-- Taking a statement into account fails as its expression does. -/
theorem Stmt.eval_eq_error_iff {frame : Frame} {stmt : Stmt} :
    stmt.eval machine frame = .error access ↔
      stmt.value.eval machine frame.temps = .error access := by
  cases stmt with
  | define temp value | write rd value =>
    simp only [Stmt.eval, Stmt.value, bind_eq_error_iff, pure_eq_ok, reduceCtorEq, and_false,
      exists_false, or_false]

/-- Terminators fail by their expressions only. -/
theorem Terminator.eval_eq_error_iff {terminator : Terminator} :
    terminator.eval machine haltAddress temps = .error access ↔
      terminator.Fails machine haltAddress temps access := by
  constructor
  · intro failed
    cases terminator with
    | «fallthrough» | jump target => cases failed
    | branch cond left right target =>
      rcases bind_eq_error_iff.1 failed with fails | ⟨leftValue, first, later⟩
      · exact .left fails
      · rcases bind_eq_error_iff.1 later with fails | ⟨rightValue, -, decided⟩
        · exact .right first fails
        · cases decided
    | dispatch target =>
      rcases bind_eq_error_iff.1 failed with fails | ⟨place, -, decided⟩
      · exact .target fails
      · cases decided
    | haltOrStore width address offset value =>
      rcases bind_eq_error_iff.1 failed with fails | ⟨stored, first, later⟩
      · exact .value fails
      · rcases bind_eq_error_iff.1 later with fails | ⟨place, second, last⟩
        · exact .address first fails
        · split at last
          · cases last
          · rename_i onward
            rcases bind_eq_error_iff.1 last with fails | ⟨start, -, decided⟩
            · exact .offset first second onward fails
            · cases decided
  · intro fails
    cases fails with
    | left fails => simp only [eval, fails, error_bind]
    | right first fails => simp only [eval, first, fails, ok_bind, error_bind]
    | target fails => simp only [eval, fails, error_bind]
    | value fails => simp only [eval, fails, error_bind]
    | address first fails => simp only [eval, first, fails, ok_bind, error_bind]
    | offset first second onward fails =>
      simp only [eval, first, second, fails, onward, if_false, ok_bind, error_bind]

/-- Blocks fail by their expressions only. -/
theorem Block.eval_eq_error_iff {block : Block} :
    block.eval machine haltAddress = .error access ↔ block.Fails machine haltAddress access := by
  rw [Block.eval, bind_eq_error_iff, foldlM_eq_error_iff]
  simp only [Stmt.eval_eq_error_iff, bind_eq_error_iff, Terminator.eval_eq_error_iff, pure_eq_ok,
    reduceCtorEq, and_false, exists_false, or_false]
  constructor
  · rintro (⟨before, stmt, later, frame, split, earlier, fails⟩ | ⟨frame, worked, fails⟩)
    · exact .stmt split earlier fails
    · exact .terminator worked fails
  · intro fails
    cases fails with
    | stmt split earlier fails => exact .inl ⟨_, _, _, _, split, earlier, fails⟩
    | terminator worked fails => exact .inr ⟨_, worked, fails⟩

/-- An access that a terminator fails with lies outside memory. -/
theorem Terminator.Fails.covers {terminator : Terminator}
    (failed : terminator.Fails machine haltAddress temps access) :
    machine.covers access = false := by
  cases failed with
  | left fails | right first fails | target fails | value fails | address first fails
  | offset first second onward fails => exact Expr.covers_of_eval_eq_error fails

/-- An access that a block fails with lies outside memory. -/
theorem Block.Fails.covers {block : Block} (failed : block.Fails machine haltAddress access) :
    machine.covers access = false := by
  cases failed with
  | stmt split earlier fails => exact Expr.covers_of_eval_eq_error fails
  | terminator worked fails => exact fails.covers

end Failing

section Entering

variable {machine : Machine} {haltAddress : Word} {temps : Temps} {access : Access}

/-- A terminator stores a value at an access if it is a store whose address is not the halt
address. -/
inductive Terminator.Stores (machine : Machine) (haltAddress : Word) (temps : Temps)
    (stored : Word) : Access → Terminator → Prop where
  | intro {width address offset value place start} (first : value.eval machine temps = .ok stored)
    (second : address.eval machine temps = .ok place) (onward : place ≠ haltAddress)
    (third : offset.eval machine temps = .ok start) :
    Stores machine haltAddress temps stored ⟨start, width⟩ (.haltOrStore width address offset value)

/-- Terminators ask for no other stores. -/
theorem Terminator.eval_eq_store_iff {stored : Word} {terminator : Terminator} :
    terminator.eval machine haltAddress temps = .ok (.store access stored) ↔
      terminator.Stores machine haltAddress temps stored access := by
  constructor
  · intro asks
    cases terminator with
    | «fallthrough» | jump target => cases asks
    | branch cond left right target =>
      obtain ⟨leftValue, -, later⟩ := exists_ok_of_bind_eq_ok asks
      obtain ⟨rightValue, -, decided⟩ := exists_ok_of_bind_eq_ok later
      split at decided <;> cases decided
    | dispatch target =>
      obtain ⟨place, -, decided⟩ := exists_ok_of_bind_eq_ok asks
      cases decided
    | haltOrStore width address offset value =>
      obtain ⟨result, first, later⟩ := exists_ok_of_bind_eq_ok asks
      obtain ⟨place, second, last⟩ := exists_ok_of_bind_eq_ok later
      split at last
      · cases last
      · rename_i onward
        obtain ⟨start, third, decided⟩ := exists_ok_of_bind_eq_ok last
        cases decided
        exact .intro first second onward third
  · intro stores
    cases stores with
    | intro first second onward third =>
      simp only [eval, first, second, third, onward, if_false, ok_bind, pure_eq_ok]

/-- What entering a block comes to. -/
inductive Program.Entering (program : Program) (block : Block) (machine : Machine) :
    Step → Prop where
  /-- An expression makes an access outside memory. -/
  | failed {access : Access} (fails : block.Fails machine program.haltAddress access) :
    Entering program block machine (.faulted ⟨block.pc, access⟩ machine)
  /-- Control goes on without a store. -/
  | passed {frame : Frame} {index : Nat} (worked : block.WorksOut machine frame) :
    Entering program block machine (.next ⟨index, machine.writeBack frame.writeback⟩)
  /-- The store hits the halt address. -/
  | halted {frame : Frame} {value : Word} (worked : block.WorksOut machine frame) :
    Entering program block machine (.halted value (machine.writeBack frame.writeback))
  /-- The store is carried out. -/
  | stored {frame : Frame} {access : Access} {value : Word} {written : Machine} {index : Nat}
    (worked : block.WorksOut machine frame)
    (stores : block.terminator.Stores machine program.haltAddress frame.temps value access)
    (done : (machine.writeBack frame.writeback).store? access value = some written) :
    Entering program block machine (.next ⟨index, written⟩)
  /-- The store lies outside memory. -/
  | refused {frame : Frame} {access : Access} {value : Word}
    (worked : block.WorksOut machine frame)
    (stores : block.terminator.Stores machine program.haltAddress frame.temps value access)
    (outside : (machine.writeBack frame.writeback).store? access value = none) :
    Entering program block machine
      (.faulted ⟨block.pc, access⟩ (machine.writeBack frame.writeback))

/-- Entering a block comes to one of these. -/
theorem Program.entering_step (program : Program) (block : Block) (index : Nat)
    (machine : Machine) :
    program.Entering block machine (program.step block index machine) := by
  rw [Program.step]
  cases evaluated : block.eval machine program.haltAddress with
  | error access => exact .failed (Block.eval_eq_error_iff.1 evaluated)
  | ok result =>
    obtain ⟨frame, worked, later⟩ := exists_ok_of_bind_eq_ok evaluated
    obtain ⟨transfer, asks, given⟩ := exists_ok_of_bind_eq_ok later
    cases given
    cases transfer with
    | next => exact .passed worked
    | jump target => exact .passed worked
    | halt value => exact .halted worked
    | store access value =>
      have stores := Terminator.eval_eq_store_iff.1 asks
      simp only
      cases done : (machine.writeBack frame.writeback).store? access value with
      | some written => exact .stored worked stores done
      | none => exact .refused worked stores done

end Entering

section Changes

variable {program : Program} {block : Block} {machine : Machine} {haltAddress : Word}
  {temps : Temps} {access : Access} {step : Step} {frame : Frame}

/-- The register that the last register write of a block names. -/
def Block.lastWrite? (block : Block) : Option Reg :=
  (block.stmts.filterMap Stmt.writes?).getLast?

/-- What entering a block does to a machine, whatever its statements and terminator are. -/
structure Block.Confines (block : Block) (haltAddress : Word) (machine : Machine) (step : Step) :
    Prop where
  /-- No register but the one written last has another value, and not if it is `x0`. -/
  register : ∀ reg, step.machine.reg reg ≠ machine.reg reg →
    block.lastWrite? = some reg ∧ reg ≠ Reg.zero
  /-- Memory keeps its size. -/
  size : step.machine.memory.size = machine.memory.size
  /-- No byte of memory has another value but those of one access inside memory that the terminator
  stores at. -/
  memory : step.machine.memory = machine.memory ∨ ∃ frame stored access,
    block.WorksOut machine frame ∧
    block.terminator.Stores machine haltAddress frame.temps stored access ∧
    access.offset.toNat + access.width.bytes ≤ machine.memory.size ∧
    ∀ position, position < access.offset.toNat ∨
        access.offset.toNat + access.width.bytes ≤ position →
      Bytes.byteAt step.machine.memory position = Bytes.byteAt machine.memory position
  /-- A block that halts the program leaves memory alone. -/
  halted : ∀ value final, step = .halted value final → final.memory = machine.memory
  /-- A block with an expression that fails changes nothing. -/
  failed : ∀ access, block.Fails machine haltAddress access →
    step = .faulted ⟨block.pc, access⟩ machine
  /-- A block that makes an access outside memory leaves memory alone, and registers as well unless
  it is the access of its store. -/
  faulted : ∀ fault final, step = .faulted fault final →
    fault.pc = block.pc ∧
    machine.memory.size < fault.access.offset.toNat + fault.access.width.bytes ∧
    final.memory = machine.memory ∧
    (block.Fails machine haltAddress fault.access ∧ final = machine ∨ ∃ frame stored,
      block.WorksOut machine frame ∧
      block.terminator.Stores machine haltAddress frame.temps stored fault.access)

/-- The register write that is due after statements is that of the last statement that writes a
register, or the one that was due before. -/
theorem map_fst_writeback {stmts : List Stmt} {start : Frame}
    (worked : stmts.foldlM (Stmt.eval machine) start = .ok frame) :
    frame.writeback.map Prod.fst =
      (stmts.filterMap Stmt.writes?).getLast?.or (start.writeback.map Prod.fst) := by
  induction stmts generalizing start with
  | nil =>
    cases worked
    rfl
  | cons stmt rest hypothesis =>
    obtain ⟨next, first, later⟩ := exists_ok_of_bind_eq_ok worked
    rw [hypothesis later]
    cases stmt with
    | define temp value =>
      obtain ⟨result, -, given⟩ := exists_ok_of_bind_eq_ok first
      cases given
      rfl
    | write rd value =>
      obtain ⟨result, -, given⟩ := exists_ok_of_bind_eq_ok first
      cases given
      rw [List.filterMap_cons_some (show Stmt.writes? (.write rd value) = some rd from rfl),
        List.getLast?_cons]
      cases (rest.filterMap Stmt.writes?).getLast? <;> rfl

/-- A register that a write-back changes is the one that the block writes last, and not `x0`. -/
theorem Block.WorksOut.register (worked : block.WorksOut machine frame) {reg : Reg}
    (changed : (machine.writeBack frame.writeback).reg reg ≠ machine.reg reg) :
    block.lastWrite? = some reg ∧ reg ≠ Reg.zero := by
  have due : frame.writeback.map Prod.fst = block.lastWrite? :=
    (map_fst_writeback worked).trans (Option.or_none ..)
  cases writeback : frame.writeback with
  | none =>
    rw [writeback] at changed
    exact absurd rfl changed
  | some write =>
    rw [writeback] at due changed
    rw [Machine.writeBack, Machine.reg_setReg] at changed
    split at changed
    · rename_i written
      exact ⟨by rw [← due, written.1]; rfl, written.1 ▸ written.2⟩
    · exact absurd rfl changed

/-- A write-back leaves memory alone. -/
@[simp] theorem Machine.memory_writeBack (machine : Machine) (writeback : Option (Reg × Word)) :
    (machine.writeBack writeback).memory = machine.memory := by
  cases writeback with
  | none => rfl
  | some write => exact memory_setReg ..

/-- A store is refused exactly if it lies outside memory. -/
theorem Machine.store?_eq_none_iff {value : Word} :
    machine.store? access value = none ↔
      machine.memory.size < access.offset.toNat + access.width.bytes := by
  rw [store?, ← covers_eq_false_iff]
  cases machine.covers access <;> simp

/-- A store that is carried out lies inside memory and writes its bytes there. -/
theorem Machine.store?_eq_some_iff {written : Machine} {value : Word} :
    machine.store? access value = some written ↔
      access.offset.toNat + access.width.bytes ≤ machine.memory.size ∧
        written = { machine with
          memory := Bytes.writeLittle machine.memory access.offset.toNat access.width.bytes
            value.toNat } := by
  rw [store?, ← Nat.not_lt, ← covers_eq_false_iff]
  cases machine.covers access <;> simp [eq_comm]

namespace Program.Entering

variable (entered : program.Entering block machine step)
include entered

/-- The register that entering a block changes. -/
theorem register {reg : Reg} (changed : step.machine.reg reg ≠ machine.reg reg) :
    block.lastWrite? = some reg ∧ reg ≠ Reg.zero := by
  cases entered with
  | failed fails => exact absurd rfl changed
  | passed worked | halted worked | refused worked stores outside => exact worked.register changed
  | stored worked stores done =>
    obtain ⟨-, rfl⟩ := Machine.store?_eq_some_iff.1 done
    exact worked.register changed

/-- Without a store, memory stays as it is. -/
theorem memory_eq_or_stored :
    step.machine.memory = machine.memory ∨ ∃ frame stored access,
      block.WorksOut machine frame ∧
      block.terminator.Stores machine program.haltAddress frame.temps stored access ∧
      access.offset.toNat + access.width.bytes ≤ machine.memory.size ∧
      step.machine.memory = Bytes.writeLittle machine.memory access.offset.toNat
        access.width.bytes stored.toNat := by
  cases entered with
  | failed fails => exact .inl rfl
  | passed worked | halted worked | refused worked stores outside =>
    exact .inl (Machine.memory_writeBack ..)
  | @stored frame access value written index worked stores done =>
    obtain ⟨inside, rfl⟩ := Machine.store?_eq_some_iff.1 done
    rw [Machine.memory_writeBack] at inside
    refine .inr ⟨frame, value, access, worked, stores, inside, ?_⟩
    rw [Step.machine, Machine.memory_writeBack]

/-- A block that does not go on leaves memory as it is. -/
theorem memory_of_ended (ended : ∀ state, step ≠ .next state) :
    step.machine.memory = machine.memory := by
  cases entered with
  | failed fails => rfl
  | halted worked | refused worked stores outside => exact Machine.memory_writeBack ..
  | passed worked | stored worked stores done => exact absurd rfl (ended _)

/-- The access outside memory that a block makes is that of an expression, which changes nothing, or
that of its store. -/
theorem fault {fault : Fault} {final : Machine} (faulted : step = .faulted fault final) :
    fault.pc = block.pc ∧
    machine.memory.size < fault.access.offset.toNat + fault.access.width.bytes ∧
    (block.Fails machine program.haltAddress fault.access ∧ final = machine ∨ ∃ frame stored,
      block.WorksOut machine frame ∧
      block.terminator.Stores machine program.haltAddress frame.temps stored fault.access) := by
  cases entered with
  | failed fails =>
    cases faulted
    exact ⟨rfl, Machine.covers_eq_false_iff.1 fails.covers, .inl ⟨fails, rfl⟩⟩
  | @refused frame access value worked stores outside =>
    cases faulted
    rw [Machine.store?_eq_none_iff, Machine.memory_writeBack] at outside
    exact ⟨rfl, outside, .inr ⟨frame, value, worked, stores⟩⟩
  | passed worked | halted worked | stored worked stores done => cases faulted

end Program.Entering

/-- Entering a block changes no more than that. -/
theorem Program.confines_step (program : Program) (block : Block) (index : Nat)
    (machine : Machine) :
    block.Confines program.haltAddress machine (program.step block index machine) := by
  have entered := program.entering_step block index machine
  refine
    { register := fun reg changed => entered.register changed
      size := ?size
      memory := ?memory
      halted := ?halted
      failed := ?failed
      faulted := ?faulted }
  case size =>
    rcases entered.memory_eq_or_stored with same | ⟨frame, stored, access, -, -, -, written⟩
    · rw [same]
    · rw [written, Bytes.size_writeLittle]
  case memory =>
    refine entered.memory_eq_or_stored.imp_right ?_
    rintro ⟨frame, stored, access, worked, stores, inside, written⟩
    refine ⟨frame, stored, access, worked, stores, inside, fun position apart => ?_⟩
    rw [written, Bytes.byteAt_writeLittle, if_neg (by omega)]
  case halted =>
    intro value final halts
    have kept := entered.memory_of_ended (by simp [halts])
    rwa [halts] at kept
  case failed =>
    intro access fails
    simp only [step, Block.eval_eq_error_iff.2 fails]
  case faulted =>
    intro fault final faults
    obtain ⟨place, outside, cause⟩ := entered.fault faults
    have kept := entered.memory_of_ended (by simp [faults])
    rw [faults] at kept
    exact ⟨place, outside, kept, cause⟩

/-- Entering a block leaves `x0` as it is. -/
theorem Block.Confines.reg_zero (confines : block.Confines haltAddress machine step) :
    step.machine.reg Reg.zero = machine.reg Reg.zero := by
  by_contra changed
  exact (confines.register Reg.zero changed).2 rfl

/-- A block that goes on leaves `x0` as it is. -/
theorem Program.reg_zero_of_step {index : Nat} {state : State}
    (stepped : program.step block index machine = .next state) :
    state.machine.reg Reg.zero = machine.reg Reg.zero := by
  have kept := (program.confines_step block index machine).reg_zero
  rwa [stepped] at kept

end Changes

end RvLift
