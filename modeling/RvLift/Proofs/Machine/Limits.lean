import Mathlib
import RvLift.Proofs.Machine.Progress

/-!
# Limits of runs

The limit of a run says how many blocks it may enter. It cuts a run short and does nothing else: a
run that ends by itself ends in the same way under every larger limit, and one that is cut short is
cut short under every smaller limit as well, with the machine that stands after as many blocks.

The blocks entered can be counted in 64 bits. The limit is met before the counter could pass its
largest value, even if the limit is that value.
-/

namespace RvLift

/-- The machine that entering a block leaves. -/
def Step.machine : Step → Machine
  | .next state => state.machine
  | .halted _ machine | .faulted _ machine => machine

namespace Program

section Endings

variable {program : Program} {limit remaining : Nat} {state last : State}
  {ended : RunResult × Machine}

/-- A run that has not been cut short ends in the same way if it may enter more blocks. -/
theorem Ending.of_le {larger more : Nat} (ending : program.Ending limit remaining state ended)
    (within : remaining ≤ more) (finished : ∀ allowed, ended.1 ≠ .error (.stepLimit allowed)) :
    program.Ending larger more state ended := by
  cases ending with
  | fellThrough reached early past => exact .fellThrough reached (early.trans within) past
  | stopped reached present => exact absurd rfl (finished limit)
  | halted reached early present stepped =>
    exact .halted reached (early.trans_le within) present stepped
  | faulted reached early present stepped =>
    exact .faulted reached (early.trans_le within) present stepped

variable (program) in
/-- Entering blocks goes on from the state that the first of them lead to. -/
theorem after_add (first second : Nat) (state : State) :
    program.after (first + second) state =
      (program.after first state).bind (program.after second) := by
  induction first generalizing state with
  | zero => rw [Nat.zero_add, after, Option.bind_some]
  | succ first hypothesis =>
    rw [Nat.add_right_comm, after, after]
    split
    · rfl
    · split
      · exact hypothesis _
      · rfl
      · rfl

/-- A run that has a block to enter after some blocks had one after fewer blocks. -/
theorem exists_after_of_le {fewer count : Nat} (within : fewer ≤ count)
    (reached : program.after count state = some last) (inside : last.index < program.blocks.size) :
    ∃ middle, program.after fewer state = some middle ∧ middle.index < program.blocks.size := by
  obtain ⟨extra, rfl⟩ := Nat.exists_eq_add_of_le within
  rw [after_add, Option.bind_eq_some_iff] at reached
  obtain ⟨middle, early, late⟩ := reached
  refine ⟨middle, early, ?_⟩
  cases extra with
  | zero =>
    cases late
    exact inside
  | succ extra =>
    obtain ⟨block, next, present, -, -⟩ := exists_step_of_after late
    exact (Array.getElem?_eq_some_iff.1 present).1

end Endings

section Runs

variable {program : Program} {machine final : Machine} {count limit : Nat}

/-- A run is cut short exactly if there is a block to enter after as many blocks as allowed, and it
leaves the machine that stands there. -/
theorem run_eq_stepLimit_iff {allowed : Nat} :
    program.run limit machine = (.error (.stepLimit allowed), final) ↔
      allowed = limit ∧ ∃ index < program.blocks.size,
        program.after limit (.start machine) = some ⟨index, final⟩ := by
  rw [run_eq_iff_ending]
  constructor
  · intro ending
    cases ending with
    | @stopped last block reached present =>
      exact ⟨rfl, last.index, (Array.getElem?_eq_some_iff.1 present).1, reached⟩
  · rintro ⟨rfl, index, inside, reached⟩
    exact .stopped reached (Array.getElem?_eq_getElem inside)

/-- A run that passes the last block with the last block allowed is not cut short. -/
theorem run_eq_fellThrough_of_after {index : Nat}
    (reached : program.after count (.start machine) = some ⟨index, final⟩)
    (past : program.blocks.size ≤ index) :
    program.run count machine = (.ok .fellThrough, final) :=
  run_eq_iff_ending.2 (.fellThrough reached le_rfl (Array.getElem?_eq_none past))

/-- One more block than before leaves the machine that this block leaves. -/
theorem run_succ_machine {last : State} {block : Block}
    (reached : program.after count (.start machine) = some last)
    (present : program.blocks[last.index]? = some block) :
    (program.run (count + 1) machine).2 =
      (program.step block last.index last.machine).machine := by
  have enters : program.run (count + 1) machine = program.runFrom (count + 1) 1 last :=
    runFrom_after reached 1
  rw [enters, runFrom]
  simp only [present]
  cases program.step block last.index last.machine with
  | next next =>
    obtain ⟨index, machine⟩ := next
    simp only [runFrom, Step.machine]
    cases program.blocks[index]? <;> rfl
  | halted value machine => rfl
  | faulted fault machine => rfl

end Runs

section Counting

/-- Run on from a state with the number of blocks entered in a 64-bit counter. There is no result if
the counter is to be raised past its largest value. -/
def countFrom (program : Program) (limit entered : BitVec 64) (state : State) :
    Option (RunResult × Machine) :=
  match program.blocks[state.index]? with
  | none => some (.ok .fellThrough, state.machine)
  | some block =>
    if entered = limit then some (.error (.stepLimit limit.toNat), state.machine)
    else if entered.toNat + 1 < 2 ^ 64 then
      match program.step block state.index state.machine with
      | .next next => program.countFrom limit (entered + 1) next
      | .halted value machine => some (.ok (.returned value), machine)
      | .faulted fault machine => some (.error (.memoryFault fault), machine)
    else none
termination_by 2 ^ 64 - entered.toNat
decreasing_by
  have raised : (entered + 1).toNat = entered.toNat + 1 := BitVec.toNat_add_of_lt (by assumption)
  omega

/-- Counting the blocks entered comes to the same as counting the blocks left. -/
theorem countFrom_eq_runFrom (program : Program) (limit entered : BitVec 64) (remaining : Nat)
    (state : State) (total : entered.toNat + remaining = limit.toNat) :
    program.countFrom limit entered state =
      some (program.runFrom limit.toNat remaining state) := by
  induction remaining generalizing entered state with
  | zero =>
    have same : entered = limit := BitVec.eq_of_toNat_eq total
    obtain ⟨index, machine⟩ := state
    rw [countFrom, runFrom]
    cases program.blocks[index]? with
    | none => rfl
    | some block => simp only [same, if_true]
  | succ remaining hypothesis =>
    have limited := limit.isLt
    have room : entered.toNat + 1 < 2 ^ 64 := by omega
    have different : entered ≠ limit := by
      rintro rfl
      omega
    have raised : (entered + 1).toNat = entered.toNat + 1 := BitVec.toNat_add_of_lt room
    obtain ⟨index, machine⟩ := state
    rw [countFrom, runFrom]
    cases program.blocks[index]? with
    | none => rfl
    | some block =>
      simp only [different, room, if_true, if_false]
      cases program.step block index machine with
      | next next => exact hypothesis (entered + 1) next (by omega)
      | halted value machine => rfl
      | faulted fault machine => rfl

end Counting

/-- The limit of a run only cuts it short. A run that ends by itself ends in the same way and with
the same machine under a larger limit, and one that is cut short is cut short under a smaller limit.
It is cut short exactly if there is a block to enter after as many blocks as allowed, and leaves the
machine that stands there, to which the next larger limit adds what that block does. A run that
passes the last block just then has ended by itself. Blocks entered can be counted in 64 bits up to
every limit of 64 bits. -/
theorem limit_only_truncates (program : Program) (machine : Machine) :
    (∀ smaller larger, smaller ≤ larger →
      ((∀ allowed, (program.run smaller machine).1 ≠ .error (.stepLimit allowed)) →
        program.run larger machine = program.run smaller machine) ∧
      ((program.run larger machine).1 = .error (.stepLimit larger) →
        (program.run smaller machine).1 = .error (.stepLimit smaller))) ∧
    (∀ limit allowed final,
      program.run limit machine = (.error (.stepLimit allowed), final) ↔
        allowed = limit ∧ ∃ index < program.blocks.size,
          program.after limit (.start machine) = some ⟨index, final⟩) ∧
    (∀ limit index reached block,
      program.after limit (.start machine) = some ⟨index, reached⟩ →
      program.blocks[index]? = some block →
      (program.run (limit + 1) machine).2 = (program.step block index reached).machine) ∧
    (∀ limit index final, program.after limit (.start machine) = some ⟨index, final⟩ →
      program.blocks.size ≤ index → program.run limit machine = (.ok .fellThrough, final)) ∧
    ∀ limit : BitVec 64,
      program.countFrom limit 0 (.start machine) = some (program.run limit.toNat machine) := by
  refine ⟨fun smaller larger within => ⟨fun finished => ?_, fun cut => ?_⟩,
    fun limit allowed final => run_eq_stepLimit_iff,
    fun limit index reached block arrived present => run_succ_machine arrived present,
    fun limit index final arrived past => run_eq_fellThrough_of_after arrived past,
    fun limit => countFrom_eq_runFrom program limit 0 limit.toNat _ (Nat.zero_add _)⟩
  · have ending := run_eq_iff_ending.1 (rfl : program.run smaller machine = _)
    exact run_eq_iff_ending.2 (ending.of_le within finished)
  · obtain ⟨-, index, inside, arrived⟩ := run_eq_stepLimit_iff.1 (Prod.ext cut rfl)
    obtain ⟨middle, earlier, entered⟩ := exists_after_of_le within arrived inside
    exact congrArg Prod.fst (run_eq_stepLimit_iff.2 ⟨rfl, middle.index, entered, earlier⟩)

/-- `addi x1, x0, 5` and `addi x2, x0, 7`: the run is cut short under the limits 0 and 1, passes the
last block under the limit 2, and ends so under the largest limit of 64 bits. -/
theorem limit_only_truncates_two_blocks :
    let image : Image := ⟨0, ⟨#[0x93, 0x00, 0x50, 0x00, 0x13, 0x01, 0x70, 0x00]⟩⟩
    let program := image.lift { base := 0 }
    let machine := Machine.ofMemory ⟨#[]⟩
    (program.run 1 machine).1 = .error (.stepLimit 1) ∧
      (program.run 0 machine).1 = .error (.stepLimit 0) ∧
      ∃ final, program.run 2 machine = (.ok .fellThrough, final) ∧
        program.countFrom (BitVec.allOnes 64) 0 (.start machine) =
          some (.ok .fellThrough, final) := by
  intro image program machine
  obtain ⟨monotone, -, -, passes, counted⟩ := limit_only_truncates program machine
  have cut : (program.run 1 machine).1 = .error (.stepLimit 1) := by decide +kernel
  have arrives : (program.after 2 (.start machine)).map State.index = some 2 := by decide +kernel
  obtain ⟨⟨index, final⟩, arrived, rfl⟩ := Option.map_eq_some_iff.1 arrives
  have size : program.blocks.size = 2 := by decide +kernel
  have passed : program.run 2 machine = (.ok .fellThrough, final) :=
    passes 2 _ final arrived size.le
  have finished (allowed : Nat) : (program.run 2 machine).1 ≠ .error (.stepLimit allowed) := by
    rw [passed]
    exact nofun
  have most : 2 ≤ (BitVec.allOnes 64).toNat := by decide
  refine ⟨cut, (monotone 0 1 (by decide)).2 cut, final, passed, ?_⟩
  rw [counted, (monotone 2 _ most).1 finished, passed]

end Program

end RvLift
